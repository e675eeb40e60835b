/-
From the text of a stream to its tokens.

Blocks are told apart by indentation, so the scan keeps the columns of the open ones and ends a
block when the text goes back to the left of it.  A key is told from a value only by the colon
after it: every token that may be a key is remembered, one for each level of brackets, until
its line or its 1024 characters are over.  When the colon comes, the number of that token is
noted, and the marks that begin a key are put in front of it at the very end.  A candidate that
stands where only a key can stand must not run out.

A scan that cannot go on ends in a fault.  No token from the first open candidate on is given
out then, because what stands in front of it is not known.
-/
import Semicolon.Yaml.Lexeme

namespace Semicolon.Yaml

/-- A token that is a key if a colon follows in time. -/
structure Candidate where
  /-- The number of tokens before it. -/
  number : Nat
  /-- Nothing but a key can stand there. -/
  required : Bool
  index : Nat
  line : Nat
  column : Nat
  deriving DecidableEq, Repr

/-- The state of the scan. -/
structure Stream where
  place : Cursor
  /-- How many brackets are open. -/
  flow : Nat := 0
  /-- The column of the innermost open block. -/
  indent : Int := -1
  /-- The columns of the blocks around it, the nearest first. -/
  outer : List Int := []
  /-- May a key start here? -/
  keyAllowed : Bool := true
  /-- The candidates, each with its level of brackets. -/
  candidates : List (Nat × Candidate) := []
  tokens : Array Token := #[]
  /-- The numbers of the tokens that are keys; `true` for those that start a mapping as well. -/
  keys : List (Nat × Bool) := []

namespace Stream

/-- Adds a token. -/
def emit (s : Stream) (t : Token) : Stream := { s with tokens := s.tokens.push t }

/-- Moves on by `k` characters. -/
def advance (s : Stream) (k : Nat) : Stream := { s with place := s.place.skip k }

/-! ### Candidates -/

/-- The longest key. -/
def maxKey : Nat := 1024

/-- Has the candidate run out at this place? -/
def isStale (c : Cursor) (k : Candidate) : Bool := k.line ≠ c.line || c.index - k.index > maxKey

/-- Drops the candidates that have run out. -/
def dropStale (s : Stream) : Except Problem Stream :=
  if s.candidates.any fun e => isStale s.place e.2 && e.2.required then .error .malformed
  else .ok { s with candidates := s.candidates.filter fun e => !isStale s.place e.2 }

/-- Drops the candidate of the present level. -/
def dropCandidate (s : Stream) : Except Problem Stream :=
  match s.candidates.lookup s.flow with
  | none => .ok s
  | some k =>
    if k.required then .error .malformed
    else .ok { s with candidates := s.candidates.filter fun e => e.1 ≠ s.flow }

/-- Makes the next token a candidate, if a key may start here. -/
def saveCandidate (s : Stream) : Except Problem Stream :=
  if s.keyAllowed then do
    let required := s.flow = 0 && s.indent = (s.place.column : Int)
    let s ← s.dropCandidate
    let k : Candidate :=
      { number := s.tokens.size, required, index := s.place.index, line := s.place.line
        column := s.place.column }
    .ok { s with candidates := (s.flow, k) :: s.candidates }
  else .ok s

/-! ### Indentation -/

/-- Ends the blocks to the right of a column. -/
def endBlocks (column : Int) : (outer : List Int) → Stream → Stream
  | [], s => s
  | next :: rest, s =>
    if s.indent > column then
      endBlocks column rest ({ s with indent := next, outer := rest }.emit .blockEnd)
    else s

/-- Ends the blocks to the right of a column, unless brackets are open. -/
def unwind (s : Stream) (column : Int) : Stream :=
  if s.flow > 0 then s else endBlocks column s.outer s

/-- Opens a block at a column, if it is to the right of the open ones; says whether it did. -/
def openBlock (s : Stream) (column : Nat) : Stream × Bool :=
  if s.indent < column then ({ s with outer := s.indent :: s.outer, indent := column }, true)
  else (s, false)

/-- Opens a block outside of brackets, with its token. -/
def startBlock (s : Stream) (t : Token) : Stream :=
  if s.flow > 0 then s
  else
    match s.openBlock s.place.column with
    | (s, true) => s.emit t
    | (s, false) => s

/-! ### Between tokens -/

/-- How many characters of spaces, comments and line ends come first, and whether a line ends
among them.  `comment` says that a comment has begun. -/
def blanks : (comment : Bool) → List Char → Nat × Bool
  | _, [] => (0, false)
  | comment, a :: rest =>
    if isBreak a then ((blanks false rest).1 + 1, true)
    else if comment || a = ' ' || a = '#' then
      let (n, broke) := blanks (comment || a = '#') rest
      (n + 1, broke)
    else (0, false)

/-- Goes to the next token; a byte order mark may come before the first one.  A key may start on a
new line outside of brackets. -/
def skipBlanks (s : Stream) : Stream :=
  let s := if s.place.index = 0 && s.place.head = some '\uFEFF' then s.advance 1 else s
  let (n, broke) := blanks false s.place.rest
  { s.advance n with keyAllowed := s.keyAllowed || (broke && s.flow = 0) }

/-! ### Tokens of one character -/

/-- The end of the stream. -/
def finish (s : Stream) : Except Problem Stream := (s.unwind (-1)).dropCandidate

/-- A mark that starts or ends a document. -/
def documentMark (s : Stream) (t : Token) : Except Problem Stream := do
  let s ← (s.unwind (-1)).dropCandidate
  .ok ({ s with keyAllowed := false }.advance 3 |>.emit t)

/-- An opening bracket, which may start a key. -/
def openFlow (s : Stream) (t : Token) : Except Problem Stream := do
  let s ← s.saveCandidate
  .ok ({ s with flow := s.flow + 1, keyAllowed := true }.advance 1 |>.emit t)

/-- A closing bracket, which must have been opened. -/
def closeFlow (s : Stream) (t : Token) : Except Problem Stream := do
  let s ← s.dropCandidate
  if s.flow = 0 then .error .malformed
  else .ok ({ s with flow := s.flow - 1, keyAllowed := false }.advance 1 |>.emit t)

/-- A comma between brackets. -/
def flowEntry (s : Stream) : Except Problem Stream := do
  let s ← { s with keyAllowed := true }.dropCandidate
  .ok (s.advance 1 |>.emit .flowEntry)

/-- The hyphen of an entry. -/
def blockEntry (s : Stream) : Except Problem Stream := do
  if s.flow = 0 && !s.keyAllowed then .error .malformed
  else
    let s ← { s.startBlock .blockSequenceStart with keyAllowed := true }.dropCandidate
    .ok (s.advance 1 |>.emit .blockEntry)

/-- The question mark of a key. -/
def explicitKey (s : Stream) : Except Problem Stream := do
  if s.flow = 0 && !s.keyAllowed then .error .malformed
  else
    let s ← { s.startBlock .blockMappingStart with keyAllowed := s.flow = 0 }.dropCandidate
    .ok (s.advance 1 |>.emit .key)

/-- The colon of a value.  It turns the candidate of its level into a key, which may open a
mapping at its own column. -/
def value (s : Stream) : Except Problem Stream :=
  match s.candidates.lookup s.flow with
  | some k =>
    let s := { s with candidates := s.candidates.filter fun e => e.1 ≠ s.flow }
    let (s, opened) := if s.flow = 0 then s.openBlock k.column else (s, false)
    .ok ({ s with keys := (k.number, opened) :: s.keys, keyAllowed := false }.advance 1
      |>.emit .value)
  | none => do
    if s.flow = 0 && !s.keyAllowed then .error .malformed
    else
      let s ← { s.startBlock .blockMappingStart with keyAllowed := s.flow = 0 }.dropCandidate
      .ok (s.advance 1 |>.emit .value)

/-! ### Longer tokens -/

/-- A token that may be a key, after which no other key may start on the same line. -/
def content (s : Stream) (read : Cursor → Except Problem (Token × Cursor)) :
    Except Problem Stream := do
  let s ← s.saveCandidate
  let (t, place) ← read s.place
  .ok ({ s with place, keyAllowed := false }.emit t)

/-- A scalar without quotation marks.  If it ends at the start of a line, a key may start there. -/
def plain (s : Stream) : Except Problem Stream := do
  let s ← s.saveCandidate
  let (text, fresh, place) := Lexeme.plain (s.flow > 0) (s.indent + 1) s.place
  .ok ({ s with place, keyAllowed := fresh }.emit (.scalar text true))

/-- A block scalar, after which a key may start. -/
def blockScalar (s : Stream) (fold : Bool) : Except Problem Stream := do
  let s ← { s with keyAllowed := true }.dropCandidate
  let (text, place) ← Lexeme.block fold s.indent s.place
  .ok ({ s with place }.emit (.scalar text false))

/-- A directive. -/
def directive (s : Stream) : Except Problem Stream := do
  let s ← (s.unwind (-1)).dropCandidate
  let (d, place) ← Lexeme.directive s.place
  .ok ({ s with place, keyAllowed := false }.emit (.directive d))

/-- May a scalar without quotation marks start with this character, given the one after it? -/
def startsPlain (flow : Bool) (a : Char) (next : Option Char) : Bool :=
  !(endsWord (some a) || "-?:,[]\x7b\x7d#&*!|>'\"%@`".toList.contains a)
    || (!endsWord next && (a = '-' || (!flow && (a = '?' || a = ':'))))

/-- The next token, which starts with the character `a`. -/
def token (s : Stream) (a : Char) : Except Problem Stream :=
  let c := s.place
  let flow : Bool := s.flow > 0
  let ends := endsWord (c.peek 1)
  if a = '%' && c.column = 0 then s.directive
  else if c.column = 0 && c.isMark '-' then s.documentMark .documentStart
  else if c.column = 0 && c.isMark '.' then s.documentMark .documentEnd
  else if a = '[' then s.openFlow .flowSequenceStart
  else if a = '\x7b' then s.openFlow .flowMappingStart
  else if a = ']' then s.closeFlow .flowSequenceEnd
  else if a = '\x7d' then s.closeFlow .flowMappingEnd
  else if a = ',' then s.flowEntry
  else if a = '-' && ends then s.blockEntry
  else if a = '?' && (flow || ends) then s.explicitKey
  else if a = ':' && (flow || ends) then s.value
  else if a = '*' then
    s.content fun c => (Lexeme.anchor c).map fun (n, c) => (.alias n, c)
  else if a = '&' then
    s.content fun c => (Lexeme.anchor c).map fun (n, c) => (.anchor n, c)
  else if a = '!' then
    s.content fun c => (Lexeme.tag c).map fun ((h, suffix), c) => (.tag h suffix, c)
  else if a = '|' && !flow then s.blockScalar false
  else if a = '>' && !flow then s.blockScalar true
  else if a = '\'' || a = '"' then
    s.content fun c => (Lexeme.quoted (a = '"') c).map fun (text, c) => (.scalar text false, c)
  else if startsPlain flow a (c.peek 1) then s.plain
  else .error .malformed

/-- Goes on to the next token and reads it.  Also whether the stream ended instead. -/
def step (s : Stream) : Except Problem (Stream × Bool) := do
  let s ← s.skipBlanks.dropStale
  let s := s.unwind s.place.column
  match s.place.head with
  | none => .ok (← s.finish, true)
  | some a => .ok (← s.token a, false)

/-- Reads tokens to the end of the stream, or until there is a problem.  Every token takes at least
one character. -/
def run : (fuel : Nat) → Stream → Stream × Option Problem
  | 0, s => (s, some .malformed)
  | fuel + 1, s =>
    match s.step with
    | .error p => (s, some p)
    | .ok (s, true) => (s, none)
    | .ok (s, false) => run fuel s

/-- How many tokens are certain: those before the first candidate that is still open. -/
def certain (s : Stream) : Nat :=
  s.candidates.foldl (fun least e => if isStale s.place e.2 then least else min least e.2.number)
    s.tokens.size

/-- The tokens with the marks of the keys put in, where the first token has number `n`. -/
def spliced (keys : List (Nat × Bool)) : (n : Nat) → List Token → List Token
  | _, [] => []
  | n, t :: rest =>
    let mark := match keys.lookup n with
      | some true => [Token.blockMappingStart, .key]
      | some false => [.key]
      | none => []
    mark ++ t :: spliced keys (n + 1) rest

end Stream

/-- The tokens of a stream.  A character that no stream may hold spoils all of it. -/
def tokens (text : List Char) : List Token :=
  if text.all isStreamChar then
    match Stream.run (text.length + 1) { place := { rest := text } } with
    | (s, none) => Stream.spliced s.keys 0 s.tokens.toList
    | (s, some p) => Stream.spliced s.keys 0 (s.tokens.toList.take s.certain) ++ [.fault p]
  else [.fault .malformed]

end Semicolon.Yaml
