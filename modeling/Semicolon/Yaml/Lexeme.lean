/-
The tokens that take more than one character to read: directives, names, tags and scalars.

Each reader starts at the first character of its token and gives what it read and the place
after it.  Loops go on as long as characters are consumed, so the length of the text that is
left is always fuel enough.
-/
import Semicolon.Yaml.Token
import Semicolon.Yaml.Scalar

namespace Semicolon.Yaml.Lexeme

open Scalar (isDigit number)

/-! ### Names and tags -/

/-- A name, which must not be empty. -/
def name (c : Cursor) : Except Problem (String × Cursor) :=
  let cs := c.takeWhile isNameChar
  if cs.isEmpty then .error .malformed else .ok (String.ofList cs, c.skip cs.length)

/-- The name of an anchor or an alias, after its mark.  What follows must end it. -/
def anchor (c : Cursor) : Except Problem (String × Cursor) := do
  let (text, c) ← name c.next
  if endsWord c.head || c.head.any (fun a => "?:,]\x7d%@`".toList.contains a) then .ok (text, c)
  else .error .malformed

/-- A character of a tag that stands for itself. -/
def isUriChar (c : Char) : Bool := isNameChar c || ";/?:@&=+$,.!~*'()[]".toList.contains c

/-- The bytes written as escapes from here on. -/
def escapedBytes : (fuel : Nat) → Cursor → Except Problem (Bytes × Cursor)
  | 0, c => .ok ([], c)
  | fuel + 1, c =>
    match c.rest with
    | '%' :: a :: b :: _ =>
      if isHexDigit a && isHexDigit b then do
        let (bs, c) ← escapedBytes fuel (c.skip 3)
        .ok ((number 16 [a, b]).toUInt8 :: bs, c)
      else .error .malformed
    | '%' :: _ => .error .malformed
    | _ => .ok ([], c)

/-- The text of a tag: plain characters, and escapes that spell characters. -/
def uriFrom : (fuel : Nat) → Cursor → Except Problem (List Char × Cursor)
  | 0, c => .ok ([], c)
  | fuel + 1, c =>
    match c.head with
    | some '%' => do
      let (bs, c) ← escapedBytes c.rest.length c
      match Utf8.decodeStrict bs with
      | .error _ => .error .malformed
      | .ok cs =>
        let (rest, c) ← uriFrom fuel c
        .ok (cs ++ rest, c)
    | some a =>
      if isUriChar a then do
        let (rest, c) ← uriFrom fuel c.next
        .ok (a :: rest, c)
      else .ok ([], c)
    | none => .ok ([], c)

/-- The text of a tag, which must not be empty. -/
def uri (c : Cursor) : Except Problem (String × Cursor) :=
  if c.head.any fun a => isUriChar a || a = '%' then
    (uriFrom c.rest.length c).map fun (cs, c) => (String.ofList cs, c)
  else .error .malformed

/-- A handle: an exclamation mark alone before a space, or a name between two of them. -/
def handle (c : Cursor) : Except Problem (String × Cursor) :=
  if c.head ≠ some '!' then .error .malformed
  else if c.peek 1 = some ' ' then .ok ("!", c.next)
  else
    let cs := c.next.takeWhile isNameChar
    if c.peek (1 + cs.length) = some '!' then
      .ok (String.ofList ('!' :: cs ++ ['!']), c.skip (cs.length + 2))
    else .error .malformed

/-- A tag: its handle, if it has one, and the rest of it. -/
def tag (c : Cursor) : Except Problem ((Option String × String) × Cursor) := do
  let ((h, suffix), c) ←
    if c.peek 1 = some '<' then do
      let (suffix, c) ← uri (c.skip 2)
      if c.head = some '>' then .ok ((none, suffix), c.next) else .error .malformed
    else if endsWord (c.peek 1) then .ok ((none, "!"), c.next)
    else do
      let word := (c.rest.drop 1).takeWhile fun a => !endsEntry (some a)
      let (h, c) ← if word.contains '!' then handle c else .ok ("!", c.next)
      let (suffix, c) ← uri c
      .ok ((some h, suffix), c)
  if endsEntry c.head then .ok ((h, suffix), c) else .error .malformed

/-! ### Directives -/

/-- The rest of a line that holds nothing but a comment, and its break. -/
def restOfLine (c : Cursor) : Except Problem Cursor :=
  let c := c.skipWhile (· = ' ')
  let c := if c.head = some '#' then c.skipWhile (fun a => !isBreak a) else c
  if endsLine c.head then .ok c.lineBreak.2 else .error .malformed

/-- A number in a directive. -/
def directiveNumber (c : Cursor) : Except Problem (Nat × Cursor) :=
  let cs := c.takeWhile isDigit
  if cs.isEmpty then .error .malformed
  else if cs.length > maxDigits then .error (.tooManyDigits cs.length)
  else .ok (number 10 cs, c.skip cs.length)

/-- A directive with its line. -/
def directive (c : Cursor) : Except Problem (Directive × Cursor) := do
  let (kind, c) ← name c.next
  if !endsEntry c.head then .error .malformed
  else do
    let (d, c) ←
      if kind = "YAML" then do
        let (major, c) ← directiveNumber (c.skipWhile (· = ' '))
        if c.head ≠ some '.' then .error .malformed
        else do
          let (_, c) ← directiveNumber c.next
          if endsEntry c.head then .ok (Directive.version major, c) else .error .malformed
      else if kind = "TAG" then do
        let (h, c) ← handle (c.skipWhile (· = ' '))
        if c.head ≠ some ' ' then .error .malformed
        else do
          let (root, c) ← uri (c.skipWhile (· = ' '))
          if endsEntry c.head then .ok (Directive.handle h root, c) else .error .malformed
      else .ok (Directive.reserved, c.skipWhile (fun a => !isBreak a))
    let c ← restOfLine c
    .ok (d, c)

/-! ### Scalars in quotation marks -/

/-- What a letter stands for after a backslash. -/
def escapes : List (Char × Char) :=
  [('0', '\x00'), ('a', '\x07'), ('b', '\x08'), ('t', '\t'), ('\t', '\t'), ('n', '\n'),
    ('v', '\x0b'), ('f', '\x0c'), ('r', '\r'), ('e', '\x1b'), (' ', ' '), ('"', '"'),
    ('\\', '\\'), ('/', '/'), ('N', '\u0085'), ('_', '\u00A0'), ('L', '\u2028'), ('P', '\u2029')]

/-- How many hexadecimal digits follow a letter after a backslash. -/
def escapeWidths : List (Char × Nat) := [('x', 2), ('u', 4), ('U', 8)]

/-- Line breaks between two lines of a scalar, blanks around them left out.  A mark that ends a
document must not stand there. -/
def breaksFrom : (fuel : Nat) → Cursor → Except Problem (List Char × Cursor)
  | 0, c => .ok ([], c)
  | fuel + 1, c =>
    if c.isSeparator then .error .malformed
    else
      let c := c.skipWhile fun a => a = ' ' || a = '\t'
      if c.head.any isBreak then do
        let (br, c) := c.lineBreak
        let (rest, c) ← breaksFrom fuel c
        .ok (br ++ rest, c)
      else .ok ([], c)

/-- The text that one line break and further ones after it stand for: one break alone is a space,
and of several the first is dropped. -/
def folded (br breaks : List Char) : List Char :=
  if br ≠ ['\n'] then br ++ breaks else if breaks.isEmpty then [' '] else breaks

/-- An escape in double quotation marks, after the backslash. -/
def escape (c : Cursor) : Except Problem (List Letter × Cursor) :=
  match c.head with
  | none => .error .malformed
  | some a =>
    match escapes.lookup a, escapeWidths.lookup a with
    | some b, _ => .ok ([.char b], c.next)
    | none, some width =>
      let digits := (c.rest.drop 1).take width
      if digits.length = width && digits.all isHexDigit then
        let n := number 16 digits
        if n > 0x10FFFF then .error (.noCharacter n)
        else .ok ([.ofNat n], c.skip (1 + width))
      else .error .malformed
    | none, none =>
      if isBreak a then
        (breaksFrom c.rest.length c.lineBreak.2).map fun (cs, c) => (cs.map .char, c)
      else .error .malformed

/-- The rest of a scalar in quotation marks, up to its closing mark. -/
def quotedFrom (double : Bool) : (fuel : Nat) → Cursor → Except Problem (List Letter × Cursor)
  | 0, _ => .error .malformed
  | fuel + 1, c =>
    let mark := if double then '"' else '\''
    match c.head with
    | none => .error .malformed
    | some a =>
      if !double && a = '\'' && c.peek 1 = some '\'' then do
        let (rest, c) ← quotedFrom double fuel (c.skip 2)
        .ok (.char '\'' :: rest, c)
      else if a = mark then .ok ([], c.next)
      else if double && a = '\\' then do
        let (ls, c) ← escape c.next
        let (rest, c) ← quotedFrom double fuel c
        .ok (ls ++ rest, c)
      else if a = ' ' || a = '\t' || isBreak a then do
        let gap := c.takeWhile fun a => a = ' ' || a = '\t'
        let c := c.skip gap.length
        if c.head.any isBreak then do
          let (br, c) := c.lineBreak
          let (breaks, c) ← breaksFrom c.rest.length c
          let (rest, c) ← quotedFrom double fuel c
          .ok ((folded br breaks).map .char ++ rest, c)
        else do
          let (rest, c) ← quotedFrom double fuel c
          .ok (gap.map .char ++ rest, c)
      else do
        let (rest, c) ← quotedFrom double fuel c.next
        .ok (.char a :: rest, c)

/-- A scalar in quotation marks. -/
def quoted (double : Bool) (c : Cursor) : Except Problem (List Letter × Cursor) :=
  quotedFrom double c.rest.length c.next

/-! ### Scalars without marks -/

/-- How many characters of a word come before its end.  A colon ends it before a blank, and inside
brackets before a bracket or a comma as well. -/
def plainLength (flow : Bool) : List Char → Nat
  | [] => 0
  | a :: rest =>
    if endsWord (some a) then 0
    else if a = ':' && (endsWord rest.head?
        || (flow && rest.head?.any fun b => ",[]\x7b\x7d".toList.contains b)) then 0
    else if flow && ",?[]\x7b\x7d".toList.contains a then 0
    else 1 + plainLength flow rest

/-- Line breaks and spaces after the first line break inside a scalar.  `none` if a mark that ends
a document comes up. -/
def plainBreaks : (fuel : Nat) → Cursor → Option (List Char) × Cursor
  | 0, c => (some [], c)
  | fuel + 1, c =>
    match c.head with
    | some a =>
      if a = ' ' then plainBreaks fuel c.next
      else if isBreak a then
        let (br, c) := c.lineBreak
        if c.isSeparator then (none, c)
        else
          let (rest, c) := plainBreaks fuel c
          (rest.map (br ++ ·), c)
      else (some [], c)
    | none => (some [], c)

/-- What stands between two words of a scalar: spaces, or line breaks.  Also whether a line ended
there.  Nothing is given at the end of the scalar. -/
def plainGap (c : Cursor) : List Char × Bool × Cursor :=
  let gap := c.takeWhile (· = ' ')
  let c := c.skip gap.length
  if c.head.any isBreak then
    let (br, c) := c.lineBreak
    if c.isSeparator then ([], true, c)
    else
      match plainBreaks c.rest.length c with
      | (none, c) => ([], true, c)
      | (some breaks, c) => (folded br breaks, true, c)
  else (gap, false, c)

/-- The words of a scalar from here on, each with the gap before it.  Also whether the scalar ended
at the start of a line. -/
def plainFrom (flow : Bool) (indent : Int) :
    (fuel : Nat) → (gap : List Char) → (fresh : Bool) → Cursor → List Char × Bool × Cursor
  | 0, _, fresh, c => ([], fresh, c)
  | fuel + 1, gap, fresh, c =>
    if c.head = some '#' then ([], fresh, c)
    else
      let length := plainLength flow c.rest
      if length = 0 then ([], fresh, c)
      else
        let word := gap ++ c.rest.take length
        let (gap, broke, c) := plainGap (c.skip length)
        if gap.isEmpty || c.head = some '#' || (!flow && (c.column : Int) < indent) then
          (word, broke, c)
        else
          let (rest, broke, c) := plainFrom flow indent fuel gap broke c
          (word ++ rest, broke, c)

/-- A scalar without quotation marks.  Also whether it ended at the start of a line, where a key
may come next. -/
def plain (flow : Bool) (indent : Int) (c : Cursor) : List Letter × Bool × Cursor :=
  let (cs, broke, c) := plainFrom flow indent c.rest.length [] false c
  (cs.map .char, broke, c)

/-! ### Block scalars -/

/-- What becomes of the line breaks at the end of a block scalar. -/
inductive Chomp where
  | strip
  | clip
  | keep
  deriving DecidableEq, Repr

/-- The indicators after the mark of a block scalar: chomping and indentation, in any order. -/
def blockHeader (c : Cursor) : Except Problem ((Chomp × Option Nat) × Cursor) := do
  let chomp? (a : Option Char) : Option Chomp :=
    if a = some '+' then some .keep else if a = some '-' then some .strip else none
  let digit? (a : Option Char) : Option Nat := (a.filter isDigit).map fun a => number 10 [a]
  let (chomp, digit, c) :=
    match chomp? c.head, digit? c.head with
    | some chomp, _ =>
      match digit? (c.peek 1) with
      | some n => (chomp, some n, c.skip 2)
      | none => (chomp, none, c.skip 1)
    | none, some n =>
      match chomp? (c.peek 1) with
      | some chomp => (chomp, some n, c.skip 2)
      | none => (Chomp.clip, some n, c.skip 1)
    | none, none => (Chomp.clip, none, c)
  if digit = some 0 || !endsEntry c.head then .error .malformed else .ok ((chomp, digit), c)

/-- The line breaks before the first line of a block scalar, and the widest indentation among the
lines that hold nothing else. -/
def blockIndentation : (fuel : Nat) → (widest : Nat) → Cursor → List Char × Nat × Cursor
  | 0, widest, c => ([], widest, c)
  | fuel + 1, widest, c =>
    match c.head with
    | some a =>
      if a = ' ' then blockIndentation fuel (max widest c.next.column) c.next
      else if isBreak a then
        let (br, c) := c.lineBreak
        let (rest, widest, c) := blockIndentation fuel widest c
        (br ++ rest, widest, c)
      else ([], widest, c)
    | none => ([], widest, c)

/-- The place after spaces, but not beyond the indentation. -/
def toIndent (indent : Nat) : (fuel : Nat) → Cursor → Cursor
  | 0, c => c
  | fuel + 1, c =>
    if c.column < indent && c.head = some ' ' then toIndent indent fuel c.next else c

/-- The line breaks between two lines of a block scalar. -/
def blockBreaks (indent : Nat) : (fuel : Nat) → Cursor → List Char × Cursor
  | 0, c => ([], c)
  | fuel + 1, c =>
    let c := toIndent indent c.rest.length c
    if c.head.any isBreak then
      let (br, c) := c.lineBreak
      let (rest, c) := blockBreaks indent fuel c
      (br ++ rest, c)
    else ([], c)

/-- The lines of a block scalar from here on: their text, the last line break, the breaks after
it, and the place behind them.  `breaks` are the line breaks before the line. -/
def blockLines (fold : Bool) (indent : Nat) :
    (fuel : Nat) → (breaks : List Char) → Cursor →
      List Char × List Char × List Char × Cursor
  | 0, breaks, c => ([], [], breaks, c)
  | fuel + 1, breaks, c =>
    if c.column = indent && c.head.isSome then
      let starts := !c.head.any fun a => a = ' ' || a = '\t'
      let text := c.takeWhile fun a => !isBreak a
      let (br, c) := (c.skip text.length).lineBreak
      let (next, c) := blockBreaks indent c.rest.length c
      if c.column = indent && c.head.isSome then
        let joint :=
          if fold && br = ['\n'] && starts && !c.head.any (fun a => a = ' ' || a = '\t') then
            (if next.isEmpty then [' '] else [])
          else br
        let (rest, last, breaks', c) := blockLines fold indent fuel next c
        (breaks ++ text ++ joint ++ rest, last, breaks', c)
      else (breaks ++ text, br, next, c)
    else ([], [], breaks, c)

/-- A block scalar.  `indent` is the indentation of the block that holds it. -/
def block (fold : Bool) (indent : Int) (c : Cursor) : Except Problem (List Letter × Cursor) := do
  let ((chomp, increment), c) ← blockHeader c.next
  let c ← restOfLine c
  let least := (max (indent + 1) 1).toNat
  let (breaks, width, c) :=
    match increment with
    | none =>
      let (breaks, widest, c) := blockIndentation c.rest.length 0 c
      (breaks, max least widest, c)
    | some n =>
      let width := least + n - 1
      let (breaks, c) := blockBreaks width c.rest.length c
      (breaks, width, c)
  let (text, last, breaks, c) := blockLines fold width (c.rest.length + 1) breaks c
  let tail := match chomp with
    | .strip => []
    | .clip => last
    | .keep => last ++ breaks
  .ok ((text ++ tail).map .char, c)

end Semicolon.Yaml.Lexeme
