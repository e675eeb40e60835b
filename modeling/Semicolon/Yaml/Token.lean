/-
The tokens of a YAML stream, and the place in the text that they are read from.
-/
import Semicolon.Yaml.Problem

namespace Semicolon.Yaml

/-! ### Characters -/

/-- A character that ends a line. -/
def isBreak (c : Char) : Bool := ['\r', '\n', '\u0085', '\u2028', '\u2029'].contains c

/-- Nothing more, or the end of a line. -/
def endsLine (c : Option Char) : Bool := c.all isBreak

/-- Nothing more, a space, or the end of a line. -/
def endsEntry (c : Option Char) : Bool := c.all fun c => c = ' ' || isBreak c

/-- Nothing more, a space, a tab, or the end of a line. -/
def endsWord (c : Option Char) : Bool := c.all fun c => c = ' ' || c = '\t' || isBreak c

/-- A letter, a digit, a hyphen or an underscore. -/
def isNameChar (c : Char) : Bool :=
  ('0' ≤ c && c ≤ '9') || ('A' ≤ c && c ≤ 'Z') || ('a' ≤ c && c ≤ 'z') || c = '-' || c = '_'

/-- A hexadecimal digit. -/
def isHexDigit (c : Char) : Bool :=
  ('0' ≤ c && c ≤ '9') || ('A' ≤ c && c ≤ 'F') || ('a' ≤ c && c ≤ 'f')

/-- A character that a stream may hold. -/
def isStreamChar (c : Char) : Bool :=
  let n := c.toNat
  n = 0x09 || n = 0x0A || n = 0x0D || (0x20 ≤ n && n ≤ 0x7E) || n = 0x85
    || (0xA0 ≤ n && n ≤ 0xD7FF) || (0xE000 ≤ n && n ≤ 0xFFFD) || 0x10000 ≤ n

/-! ### The place -/

/-- A place in the text: what is left of it, how many characters came before, and the line and
column of the next one. -/
structure Cursor where
  rest : List Char
  index : Nat := 0
  line : Nat := 0
  column : Nat := 0
  deriving DecidableEq, Repr

namespace Cursor

/-- The character `k` places on. -/
def peek (c : Cursor) (k : Nat) : Option Char := c.rest[k]?

/-- The next character. -/
def head (c : Cursor) : Option Char := c.rest.head?

/-- The place after the next character.  A line ends after a break, and after a carriage return
only if no line feed follows.  A byte order mark takes up no column. -/
def next (c : Cursor) : Cursor :=
  match c.rest with
  | [] => c
  | a :: rest =>
    if isBreak a && !(a = '\r' && rest.head? = some '\n') then
      { rest, index := c.index + 1, line := c.line + 1, column := 0 }
    else
      { rest, index := c.index + 1, line := c.line
        column := if a = '\uFEFF' then c.column else c.column + 1 }

/-- The place `k` characters on. -/
def skip (c : Cursor) : (k : Nat) → Cursor
  | 0 => c
  | k + 1 => c.next.skip k

/-- The place after all leading characters of a kind. -/
def skipWhile (c : Cursor) (p : Char → Bool) : Cursor := c.skip (c.rest.takeWhile p).length

/-- The leading characters of a kind. -/
def takeWhile (c : Cursor) (p : Char → Bool) : List Char := c.rest.takeWhile p

/-- The line break at the place, if there is one, and the place after it.  Every break but the two
separators of Unicode counts as a line feed. -/
def lineBreak (c : Cursor) : List Char × Cursor :=
  match c.rest with
  | '\r' :: '\n' :: _ => (['\n'], c.skip 2)
  | a :: _ =>
    if a = '\u2028' || a = '\u2029' then ([a], c.next)
    else if isBreak a then (['\n'], c.next)
    else ([], c)
  | [] => ([], c)

/-- Is the place at three such characters that stand alone? -/
def isMark (c : Cursor) (mark : Char) : Bool :=
  c.rest.take 3 = [mark, mark, mark] && endsWord (c.peek 3)

/-- Is the place at a mark that ends a document? -/
def isSeparator (c : Cursor) : Bool := c.isMark '-' || c.isMark '.'

end Cursor

/-! ### Tokens -/

/-- A directive before a document. -/
inductive Directive where
  | version (major : Nat)
  | handle (name : String) (root : String)
  | reserved
  deriving DecidableEq, Repr

/-- A token. -/
inductive Token where
  | directive (d : Directive)
  | documentStart
  | documentEnd
  | blockSequenceStart
  | blockMappingStart
  | blockEnd
  | flowSequenceStart
  | flowSequenceEnd
  | flowMappingStart
  | flowMappingEnd
  | blockEntry
  | flowEntry
  | key
  | value
  | alias (name : String)
  | anchor (name : String)
  | tag (handle : Option String) (suffix : String)
  | scalar (text : List Letter) (plain : Bool)
  /-- The scan could not go on from here. -/
  | fault (p : Problem)
  deriving DecidableEq, Repr

end Semicolon.Yaml
