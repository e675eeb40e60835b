/-
Writing strings as YAML.

A string is written plain if it reads back as itself that way.  Otherwise it goes into single
quotation marks, if only line feeds and visible ASCII are in it and no line feed has a space
beside it.  Everything else goes into double marks, with escapes.

Long lines are folded at spaces: a line that has gone beyond the width ends at the next single
space, and the text goes on indented.  In single marks a line feed is written as an empty line.
In double marks a folded line ends in a backslash, which keeps the break out of the text, and a
space at the start of the next line gets a backslash too.
-/
import Semicolon.Yaml.Scalar

namespace Semicolon.Yaml.Print

/-- Lines are folded beyond this column. -/
def width : Nat := 80

/-! ### Which marks -/

/-- Nothing more, or a character that separates words. -/
def isGap (c : Option Char) : Bool :=
  c.all fun c => ['\x00', ' ', '\t', '\r', '\n', '\u0085', '\u2028', '\u2029'].contains c

/-- Visible ASCII, or a line feed. -/
def isSimple (c : Char) : Bool := c = '\n' || (' ' ≤ c && c ≤ '~')

/-- Can a plain string begin with this character, given the one after it? -/
def canStart (a : Char) (next : Option Char) : Bool :=
  !"#,[]\x7b\x7d&*!|>'\"%@`".toList.contains a && !(['?', ':', '-'].contains a && isGap next)

/-- Does the rest of a plain string hold no colon before a gap and no hash after one?  `before` is
the character in front of it. -/
def isQuiet : (before : Char) → List Char → Bool
  | _, [] => true
  | before, a :: rest =>
    !(a = ':' && isGap rest.head?) && !(a = '#' && isGap (some before)) && isQuiet a rest

/-- May the string be written without marks? -/
def canBePlain (cs : List Char) : Bool :=
  match cs with
  | [] => false
  | a :: rest =>
    canStart a rest.head? && isQuiet a rest
      && !"---".toList.isPrefixOf cs && !"...".toList.isPrefixOf cs
      && a ≠ ' ' && cs.getLast? ≠ some ' '
      && cs.all (fun c => isSimple c && c ≠ '\n')
      && Scalar.kind (String.ofList cs) = .string

/-- Does a space stand next to a line feed? -/
def hasLooseSpace : List Char → Bool
  | a :: b :: rest => (a = ' ' && b = '\n') || (a = '\n' && b = ' ') || hasLooseSpace (b :: rest)
  | _ => false

/-- May the string be written in single marks? -/
def canBeSingle (cs : List Char) : Bool := cs.all isSimple && !hasLooseSpace cs

/-! ### The text

Each writer is at a column and indents folded lines by `indent`. -/

/-- A new line. -/
def newLine (indent : Nat) : List Char := '\n' :: List.replicate indent ' '

/-- Is the head of the list a single space between two other characters? -/
def isSingleSpace (before : Option Char) : List Char → Bool
  | ' ' :: b :: _ => before.isSome && before ≠ some ' ' && b ≠ ' '
  | _ => false

/-- A string without marks. -/
def plain (indent : Nat) : (column : Nat) → (before : Option Char) → List Char → List Char
  | _, _, [] => []
  | column, before, a :: rest =>
    if isSingleSpace before (a :: rest) && column > width then
      newLine indent ++ plain indent indent (some a) rest
    else a :: plain indent (column + 1) (some a) rest

/-- The inside of single marks. -/
def single (indent : Nat) : (column : Nat) → (before : Option Char) → List Char → List Char
  | _, _, [] => []
  | column, before, a :: rest =>
    if a = '\n' then
      let lead := if before = some '\n' then ['\n'] else ['\n', '\n']
      let tail := if rest.head? = some '\n' then [] else List.replicate indent ' '
      lead ++ tail ++ single indent indent (some a) rest
    else if a = '\'' then '\'' :: '\'' :: single indent (column + 2) (some a) rest
    else if isSingleSpace before (a :: rest) && column > width then
      newLine indent ++ single indent indent (some a) rest
    else a :: single indent (column + 1) (some a) rest

/-- The letters for characters after a backslash. -/
def letters : List (Char × Char) :=
  [('\x00', '0'), ('\x07', 'a'), ('\x08', 'b'), ('\t', 't'), ('\n', 'n'), ('\x0b', 'v'),
    ('\x0c', 'f'), ('\r', 'r'), ('\x1b', 'e'), ('"', '"'), ('\\', '\\'), ('\u0085', 'N'),
    ('\u00A0', '_'), ('\u2028', 'L'), ('\u2029', 'P')]

/-- A number in upper-case hexadecimal digits. -/
def hex (digits n : Nat) : List Char := (Quoted.hex digits n).map Char.toUpper

/-- The escape of a character that cannot stand for itself in double marks. -/
def escape? (c : Char) : Option (List Char) :=
  match letters.lookup c with
  | some letter => some ['\\', letter]
  | none =>
    if ' ' ≤ c && c ≤ '~' then none
    else if c.toNat ≤ 0xFF then some ('\\' :: 'x' :: hex 2 c.toNat)
    else if c.toNat ≤ 0xFFFF then some ('\\' :: 'u' :: hex 4 c.toNat)
    else some ('\\' :: 'U' :: hex 8 c.toNat)

/-- The inside of double marks.  A line may be folded before a space, before a character that
comes right after an escape (`loose`), and after an escape itself; never at the first character
of the string nor at its last one. -/
def double (indent : Nat) :
    (column : Nat) → (first loose : Bool) → List Char → List Char
  | _, _, _, [] => []
  | column, first, loose, a :: rest =>
    let inside := !first && !rest.isEmpty
    match escape? a with
    | some e =>
      let column := column + e.length
      if inside && column > width + 1 then
        if rest.head? = some ' ' then
          e ++ '\\' :: newLine indent ++ '\\' :: double indent (indent + 1) false true rest
        else e ++ '\\' :: newLine indent ++ double indent indent false true rest
      else e ++ double indent column false true rest
    | none =>
      if inside && (a = ' ' || loose) && column > width then
        if a = ' ' then
          '\\' :: newLine indent ++ '\\' :: a :: double indent (indent + 2) false false rest
        else '\\' :: newLine indent ++ a :: double indent (indent + 1) false false rest
      else a :: double indent (column + 1) false false rest

/-- A string that starts at a column, with folded lines indented. -/
def string (indent column : Nat) (s : String) : List Char :=
  let cs := s.toList
  if canBePlain cs then plain indent column none cs
  else if canBeSingle cs then '\'' :: single indent (column + 1) none cs ++ ['\'']
  else '"' :: double indent (column + 1) true false cs ++ ['"']

end Semicolon.Yaml.Print
