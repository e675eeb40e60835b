/-
Text in quotation marks, as messages show it.

Single marks are used unless the text holds a single mark and no double one.  The mark in use
and the backslash get a backslash; tab, line feed and carriage return have letters; any other
character that cannot be shown is written by its number, in as many hexadecimal digits as its
size asks for.
-/
import Semicolon.Text.Letter
import Semicolon.Text.Printable
import Semicolon.Text.Utf8

namespace Semicolon.Quoted

/-- The number in lower-case hexadecimal, padded with zeros to at least `width` digits. -/
def hex (width n : Nat) : List Char :=
  let digits := Nat.toDigits 16 n
  List.replicate (width - digits.length) '0' ++ digits

/-- A character by its number: `\x`, `\u` or `\U` with two, four or eight digits. -/
def byNumber (n : Nat) : List Char :=
  if n ≤ 0xFF then '\\' :: 'x' :: hex 2 n
  else if n ≤ 0xFFFF then '\\' :: 'u' :: hex 4 n
  else '\\' :: 'U' :: hex 8 n

/-- A character inside the given quotation marks. -/
def escape (mark c : Char) : List Char :=
  if c = mark || c = '\\' then ['\\', c]
  else if c = '\t' then ['\\', 't']
  else if c = '\n' then ['\\', 'n']
  else if c = '\r' then ['\\', 'r']
  else if isPrintable c then [c]
  else byNumber c.toNat

/-- The quotation mark for a text. -/
def markFor (cs : List Char) : Char :=
  if cs.contains '\'' && !cs.contains '"' then '"' else '\''

/-- A letter inside the given quotation marks; a half is written by its number. -/
def escapeLetter (mark : Char) : Letter → List Char
  | .char c => escape mark c
  | .half n => byNumber n

/-- Letters in quotation marks. -/
def letters (ls : List Letter) : String :=
  let mark := markFor (ls.filterMap Letter.char?)
  String.ofList (mark :: ls.flatMap (escapeLetter mark) ++ [mark])

/-- A text in quotation marks. -/
def text (s : String) : String := letters (Letter.ofText s)

/-- A byte inside the given quotation marks; only ASCII is shown as it is. -/
def escapeByte (mark : Char) (b : UInt8) : List Char :=
  if b < 0x80 then escape mark (Char.ofNat b.toNat) else byNumber b.toNat

/-- Bytes in quotation marks after a `b`. -/
def bytes (bs : Bytes) : String :=
  let mark := markFor (bs.map fun b => Char.ofNat b.toNat)
  String.ofList ('b' :: mark :: bs.flatMap (escapeByte mark) ++ [mark])

end Semicolon.Quoted
