/-
Strings that may hold half a character.

A character beyond the first plane has a pair of surrogate numbers.  A file cannot spell one of
the two alone, but an escape by number can, and the string then holds that number as it is: two
halves next to each other do not become a character.
-/

namespace Semicolon

/-- One unit of a string: a character, or a surrogate number that stands for itself. -/
inductive Letter where
  | char (c : Char)
  | half (n : Nat)
  deriving DecidableEq, Repr

namespace Letter

/-- The letter with a number. -/
def ofNat (n : Nat) : Letter :=
  if n.isValidChar then .char (Char.ofNat n) else .half n

/-- The letters of a text. -/
def ofText (s : String) : List Letter := s.toList.map .char

/-- The character that a letter is, unless it is a half. -/
def char? : Letter → Option Char
  | .char c => some c
  | .half _ => none

/-- The text that letters make up, if there is no half among them. -/
def text? (ls : List Letter) : Option String := (ls.mapM char?).map String.ofList

/-- The text without the halves. -/
def legible (ls : List Letter) : String := String.ofList (ls.filterMap char?)

end Letter

end Semicolon
