/-
What can go wrong while a YAML document is loaded.

A document that is no YAML, or that YAML gives no value to, is malformed, and one wording does
for all of that.  The other problems are values that their own kind rejects, such as a number
with a letter in it or a day that the month does not have, and limits: on the digits of an
integer, and on how deep collections may lie within one another.
-/
import Semicolon.Number.Calendar
import Semicolon.Text.Quoted

namespace Semicolon.Yaml

/-- Why a document has no value. -/
inductive Problem where
  | malformed
  | badInteger (base : Nat) (text : List Letter)
  | badFloat (text : List Letter)
  | tooManyDigits (count : Nat)
  /-- An integer has too many digits to be shown. -/
  | tooLong
  /-- A place of a number in base sixty is beyond the largest float. -/
  | tooLarge
  | badDate (fault : Calendar.Fault)
  | noBoolean (text : List Letter)
  | noTimestamp
  | emptyNumber
  | noCharacter (number : Nat)
  /-- Too many collections lie within one another. -/
  | tooDeep
  deriving DecidableEq, Repr

/-- The most digits of a decimal integer, both when it is read and when it is shown. -/
def maxDigits : Nat := 4300

/-- The most collections that may lie within one another. -/
def maxDepth : Nat := 490

/-- The wording of a problem. -/
def Problem.message : Problem → String
  | .malformed => "<yaml error>"
  | .badInteger base text =>
    "invalid literal for int() with base " ++ toString base ++ ": "
      ++ String.ofList ((Quoted.letters text).toList.take 200)
  | .badFloat text => "could not convert string to float: " ++ Quoted.letters text
  | .tooManyDigits count =>
    "Exceeds the limit (" ++ toString maxDigits ++ " digits) for integer string conversion: value has "
      ++ toString count ++ " digits; use sys.set_int_max_str_digits() to increase the limit"
  | .tooLong =>
    "Exceeds the limit (" ++ toString maxDigits ++ " digits) for integer string conversion; "
      ++ "use sys.set_int_max_str_digits() to increase the limit"
  | .tooLarge => "int too large to convert to float"
  | .badDate fault => fault.message
  | .noBoolean text => Quoted.letters text
  | .noTimestamp => "'NoneType' object has no attribute 'groupdict'"
  | .emptyNumber => "string index out of range"
  | .noCharacter number =>
    if number < Nat.pow 2 31 then "chr() arg not in range(0x110000)"
    else "Python int too large to convert to C int"
  | .tooDeep => "maximum recursion depth exceeded"

end Semicolon.Yaml
