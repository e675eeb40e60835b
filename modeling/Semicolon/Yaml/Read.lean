/-
The value of a scalar, once its kind is known.
-/
import Semicolon.Text.Casing
import Semicolon.Text.Digit
import Semicolon.Yaml.Scalar
import Semicolon.Yaml.Value

namespace Semicolon.Yaml.Read

/-! ### Numbers

Digits of every script count as the digits that they are, and spaces around a number are left
out. -/

/-- The letters of a number in ASCII; what no number can have becomes a question mark. -/
def plain (ls : List Letter) : List Char :=
  ls.map fun
    | .char c => Digit.plain c
    | .half _ => '?'

/-- A blank that may stand around a number. -/
def isBlank (c : Char) : Bool := c = ' ' || (0x09 ≤ c.toNat && c.toNat ≤ 0x0D)

/-- The text without blanks on either side. -/
def trim (cs : List Char) : List Char :=
  ((cs.dropWhile isBlank).reverse.dropWhile isBlank).reverse

/-- Is the character a digit of the base? -/
def isDigitOf (base : Nat) (c : Char) : Bool :=
  (Scalar.isDigit c && c.toNat - 48 < base)
    || (base = 16 && (('a' ≤ c && c ≤ 'f') || ('A' ≤ c && c ≤ 'F')))

/-- The digits without the mark of their base in front. -/
def unmarked (base : Nat) (cs : List Char) : List Char :=
  match base, cs with
  | 2, '0' :: b :: rest => if b = 'b' || b = 'B' then rest else cs
  | 8, '0' :: o :: rest => if o = 'o' || o = 'O' then rest else cs
  | 16, '0' :: x :: rest => if x = 'x' || x = 'X' then rest else cs
  | _, _ => cs

/-- The integer that letters spell in a base. -/
def integerIn (base : Nat) (ls : List Letter) : Except Problem Int :=
  let body := trim (plain ls)
  let digits := unmarked base (Scalar.unsigned body)
  let good := digits.takeWhile (isDigitOf base)
  if base = 10 && good.length > maxDigits then .error (.tooManyDigits good.length)
  else if good.isEmpty || good.length < digits.length then .error (.badInteger base ls)
  else
    let n : Int := Scalar.number base good
    .ok (if body.head? = some '-' then -n else n)

/-- The number that parts in base sixty make up, the last part the lowest. -/
def sixtieths (parts : List Int) : Int := parts.foldl (fun n p => n * 60 + p) 0

/-- The letters without underscores. -/
def unspaced (ls : List Letter) : List Letter := ls.filter (· ≠ .char '_')

/-- Do the letters start with a minus sign? -/
def isNegative (ls : List Letter) : Bool := ls.head? = some (.char '-')

/-- The letters without one sign in front. -/
def unsigned : List Letter → List Letter
  | .char c :: rest => if Scalar.isSign c then rest else .char c :: rest
  | ls => ls

/-- Cuts letters at every colon. -/
def colonParts : List Letter → List (List Letter)
  | [] => [[]]
  | l :: rest =>
    match colonParts rest with
    | [] => [[l]]
    | p :: ps => if l = .char ':' then [] :: p :: ps else (l :: p) :: ps

/-- The integer of a scalar: by its start in base two, sixteen or eight, with colons in base
sixty, else in base ten. -/
def integer (text : List Letter) : Except Problem Int :=
  let ls := unspaced text
  let signed (n : Int) : Int := if isNegative ls then -n else n
  match unsigned ls with
  | [] => .error .emptyNumber
  | [.char '0'] => .ok 0
  | .char '0' :: .char 'b' :: rest => (integerIn 2 rest).map signed
  | .char '0' :: .char 'x' :: rest => (integerIn 16 rest).map signed
  | .char '0' :: rest => (integerIn 8 (.char '0' :: rest)).map signed
  | body =>
    if body.contains (.char ':') then
      ((colonParts body).mapM (integerIn 10)).map fun parts => signed (sixtieths parts)
    else (integerIn 10 body).map signed

/-- The float nearest to `digits · 10 ^ power`. -/
def nearest (digits : Nat) (power : Int) : Float :=
  if digits = 0 then 0.0
  else if power + Shortest.width digits > 400 then 1.0 / 0.0
  else if power + Shortest.width digits < -400 then 0.0
  else if power < 0 then Float.ofScientific digits true power.natAbs
  else Float.ofScientific digits false power.natAbs

/-- An exponent after its letter: a sign, perhaps, and digits. -/
def exponent? (cs : List Char) : Option Int :=
  let digits := Scalar.unsigned cs
  if digits.isEmpty || !digits.all Scalar.isDigit then none
  else
    let n : Int := Scalar.number 10 digits
    some (if cs.head? = some '-' then -n else n)

/-- The float that a decimal spells: digits, a point, digits, an exponent; all but one digit may
be missing. -/
def decimal? (cs : List Char) : Option Float :=
  let whole := cs.takeWhile Scalar.isDigit
  let rest := cs.dropWhile Scalar.isDigit
  let (fraction, rest) := match rest with
    | '.' :: rest => (rest.takeWhile Scalar.isDigit, rest.dropWhile Scalar.isDigit)
    | _ => ([], rest)
  let power? := match rest with
    | [] => some 0
    | e :: rest => if e = 'e' || e = 'E' then exponent? rest else none
  if whole.isEmpty && fraction.isEmpty then none
  else
    power?.map fun power =>
      nearest (Scalar.number 10 (whole ++ fraction)) (power - (fraction.length : Int))

/-- The size that a text without a sign spells: a decimal, or a word for infinity or for what is
no number. -/
def magnitude? (cs : List Char) : Option Float :=
  let word := cs.map Char.toLower
  if word = "inf".toList || word = "infinity".toList then some (1.0 / 0.0)
  else if word = "nan".toList then some (0.0 / 0.0)
  else decimal? cs

/-- The float that letters spell. -/
def floatOf (ls : List Letter) : Except Problem Float :=
  let body := trim (plain ls)
  match magnitude? (Scalar.unsigned body) with
  | none => .error (.badFloat ls)
  | some x => .ok (if body.head? = some '-' then -x else x)

/-- Adds up parts in base sixty, the lowest first.  Every unit must be within the floats. -/
def addSixtieths : (unit : Nat) → (sum : Float) → List Float → Except Problem Float
  | _, sum, [] => .ok sum
  | unit, sum, p :: rest =>
    let size := Float.ofNat unit
    if size.isInf then .error .tooLarge else addSixtieths (unit * 60) (sum + p * size) rest

/-- The float of a scalar. -/
def float (text : List Letter) : Except Problem Value :=
  let ls := Casing.lower (unspaced text)
  let signed (x : Float) : Value := .float (if isNegative ls then -x else x)
  let body := unsigned ls
  if ls.isEmpty then .error .emptyNumber
  else if body = Letter.ofText ".inf" then .ok (signed (1.0 / 0.0))
  else if body = Letter.ofText ".nan" then .ok .nan
  else if body.contains (.char ':') then do
    let parts ← (colonParts body).mapM floatOf
    .ok (signed (← addSixtieths 1 0.0 parts.reverse))
  else (floatOf body).map signed

/-! ### The other kinds -/

/-- The truth value of a scalar, in any mixture of small and capital letters. -/
def boolean (text : List Letter) : Except Problem Bool :=
  let word := Casing.lower text
  if ["yes", "true", "on"].any fun w => Letter.ofText w = word then .ok true
  else if ["no", "false", "off"].any fun w => Letter.ofText w = word then .ok false
  else .error (.noBoolean word)

/-- Millionths of a second from the digits after the point. -/
def micros (fraction : List Char) : Nat :=
  let six := fraction.take 6
  Scalar.number 10 (six ++ List.replicate (6 - six.length) '0')

/-- The date or time of a scalar. -/
def timestamp (text : List Letter) : Except Problem Value :=
  match (Letter.text? text).bind fun s => Scalar.stamp? (Scalar.spelled s.toList) with
  | none => .error .noTimestamp
  | some s =>
    let checked : Except Calendar.Fault Value :=
      match s.clock with
      | none => (Calendar.date s.year s.month s.day).map .date
      | some c => do
        let offset ← match c.zone with
          | none => .ok none
          | some .universal => .ok (some 0)
          | some (.offset west hours minutes) =>
            let seconds : Int := (hours * 60 + minutes) * 60
            (Calendar.offset (if west then -seconds else seconds)).map some
        let d ← Calendar.date s.year s.month s.day
        (Calendar.moment d c.hour c.minute c.second (micros c.fraction) offset).map .moment
    checked.mapError .badDate

/-- The six bits that a character of base 64 stands for. -/
def sixBits? (c : Char) : Option Nat :=
  if 'A' ≤ c && c ≤ 'Z' then some (c.toNat - 65)
  else if 'a' ≤ c && c ≤ 'z' then some (c.toNat - 71)
  else if '0' ≤ c && c ≤ '9' then some (c.toNat + 4)
  else if c = '+' then some 62
  else if c = '/' then some 63
  else none

/-- Decodes base 64 from the middle of a group of four: `count` of its characters have been read,
`left` are the bits of the last one that no byte has taken, and `pads` padding marks came since.
Characters that mean nothing are passed over; a group that padding completes ends the data. -/
def base64From : (count left pads : Nat) → List Char → Option Bytes
  | count, _, _, [] => if count = 0 then some [] else none
  | count, left, pads, c :: rest =>
    if c = '=' then
      if count ≥ 2 && count + pads + 1 ≥ 4 then some []
      else base64From count left (if count ≥ 2 then pads + 1 else pads) rest
    else
      match sixBits? c with
      | none => base64From count left pads rest
      | some v =>
        match count with
        | 0 => base64From 1 v 0 rest
        | 1 => (base64From 2 (v % 16) 0 rest).map ((left * 4 + v / 16).toUInt8 :: ·)
        | 2 => (base64From 3 (v % 4) 0 rest).map ((left * 16 + v / 4).toUInt8 :: ·)
        | _ => (base64From 0 0 0 rest).map ((left * 64 + v).toUInt8 :: ·)

/-- The bytes of a scalar in base 64, which has to be ASCII. -/
def binary (text : List Letter) : Except Problem Bytes :=
  match text.mapM Letter.char? with
  | none => .error .malformed
  | some cs =>
    if cs.any fun c => c.toNat > 127 then .error .malformed
    else
      match base64From 0 0 0 cs with
      | some bs => .ok bs
      | none => .error .malformed

/-- The value of a scalar of a kind.  Kinds of collection have no scalars, and a kind without a
name has no values at all. -/
def scalar (tag : Tag) (text : List Letter) : Except Problem Value :=
  match tag with
  | .null => .ok .null
  | .boolean => (boolean text).map .boolean
  | .integer => (integer text).map .integer
  | .float => float text
  | .binary => (binary text).map .bytes
  | .timestamp => timestamp text
  | .string => .ok (.string text)
  | _ => .error .malformed

end Semicolon.Yaml.Read
