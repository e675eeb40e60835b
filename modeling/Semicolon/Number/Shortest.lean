/-
The fewest decimal digits that read back as a given binary fraction.

A double is `m · 2 ^ e`.  The reals that are read as it lie between the two halfway points to
its neighbours, with the halfway points themselves if `m` is even.  For one digit, two digits
and so on up to seventeen, the two decimals next to the value on that grid are tested; the first
grid with one inside the interval wins, and of two the nearer one, or the even one if both are
equally near.  All of it is arithmetic on naturals.
-/

namespace Semicolon.Shortest

/-- A positive double, exactly: `mantissa · 2 ^ exponent`.  `narrow` says that the neighbour below
is only half as far away as the one above. -/
structure Binary where
  mantissa : Nat
  exponent : Int
  narrow : Bool
  deriving DecidableEq, Repr

/-- The double with the given bits, its sign left out. -/
def Binary.ofBits (bits : Nat) : Binary :=
  let fraction : Nat := bits % Nat.pow 2 52
  let power : Nat := bits / Nat.pow 2 52 % Nat.pow 2 11
  if power = 0 then { mantissa := fraction, exponent := -1074, narrow := false }
  else
    { mantissa := Nat.pow 2 52 + fraction
      exponent := (power : Int) - 1075
      narrow := fraction = 0 && power > 1 }

/-- Decimal digits and the power of ten of the unit of the last one: `digits · 10 ^ scale`. -/
structure Decimal where
  digits : Nat
  scale : Int
  deriving DecidableEq, Repr

/-- Quarters of a unit of the mantissa, so that halfway points are whole. -/
def Binary.quarters (b : Binary) : Nat := 4 * b.mantissa

/-- The lower end of the interval, in quarters. -/
def Binary.lower (b : Binary) : Nat := b.quarters - (if b.narrow then 1 else 2)

/-- The upper end of the interval, in quarters. -/
def Binary.upper (b : Binary) : Nat := b.quarters + 2

/-- A comparison of a decimal with a number of quarters becomes one of naturals: both sides are
multiplied by the powers of two and ten that are below the line. -/
def scaled (b : Binary) (d : Decimal) : Nat × Nat :=
  let two := b.exponent - 2
  (d.digits * Nat.pow 10 d.scale.toNat * Nat.pow 2 (-two).toNat,
    Nat.pow 10 (-d.scale).toNat * Nat.pow 2 two.toNat)

/-- Does the decimal read back as the double? -/
def readsBack (b : Binary) (d : Decimal) : Bool :=
  let (decimal, unit) := scaled b d
  if b.mantissa % 2 = 0 then b.lower * unit ≤ decimal && decimal ≤ b.upper * unit
  else b.lower * unit < decimal && decimal < b.upper * unit

/-- How far the decimal is from the double, in a unit that is the same for one grid. -/
def distance (b : Binary) (d : Decimal) : Nat :=
  let (decimal, unit) := scaled b d
  (decimal - b.quarters * unit) + (b.quarters * unit - decimal)

/-- The largest decimal with the given scale that is not above the double. -/
def floorAt (b : Binary) (scale : Int) : Decimal :=
  let two := b.exponent - 2
  let above := b.quarters * Nat.pow 2 two.toNat * Nat.pow 10 (-scale).toNat
  let under := Nat.pow 2 (-two).toNat * Nat.pow 10 scale.toNat
  { digits := above / under, scale }

/-- The best decimal on a grid, if one reads back. -/
def onGrid (b : Binary) (scale : Int) : Option Decimal :=
  let down := floorAt b scale
  let up : Decimal := { down with digits := down.digits + 1 }
  match readsBack b down, readsBack b up with
  | false, false => none
  | true, false => some down
  | false, true => some up
  | true, true =>
    if distance b down < distance b up then some down
    else if distance b up < distance b down then some up
    else if down.digits % 2 = 0 then some down
    else some up

/-- The number of decimal digits of a natural. -/
def width (n : Nat) : Nat := (Nat.toDigits 10 n).length

/-- The power of ten just above the double, which the scales count down from.  It is found from
the digits of the whole part, or else by going down from one. -/
def magnitude (b : Binary) : Int :=
  let whole := (floorAt b 0).digits
  if whole > 0 then width whole
  else
    let small := (floorAt b (-345)).digits
    (width small : Int) - 345

/-- The decimal with the fewest digits that reads back, the nearest one of those. -/
def shortest (b : Binary) : Decimal :=
  let top := magnitude b
  let grids := (List.range 17).map fun (n : Nat) => onGrid b (top - (n + 1))
  match grids.findSome? id with
  | some d => d
  | none => floorAt b (top - 17)

/-- The decimal without zeros at its end. -/
def strip : (fuel : Nat) → Decimal → Decimal
  | 0, d => d
  | fuel + 1, d =>
    if d.digits ≠ 0 && d.digits % 10 = 0 then
      strip fuel { digits := d.digits / 10, scale := d.scale + 1 }
    else d

end Semicolon.Shortest

namespace Semicolon

open Shortest in
/-- A double as text: the fewest digits that read back, with a point or an exponent.  The exponent
form is for numbers from `10 ^ 16` up and for those below `10 ^ -4`; its exponent has a sign and
at least two digits. -/
def floatText (x : Float) : String :=
  if x.isNaN then "nan"
  else
    let bits := x.toBits.toNat
    let sign := if bits ≥ Nat.pow 2 63 then "-" else ""
    let magnitude := bits % Nat.pow 2 63
    if x.isInf then sign ++ "inf"
    else if magnitude = 0 then sign ++ "0.0"
    else
      let d := strip 20 (shortest (Binary.ofBits magnitude))
      let digits := Nat.toDigits 10 d.digits
      -- The point stands after this many digits.
      let point := d.scale + digits.length
      if -4 < point && point ≤ 16 then
        let text :=
          if point ≤ 0 then '0' :: '.' :: List.replicate (-point).toNat '0' ++ digits
          else
            let whole := digits.take point.toNat
            let rest := digits.drop point.toNat
            whole ++ List.replicate (point.toNat - whole.length) '0' ++ '.'
              :: (if rest.isEmpty then ['0'] else rest)
        sign ++ String.ofList text
      else
        let power := point - 1
        let mantissa := match digits with
          | [] => []
          | [a] => [a]
          | a :: rest => a :: '.' :: rest
        let number := Nat.toDigits 10 power.natAbs
        let padded := List.replicate (2 - number.length) '0' ++ number
        sign ++ String.ofList (mantissa ++ 'e' :: (if power < 0 then '-' else '+') :: padded)

end Semicolon
