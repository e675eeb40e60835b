/-
The order in which a set shows its numbers.

A set keeps its members in a table with more than twice as many places.  The home of a number is
its residue modulo the prime `2 ^ 61 - 1`, cut to the size of the table; equal numbers have
equal residues, whatever their kind.  A number whose home is taken looks at the places right
after it, and then jumps on.  Members are shown in the order of their places.

Members that are no numbers have no home that can be told in advance; a set with one of them
shows its members as they were written.
-/
import Semicolon.Yaml.Value

namespace Semicolon.Yaml.SetOrder

/-! ### Residues -/

/-- The prime that residues are taken by. -/
def prime : Nat := Nat.pow 2 61 - 1

/-- The word for a residue with its sign.  No number has the word for minus one, which has
another meaning in the table. -/
def word (negative : Bool) (residue : Nat) : Nat :=
  if !negative || residue = 0 then residue
  else if residue = 1 then Nat.pow 2 64 - 2
  else Nat.pow 2 64 - residue

/-- The word for a float: `2 ^ 61` leaves the residue one, so only the power modulo 61 counts. -/
def floatWord (x : Float) : Nat :=
  let bits := x.toBits.toNat
  let negative := decide (bits ≥ Nat.pow 2 63)
  if x.isInf then word negative 314159
  else
    let b := Shortest.Binary.ofBits (bits % Nat.pow 2 63)
    word negative (b.mantissa % prime * Nat.pow 2 (b.exponent % 61).toNat % prime)

/-- The word for a number. -/
def word? : Value → Option Nat
  | .boolean b => some (if b then 1 else 0)
  | .integer n => some (word (n < 0) (n.natAbs % prime))
  | .float x => if x.isNaN then none else some (floatWord x)
  | _ => none

/-! ### Places -/

/-- The size of the table for a number of members: the least power of two from eight on that is
more than twice the number, except that eight places do for four members. -/
def sizeFor (count : Nat) : (fuel : Nat) → (size : Nat) → Nat
  | 0, size => size
  | fuel + 1, size =>
    if count < 5 || 2 * count < size then size else sizeFor count fuel (2 * size)

/-- How many places after the first are looked at before the next jump. -/
def reach : Nat := 9

/-- A free place for a word, seen from a place; `left` is what is left of the word for jumps.  Once
nothing is left, the jumps go through all places. -/
def place (table : Array (Option Value)) : (fuel : Nat) → (here left : Nat) → Option Nat
  | 0, _, _ => none
  | fuel + 1, here, left =>
    let near := if here + reach < table.size then reach + 1 else 1
    match ((List.range near).map (here + ·)).find? fun i => (table[i]?.bind id).isNone with
    | some i => some i
    | none =>
      let left := left / 32
      place table fuel ((here * 5 + 1 + left) % table.size) left

/-- The table with one more member. -/
def add (table : Array (Option Value)) (v : Value) (w : Nat) : Array (Option Value) :=
  match place table (table.size + 14) (w % table.size) w with
  | some i => table.setIfInBounds i (some v)
  | none => table

/-- The members in the order in which they are shown. -/
def arranged (members : List Value) : List Value :=
  match members.mapM word? with
  | none => members
  | some words =>
    let size := sizeFor members.length members.length 8
    let table := (members.zip words).foldl (fun t m => add t m.1 m.2) (Array.replicate size none)
    table.toList.filterMap id

end Semicolon.Yaml.SetOrder
