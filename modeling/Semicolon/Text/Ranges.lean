/-
Sets of code points as tables.

A table lists closed ranges in increasing order, no two of which overlap, so that the range that
could hold a number is found by halving.
-/

namespace Semicolon

/-- Closed ranges of numbers in increasing order. -/
abbrev Ranges := Array (Nat × Nat)

namespace Ranges

/-- The position of the range that holds `n`, if it is among those from `lo` to before `hi`.  Each
round halves the distance, so `fuel` rounds settle every table of fewer than `2 ^ fuel` ranges. -/
def search (table : Ranges) (n : Nat) : (fuel lo hi : Nat) → Option Nat
  | 0, _, _ => none
  | fuel + 1, lo, hi =>
    if lo < hi then
      let mid := (lo + hi) / 2
      match table[mid]? with
      | none => none
      | some (first, last) =>
        if n < first then table.search n fuel lo mid
        else if last < n then table.search n fuel (mid + 1) hi
        else some mid
    else none

/-- The position of the range that holds a number. -/
def find? (table : Ranges) (n : Nat) : Option Nat := table.search n 12 0 table.size

/-- Is the number in one of the ranges? -/
def holds (table : Ranges) (n : Nat) : Bool := (table.find? n).isSome

end Ranges

end Semicolon
