/-
A file scanned in two parts.

Cut a file between two of its lines.  Downwards the state goes over the cut, and nothing below
the cut has a say in it.  Upwards a single glyph goes over it: the first one that is not
blank in the line right below.  It decides about the last line above the cut and about no
other, and all it can do is to take that line off the report.

If both depths are zero at the cut and no block is pending, the part below is judged like a file
of its own.  The state there need not be the fresh one, since an idle block keeps the count of
its last trigger.  But it agrees with the fresh one, each line keeps two states in agreement,
and states that agree judge every line alike.
-/
import Mathlib.Data.List.GetD
import Semicolon.Proofs.Agreement

namespace Semicolon

/-- Both depths are zero and no block is pending. -/
structure State.Idle (s : State) : Prop where
  parens : s.parens = 0
  brackets : s.brackets = 0
  declaration : s.declaration = false
  condition : s.condition.pending = false
  result : s.result.pending = false

theorem State.Idle.agrees {s : State} (h : s.Idle) : s.Agrees {} where
  parens := h.parens
  brackets := h.brackets
  declaration := h.declaration
  condition := Tally.agrees_of_idle h.condition rfl
  result := Tally.agrees_of_idle h.result rfl

namespace Scan

/-- The state in which the scan of the lines ends. -/
def leaving (p : Policy) (lines : List Text) : State :=
  ((steps p lines).getLast?.map Step.state).getD {}

variable {p : Policy} {s s' : State} {upper lower : List Text}

theorem leaving_eq (p : Policy) (lines : List Text) :
    leaving p lines = entering lines lines.length := by
  rcases List.eq_nil_or_concat' lines with rfl | ⟨init, t, rfl⟩
  · rfl
  · have hlength : (steps p (init ++ [t])).length = init.length + 1 := by
      have hmended := length_mended p (init ++ [t])
      rw [mended, List.length_map] at hmended
      rw [hmended, List.length_append, List.length_singleton]
    have hlast : (init ++ [t])[init.length]? = some t := List.getElem?_concat_length
    have hstep : (steps p (init ++ [t])).getLast?.map Step.state
        = some (after (entering (init ++ [t]) init.length) t) := by
      rw [List.getLast?_eq_getElem?, hlength, Nat.add_sub_cancel, getElem?_steps, hlast]
      rfl
    rw [leaving, hstep, Option.getD_some, List.length_append, List.length_singleton,
      entering_succ hlast]

/-! ### Downwards: the state -/

theorem entering_append_of_le {i : Nat} (hi : i ≤ upper.length) :
    entering (upper ++ lower) i = entering upper i := by
  rw [entering, entering, List.take_append_of_le_length hi]

theorem entering_append_add (upper lower : List Text) (k : Nat) :
    entering (upper ++ lower) (upper.length + k)
      = (lower.take k).foldl after (entering upper upper.length) := by
  rw [entering, entering, List.take_length_add_append, List.foldl_append, List.take_length]

/-- States that agree are led to states that agree. -/
theorem foldl_after_agrees (h : s.Agrees s') (lines : List Text) :
    (lines.foldl after s).Agrees (lines.foldl after s') := by
  induction lines generalizing s s' with
  | nil => exact h
  | cons t rest ih => exact ih (after_agrees h t)

/-- Below a cut at which nothing is open, every line is entered in a state that agrees with the one
in which it would be entered if the file began there. -/
theorem entering_below (h : (entering upper upper.length).Idle) (k : Nat) :
    (entering (upper ++ lower) (upper.length + k)).Agrees (entering lower k) := by
  rw [entering_append_add]
  exact foldl_after_agrees h.agrees (lower.take k)

/-! ### Upwards: one glyph -/

theorem getElem?_steps_append {i : Nat} (hi : i < upper.length) :
    (steps p (upper ++ lower))[i]? = upper[i]?.map fun t =>
      step p (entering upper i) t ((upper ++ lower).getD (i + 1) []) := by
  rw [getElem?_steps, List.getElem?_append_left hi, entering_append_of_le hi.le]

/-- No state changes when lines are added below. -/
theorem states_append (p : Policy) (upper lower : List Text) :
    ((steps p (upper ++ lower)).take upper.length).map Step.state
      = (steps p upper).map Step.state := by
  refine List.ext_getElem? fun i => ?_
  rw [List.getElem?_map, List.getElem?_map]
  by_cases hi : i < upper.length
  · rw [List.getElem?_take_of_lt hi, getElem?_steps_append hi, getElem?_steps, Option.map_map,
      Option.map_map]
    rfl
  · rw [List.getElem?_take_eq_none (by omega), getElem?_steps,
      List.getElem?_eq_none (by omega)]
    rfl

/-- A line with another line below it in its own part does not see the other part. -/
theorem step_append {i : Nat} (hi : i + 1 < upper.length) :
    (steps p (upper ++ lower))[i]? = (steps p upper)[i]? := by
  rw [getElem?_steps_append (by omega), getElem?_steps, List.getD_append _ _ _ _ hi]

/-- The line below can only take a line off the report, and it does so by its first glyph. -/
theorem lacks_iff_alone {t next : Text} :
    Lacks p s t next ↔ Lacks p s t [] ∧ next.picksUp = false := by
  constructor
  · intro h
    exact ⟨⟨h.outside, h.complete, rfl, h.free, h.settled, h.accountable⟩, h.unresumed⟩
  · rintro ⟨h, hnext⟩
    exact ⟨h.outside, h.complete, hnext, h.free, h.settled, h.accountable⟩

theorem length_mem_missing_append (p : Policy) (upper lower : List Text) :
    upper.length ∈ missing p (upper ++ lower) ↔
      upper.length ∈ missing p upper ∧ (lower.headD []).picksUp = false := by
  rcases List.eq_nil_or_concat' upper with rfl | ⟨init, t, rfl⟩
  · simp [zero_not_mem_missing]
  · have hlast : (init ++ [t])[init.length]? = some t := List.getElem?_concat_length
    have hwhole : ((init ++ [t]) ++ lower)[init.length]? = some t := by
      rw [List.getElem?_append_left (by simp), hlast]
    have hbelow : ((init ++ [t]) ++ lower).getD (init.length + 1) [] = lower.headD [] := by
      rw [List.getD_append_right _ _ _ _ (by simp)]
      cases lower <;> simp
    have hend : (init ++ [t]).getD (init.length + 1) [] = [] := by simp
    rw [List.length_append, List.length_singleton, succ_mem_missing_iff, succ_mem_missing_iff,
      hwhole, hlast, hbelow, hend, entering_append_of_le (by simp)]
    simp only [Option.some.injEq, exists_eq_left']
    exact lacks_iff_alone

/-! ### The part below -/

theorem succ_mem_missing_below (h : (entering upper upper.length).Idle) (k : Nat) :
    upper.length + (k + 1) ∈ missing p (upper ++ lower) ↔ k + 1 ∈ missing p lower := by
  have hline : (upper ++ lower)[upper.length + k]? = lower[k]? := by
    rw [List.getElem?_append_right (by omega), Nat.add_sub_cancel_left]
  have hnext : (upper ++ lower).getD (upper.length + k + 1) [] = lower.getD (k + 1) [] := by
    rw [List.getD_append_right _ _ _ _ (by omega),
      show upper.length + k + 1 - upper.length = k + 1 by omega]
  rw [← Nat.add_assoc, succ_mem_missing_iff, succ_mem_missing_iff, hline, hnext]
  simp only [lacks_congr (entering_below h k) rfl]

theorem mended_below (h : (entering upper upper.length).Idle) :
    (mended p (upper ++ lower)).drop upper.length = mended p lower := by
  refine List.ext_getElem? fun k => ?_
  rw [List.getElem?_drop, getElem?_mended, getElem?_mended,
    List.getElem?_append_right (by omega), Nat.add_sub_cancel_left]
  simp only [Nat.add_assoc, succ_mem_missing_below h k]

/-- **A file can be scanned in two parts.**  Lines added below change no state, and the step of no
line but the last one; the last line is still reported unless the first line below goes on with
its statement, which its first glyph shows.  If the upper part leaves nothing open, the lower
part has the missing semicolons and the mended lines that it has as a file of its own. -/
theorem scan_in_two_parts (p : Policy) (upper lower : List Text) :
    ((steps p (upper ++ lower)).take upper.length).map Step.state
        = (steps p upper).map Step.state ∧
    (∀ i, i + 1 < upper.length → (steps p (upper ++ lower))[i]? = (steps p upper)[i]?) ∧
    (upper.length ∈ missing p (upper ++ lower) ↔ upper.length ∈ missing p upper ∧
      (lower.headD []).trimLeft.first?.any (·.among ")]+-*/%^|&?:") = false) ∧
    ((leaving p upper).Idle →
      (∀ k, upper.length + (k + 1) ∈ missing p (upper ++ lower) ↔ k + 1 ∈ missing p lower) ∧
      (mended p (upper ++ lower)).drop upper.length = mended p lower) := by
  refine ⟨states_append p upper lower, fun i hi => step_append hi,
    length_mem_missing_append p upper lower, ?_⟩
  intro hidle
  rw [leaving_eq] at hidle
  exact ⟨succ_mem_missing_below hidle, mended_below hidle⟩

/-- An upper part that leaves a count behind in an idle block. -/
def countingLines : List Text := [Text.ofString "if // )", Text.ofString "total = a"]

/-- A lower part that goes on with the statement above it. -/
def resumingLines : List Text := [Text.ofString "  + b", Text.ofString "return c"]

theorem scan_in_two_parts_counting :
    (leaving {} countingLines).Idle ∧ (leaving {} countingLines).condition.net = -1 ∧
    2 ∈ missing {} countingLines ∧ 2 ∉ missing {} (countingLines ++ resumingLines) ∧
    (mended {} (countingLines ++ resumingLines)).drop 2
      = [Text.ofString "  + b;", Text.ofString "return c;"] := by
  have hidle : (leaving {} countingLines).Idle :=
    ⟨by decide, by decide, by decide, by decide, by decide⟩
  obtain ⟨-, -, hlast, hbelow⟩ := scan_in_two_parts {} countingLines resumingLines
  have hpick : ¬ (resumingLines.headD []).trimLeft.first?.any (·.among ")]+-*/%^|&?:") = false := by
    decide
  refine ⟨hidle, by decide, by decide, fun hmem => hpick (hlast.mp hmem).2, ?_⟩
  rw [show (2 : Nat) = countingLines.length from rfl, (hbelow hidle).2]
  decide

end Scan

end Semicolon
