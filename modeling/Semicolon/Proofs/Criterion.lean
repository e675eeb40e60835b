/-
Which semicolons are missing, without a state.

The scan carries two depths and three blocks from line to line.  Here the same question is put to
the file as a whole: a line lacks its semicolon if the brackets of the code up to it are closed,
if it and the line below it look complete, if it is of a kind that takes a semicolon, and if no
earlier line opened a block that is still open.

The last point is where the two differ most.  A pending block does not look at triggers, so
the scan remembers the first of several; the criterion asks for any.  Both come to the same
because the count of a pending block is positive: a trigger that is seen while the block is
pending starts with less than the block already has, so the block outlives whatever that
trigger would have opened.
-/
import Mathlib.Algebra.BigOperators.Intervals
import Semicolon.Proofs.Pass

namespace Semicolon.Scan

/-! ### The criterion -/

/-- The line with an index, empty beyond the end of the file. -/
abbrev lineAt (lines : List Text) (i : Nat) : Text := lines.getD i []

/-- The net number of brackets that the code of the lines up to index `i` leaves open. -/
def depthThrough (opening closing : Char) (lines : List Text) (i : Nat) : Int :=
  ∑ k ∈ Finset.range (i + 1), Text.net opening closing (Line.split (lineAt lines k)).1

/-- The net number of round brackets in the lines from index `j` to index `m`, comments
included. -/
def tallyOver (lines : List Text) (j m : Nat) : Int :=
  ∑ k ∈ Finset.Icc j m, (lineAt lines k).parenNet

/-- Some line up to this one is a bare declaration keyword, and no semicolon came since. -/
def HeldByDeclaration (lines : List Text) (i : Nat) : Prop :=
  ∃ j ≤ i, (lineAt lines j).trimLeft.isBareDeclaration = true ∧
    ∀ k, j ≤ k → k < i → (lineAt lines k).has ';' = false

/-- Line `j` is a trigger, and from there the count of round brackets is positive after every line
up to `i`. -/
def Trigger (opens : Text → Bool) (lines : List Text) (j i : Nat) : Prop :=
  opens (lineAt lines j).trimLeft = true ∧ ∀ m, j ≤ m → m ≤ i → 0 < tallyOver lines j m

/-- Some line up to this one is a trigger whose brackets no line between the two closes; on the
trigger itself they have to be open. -/
def HeldByTally (opens : Text → Bool) (lines : List Text) (i : Nat) : Prop :=
  ∃ j ≤ i, Trigger opens lines j (max j (i - 1))

/-- What makes a line one whose semicolon is missing, said of the file alone. -/
structure Criterion (p : Policy) (lines : List Text) (i : Nat) : Prop where
  parens : depthThrough '(' ')' lines i ≤ 0
  brackets : depthThrough '[' ']' lines i ≤ 0
  complete : (Line.split (lineAt lines i)).1.last?.any (·.among ",+-*/%^|&") = false
  unresumed : (lineAt lines (i + 1)).trimLeft.first?.any (·.among ")]+-*/%^|&?:") = false
  undeclared : ¬ HeldByDeclaration lines i
  unconditional : ¬ HeldByTally Text.opensCondition lines i
  unreturned : ¬ HeldByTally Text.opensResult lines i
  unchained : (lineAt lines i).endsWith "&&" = false ∧ (lineAt lines i).endsWith "||" = false
  noArm : (lineAt lines i).trimLeft.first?.any (·.among "?:") = false
  accountable : (lineAt lines i).isIgnorable p = false

/-! ### The depths and the declaration block -/

section

variable {lines : List Text} {i : Nat}

theorem getElem?_of_lt (hi : i < lines.length) : lines[i]? = some (lineAt lines i) := by
  rw [lineAt, List.getD_eq_getElem?_getD, List.getElem?_eq_getElem hi]
  rfl

theorem entering_succ_lineAt (hi : i < lines.length) :
    entering lines (i + 1) = after (entering lines i) (lineAt lines i) :=
  entering_succ (getElem?_of_lt hi)

theorem entering_depths (hi : i ≤ lines.length) :
    (entering lines i).parens
      = ∑ k ∈ Finset.range i, Text.net '(' ')' (Line.split (lineAt lines k)).1 ∧
    (entering lines i).brackets
      = ∑ k ∈ Finset.range i, Text.net '[' ']' (Line.split (lineAt lines k)).1 := by
  induction i with
  | zero => exact ⟨rfl, rfl⟩
  | succ i ih =>
      obtain ⟨hparens, hbrackets⟩ := ih (by omega)
      rw [entering_succ_lineAt hi, after_parens, after_brackets, hparens, hbrackets,
        Finset.sum_range_succ, Finset.sum_range_succ]
      exact ⟨rfl, rfl⟩

/-- After a line a bracket is open exactly if one of the two sums is positive. -/
theorem insideGroup_after_eq_false_iff (hi : i < lines.length) :
    (after (entering lines i) (lineAt lines i)).insideGroup = false ↔
      depthThrough '(' ')' lines i ≤ 0 ∧ depthThrough '[' ']' lines i ≤ 0 := by
  obtain ⟨hparens, hbrackets⟩ := entering_depths hi
  rw [← entering_succ_lineAt hi, State.insideGroup, hparens, hbrackets, depthThrough,
    depthThrough, Bool.or_eq_false_iff]
  simp

theorem entering_declaration_iff (hi : i ≤ lines.length) :
    (entering lines i).declaration = true ↔
      ∃ j < i, (lineAt lines j).trimLeft.isBareDeclaration = true ∧
        ∀ k, j ≤ k → k < i → (lineAt lines k).has ';' = false := by
  induction i with
  | zero => simp [entering]
  | succ i ih =>
      rw [entering_succ_lineAt hi, after_declaration, Bool.and_eq_true, Bool.or_eq_true,
        Bool.not_eq_true', ih (by omega)]
      constructor
      · rintro ⟨⟨j, hj, hbare, hopen⟩ | hbare, hnone⟩
        · refine ⟨j, by omega, hbare, fun k hjk hk => ?_⟩
          rcases Nat.lt_succ_iff_lt_or_eq.mp hk with hlt | rfl
          · exact hopen k hjk hlt
          · exact hnone
        · refine ⟨i, by omega, hbare, fun k hik hk => ?_⟩
          obtain rfl : k = i := by omega
          exact hnone
      · rintro ⟨j, hj, hbare, hopen⟩
        refine ⟨?_, hopen i (by omega) (by omega)⟩
        rcases Nat.lt_succ_iff_lt_or_eq.mp hj with hlt | rfl
        · exact Or.inl ⟨j, hlt, hbare, fun k hjk hk => hopen k hjk (by omega)⟩
        · exact Or.inr hbare

theorem heldByDeclaration_iff (hi : i < lines.length) :
    ((entering lines i).declaration || (lineAt lines i).trimLeft.isBareDeclaration) = true ↔
      HeldByDeclaration lines i := by
  rw [Bool.or_eq_true, entering_declaration_iff hi.le]
  constructor
  · rintro (⟨j, hj, hbare, hopen⟩ | hbare)
    · exact ⟨j, hj.le, hbare, hopen⟩
    · exact ⟨i, le_refl i, hbare, fun k hik hk => absurd hk (by omega)⟩
  · rintro ⟨j, hj, hbare, hopen⟩
    rcases Nat.lt_or_eq_of_le hj with hlt | rfl
    · exact Or.inl ⟨j, hlt, hbare, hopen⟩
    · exact Or.inr hbare

end

/-! ### The blocks that count -/

theorem tallyOver_self (lines : List Text) (j : Nat) :
    tallyOver lines j j = (lineAt lines j).parenNet := by
  rw [tallyOver, Finset.Icc_self, Finset.sum_singleton]

theorem tallyOver_succ (lines : List Text) {j m : Nat} (h : j ≤ m) :
    tallyOver lines j (m + 1) = tallyOver lines j m + (lineAt lines (m + 1)).parenNet := by
  rw [tallyOver, tallyOver, Finset.sum_Icc_succ_top (by omega)]

/-- The course of one counting block through a file: idle at first, then one step a line. -/
structure Course (opens : Text → Bool) (lines : List Text) (b : Nat → Tally) : Prop where
  start : (b 0).pending = false
  next : ∀ i < lines.length, b (i + 1) = ((b i).step opens (lineAt lines i).trimLeft).1

theorem course_condition (lines : List Text) :
    Course Text.opensCondition lines fun i => (entering lines i).condition where
  start := rfl
  next i hi := by rw [entering_succ_lineAt hi, after_condition]

theorem course_result (lines : List Text) :
    Course Text.opensResult lines fun i => (entering lines i).result where
  start := rfl
  next i hi := by rw [entering_succ_lineAt hi, after_result]

namespace Course

variable {opens : Text → Bool} {lines : List Text} {b : Nat → Tally}

/-- The three things a line can do to a block. -/
theorem next_cases (h : Course opens lines b) {i : Nat} (hi : i < lines.length) :
    ((b i).pending = true ∧ (b (i + 1)).net = (b i).net + (lineAt lines i).parenNet ∧
      ((b (i + 1)).pending = true ↔ 0 < (b (i + 1)).net)) ∨
    ((b i).pending = false ∧ opens (lineAt lines i).trimLeft = true ∧
      (b (i + 1)).net = (lineAt lines i).parenNet ∧
      ((b (i + 1)).pending = true ↔ 0 < (b (i + 1)).net)) ∨
    ((b i).pending = false ∧ opens (lineAt lines i).trimLeft = false ∧
      (b (i + 1)).pending = false) := by
  rw [h.next i hi]
  unfold Tally.step
  rw [Text.parenNet_trimLeft]
  cases hp : (b i).pending with
  | true => simp
  | false =>
      cases ho : opens (lineAt lines i).trimLeft with
      | true => simp
      | false => simp [hp]

theorem trigger_self {i : Nat} (ho : opens (lineAt lines i).trimLeft = true)
    (hpos : 0 < (lineAt lines i).parenNet) : Trigger opens lines i i := by
  refine ⟨ho, fun m him hmi => ?_⟩
  obtain rfl : m = i := by omega
  rw [tallyOver_self]
  exact hpos

/-- A pending block goes back to a trigger, and its count is what came since. -/
theorem exists_trigger (h : Course opens lines b) {i : Nat} (hi : i < lines.length)
    (hp : (b (i + 1)).pending = true) :
    ∃ j ≤ i, Trigger opens lines j i ∧ (b (i + 1)).net = tallyOver lines j i := by
  induction i with
  | zero =>
      rcases h.next_cases hi with ⟨hbefore, -⟩ | ⟨-, ho, hnet, hiff⟩ | ⟨-, -, hidle⟩
      · exact absurd (h.start.symm.trans hbefore) Bool.false_ne_true
      · refine ⟨0, le_refl 0, trigger_self ho (hnet ▸ hiff.mp hp), ?_⟩
        rw [hnet, tallyOver_self]
      · exact absurd (hidle.symm.trans hp) Bool.false_ne_true
  | succ i ih =>
      rcases h.next_cases hi with ⟨hbefore, hnet, hiff⟩ | ⟨-, ho, hnet, hiff⟩ | ⟨-, -, hidle⟩
      · -- The block was pending already: its trigger is still the one of the line above.
        obtain ⟨j, hj, ⟨ho, hpos⟩, hcount⟩ := ih (by omega) hbefore
        have hsum : (b (i + 1 + 1)).net = tallyOver lines j (i + 1) := by
          rw [hnet, hcount, tallyOver_succ lines hj]
        refine ⟨j, by omega, ⟨ho, fun m hjm hm => ?_⟩, hsum⟩
        rcases Nat.le_succ_iff.mp hm with hle | rfl
        · exact hpos m hjm hle
        · rw [← hsum]
          exact hiff.mp hp
      · refine ⟨i + 1, le_refl _, trigger_self ho (hnet ▸ hiff.mp hp), ?_⟩
        rw [hnet, tallyOver_self]
      · exact absurd (hidle.symm.trans hp) Bool.false_ne_true

theorem net_pos (h : Course opens lines b) {i : Nat} (hi : i ≤ lines.length)
    (hp : (b i).pending = true) : 0 < (b i).net := by
  cases i with
  | zero => exact absurd (h.start.symm.trans hp) Bool.false_ne_true
  | succ i =>
      obtain ⟨j, hj, ⟨-, hpos⟩, hnet⟩ := h.exists_trigger hi hp
      rw [hnet]
      exact hpos i hj (le_refl i)

/-- A trigger keeps the block pending for as long as its own count is positive, whether or not the
block was pending when the trigger came: a count that was running already is ahead of it. -/
theorem pending_of_trigger (h : Course opens lines b) {j i : Nat} (hji : j ≤ i)
    (hi : i < lines.length) (htrigger : Trigger opens lines j i) :
    (b (i + 1)).pending = true ∧ tallyOver lines j i ≤ (b (i + 1)).net := by
  induction i, hji using Nat.le_induction with
  | base =>
      have hpos := htrigger.2 j (le_refl j) (le_refl j)
      rw [tallyOver_self] at hpos ⊢
      rcases h.next_cases hi with ⟨hbefore, hnet, hiff⟩ | ⟨-, -, hnet, hiff⟩ | ⟨-, hno, -⟩
      · have := h.net_pos hi.le hbefore
        rw [hiff]
        omega
      · rw [hiff]
        omega
      · exact absurd (hno.symm.trans htrigger.1) Bool.false_ne_true
  | succ i hji ih =>
      obtain ⟨hbefore, hle⟩ := ih (by omega) ⟨htrigger.1, fun m hjm hm => htrigger.2 m hjm (by omega)⟩
      have hpos := htrigger.2 (i + 1) (by omega) (le_refl _)
      rw [tallyOver_succ lines hji] at hpos ⊢
      rcases h.next_cases hi with ⟨-, hnet, hiff⟩ | ⟨hidle, -⟩ | ⟨hidle, -⟩
      · rw [hiff]
        omega
      · exact absurd (hidle.symm.trans hbefore) Bool.false_ne_true
      · exact absurd (hidle.symm.trans hbefore) Bool.false_ne_true

theorem step_held_iff {a : Tally} {i : Nat} :
    (a.step opens (lineAt lines i).trimLeft).2 = true ↔
      a.pending = true ∨ Trigger opens lines i i := by
  have hself : Trigger opens lines i i ↔
      opens (lineAt lines i).trimLeft = true ∧ 0 < (lineAt lines i).parenNet := by
    refine ⟨fun h => ⟨h.1, ?_⟩, fun h => trigger_self h.1 h.2⟩
    rw [← tallyOver_self]
    exact h.2 i (le_refl i) (le_refl i)
  rw [hself]
  unfold Tally.step
  rw [Text.parenNet_trimLeft]
  cases hp : a.pending with
  | true => simp
  | false => cases ho : opens (lineAt lines i).trimLeft <;> simp

/-- **A counting block holds a line exactly if some trigger up to that line is still open.** -/
theorem held_iff (h : Course opens lines b) {i : Nat} (hi : i < lines.length) :
    ((b i).step opens (lineAt lines i).trimLeft).2 = true ↔ HeldByTally opens lines i := by
  rw [step_held_iff]
  constructor
  · rintro (hp | htrigger)
    · cases i with
      | zero => exact absurd (h.start.symm.trans hp) Bool.false_ne_true
      | succ i =>
          obtain ⟨j, hj, htrigger, -⟩ := h.exists_trigger (by omega) hp
          refine ⟨j, by omega, ?_⟩
          rwa [show max j (i + 1 - 1) = i by omega]
    · refine ⟨i, le_refl i, ?_⟩
      rwa [show max i (i - 1) = i by omega]
  · rintro ⟨j, hj, htrigger⟩
    rcases Nat.lt_or_eq_of_le hj with hlt | rfl
    · obtain ⟨i, rfl⟩ : ∃ k, i = k + 1 := ⟨i - 1, by omega⟩
      rw [show max j (i + 1 - 1) = i by omega] at htrigger
      exact Or.inl (h.pending_of_trigger (by omega) (by omega) htrigger).1
    · rw [show max j (j - 1) = j by omega] at htrigger
      exact Or.inr htrigger

end Course

/-! ### The scan decides the criterion -/

theorem holds_eq_false_iff {lines : List Text} {i : Nat} (hi : i < lines.length) :
    holds (entering lines i) (lineAt lines i) = false ↔
      ¬ HeldByDeclaration lines i ∧ ¬ HeldByTally Text.opensCondition lines i ∧
        ¬ HeldByTally Text.opensResult lines i := by
  rw [← heldByDeclaration_iff hi, ← (course_condition lines).held_iff hi,
    ← (course_result lines).held_iff hi, holds_eq, Bool.or_eq_false_iff, Bool.or_eq_false_iff,
    Bool.not_eq_true, Bool.not_eq_true, Bool.not_eq_true, and_assoc]

theorem lacks_iff_criterion {p : Policy} {lines : List Text} {i : Nat} (hi : i < lines.length) :
    Lacks p (entering lines i) (lineAt lines i) (lineAt lines (i + 1)) ↔ Criterion p lines i := by
  have hdangles : (lineAt lines i).dangles = false ↔
      ((lineAt lines i).endsWith "&&" = false ∧ (lineAt lines i).endsWith "||" = false) ∧
        (lineAt lines i).trimLeft.first?.any (·.among "?:") = false := by
    rw [Text.dangles, Bool.or_eq_false_iff]
    simp [Text.endsWithAny]
  constructor
  · intro h
    obtain ⟨hparens, hbrackets⟩ := (insideGroup_after_eq_false_iff hi).mp h.outside
    obtain ⟨hdecl, hcond, hres⟩ := (holds_eq_false_iff hi).mp h.free
    obtain ⟨hchain, harm⟩ := hdangles.mp h.settled
    exact ⟨hparens, hbrackets, h.complete, h.unresumed, hdecl, hcond, hres, hchain, harm,
      h.accountable⟩
  · intro h
    exact ⟨(insideGroup_after_eq_false_iff hi).mpr ⟨h.parens, h.brackets⟩, h.complete,
      h.unresumed,
      (holds_eq_false_iff hi).mpr ⟨h.undeclared, h.unconditional, h.unreturned⟩,
      hdangles.mpr ⟨h.unchained, h.noArm⟩, h.accountable⟩

/-- **The scan reports exactly the lines that meet the criterion.** -/
theorem succ_mem_missing_iff_criterion (p : Policy) (lines : List Text) (i : Nat) :
    i + 1 ∈ missing p lines ↔ i < lines.length ∧ Criterion p lines i := by
  rw [succ_mem_missing_iff]
  constructor
  · rintro ⟨t, ht, hlacks⟩
    obtain ⟨hi, -⟩ := List.getElem?_eq_some_iff.mp ht
    obtain rfl : lineAt lines i = t := Option.some.inj ((getElem?_of_lt hi).symm.trans ht)
    exact ⟨hi, (lacks_iff_criterion hi).mp hlacks⟩
  · rintro ⟨hi, hcrit⟩
    exact ⟨lineAt lines i, getElem?_of_lt hi, (lacks_iff_criterion hi).mpr hcrit⟩

end Semicolon.Scan
