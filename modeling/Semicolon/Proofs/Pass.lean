/-
The pass over a file, line by line.

The scan is a fold, and its results are lists.  What is said of a file is nearly always said of
one line of it, so here the fold is opened once: the state in which line `i` is judged is what
the first `i` lines leave behind, the step of line `i` is judged in that state with the line
after it in view, and its number is among the missing ones exactly if that step says so.

Neither the policy nor the lookahead has a say in the state, so the states of a file are
the same under every policy.
-/
import Mathlib.Data.List.Sort
import Semicolon.Scan
import Semicolon.Proofs.Verdict

namespace Semicolon.Scan

/-! ### One line -/

/-- The state that a line leaves behind. -/
def after (s : State) (t : Text) : State :=
  ((s.deepen (Line.ofText t).code).stepBlocks t t.trimLeft).1

/-- Does one of the blocks hold the line? -/
def holds (s : State) (t : Text) : Bool := (s.stepBlocks t t.trimLeft).2

theorem step_eq (p : Policy) (s : State) (t next : Text) :
    step p s t next =
      { line := Line.ofText t, state := after s t, held := holds s t
        verdict := (Line.ofText t).verdict next (after s t) (holds s t) p } := rfl

@[simp] theorem after_parens (s : State) (t : Text) :
    (after s t).parens = s.parens + Text.net '(' ')' (Line.split t).1 := rfl

@[simp] theorem after_brackets (s : State) (t : Text) :
    (after s t).brackets = s.brackets + Text.net '[' ']' (Line.split t).1 := rfl

@[simp] theorem after_declaration (s : State) (t : Text) :
    (after s t).declaration
      = ((s.declaration || t.trimLeft.isBareDeclaration) && !t.has ';') := rfl

@[simp] theorem after_condition (s : State) (t : Text) :
    (after s t).condition = (s.condition.step Text.opensCondition t.trimLeft).1 := rfl

@[simp] theorem after_result (s : State) (t : Text) :
    (after s t).result = (s.result.step Text.opensResult t.trimLeft).1 := rfl

theorem holds_eq (s : State) (t : Text) :
    holds s t = ((s.declaration || t.trimLeft.isBareDeclaration)
      || (s.condition.step Text.opensCondition t.trimLeft).2
      || (s.result.step Text.opensResult t.trimLeft).2) := rfl

/-- Why a semicolon is missing on a line: nothing carries the statement on, and the line is not of
a kind that takes none. -/
structure Lacks (p : Policy) (s : State) (t next : Text) : Prop where
  /-- No bracket is open, the line's own included. -/
  outside : (after s t).insideGroup = false
  /-- The code does not stop in the middle of an expression. -/
  complete : (Line.ofText t).endsOpen = false
  /-- The next line starts something new. -/
  unresumed : next.picksUp = false
  /-- No block holds the line. -/
  free : holds s t = false
  /-- The line is no part of a conditional expression or a chain of conditions. -/
  settled : t.dangles = false
  /-- The line is of a kind that takes a semicolon. -/
  accountable : t.isIgnorable p = false

theorem isMissing_step_iff {p : Policy} {s : State} {t next : Text} :
    (step p s t next).isMissing = true ↔ Lacks p s t next := by
  rw [Step.isMissing, decide_eq_true_eq, step_eq, Line.verdict_eq_missing_iff,
    Line.continues_eq]
  simp only [Bool.or_eq_false_iff]
  constructor
  · rintro ⟨⟨⟨⟨⟨h1, h2⟩, h3⟩, h4⟩, h5⟩, h6⟩
    exact ⟨h1, h2, h3, h4, h5, h6⟩
  · intro h
    exact ⟨⟨⟨⟨⟨h.outside, h.complete⟩, h.unresumed⟩, h.free⟩, h.settled⟩, h.accountable⟩

/-! ### The lines of a file -/

/-- The state in which the line with index `i` is entered. -/
def entering (lines : List Text) (i : Nat) : State := (lines.take i).foldl after {}

theorem entering_succ {lines : List Text} {i : Nat} {t : Text} (h : lines[i]? = some t) :
    entering lines (i + 1) = after (entering lines i) t := by
  rw [entering, entering, List.take_add_one, h, Option.toList_some, List.foldl_concat]

theorem entering_succ_none {lines : List Text} {i : Nat} (h : lines[i]? = none) :
    entering lines (i + 1) = entering lines i := by
  rw [entering, entering, List.take_add_one, h, Option.toList_none, List.append_nil]

theorem getElem?_stepsFrom (p : Policy) (s : State) (lines : List Text) (i : Nat) :
    (stepsFrom p s lines)[i]? = lines[i]?.map fun t =>
      step p ((lines.take i).foldl after s) t (lines.getD (i + 1) []) := by
  induction lines generalizing s i with
  | nil => rfl
  | cons t rest ih =>
      cases i with
      | zero =>
          rw [stepsFrom]
          cases rest <;> rfl
      | succ i =>
          rw [stepsFrom, List.getElem?_cons_succ, ih]
          rfl

theorem getElem?_steps (p : Policy) (lines : List Text) (i : Nat) :
    (steps p lines)[i]? = lines[i]?.map fun t =>
      step p (entering lines i) t (lines.getD (i + 1) []) :=
  getElem?_stepsFrom p {} lines i

/-! ### The numbers of the missing lines -/

theorem mem_missingFrom_iff {k n : Nat} {sts : List Step} :
    n ∈ missingFrom k sts ↔ ∃ i st, sts[i]? = some st ∧ n = k + i ∧ st.isMissing = true := by
  induction sts generalizing k with
  | nil => simp [missingFrom]
  | cons st rest ih =>
      have hrest : n ∈ missingFrom (k + 1) rest ↔ ∃ i st', (st :: rest)[i + 1]? = some st' ∧
          n = k + (i + 1) ∧ st'.isMissing = true := by
        rw [ih]
        simp only [List.getElem?_cons_succ, Nat.add_assoc, Nat.add_comm 1]
      rw [missingFrom]
      constructor
      · intro h
        split at h
        · rename_i hm
          rcases List.mem_cons.mp h with rfl | h
          · exact ⟨0, st, rfl, rfl, hm⟩
          · obtain ⟨i, hi⟩ := hrest.mp h
            exact ⟨i + 1, hi⟩
        · obtain ⟨i, hi⟩ := hrest.mp h
          exact ⟨i + 1, hi⟩
      · rintro ⟨i, st', hget, hn, hm⟩
        cases i with
        | zero =>
            obtain rfl : st = st' := by simpa using hget
            rw [if_pos hm, hn]
            exact List.mem_cons_self
        | succ i =>
            have hmem := hrest.mpr ⟨i, st', hget, hn, hm⟩
            split
            · exact List.mem_cons_of_mem _ hmem
            · exact hmem

/-- The missing lines come in order, each once. -/
theorem missingFrom_pairwise (k : Nat) (sts : List Step) :
    (missingFrom k sts).Pairwise (· < ·) := by
  induction sts generalizing k with
  | nil => exact List.Pairwise.nil
  | cons st rest ih =>
      rw [missingFrom]
      split
      · refine List.pairwise_cons.mpr ⟨?_, ih _⟩
        intro n hn
        obtain ⟨i, -, -, hi, -⟩ := mem_missingFrom_iff.mp hn
        omega
      · exact ih _

theorem missing_pairwise (p : Policy) (lines : List Text) :
    (missing p lines).Pairwise (· < ·) := missingFrom_pairwise 1 _

/-- Two files miss the same lines if they agree on every index. -/
theorem missing_eq_of_mem_iff {p : Policy} {lines : List Text} {ns : List Nat}
    (hns : ns.Pairwise (· < ·)) (h : ∀ n, n ∈ missing p lines ↔ n ∈ ns) :
    missing p lines = ns :=
  (missing_pairwise p lines).eq_of_mem_iff hns (fun {n} => h n)

theorem succ_mem_missing_iff_isMissing {p : Policy} {lines : List Text} {i : Nat} {st : Step}
    (h : (steps p lines)[i]? = some st) : i + 1 ∈ missing p lines ↔ st.isMissing = true := by
  rw [missing, mem_missingFrom_iff]
  constructor
  · rintro ⟨k, st', hget, hk, hm⟩
    obtain rfl : i = k := by omega
    obtain rfl : st = st' := Option.some.inj (h.symm.trans hget)
    exact hm
  · intro hm
    exact ⟨i, st, h, Nat.add_comm i 1, hm⟩

/-- **The number of a line is among the missing ones exactly if the line, judged in the state the
lines above it leave, lacks its semicolon.** -/
theorem succ_mem_missing_iff {p : Policy} {lines : List Text} {i : Nat} :
    i + 1 ∈ missing p lines ↔
      ∃ t, lines[i]? = some t ∧ Lacks p (entering lines i) t (lines.getD (i + 1) []) := by
  rw [missing, mem_missingFrom_iff]
  constructor
  · rintro ⟨k, st, hget, hk, hm⟩
    obtain rfl : i = k := by omega
    rw [getElem?_steps, Option.map_eq_some_iff] at hget
    obtain ⟨t, ht, rfl⟩ := hget
    exact ⟨t, ht, isMissing_step_iff.mp hm⟩
  · rintro ⟨t, ht, hlacks⟩
    refine ⟨i, _, ?_, Nat.add_comm i 1, isMissing_step_iff.mpr hlacks⟩
    rw [getElem?_steps, ht]
    rfl

theorem lacks_of_mem_missing {p : Policy} {lines : List Text} {i : Nat} {t : Text}
    (ht : lines[i]? = some t) (hmem : i + 1 ∈ missing p lines) :
    Lacks p (entering lines i) t (lines.getD (i + 1) []) := by
  obtain ⟨t', ht', hlacks⟩ := succ_mem_missing_iff.mp hmem
  obtain rfl : t' = t := Option.some.inj (ht'.symm.trans ht)
  exact hlacks

@[simp] theorem zero_not_mem_missing (p : Policy) (lines : List Text) : 0 ∉ missing p lines := by
  intro h
  obtain ⟨i, -, -, hi, -⟩ := mem_missingFrom_iff.mp h
  omega

/-! ### The mended lines -/

@[simp] theorem length_mended (p : Policy) (lines : List Text) :
    (mended p lines).length = lines.length := by
  have hsteps : ∀ s, (stepsFrom p s lines).length = lines.length := by
    induction lines with
    | nil => intro s; rfl
    | cons t rest ih => intro s; simp [stepsFrom, ih]
  rw [mended, List.length_map, steps, hsteps]

/-- **A line of the mended text is the old line, or the old line with its semicolon.** -/
theorem getElem?_mended (p : Policy) (lines : List Text) (i : Nat) :
    (mended p lines)[i]? = lines[i]?.map fun t =>
      if i + 1 ∈ missing p lines then (Line.ofText t).terminated else t := by
  rw [mended, List.getElem?_map, getElem?_steps, Option.map_map]
  cases ht : lines[i]? with
  | none => rfl
  | some t =>
      have hmem : i + 1 ∈ missing p lines ↔
          (step p (entering lines i) t (lines.getD (i + 1) [])).isMissing = true :=
        succ_mem_missing_iff_isMissing (by rw [getElem?_steps, ht]; rfl)
      simp only [Option.map_some, Function.comp, Step.mended, hmem]
      rfl

end Semicolon.Scan
