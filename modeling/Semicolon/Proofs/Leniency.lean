/-
What it means to let a `return` be.

The policy is asked about a line last of all, when it is decided whether the line is of a kind that
takes a semicolon, and there it adds one kind: code that begins as a `return` with a value.  Nothing
that is carried from line to line depends on it, so the two policies see every line in the same
state.  What the lenient one reports is what the strict one reports without the lines of that kind,
and no other line is mended differently.
-/
import Semicolon.Proofs.Criterion

namespace Semicolon

/-- A `return` needs its semicolon. -/
def Policy.strict : Policy := { requireReturn := true }

/-- A `return` is let be. -/
def Policy.lenient : Policy := { requireReturn := false }

/-- The code of the line, without its indentation, begins as a `return` with a value. -/
def Text.returns (t : Text) : Bool := (Line.ofText t).code.trimLeft.startsWithAny returnStarts

/-- The lenient policy has one more kind of line that takes no semicolon. -/
theorem Text.isIgnorable_lenient (t : Text) :
    t.isIgnorable .lenient = (t.isIgnorable .strict || t.returns) := by
  have hreturns : t.returns = (Line.split t.trimLeft).1.startsWithAny returnStarts := by
    rw [Line.split_trimLeft]
    rfl
  unfold Text.isIgnorable Text.startsWithKeyword
  simp only [hreturns, Policy.strict, Policy.lenient, Bool.not_true, Bool.not_false, Bool.and_false,
    Bool.and_true, Bool.false_or, Bool.or_assoc, Bool.or_comm, Bool.or_left_comm]

namespace Scan

theorem lacks_lenient_iff {s : State} {t next : Text} :
    Lacks .lenient s t next ↔ Lacks .strict s t next ∧ t.returns = false := by
  constructor
  · intro h
    have hkind := h.accountable
    rw [Text.isIgnorable_lenient, Bool.or_eq_false_iff] at hkind
    exact ⟨⟨h.outside, h.complete, h.unresumed, h.free, h.settled, hkind.1⟩, hkind.2⟩
  · rintro ⟨h, hreturns⟩
    refine ⟨h.outside, h.complete, h.unresumed, h.free, h.settled, ?_⟩
    rw [Text.isIgnorable_lenient, h.accountable, hreturns]
    rfl

theorem succ_mem_missing_lenient_iff {lines : List Text} {i : Nat} :
    i + 1 ∈ missing .lenient lines ↔
      i + 1 ∈ missing .strict lines ∧ (lineAt lines i).returns = false := by
  rw [succ_mem_missing_iff, succ_mem_missing_iff]
  constructor
  · rintro ⟨t, ht, hlacks⟩
    obtain ⟨hstrict, hreturns⟩ := lacks_lenient_iff.mp hlacks
    exact ⟨⟨t, ht, hstrict⟩, by rwa [lineAt, List.getD_eq_getElem?_getD, ht]⟩
  · rintro ⟨⟨t, ht, hstrict⟩, hreturns⟩
    rw [lineAt, List.getD_eq_getElem?_getD, ht] at hreturns
    exact ⟨t, ht, lacks_lenient_iff.mpr ⟨hstrict, hreturns⟩⟩

/-- The states of a file are the same under every policy. -/
theorem states_of_policies (p q : Policy) (lines : List Text) :
    (steps p lines).map Step.state = (steps q lines).map Step.state := by
  refine List.ext_getElem? fun i => ?_
  rw [List.getElem?_map, List.getElem?_map, getElem?_steps, getElem?_steps, Option.map_map,
    Option.map_map]
  rfl

/-- **The lenient policy only leaves out.**  It misses what the strict one misses, in the same
order, without the lines whose code begins as a `return` with a value; those stay as they are, every
other line is mended as under the strict policy, and the state after each line is the same. -/
theorem missing_lenient (lines : List Text) :
    missing .lenient lines
        = (missing .strict lines).filter (fun n => !(lineAt lines (n - 1)).returns) ∧
    (∀ i, (mended .lenient lines)[i]?
        = if i + 1 ∈ missing .strict lines ∧ (lineAt lines i).returns = true then lines[i]?
          else (mended .strict lines)[i]?) ∧
    (steps .lenient lines).map Step.state = (steps .strict lines).map Step.state := by
  refine ⟨?_, fun i => ?_, states_of_policies _ _ lines⟩
  · refine missing_eq_of_mem_iff ((missing_pairwise .strict lines).filter _) fun n => ?_
    rw [List.mem_filter, Bool.not_eq_true']
    cases n with
    | zero => simp [zero_not_mem_missing]
    | succ i => exact succ_mem_missing_lenient_iff
  · rw [getElem?_mended, getElem?_mended]
    by_cases hleft : i + 1 ∈ missing .strict lines ∧ (lineAt lines i).returns = true
    · have hnot : i + 1 ∉ missing .lenient lines := by
        intro hmem
        have hreturns := (succ_mem_missing_lenient_iff.mp hmem).2
        exact absurd (hreturns.symm.trans hleft.2) Bool.false_ne_true
      rw [if_pos hleft]
      simp [hnot]
    · have hsame : i + 1 ∈ missing .lenient lines ↔ i + 1 ∈ missing .strict lines := by
        rw [succ_mem_missing_lenient_iff]
        refine ⟨And.left, fun hmem => ⟨hmem, ?_⟩⟩
        by_contra hreturns
        exact hleft ⟨hmem, by simpa using hreturns⟩
      rw [if_neg hleft]
      simp only [hsame]

/-- A word that only begins like a `return` is not one, and neither is a `return` without a
value. -/
example :
    let lines := ["returned = a", "  return b // c", "return", "return(d)"].map Text.ofString
    missing .strict lines = [1, 2, 3, 4] ∧ missing .lenient lines = [1, 3] := by
  decide

end Scan

end Semicolon
