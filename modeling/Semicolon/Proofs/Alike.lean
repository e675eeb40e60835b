/-
Lines that no rule can tell apart.

A line is looked at in eleven ways, and the scan knows nothing else of it: the brackets and the
end of its code, its first glyph, its ends, its kind, and what it does to the three blocks.  Two
lines that are alike in all of these are interchangeable, and `missing_of_alike` says so of a
whole file: the scans go through the very same states and report the same numbers.
-/
import Semicolon.Proofs.Pass

namespace Semicolon

/-- Two texts that are alike in everything that a rule looks at. -/
structure Text.Alike (t u : Text) : Prop where
  parens : Text.net '(' ')' (Line.split u).1 = Text.net '(' ')' (Line.split t).1
  brackets : Text.net '[' ']' (Line.split u).1 = Text.net '[' ']' (Line.split t).1
  endsOpen : (Line.ofText u).endsOpen = (Line.ofText t).endsOpen
  picksUp : u.picksUp = t.picksUp
  dangles : u.dangles = t.dangles
  ignorable : ∀ p, u.isIgnorable p = t.isIgnorable p
  bare : u.trimLeft.isBareDeclaration = t.trimLeft.isBareDeclaration
  semicolon : u.has ';' = t.has ';'
  condition : u.trimLeft.opensCondition = t.trimLeft.opensCondition
  result : u.trimLeft.opensResult = t.trimLeft.opensResult
  net : u.parenNet = t.parenNet

theorem Text.Alike.refl (t : Text) : t.Alike t :=
  ⟨rfl, rfl, rfl, rfl, rfl, fun _ => rfl, rfl, rfl, rfl, rfl, rfl⟩

/-- A counting block sees of a line whether it is a trigger, and its brackets. -/
theorem Tally.step_congr {opens : Text → Bool} {t u : Text} (a : Tally) (hopens : opens u = opens t)
    (hnet : u.parenNet = t.parenNet) : a.step opens u = a.step opens t := by
  unfold Tally.step
  rw [hopens, hnet]

namespace Scan

variable {p : Policy} {s : State} {t u next next' : Text}

theorem step_condition_of_alike (h : t.Alike u) (a : Tally) :
    a.step Text.opensCondition u.trimLeft = a.step Text.opensCondition t.trimLeft := by
  refine a.step_congr h.condition ?_
  rw [Text.parenNet_trimLeft, Text.parenNet_trimLeft, h.net]

theorem step_result_of_alike (h : t.Alike u) (a : Tally) :
    a.step Text.opensResult u.trimLeft = a.step Text.opensResult t.trimLeft := by
  refine a.step_congr h.result ?_
  rw [Text.parenNet_trimLeft, Text.parenNet_trimLeft, h.net]

/-- Lines that are alike leave the same state behind. -/
theorem after_of_alike (h : t.Alike u) (s : State) : after s u = after s t := by
  have hfields : ∀ t, after s t = ⟨(after s t).parens, (after s t).brackets,
      (after s t).declaration, (after s t).condition, (after s t).result⟩ := fun _ => rfl
  rw [hfields u, hfields t, State.mk.injEq]
  refine ⟨?_, ?_, ?_, ?_, ?_⟩
  · rw [after_parens, after_parens, h.parens]
  · rw [after_brackets, after_brackets, h.brackets]
  · rw [after_declaration, after_declaration, h.bare, h.semicolon]
  · rw [after_condition, after_condition, step_condition_of_alike h]
  · rw [after_result, after_result, step_result_of_alike h]

theorem holds_of_alike (h : t.Alike u) (s : State) : holds s u = holds s t := by
  rw [holds_eq, holds_eq, h.bare, step_condition_of_alike h, step_result_of_alike h]

theorem lacks_of_alike (h : t.Alike u) (hnext : next'.picksUp = next.picksUp) :
    Lacks p s u next' ↔ Lacks p s t next := by
  have hafter := after_of_alike h s
  have hholds := holds_of_alike h s
  constructor
  · rintro ⟨h1, h2, h3, h4, h5, h6⟩
    exact ⟨hafter ▸ h1, h.endsOpen ▸ h2, hnext ▸ h3, hholds ▸ h4, h.dangles ▸ h5,
      h.ignorable p ▸ h6⟩
  · rintro ⟨h1, h2, h3, h4, h5, h6⟩
    exact ⟨hafter ▸ h1, h.endsOpen ▸ h2, hnext ▸ h3, hholds ▸ h4, h.dangles ▸ h5,
      h.ignorable p ▸ h6⟩

/-! ### A file of such lines -/

theorem picksUp_head_of_alike {lines lines' : List Text}
    (h : List.Forall₂ Text.Alike lines lines') :
    (lines'.headD []).picksUp = (lines.headD []).picksUp := by
  cases h with
  | nil => rfl
  | cons halike _ => exact halike.picksUp

/-- The two scans give the same answer on every line, since each line leaves both of them in the
same state. -/
theorem isMissing_stepsFrom_of_alike (p : Policy) (s : State) {lines lines' : List Text}
    (h : List.Forall₂ Text.Alike lines lines') :
    (stepsFrom p s lines').map Step.isMissing = (stepsFrom p s lines).map Step.isMissing := by
  induction h generalizing s with
  | nil => rfl
  | @cons t u rest rest' halike hrest ih =>
      rw [stepsFrom, stepsFrom, List.map_cons, List.map_cons]
      have hhead : (step p s u (rest'.headD [])).isMissing
          = (step p s t (rest.headD [])).isMissing := by
        rw [Bool.eq_iff_iff, isMissing_step_iff, isMissing_step_iff]
        exact lacks_of_alike halike (picksUp_head_of_alike hrest)
      have hstate : (step p s u (rest'.headD [])).state = (step p s t (rest.headD [])).state :=
        after_of_alike halike s
      rw [hhead, hstate, ih]

/-- Lines that are changed one by one, each into one that is related to it. -/
theorem forall₂_mapIdx {R : Text → Text → Prop} {change : Nat → Text → Text} {lines : List Text}
    (h : ∀ i t, lines[i]? = some t → R t (change i t)) :
    List.Forall₂ R lines (lines.mapIdx change) := by
  refine List.forall₂_iff_get.mpr ⟨List.length_mapIdx.symm, ?_⟩
  intro i hi hi'
  rw [List.get_eq_getElem, List.get_eq_getElem, List.getElem_mapIdx]
  exact h i _ (List.getElem?_eq_getElem hi)

theorem missingFrom_congr {k : Nat} {sts sts' : List Step}
    (h : sts'.map Step.isMissing = sts.map Step.isMissing) :
    missingFrom k sts' = missingFrom k sts := by
  induction sts generalizing k sts' with
  | nil => rw [List.map_eq_nil_iff.mp h]
  | cons st rest ih =>
      obtain ⟨st', rest', rfl, hst, hrest⟩ := List.map_eq_cons_iff.mp h
      rw [missingFrom, missingFrom, hst, ih hrest]

/-- **Files whose lines are alike lack the same semicolons.** -/
theorem missing_of_alike (p : Policy) {lines lines' : List Text}
    (h : List.Forall₂ Text.Alike lines lines') : missing p lines' = missing p lines :=
  missingFrom_congr (isMissing_stepsFrom_of_alike p {} h)

end Scan

end Semicolon
