/-
States that no line can tell apart.

A block that counts brackets keeps its count when it closes, and so does one that a trigger with
balanced brackets never opened.  Nothing reads the count of an idle block again.  Two scans
that differ only there give the same verdicts for ever, and `State.Agrees` says so: it is
kept by every line, and agreeing states judge a line alike.
-/
import Semicolon.Proofs.Pass

namespace Semicolon

/-! ### States that no line can tell apart -/

/-- Two counting blocks that are both idle, or pending with the same count. -/
structure Tally.Agrees (a b : Tally) : Prop where
  pending : a.pending = b.pending
  net : a.pending = true → a.net = b.net

/-- Two states that differ at most in the counts of idle blocks. -/
structure State.Agrees (s s' : State) : Prop where
  parens : s.parens = s'.parens
  brackets : s.brackets = s'.brackets
  declaration : s.declaration = s'.declaration
  condition : s.condition.Agrees s'.condition
  result : s.result.Agrees s'.result

theorem Tally.Agrees.refl (a : Tally) : a.Agrees a := ⟨rfl, fun _ => rfl⟩

theorem State.Agrees.refl (s : State) : s.Agrees s :=
  ⟨rfl, rfl, rfl, Tally.Agrees.refl _, Tally.Agrees.refl _⟩

theorem Tally.agrees_of_idle {a b : Tally} (ha : a.pending = false) (hb : b.pending = false) :
    a.Agrees b :=
  ⟨ha.trans hb.symm, fun h => absurd (ha.symm.trans h) Bool.false_ne_true⟩

namespace Tally

variable {opens : Text → Bool} {a b : Tally} {t t' : Text}

/-- Blocks that agree take the same step. -/
theorem Agrees.step (h : a.Agrees b) (t : Text) :
    (a.step opens t).1.Agrees (b.step opens t).1 ∧ (a.step opens t).2 = (b.step opens t).2 := by
  unfold Tally.step
  rw [← h.pending]
  by_cases hp : a.pending = true
  · simp only [if_pos hp, h.net hp]
    exact ⟨Agrees.refl _, trivial⟩
  · simp only [if_neg hp]
    split
    · exact ⟨Agrees.refl _, rfl⟩
    · exact ⟨h, rfl⟩

/-- A block that does not hold a line is idle before it, and the line is no trigger. -/
theorem idle_of_not_held (h : (a.step opens t).2 = false) :
    a.pending = false ∧ (opens t = true → t.parenNet ≤ 0) := by
  unfold Tally.step at h
  by_cases hp : a.pending = true
  · rw [if_pos hp] at h
    exact absurd h (by simp)
  · refine ⟨by simpa using hp, fun ho => ?_⟩
    rw [if_neg hp, if_pos ho] at h
    simpa using h

/-- An idle block stays idle on a line that is no trigger. -/
theorem step_idle (ha : a.pending = false) (ht : opens t = true → t.parenNet ≤ 0) :
    (a.step opens t).1.pending = false := by
  unfold Tally.step
  rw [if_neg (by simp [ha])]
  split
  · rename_i ho
    simpa using ht ho
  · exact ha

/-- If a line is held by neither of two blocks that agree, they agree after it, even if one of
them has seen the line in a form that triggers less. -/
theorem Agrees.step_of_not_held (h : a.Agrees b) (hfree : (a.step opens t).2 = false)
    (hopens : opens t' = true → opens t = true) (hnet : t'.parenNet = t.parenNet) :
    (a.step opens t).1.Agrees (b.step opens t').1 := by
  obtain ⟨hidle, htrigger⟩ := idle_of_not_held hfree
  refine agrees_of_idle (step_idle hidle htrigger) (step_idle ?_ ?_)
  · rw [← h.pending]
    exact hidle
  · intro ho
    rw [hnet]
    exact htrigger (hopens ho)

end Tally

namespace Scan

variable {p : Policy} {s s' : State} {t next next' : Text}

theorem after_agrees (h : s.Agrees s') (t : Text) : (after s t).Agrees (after s' t) where
  parens := by rw [after_parens, after_parens, h.parens]
  brackets := by rw [after_brackets, after_brackets, h.brackets]
  declaration := by rw [after_declaration, after_declaration, h.declaration]
  condition := (h.condition.step _).1
  result := (h.result.step _).1

theorem holds_agrees (h : s.Agrees s') (t : Text) : holds s t = holds s' t := by
  rw [holds_eq, holds_eq, h.declaration, (h.condition.step _).2, (h.result.step _).2]

/-- Agreeing states give a line the same verdict, as do lines below that start alike. -/
theorem lacks_congr (h : s.Agrees s') (hnext : next.picksUp = next'.picksUp) :
    Lacks p s t next ↔ Lacks p s' t next' := by
  have hafter := after_agrees h t
  have hgroup : (after s t).insideGroup = (after s' t).insideGroup := by
    rw [State.insideGroup, State.insideGroup, hafter.parens, hafter.brackets]
  have hheld := holds_agrees h t
  constructor
  · intro hl
    exact ⟨hgroup ▸ hl.outside, hl.complete, hnext ▸ hl.unresumed, hheld ▸ hl.free, hl.settled,
      hl.accountable⟩
  · intro hl
    exact ⟨hgroup ▸ hl.outside, hl.complete, hnext ▸ hl.unresumed, hheld ▸ hl.free, hl.settled,
      hl.accountable⟩

end Scan

end Semicolon
