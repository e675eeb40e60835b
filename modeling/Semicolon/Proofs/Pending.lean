/-
When a block is pending, and when one opens.

A block that counts brackets has a flag beside its count, and the flag is all that the next line is
asked by.  It says no more than the count does: the block is pending exactly while the count is
positive.  The count of an idle block is what its last trigger or its closing line left, and each of
them leaves nothing above zero, so this holds in whatever order the steps of a state are taken, and
whatever texts they see.

A line that opens a block begins in a way that no other block opens on: with the whole of a keyword,
with a condition after closing braces, or with `return` and no brace.  So of the three blocks a line
opens one at most.
-/
import Semicolon.Proofs.Nesting

namespace Semicolon

/-! ### What can be done to a state -/

/-- One operation on a state, with the texts that it sees.  Nothing is said of the texts: in
particular the second one of a pair need not be the first without its indentation. -/
inductive Act where
  | deepen (code : Text)
  | stepDeclaration (raw trimmed : Text)
  | stepCondition (t : Text)
  | stepResult (t : Text)
  | stepBlocks (raw trimmed : Text)
  deriving DecidableEq, Repr

namespace State

/-- The state after one operation. -/
def act (s : State) : Act → State
  | .deepen code => s.deepen code
  | .stepDeclaration raw trimmed => (s.stepDeclaration raw trimmed).1
  | .stepCondition t => (s.stepCondition t).1
  | .stepResult t => (s.stepResult t).1
  | .stepBlocks raw trimmed => (s.stepBlocks raw trimmed).1

/-- The state that operations lead to from a fresh one. -/
def reached (acts : List Act) : State := acts.foldl act {}

end State

/-! ### The flag and the count -/

namespace Tally

/-- The flag says what the count says. -/
def Counted (b : Tally) : Prop := b.pending = true ↔ 0 < b.net

theorem Counted.step {b : Tally} (h : b.Counted) (opens : Text → Bool) (t : Text) :
    (b.step opens t).1.Counted := by
  unfold Tally.step
  by_cases hp : b.pending = true
  · rw [if_pos hp]
    exact decide_eq_true_iff
  · rw [if_neg hp]
    by_cases ho : opens t = true
    · rw [if_pos ho]
      exact decide_eq_true_iff
    · rw [if_neg ho]
      exact h

end Tally

namespace State

/-- Both counting blocks say what their counts say. -/
def Counted (s : State) : Prop := ∀ c : Counter, (s.tally c).Counted

theorem counted_fresh : Counted {} := by
  intro c
  cases c <;> simp [tally, Tally.Counted]

/-- Only the two counting blocks matter, and each of them is left alone or takes a step. -/
theorem Counted.act {s : State} (h : s.Counted) (a : Act) : (s.act a).Counted := by
  have hcondition : ∀ t, (s.condition.step Text.opensCondition t).1.Counted := fun t =>
    (h .condition).step _ t
  have hresult : ∀ t, (s.result.step Text.opensResult t).1.Counted := fun t => (h .result).step _ t
  intro c
  cases a with
  | deepen code | stepDeclaration raw trimmed =>
      cases c with
      | condition => exact h .condition
      | result => exact h .result
  | stepCondition t =>
      cases c with
      | condition => exact hcondition t
      | result => exact h .result
  | stepResult t =>
      cases c with
      | condition => exact h .condition
      | result => exact hresult t
  | stepBlocks raw trimmed =>
      cases c with
      | condition => exact hcondition trimmed
      | result => exact hresult trimmed

theorem Counted.foldl {s : State} (h : s.Counted) (acts : List Act) :
    (acts.foldl State.act s).Counted := by
  induction acts generalizing s with
  | nil => exact h
  | cons a rest ih => exact ih (h.act a)

theorem counted_reached (acts : List Act) : (reached acts).Counted := counted_fresh.foldl acts

end State

/-! ### What opens a block opens no other -/

/-- The three blocks. -/
inductive Block where
  | declaration
  | counting (c : Counter)
  deriving DecidableEq, Repr

namespace Block

/-- All of them. -/
def all : List Block := [.declaration, .counting .condition, .counting .result]

/-- Can the block open on this text? -/
def opens : Block → Text → Bool
  | .declaration => Text.isBareDeclaration
  | .counting c => c.opens

end Block

namespace Text

theorem not_opens_of_isBareDeclaration {t : Text} (h : t.isBareDeclaration = true) (c : Counter) :
    c.opens t = false := by
  have hword : ∀ word ∈ ["const", "let", "var"], c.opens (ofString word) = false := by
    cases c <;> decide
  simp only [isBareDeclaration, isOneOf, List.any_eq_true, decide_eq_true_eq] at h
  obtain ⟨word, hmem, heq⟩ := h
  rw [heq]
  exact hword word hmem

/-- No blank and no brace comes before `return`, and no condition begins with its letter. -/
theorem not_opensCondition_of_opensResult {t : Text} (h : t.opensResult = true) :
    t.opensCondition = false := by
  have hstart : t.startsWith "return" = true := by
    simp only [opensResult, Bool.and_eq_true] at h
    exact h.1
  obtain ⟨rest, rfl⟩ := startsWith_iff.mp hstart
  have hletter : ∀ word ∈ ["if ", "if(", "while ", "while(", "for ", "for(", "else if"],
      (ofString word).first?.any (·.among "iwfe") = true := by decide
  rw [Bool.eq_false_iff, opensCondition]
  show ¬ Text.startsWithAny (ofString "return" ++ rest) _ = true
  intro hcondition
  obtain ⟨word, hmem, hword⟩ := startsWithAny_iff.mp hcondition
  have hfirst : Text.first? (ofString "return" ++ rest) |>.any (·.among "iwfe") :=
    first?_any_of_startsWith (startsWith_iff.mpr hword) (hletter word hmem)
  exact absurd hfirst (by simp [first?, ofString, Glyph.among])

/-- **Of two blocks that can open on a text neither is the other.** -/
theorem opens_unique {t : Text} {b b' : Block} (h : b.opens t = true) (h' : b'.opens t = true) :
    b = b' := by
  have hbare : ∀ c : Counter, t.isBareDeclaration = true → c.opens t = true → False := by
    intro c hbare hc
    rw [not_opens_of_isBareDeclaration hbare c] at hc
    exact Bool.noConfusion hc
  have hboth : t.opensCondition = true → t.opensResult = true → False := by
    intro hcondition hresult
    rw [not_opensCondition_of_opensResult hresult] at hcondition
    exact Bool.noConfusion hcondition
  cases b with
  | declaration =>
      cases b' with
      | declaration => rfl
      | counting c => exact (hbare c h h').elim
  | counting c =>
      cases b' with
      | declaration => exact (hbare c h' h).elim
      | counting c' =>
          cases c <;> cases c'
          · rfl
          · exact (hboth h h').elim
          · exact (hboth h' h).elim
          · rfl

end Text

/-- A counting block that goes from idle to pending was opened by the text. -/
theorem Tally.opens_of_pending {opens : Text → Bool} {b : Tally} {t : Text}
    (hidle : b.pending = false) (h : (b.step opens t).1.pending = true) : opens t = true := by
  by_contra ho
  unfold Tally.step at h
  rw [if_neg (by simp [hidle]), if_neg ho] at h
  exact absurd (hidle.symm.trans h) Bool.false_ne_true

namespace State

/-- Is the block pending? -/
def isPending (s : State) : Block → Bool
  | .declaration => s.declaration
  | .counting c => (s.tally c).pending

/-- Does the line with this text move the block from idle to pending? -/
def starts (s : State) (raw : Text) (b : Block) : Bool :=
  !s.isPending b && (s.stepBlocks raw raw.trimLeft).1.isPending b

theorem opens_of_starts {s : State} {raw : Text} {b : Block} (h : s.starts raw b = true) :
    b.opens raw.trimLeft = true := by
  simp only [starts, Bool.and_eq_true, Bool.not_eq_true'] at h
  obtain ⟨hidle, hpending⟩ := h
  cases b with
  | declaration =>
      have hdeclared : ((s.declaration || raw.trimLeft.isBareDeclaration) && !raw.has ';') = true :=
        hpending
      rw [show s.declaration = false from hidle, Bool.false_or, Bool.and_eq_true] at hdeclared
      exact hdeclared.1
  | counting c =>
      cases c with
      | condition => exact Tally.opens_of_pending hidle hpending
      | result => exact Tally.opens_of_pending hidle hpending

/-- **A counting block is pending exactly while its count is positive,** after any operations on a
fresh state in any order and with any texts; and in any state, reached or not, **a line opens at
most one of the three blocks.** -/
theorem pending_iff_positive :
    (∀ (acts : List Act) (c : Counter),
      ((reached acts).tally c).pending = true ↔ 0 < ((reached acts).tally c).net) ∧
    ∀ (s : State) (raw : Text), (Block.all.filter (s.starts raw)).length ≤ 1 := by
  refine ⟨fun acts c => counted_reached acts c, fun s raw => ?_⟩
  have hnodup : (Block.all.filter (s.starts raw)).Nodup := List.Nodup.filter _ (by decide)
  have hopens : ∀ b ∈ Block.all.filter (s.starts raw), b.opens raw.trimLeft = true :=
    fun b hb => opens_of_starts (List.of_mem_filter hb)
  match Block.all.filter (s.starts raw), hnodup, hopens with
  | [], _, _ | [_], _, _ => simp
  | b :: b' :: rest, hnodup, hopens =>
      have hsame : b = b' := Text.opens_unique (hopens b (by simp)) (hopens b' (by simp))
      simp [hsame] at hnodup

/-- A condition that opens while a declaration is pending; its own line leaves one block more
pending than it found. -/
example :
    let s := reached [.stepBlocks (Text.ofString "let") (Text.ofString "let")]
    Block.all.filter (s.starts (Text.ofString "\x7d else if (a")) = [.counting .condition] := by
  decide

end State

end Semicolon
