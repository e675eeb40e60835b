/-
What the verdict on a line rests on.

Several of the rules can never decide anything, because another one has already spoken.  A next
line that begins with `&&` begins with a binary operator; a line that is `&&` ends in it; and a
line that is neither a continuation nor ignorable never has its terminator, since every way
to have one is among the structural endings.  With those out of the way a semicolon is missing
exactly on a line that neither continues a statement nor is ignorable, and the line below
counts only through its first glyph.
-/
import Semicolon.Line.Verdict
import Semicolon.Proofs.Split

namespace Semicolon

/-- A line whose first glyph shows that it goes on with the statement of the line above. -/
def Text.picksUp (t : Text) : Bool := t.trimLeft.first?.any (·.among ")]+-*/%^|&?:")

/-- A line that ends in an operator of logic or is an arm of a conditional expression. -/
def Text.dangles (t : Text) : Bool :=
  t.endsWithAny ["&&", "||"] || t.trimLeft.first?.any (·.among "?:")

namespace Line

/-! ### The rules that decide -/

theorem isResumedBy_eq (l : Line) (next : Text) :
    l.isResumedBy next = next.trimLeft.first?.any (·.among ")]+-*/%^|&") := by
  have hlogic : next.trimLeft.startsWithAny logicalOperators = true →
      next.trimLeft.first?.any (·.among binaryOperators) = true := by
    intro h
    simp only [Text.startsWithAny, List.any_eq_true] at h
    obtain ⟨word, hword, hstart⟩ := h
    have hfirst : ∀ word ∈ logicalOperators,
        (Text.ofString word).first?.any (·.among binaryOperators) = true := by decide
    exact Text.first?_any_of_startsWith hstart (hfirst word hword)
  have hcloser : next.trimLeft.startsWith ")" = true →
      next.trimLeft.first?.any (·.among ")]") = true :=
    fun h => Text.first?_any_of_startsWith h (by decide)
  rw [show ")]+-*/%^|&" = ")]" ++ binaryOperators by decide, Text.any_among_append]
  unfold isResumedBy
  cases hP : next.trimLeft.first?.any (·.among ")]") with
  | true => simp only [hP, Bool.true_or]
  | false =>
      rw [hP] at hcloser
      cases hC : next.trimLeft.first?.any (·.among binaryOperators) with
      | true => simp only [hC, Bool.or_true, Bool.true_or]
      | false =>
          rw [hC] at hlogic
          have hB : next.trimLeft.startsWithAny logicalOperators = false := by simpa using hlogic
          have hD : next.trimLeft.startsWith ")" = false := by simpa using hcloser
          simp only [hP, hC, hB, hD, Bool.or_false, Bool.false_and]

theorem isArm_eq (l : Line) (next : Text) :
    l.isArm next = (next.trimLeft.first?.any (·.among "?:") || l.text.dangles) := by
  have hword : ∀ word ∈ logicalOperators, ∀ g ∈ Text.ofString word, g.isBlank = false := by
    decide
  have hends : l.text.trimLeft.endsWithAny logicalOperators
      = l.text.endsWithAny logicalOperators := Text.endsWithAny_trimLeft hword
  have hwhole : l.text.trimLeft.isOneOf logicalOperators = true →
      l.text.trimLeft.endsWithAny logicalOperators = true := by
    intro h
    simp only [Text.isOneOf, List.any_eq_true, decide_eq_true_eq] at h
    obtain ⟨word, hmem, heq⟩ := h
    rw [Text.endsWithAny_iff, heq]
    exact ⟨word, hmem, List.suffix_refl _⟩
  rw [hends] at hwhole
  have hdrop : (l.text.trimLeft.isOneOf logicalOperators || l.text.endsWithAny logicalOperators)
      = l.text.endsWithAny logicalOperators := by
    cases h : l.text.trimLeft.isOneOf logicalOperators with
    | true => rw [hwhole h, Bool.true_or]
    | false => rw [Bool.false_or]
  unfold isArm Text.dangles
  simp only [hends, hdrop]
  rw [Bool.or_assoc, Bool.or_left_comm]
  rfl

/-- **Whether a line continues a statement, without the rules that never decide.** -/
theorem continues_eq (l : Line) (next : Text) (s : State) (held : Bool) :
    l.continues next s held
      = (s.insideGroup || l.endsOpen || next.picksUp || held || l.text.dangles) := by
  have hpick : next.picksUp = (next.trimLeft.first?.any (·.among ")]+-*/%^|&")
      || next.trimLeft.first?.any (·.among "?:")) := by
    rw [← Text.any_among_append]
    rfl
  rw [continues, isResumedBy_eq, isArm_eq, hpick]
  simp only [Bool.or_assoc, Bool.or_left_comm]

end Line

/-! ### Lines that are not ignorable -/

namespace Text

theorem isBlank_code_of_not_ignorable {t : Text} {p : Policy} (h : t.isIgnorable p = false) :
    (Line.split t).1.isBlank = false := by
  simp only [isIgnorable, Bool.or_eq_false_iff] at h
  rw [Line.split_trimLeft, isBlank_trimLeft] at h
  exact h.1.1.1.1

/-- Code that ends in a structural character makes its line ignorable. -/
theorem isIgnorable_of_endsStructurally {t : Text} (p : Policy)
    (h : (Line.split t).1.trimLeft.endsStructurally = true) : t.isIgnorable p = true := by
  simp only [isIgnorable, Line.split_trimLeft, h, Bool.or_true]

/-- Code that ends in a character which is by itself a structural ending. -/
theorem isIgnorable_of_last {t : Text} {c : Char} (p : Policy)
    (hlast : (Line.split t).1.last? = some (.char c))
    (hc : String.ofList [c] ∈ structuralEnds) : t.isIgnorable p = true := by
  by_cases hblank : (Line.split t).1.isBlank = true
  · simp only [isIgnorable, Line.split_trimLeft, isBlank_trimLeft, hblank, Bool.true_or]
  · refine isIgnorable_of_endsStructurally p ?_
    rw [endsStructurally, Bool.or_eq_true, endsWithAny_iff]
    refine Or.inr ⟨_, hc, ?_⟩
    rw [← last?_trimLeft (by simpa using hblank)] at hlast
    simpa [ofString] using endsWith_singleton hlast

/-- A line that is not ignorable lacks its terminator: a semicolon or a comma at the end of the
code would have made it ignorable. -/
theorem needsTerminator_of_not_ignorable {t : Text} {p : Policy}
    (h : t.isIgnorable p = false) : (Line.split t).1.needsTerminator = true := by
  have hnot : ∀ c : Char, String.ofList [c] ∈ structuralEnds →
      (Line.split t).1.last? ≠ some (.char c) := by
    intro c hc hlast
    rw [isIgnorable_of_last p hlast hc] at h
    exact Bool.noConfusion h
  unfold needsTerminator
  cases hlast : (Line.split t).1.last? with
  | none => rfl
  | some g =>
      have hsemi : g ≠ .char ';' := by
        rintro rfl
        exact hnot ';' (by decide) hlast
      have hcomma : g ≠ .char ',' := by
        rintro rfl
        exact hnot ',' (by decide) hlast
      simp [hsemi, hcomma]

end Text

/-- **A semicolon is missing exactly on a line that neither continues a statement nor is
ignorable.** -/
theorem Line.verdict_eq_missing_iff {t next : Text} {s : State} {held : Bool} {p : Policy} :
    (Line.ofText t).verdict next s held p = .missing ↔
      (Line.ofText t).continues next s held = false ∧ t.isIgnorable p = false := by
  unfold Line.verdict
  cases hcont : (Line.ofText t).continues next s held with
  | true => simp
  | false =>
      cases hign : t.isIgnorable p with
      | true => simp [Line.ofText, hign]
      | false =>
          have hneeds : (Line.ofText t).code.needsTerminator = true :=
            Text.needsTerminator_of_not_ignorable hign
          simp [hneeds, show (Line.ofText t).text.isIgnorable p = false from hign]

end Semicolon
