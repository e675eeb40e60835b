/-
Lines that are closed already.

A line whose code ends in a semicolon, a brace, a colon, a comma, an opening bracket or an arrow is
left alone: no semicolon is put behind such an ending, whatever the state and the policy.

The end that counts is the end of the code as it stands.  The code of a line with a comment loses
its trailing blanks when the comment is cut off, so there they are of no consequence.  A line
without a comment is all code, and blanks at its end are the end of it: `a; ` does not end in a
semicolon.  So the statement is about lines that have a comment or do not end in a blank, and each
of the endings shows that it could not be about all lines.
-/
import Semicolon.Proofs.Pass

namespace Semicolon

namespace Text

/-- Without its comment and the blanks in front of it or at its end, the line ends in a character
that closes a statement or leaves it open on purpose. -/
def isClosed (t : Text) : Bool :=
  (Line.split t).1.trimRight.endsWithAny [";", "\x7b", "\x7d", ":", ",", "(", "=>"]

variable {t : Text}

theorem trimRight_of_last (h : t.last?.any Glyph.isBlank = false) : t.trimRight = t := by
  refine List.rdropWhile_eq_self_iff.mpr ?_
  intro hne
  rw [last?, List.getLast?_eq_some_getLast hne, Option.any_some] at h
  simp [h]

/-- Nothing is left to trim at the end of the code if a comment took the blanks with it, or if there
are none. -/
theorem trimRight_code (h : (Line.split t).2 ≠ [] ∨ t.last?.any Glyph.isBlank = false) :
    (Line.split t).1.trimRight = (Line.split t).1 := by
  by_cases hmark : (Line.cut none t).2 = []
  · rw [Line.split_of_unmarked hmark]
    refine trimRight_of_last (h.resolve_left ?_)
    rw [Line.split_of_unmarked hmark]
    exact fun hne => hne rfl
  · rw [Line.split_of_marked hmark]
    exact List.rdropWhile_idempotent _ _

/-- A closed line is of a kind that takes no semicolon. -/
theorem isIgnorable_of_isClosed (p : Policy) (h : t.isClosed = true)
    (hend : (Line.split t).2 ≠ [] ∨ t.last?.any Glyph.isBlank = false) :
    t.isIgnorable p = true := by
  rw [isClosed, trimRight_code hend] at h
  refine isIgnorable_of_endsStructurally p ?_
  rw [endsStructurally, Bool.or_eq_true]
  right
  rw [endsWithAny_trimLeft (by decide)]
  exact h

end Text

namespace Scan

/-- **A closed line is left alone.**  If the code of a line ends in a semicolon, a brace, a colon, a
comma, an opening bracket or an arrow, and the line has a comment or no blanks at its end, then
no semicolon is missing on it, and mending the file leaves it as it is. -/
theorem closed_left_alone (p : Policy) (lines : List Text) (i : Nat) (t : Text)
    (ht : lines[i]? = some t) (hclosed : t.isClosed = true)
    (hend : (Line.split t).2 ≠ [] ∨ t.last?.any Glyph.isBlank = false) :
    i + 1 ∉ missing p lines ∧ (mended p lines)[i]? = some t := by
  have hnot : i + 1 ∉ missing p lines := by
    intro hmem
    have hign := Text.isIgnorable_of_isClosed p hclosed hend
    rw [(lacks_of_mem_missing ht hmem).accountable] at hign
    exact Bool.noConfusion hign
  refine ⟨hnot, ?_⟩
  rw [getElem?_mended, ht, Option.map_some, if_neg hnot]

/-- A line whose comment stands behind an opening brace and blanks. -/
def openedLines : List Text := [Text.ofString "a = \x7b  // b", Text.ofString "c"]

theorem closed_left_alone_opened :
    (Text.ofString "a = \x7b  // b").isClosed = true ∧
    (Line.split (Text.ofString "a = \x7b  // b")).2 ≠ [] ∧
    1 ∉ missing {} openedLines ∧
    (mended {} openedLines)[0]? = some (Text.ofString "a = \x7b  // b") := by
  have hclosed : (Text.ofString "a = \x7b  // b").isClosed = true := by decide
  have hcomment : (Line.split (Text.ofString "a = \x7b  // b")).2 ≠ [] := by decide
  exact ⟨hclosed, hcomment, closed_left_alone {} openedLines 0 _ rfl hclosed (Or.inl hcomment)⟩

/-- Each of the endings in front of a blank.  The first line takes the depth below zero, so that the
bracket in the second one does not make it a continuation. -/
def looseLines : List Text :=
  [Text.ofString ")", Text.ofString "f( ", Text.ofString "a; ", Text.ofString "g \x7b ",
    Text.ofString "\x7d ", Text.ofString "case 1: ", Text.ofString "b, ", Text.ofString "() => "]

/-- Blanks at the end of a line without a comment hide every one of the endings. -/
theorem closed_before_blank_missing :
    (∀ t ∈ looseLines.drop 1, t.isClosed = true) ∧
    missing {} looseLines = [1, 2, 3, 4, 5, 6, 7, 8] ∧
    (mended {} looseLines)[2]? = some (Text.ofString "a; ;") := by
  decide

end Scan

end Semicolon
