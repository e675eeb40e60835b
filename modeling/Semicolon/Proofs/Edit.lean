/-
What mending changes.

A line is changed exactly if it is reported, and a changed line gains one semicolon and loses
nothing but the blanks between its code and its comment.  That every reported line really does
change needs no look at the line: blanks hold no semicolon.  What keeps the edit from touching
a comment is that the code is never blank, so a line of comment alone is never reported.
-/
import Semicolon.Proofs.Pass

namespace Semicolon

/-- `new` is `old` with a semicolon where the blanks between its code and its comment were. -/
def Line.Mends (old new : Text) : Prop :=
  ∃ code w comment : Text,
    old = code ++ w ++ comment ∧
    new = code ++ .char ';' :: comment ∧
    (∀ g ∈ w, g.isBlank = true) ∧
    (comment = [] → w = []) ∧
    code.isBlank = false ∧
    (comment = [] ∨ comment.startsWith "//" = true) ∧
    Line.split old = (code, comment) ∧
    Line.split new = (code ++ [.char ';'], comment)

namespace Line

theorem terminated_mends {t : Text} (hcode : (split t).1.isBlank = false) :
    Mends t (ofText t).terminated := by
  obtain ⟨w, hw, hparts, hnone⟩ := split_parts t
  exact ⟨(split t).1, w, (split t).2, hparts, rfl, Text.isBlank_iff.mp hw, hnone, hcode,
    split_comment t, rfl, split_terminated t⟩

/-- A semicolon put in is a change: there was none among the blanks it replaces. -/
theorem terminated_ne (t : Text) : (ofText t).terminated ≠ t := by
  obtain ⟨w, hw, hparts, -⟩ := split_parts t
  intro heq
  have hwhole : (split t).1 ++ .char ';' :: (split t).2 = (split t).1 ++ (w ++ (split t).2) := by
    rw [← List.append_assoc, ← hparts]
    exact heq
  have hcancel : .char ';' :: (split t).2 = w ++ (split t).2 := List.append_cancel_left hwhole
  cases w with
  | nil =>
      have hlen := congrArg List.length hcancel
      simp at hlen
  | cons g w =>
      have hg : Glyph.char ';' = g := (List.cons.inj hcancel).1
      have hblank := Text.isBlank_iff.mp hw g List.mem_cons_self
      rw [← hg] at hblank
      exact absurd hblank (by decide)

end Line

namespace Scan

/-- **The missing lines are exactly the changed ones, and every change is a single semicolon.**
The mended text has as many lines as the file; the missing lines are numbered upwards within it;
and line by line the text differs exactly where a semicolon was missing, by that semicolon and
the blanks before a comment. -/
theorem mended_ne_iff_missing (p : Policy) (lines : List Text) :
    (mended p lines).length = lines.length ∧
    (missing p lines).Pairwise (· < ·) ∧
    (∀ n ∈ missing p lines, 1 ≤ n ∧ n ≤ lines.length) ∧
    ∀ i, ((mended p lines).getD i [] ≠ lines.getD i [] ↔ i + 1 ∈ missing p lines) ∧
      (i + 1 ∈ missing p lines → Line.Mends (lines.getD i []) ((mended p lines).getD i [])) := by
  refine ⟨length_mended p lines, missing_pairwise p lines, ?_, ?_⟩
  · intro n hn
    cases n with
    | zero => exact absurd hn (zero_not_mem_missing p lines)
    | succ i =>
        obtain ⟨t, ht, -⟩ := succ_mem_missing_iff.mp hn
        obtain ⟨hi, -⟩ := List.getElem?_eq_some_iff.mp ht
        omega
  · intro i
    rw [List.getD_eq_getElem?_getD, List.getD_eq_getElem?_getD, getElem?_mended]
    by_cases hmem : i + 1 ∈ missing p lines
    · obtain ⟨t, ht, hlacks⟩ := succ_mem_missing_iff.mp hmem
      have hcode := Text.isBlank_code_of_not_ignorable hlacks.accountable
      simp only [ht, Option.map_some, Option.getD_some, if_pos hmem]
      exact ⟨⟨fun _ => hmem, fun _ => Line.terminated_ne t⟩,
        fun _ => Line.terminated_mends hcode⟩
    · simp only [if_neg hmem, Option.map_id_fun']
      exact ⟨⟨fun h => absurd rfl h, fun h => absurd h hmem⟩, fun h => absurd h hmem⟩

end Scan

end Semicolon
