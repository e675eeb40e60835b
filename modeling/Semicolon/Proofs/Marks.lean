/-
Where the comment of a line starts.

The search for the comment goes through a line glyph by glyph and remembers nothing but the glyph
that it has just left.  What it finds is a matter of the whole line: the marks of a line are the
places where two slashes stand and no colon stands right before them, and the comment starts at
the least of them.  Marks may overlap what is no mark.  In `http:///` the first two slashes stand
after the colon, and the last two are a mark all the same, since what stands before those is a
slash.

The laws of splitting a line again follow from where the code ends, and not from another search:
the code holds no mark, a semicolon after it makes none, and blanks in front of the line move
every mark by their number.
-/
import Mathlib.Order.Bounds.Basic
import Semicolon.Proofs.Split

namespace Semicolon.Line

/-- Two slashes stand at this place of the text, and no colon right before it. -/
def IsMark (t : Text) (k : Nat) : Prop :=
  Text.startsWith (t.drop k) "//" = true ∧ (k = 0 ∨ t[k - 1]? ≠ some (.char ':'))

instance (t : Text) (k : Nat) : Decidable (IsMark t k) := inferInstanceAs (Decidable (_ ∧ _))

/-! ### The search, from the middle of a line -/

/-- The glyph right before a place of a text that `before` stands in front of. -/
def glyphBefore (before : Option Glyph) (t : Text) : Nat → Option Glyph
  | 0 => before
  | k + 1 => t[k]?

/-- A mark of a text that `before` stands in front of. -/
def IsMarkAfter (before : Option Glyph) (t : Text) (k : Nat) : Prop :=
  Text.startsWith (t.drop k) "//" = true ∧ glyphBefore before t k ≠ some (.char ':')

theorem isMarkAfter_none {t : Text} {k : Nat} : IsMarkAfter none t k ↔ IsMark t k := by
  cases k with
  | zero => simp [IsMarkAfter, IsMark, glyphBefore]
  | succ k => simp [IsMarkAfter, IsMark, glyphBefore]

theorem glyphBefore_cons (before : Option Glyph) (g : Glyph) (t : Text) (k : Nat) :
    glyphBefore before (g :: t) (k + 1) = glyphBefore (some g) t k := by
  cases k <;> rfl

/-- The marks behind the first glyph are those of the rest, one place further on. -/
theorem isMarkAfter_cons {before : Option Glyph} {g : Glyph} {t : Text} {k : Nat} :
    IsMarkAfter before (g :: t) (k + 1) ↔ IsMarkAfter (some g) t k := by
  rw [IsMarkAfter, IsMarkAfter, glyphBefore_cons, List.drop_succ_cons]

theorem isMarkAfter_zero {before : Option Glyph} {t : Text} :
    IsMarkAfter before t 0 ↔
      (Text.startsWith t "//" && decide (before ≠ some (.char ':'))) = true := by
  rw [Bool.and_eq_true, decide_eq_true_eq]
  exact Iff.rfl

/-- A text without a mark is not cut. -/
theorem cut_of_no_mark {before : Option Glyph} {t : Text} (h : ∀ k, ¬ IsMarkAfter before t k) :
    cut before t = (t, []) := by
  induction t generalizing before with
  | nil => rfl
  | cons g t ih =>
      have hhere := fun hmark => h 0 (isMarkAfter_zero.mpr hmark)
      rw [cut_cons_of_not_mark hhere, ih fun k hk => h (k + 1) (isMarkAfter_cons.mpr hk)]

/-- A text is cut at the first of its marks. -/
theorem cut_at_mark {before : Option Glyph} {t : Text} {m : Nat} (hm : IsMarkAfter before t m)
    (hfirst : ∀ k < m, ¬ IsMarkAfter before t k) : cut before t = (t.take m, t.drop m) := by
  induction m generalizing before t with
  | zero => exact cut_of_startsWith hm.1 hm.2
  | succ m ih =>
      cases t with
      | nil => exact absurd hm.1 (by rw [List.drop_nil]; decide)
      | cons g t =>
          have hhere := fun hmark => hfirst 0 m.succ_pos (isMarkAfter_zero.mpr hmark)
          have hrest := ih (isMarkAfter_cons.mp hm) fun k hk hmark =>
            hfirst (k + 1) (Nat.succ_lt_succ hk) (isMarkAfter_cons.mpr hmark)
          rw [cut_cons_of_not_mark hhere, hrest, List.take_succ_cons, List.drop_succ_cons]

/-! ### The split, by its marks -/

theorem split_of_no_mark {t : Text} (h : ∀ k, ¬ IsMark t k) : split t = (t, []) := by
  have hcut := cut_of_no_mark fun k hk => h k (isMarkAfter_none.mp hk)
  exact split_of_unmarked (by rw [hcut])

theorem split_at_mark {t : Text} {m : Nat} (hm : IsLeast {k | IsMark t k} m) :
    split t = (Text.trimRight (t.take m), t.drop m) := by
  have hcut : cut none t = (t.take m, t.drop m) := by
    refine cut_at_mark (isMarkAfter_none.mpr hm.1) fun k hk hmark => ?_
    exact absurd (hm.2 (isMarkAfter_none.mp hmark)) (Nat.not_le.mpr hk)
  have hne : t.drop m ≠ [] := by
    intro hnil
    have hslashes := hm.1.1
    rw [hnil] at hslashes
    exact absurd hslashes (by decide)
  rw [split_of_marked (by rw [hcut]; exact hne), hcut]

/-- The code of a line holds no comment. -/
theorem split_code (t : Text) : split (split t).1 = ((split t).1, []) := by
  have hcode : (split t).1 <+: (cut none t).1 := by
    by_cases h : (cut none t).2 = []
    · have happ := cut_append none t
      rw [h, List.append_nil] at happ
      rw [split_of_unmarked h]
      exact ⟨[], by rw [List.append_nil, happ]⟩
    · rw [split_of_marked h]
      exact Text.trimRight_prefix _
  have hcut : cut none (split t).1 = ((split t).1, []) := cut_of_prefix hcode
  exact split_of_unmarked (by rw [hcut])

/-- **A line is split at the least of its marks, and splitting it again changes nothing.**  The
code alone has no comment; with a semicolon between the parts the code ends in that semicolon and
the comment is the same; and a line without its indentation has the code of the line without its
indentation, and the comment of the line. -/
theorem split_at_least_mark (t : Text) :
    ((∀ k, ¬ IsMark t k) → split t = (t, [])) ∧
    (∀ m, IsLeast {k | IsMark t k} m → split t = (Text.trimRight (t.take m), t.drop m)) ∧
    split (split t).1 = ((split t).1, []) ∧
    split ((split t).1 ++ .char ';' :: (split t).2) = ((split t).1 ++ [.char ';'], (split t).2) ∧
    split t.trimLeft = ((ofText t).code.trimLeft, (ofText t).comment) :=
  ⟨split_of_no_mark, fun _ => split_at_mark, split_code t, split_terminated t, split_trimLeft t⟩

/-- Of three slashes after a colon the last two start the comment, and the line that a semicolon
mends is cut where the first one was. -/
theorem split_at_least_mark_colon :
    IsLeast {k | IsMark (Text.ofString " u:/// x") k} 4 ∧
    split (Text.ofString " u:/// x") = (Text.ofString " u:/", Text.ofString "// x") ∧
    split (Text.ofString " u:/;// x") = (Text.ofString " u:/;", Text.ofString "// x") ∧
    split (Text.ofString "u:/// x") = (Text.ofString "u:/", Text.ofString "// x") := by
  have hleast : IsLeast {k | IsMark (Text.ofString " u:/// x") k} 4 := by
    refine ⟨by decide, fun k hk => ?_⟩
    have hnone : ∀ k < 4, ¬ IsMark (Text.ofString " u:/// x") k := by decide
    exact Nat.le_of_not_lt fun hlt => hnone k hlt hk
  obtain ⟨-, hsplit, -, hagain, hindent⟩ := split_at_least_mark (Text.ofString " u:/// x")
  have hparts := hsplit 4 hleast
  rw [hparts] at hagain
  refine ⟨hleast, hparts, hagain, ?_⟩
  rw [ofText, hparts] at hindent
  exact hindent

end Semicolon.Line
