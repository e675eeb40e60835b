/-
Where a line's code ends.

The split is stable in three ways, and mending a line needs all of them.  The parts of a line
make up the line again, up to the blanks before the comment.  A semicolon put between the
parts is the new end of the code, and the comment is found where it was: the code holds no
comment mark, a semicolon starts none, and the mark after it no longer stands after a colon.
And the split does not see the indentation, so it may be taken before or after trimming.
-/
import Semicolon.Line.Basic
import Semicolon.Proofs.Text

namespace Semicolon.Line

/-! ### The first comment mark -/

theorem cut_append (before : Option Glyph) (t : Text) :
    (cut before t).1 ++ (cut before t).2 = t := by
  fun_induction cut before t with
  | case1 => rfl
  | case2 => rfl
  | case3 before g rest _ code comment hcut ih =>
      rw [hcut] at ih
      exact congrArg (g :: ·) ih

theorem cut_comment (before : Option Glyph) (t : Text) :
    (cut before t).2 = [] ∨ (cut before t).2.startsWith "//" = true := by
  fun_induction cut before t with
  | case1 => exact Or.inl rfl
  | case2 before g rest hmark =>
      exact Or.inr (Bool.and_eq_true _ _ ▸ hmark).1
  | case3 before g rest _ code comment hcut ih =>
      rw [hcut] at ih
      exact ih

theorem cut_of_startsWith {before : Option Glyph} {t : Text} (ht : t.startsWith "//" = true)
    (hb : before ≠ some (.char ':')) : cut before t = ([], t) := by
  cases t with
  | nil => exact absurd ht (by decide)
  | cons g rest => rw [cut, if_pos (by simp [ht, hb])]

theorem cut_cons_of_not_mark {before : Option Glyph} {g : Glyph} {t : Text}
    (h : ¬ (Text.startsWith (g :: t) "//" && decide (before ≠ some (.char ':'))) = true) :
    cut before (g :: t) = (g :: (cut (some g) t).1, (cut (some g) t).2) := by
  rw [cut, if_neg h]

/-- Only a colon in front of a text changes where it is cut. -/
theorem cut_before {before : Option Glyph} (hb : before ≠ some (.char ':')) (t : Text) :
    cut before t = cut none t := by
  cases t with
  | nil => rfl
  | cons g rest => simp [cut, hb]

/-- Blanks in front of a text are no part of the question. -/
theorem cut_indent {w : Text} (hw : w.isBlank = true) (t : Text) :
    cut none (w ++ t) = (w ++ (cut none t).1, (cut none t).2) := by
  induction w with
  | nil => rfl
  | cons g w ih =>
      have hg : g.isBlank = true := Text.isBlank_iff.mp hw g (by simp)
      have hnot : ∀ c : Char, (Glyph.char c).isBlank = false → g ≠ .char c := by
        rintro c hc rfl
        rw [hc] at hg
        exact Bool.noConfusion hg
      have hmark : Text.startsWith (g :: (w ++ t)) "//" = false := by
        rw [Bool.eq_false_iff, ne_eq, Text.startsWith_iff]
        intro hpre
        exact hnot '/' (by decide) (List.cons_prefix_cons.mp hpre).1.symm
      have hcolon : some g ≠ some (.char ':') := by
        simpa using hnot ':' (by decide)
      rw [List.cons_append, cut_cons_of_not_mark (by simp [hmark]), cut_before hcolon,
        ih (by rw [Text.isBlank_iff] at hw ⊢; intro x hx; exact hw x (by simp [hx]))]
      rfl

/-- What stands before the mark, or before any point ahead of it, holds no mark itself. -/
theorem cut_of_prefix {before : Option Glyph} {t a : Text} (h : a <+: (cut before t).1) :
    cut before a = (a, []) := by
  fun_induction cut before t generalizing a with
  | case1 => rw [List.prefix_nil.mp h]; rfl
  | case2 => rw [List.prefix_nil.mp h]; rfl
  | case3 before g rest hmark code comment hcut ih =>
      cases a with
      | nil => rfl
      | cons x a =>
          obtain ⟨rfl, ha⟩ := List.cons_prefix_cons.mp h
          have hcode : code <+: rest := by
            have := cut_append (some x) rest
            rw [hcut] at this
            exact ⟨comment, this⟩
          have hlonger : Text.startsWith (x :: a) "//" = true →
              Text.startsWith (x :: rest) "//" = true := by
            rw [Text.startsWith_iff, Text.startsWith_iff]
            intro hp
            exact hp.trans (List.cons_prefix_cons.mpr ⟨rfl, ha.trans hcode⟩)
          have hmark' : ¬ (Text.startsWith (x :: a) "//"
              && decide (before ≠ some (.char ':'))) = true := by
            intro hc
            rw [Bool.and_eq_true] at hc
            exact hmark (by rw [Bool.and_eq_true]; exact ⟨hlonger hc.1, hc.2⟩)
          rw [cut_cons_of_not_mark hmark', ih (by rw [hcut]; exact ha)]

/-- A semicolon after a text without a mark makes none, so the search goes on behind it. -/
theorem cut_semicolon {before : Option Glyph} {a : Text} (ha : cut before a = (a, []))
    (u : Text) : cut before (a ++ .char ';' :: u)
      = (a ++ .char ';' :: (cut none u).1, (cut none u).2) := by
  induction a generalizing before with
  | nil =>
      have hmark : Text.startsWith (.char ';' :: u) "//" = false := by
        rw [Bool.eq_false_iff, ne_eq, Text.startsWith_iff]
        intro hpre
        exact absurd (List.cons_prefix_cons.mp hpre).1 (by decide)
      rw [List.nil_append, cut_cons_of_not_mark (by simp [hmark]), cut_before (by decide)]
      rfl
  | cons g a ih =>
      by_cases hmark : (Text.startsWith (g :: a) "//"
          && decide (before ≠ some (.char ':'))) = true
      · rw [cut, if_pos hmark] at ha
        exact absurd (congrArg Prod.fst ha) (by simp)
      · rw [cut_cons_of_not_mark hmark] at ha
        have hrest : cut (some g) a = (a, []) := by
          have hfst : (cut (some g) a).1 = a := by simpa using congrArg Prod.fst ha
          have hsnd : (cut (some g) a).2 = [] := congrArg Prod.snd ha
          exact Prod.ext hfst hsnd
        have hshorter : Text.startsWith (g :: (a ++ .char ';' :: u)) "//" = true →
            Text.startsWith (g :: a) "//" = true := by
          rw [Text.startsWith_iff, Text.startsWith_iff]
          exact fun hpre => Text.prefix_of_prefix_append_cons (by decide) hpre
        have hmark' : ¬ (Text.startsWith (g :: (a ++ .char ';' :: u)) "//"
            && decide (before ≠ some (.char ':'))) = true := by
          intro hc
          rw [Bool.and_eq_true] at hc
          exact hmark (by rw [Bool.and_eq_true]; exact ⟨hshorter hc.1, hc.2⟩)
        rw [List.cons_append, cut_cons_of_not_mark hmark', ih hrest]
        rfl

/-! ### The code and the comment -/

theorem split_of_unmarked {t : Text} (h : (cut none t).2 = []) : split t = (t, []) := by
  unfold split
  split
  · rfl
  · rename_i code comment hne hcut
    rw [hcut] at h
    exact absurd h hne

theorem split_of_marked {t : Text} (h : (cut none t).2 ≠ []) :
    split t = ((cut none t).1.trimRight, (cut none t).2) := by
  unfold split
  split
  · rename_i hcut
    exact absurd (by rw [hcut]) h
  · rename_i hcut
    rw [hcut]

theorem split_comment (t : Text) : (split t).2 = [] ∨ (split t).2.startsWith "//" = true := by
  by_cases h : (cut none t).2 = []
  · exact Or.inl (by rw [split_of_unmarked h])
  · rw [split_of_marked h]
    exact cut_comment none t

/-- A line is its code, then blanks, then its comment; blanks are lost only before a comment. -/
theorem split_parts (t : Text) : ∃ w : Text, w.isBlank = true ∧
    t = (split t).1 ++ w ++ (split t).2 ∧ ((split t).2 = [] → w = []) := by
  by_cases h : (cut none t).2 = []
  · refine ⟨[], rfl, ?_, fun _ => rfl⟩
    rw [split_of_unmarked h]
    simp
  · obtain ⟨w, hw, htrail⟩ := Text.exists_trailing (cut none t).1
    refine ⟨w, hw, ?_, ?_⟩
    · rw [split_of_marked h, ← htrail, cut_append]
    · intro hnil
      rw [split_of_marked h] at hnil
      exact absurd hnil h

/-- **A semicolon between the parts ends the code, and the comment stays what it was.** -/
theorem split_terminated (t : Text) :
    split (ofText t).terminated = ((split t).1 ++ [.char ';'], (split t).2) := by
  show split ((split t).1 ++ .char ';' :: (split t).2) = _
  by_cases h : (cut none t).2 = []
  · have hcut : cut none t = (t, []) := by
      refine cut_of_prefix (t := t) ?_
      have happ := cut_append none t
      rw [h, List.append_nil] at happ
      exact ⟨[], by rw [List.append_nil, happ]⟩
    rw [split_of_unmarked h]
    refine split_of_unmarked ?_
    rw [cut_semicolon hcut]
    rfl
  · have hcode : cut none (cut none t).1.trimRight = ((cut none t).1.trimRight, []) :=
      cut_of_prefix (Text.trimRight_prefix _)
    have hmark : (cut none t).2.startsWith "//" = true :=
      (cut_comment none t).resolve_left h
    have hcut : cut none ((cut none t).1.trimRight ++ .char ';' :: (cut none t).2)
        = ((cut none t).1.trimRight ++ [.char ';'], (cut none t).2) := by
      rw [cut_semicolon hcode, cut_of_startsWith hmark (by decide)]
    rw [split_of_marked h, split_of_marked (by rw [hcut]; exact h), hcut]
    exact Prod.ext (Text.trimRight_concat (by decide)) rfl

/-- The split of a line without its indentation is the split of the line, trimmed. -/
theorem split_trimLeft (t : Text) :
    split t.trimLeft = ((split t).1.trimLeft, (split t).2) := by
  obtain ⟨w, hw, hindent⟩ := Text.exists_indent t
  have hcut : cut none t = (w ++ (cut none t.trimLeft).1, (cut none t.trimLeft).2) := by
    conv_lhs => rw [hindent]
    exact cut_indent hw _
  by_cases h : (cut none t).2 = []
  · have h' : (cut none t.trimLeft).2 = [] := by
      rw [hcut] at h
      exact h
    rw [split_of_unmarked h, split_of_unmarked h']
  · have h' : (cut none t.trimLeft).2 ≠ [] := by
      rw [hcut] at h
      exact h
    rw [split_of_marked h, split_of_marked h', hcut]
    refine Prod.ext ?_ rfl
    show (cut none t.trimLeft).1.trimRight = Text.trimLeft (Text.trimRight (w ++ _))
    rw [Text.trimLeft_trimRight, Text.trimLeft_blank_append hw]
    -- The code of the trimmed line begins where the line does, so nothing is left to trim.
    rw [Text.trimLeft_of_prefix ⟨_, cut_append none t.trimLeft⟩]

end Semicolon.Line
