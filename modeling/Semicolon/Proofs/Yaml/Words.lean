/-
Strings without quotation marks, written and read back.

A string that goes without marks is a row of words with spaces between them.  The writer may give
up a space that stands alone for a new line; the reader takes a word, then the gap after it, and
reads a new line as a space.  The string ends where the text goes back to the left of the block it
is in, so here the column of a place matters as well as what is ahead of it.

`plain_read` says that such a string reads back, and `plain_key` reads one word in front of a colon.
-/
import Semicolon.Proofs.Yaml.Quoting

namespace Semicolon.Yaml

open Lexeme (isInk StartsInk)

/-! ### Places on a line -/

namespace Cursor

variable {c : Cursor} {xs rest : List Char}

/-- A character that stays on its line and takes up a column. -/
def IsCalm (a : Char) : Prop := isBreak a = false ∧ a ≠ '\uFEFF'

/-- Calm characters are passed over one column at a time. -/
theorem skip_calm (hc : c.rest = xs ++ rest) (hxs : ∀ a ∈ xs, IsCalm a) :
    c.skip xs.length =
      { rest, index := c.index + xs.length, line := c.line, column := c.column + xs.length } := by
  induction xs generalizing c with
  | nil =>
      obtain ⟨r, i, l, k⟩ := c
      cases hc
      rfl
  | cons a xs ih =>
      rw [List.forall_mem_cons] at hxs
      have hnext : c.next =
          { rest := xs ++ rest, index := c.index + 1, line := c.line, column := c.column + 1 } := by
        unfold next
        rw [hc]
        simp [hxs.1.1, hxs.1.2]
      rw [List.length_cons, skip, ih (by rw [hnext]) hxs.2, hnext]
      simp only [Cursor.mk.injEq, true_and]
      omega

/-- Spaces are passed over one column at a time. -/
theorem skip_spaces {k : Nat} (hc : c.rest = List.replicate k ' ' ++ rest) :
    c.skip k = { rest, index := c.index + k, line := c.line, column := c.column + k } := by
  have hskip := skip_calm hc fun a ha => by
    rw [List.eq_of_mem_replicate ha]
    exact ⟨by decide, by decide⟩
  rwa [List.length_replicate] at hskip

theorem column_next_of_feed (hc : c.rest = '\n' :: rest) : c.next.column = 0 := by
  unfold next
  rw [hc]
  rfl

/-- The text ahead is no mark that starts or ends a document. -/
def NoMark (rest : List Char) : Prop :=
  rest.take 3 ≠ ['-', '-', '-'] ∧ rest.take 3 ≠ ['.', '.', '.']

theorem isSeparator_of_noMark (h : NoMark c.rest) : c.isSeparator = false := by
  simp [isSeparator, isMark, h.1, h.2]

end Cursor

/-! ### Words and gaps -/

namespace Lexeme

variable {c : Cursor} {w t rest tail : List Char} {a : Char} {k : Nat} {need : Int}

theorem endsWord_of_isInk (ha : isInk a = true) : endsWord (some a) = false := by
  simp [isInk, isBlank] at ha
  simp [endsWord, ha]

theorem ne_space_of_isInk (ha : isInk a = true) : a ≠ ' ' := by
  rintro rfl
  exact absurd ha (by decide)

theorem isBreak_of_isInk (ha : isInk a = true) : isBreak a = false := by
  simp [isInk] at ha
  exact ha.2

theorem plainLength_word (hw : ∀ a ∈ w, isInk a = true) (hlast : w.getLast? ≠ some ':')
    (ht : plainLength false t = 0) : plainLength false (w ++ t) = w.length := by
  induction w with
  | nil => exact ht
  | cons a w ih =>
      rw [List.forall_mem_cons] at hw
      have hlast' : w.getLast? ≠ some ':' := by
        cases w with
        | nil => simp
        | cons b w => simpa using hlast
      have hcolon : ¬(a = ':' ∧ endsWord (w ++ t).head? = true) := by
        rintro ⟨rfl, hends⟩
        cases w with
        | nil => simp at hlast
        | cons b w =>
            rw [List.cons_append, List.head?_cons, endsWord_of_isInk (hw.2 b (by simp))] at hends
            cases hends
      rw [List.cons_append, plainLength, if_neg (by simp [endsWord_of_isInk hw.1]),
        if_neg (by simpa using hcolon), if_neg (by simp), ih hw.2 hlast', List.length_cons,
        Nat.add_comm]

theorem plainLength_of_endsWord (ht : endsWord t.head? = true) : plainLength false t = 0 := by
  cases t with
  | nil => rfl
  | cons a t =>
      rw [plainLength]
      exact if_pos ht

/-- Spaces between two words of a line. -/
theorem plainGap_spaces (hc : c.rest = List.replicate (k + 1) ' ' ++ a :: rest)
    (ha : isInk a = true) :
    plainGap c = (List.replicate (k + 1) ' ', false, c.skip (k + 1)) := by
  have hgap : c.takeWhile (· = ' ') = List.replicate (k + 1) ' ' := by
    rw [Cursor.takeWhile, hc, List.takeWhile_append_of_pos (by simp),
      List.takeWhile_cons_of_neg (by simpa using ne_space_of_isInk ha), List.append_nil]
  have hhead : (c.skip (k + 1)).head = some a := by
    rw [Cursor.head, Cursor.rest_skip, hc, List.drop_left' (by simp), List.head?_cons]
  unfold plainGap
  simp [hgap, hhead, isBreak_of_isInk ha]

theorem plainBreaks_spaces {fuel : Nat} (hc : c.rest = List.replicate k ' ' ++ rest)
    (hrest : StartsInk rest) (hfuel : k ≤ fuel) : plainBreaks fuel c = (some [], c.skip k) := by
  induction k generalizing c fuel with
  | zero =>
      cases fuel with
      | zero => rfl
      | succ fuel =>
          cases rest with
          | nil =>
              rw [plainBreaks]
              simp [Cursor.head, hc, Cursor.skip]
          | cons b rest =>
              have hb := hrest b rfl
              rw [plainBreaks, Cursor.head_of_rest hc]
              simp [ne_space_of_isInk hb, isBreak_of_isInk hb, Cursor.skip]
  | succ k ih =>
      obtain ⟨fuel, rfl⟩ : ∃ m, fuel = m + 1 := ⟨fuel - 1, by omega⟩
      have hspace : c.rest = ' ' :: (List.replicate k ' ' ++ rest) := hc
      rw [plainBreaks, Cursor.head_of_rest hspace]
      exact ih (by rw [Cursor.rest_next, hspace, List.tail_cons]) (by omega)

/-- A new line after a word is a gap of one space; what comes next stands at its indentation. -/
theorem plainGap_newLine (hc : c.rest = '\n' :: (List.replicate k ' ' ++ rest))
    (hrest : StartsInk rest) (hmark : Cursor.NoMark (List.replicate k ' ' ++ rest)) :
    ∃ c', c'.rest = rest ∧ c'.column = k ∧ plainGap c = ([' '], true, c') := by
  have hnext : c.next.rest = List.replicate k ' ' ++ rest := by
    rw [Cursor.rest_next, hc, List.tail_cons]
  have hskip := Cursor.skip_spaces hnext
  refine ⟨c.next.skip k, by rw [hskip], ?_, ?_⟩
  · rw [hskip, Cursor.column_next_of_feed hc, Nat.zero_add]
  · have hgap : c.takeWhile (· = ' ') = [] := by
      rw [Cursor.takeWhile, hc]
      rfl
    have hbreaks : plainBreaks c.next.rest.length c.next = (some [], c.next.skip k) :=
      plainBreaks_spaces hnext hrest (by simp [hnext])
    have hseparator : c.next.isSeparator = false := Cursor.isSeparator_of_noMark (by rwa [hnext])
    unfold plainGap
    simp only [hgap, List.length_nil, Cursor.skip, Cursor.head_of_rest hc,
      Cursor.lineBreak_of_feed hc, hseparator, hbreaks]
    rfl

end Lexeme

/-! ### What is written -/

namespace Print

variable {cs w rest tail : List Char} {a b : Char} {before : Option Char}
  {column indent k : Nat}

theorem ne_mark_of_isSimple (ha : isSimple a = true) : a ≠ '\uFEFF' := by
  rintro rfl
  exact absurd ha (by decide)

theorem plain_ink (hspace : a ≠ ' ') : plain indent column before (a :: rest) =
    a :: plain indent (column + 1) (some a) rest := by
  have hsingle : isSingleSpace before (a :: rest) = false := by
    unfold isSingleSpace
    split
    · rename_i heq
      exact absurd (List.cons.inj heq).1 hspace
    · rfl
  rw [plain, if_neg (by simp [hsingle])]

theorem plain_of_noSpace (h : ' ' ∉ cs) : plain indent column before cs = cs := by
  induction cs generalizing column before with
  | nil => rfl
  | cons a cs ih =>
      rw [List.mem_cons, not_or] at h
      rw [plain_ink (Ne.symm h.1), ih h.2]

/-- A word is written as it is. -/
theorem exists_plain_word (hw : ∀ a ∈ w, isInk a = true) (hne : w ≠ []) (indent column : Nat)
    (before : Option Char) (rest : List Char) :
    ∃ column' a, isInk a = true ∧ plain indent column before (w ++ rest) =
      w ++ plain indent column' (some a) rest := by
  induction w generalizing column before with
  | nil => exact absurd rfl hne
  | cons a w ih =>
      rw [List.forall_mem_cons] at hw
      rw [List.cons_append, plain_ink (Lexeme.ne_space_of_isInk hw.1)]
      cases w with
      | nil => exact ⟨column + 1, a, hw.1, rfl⟩
      | cons b w =>
          obtain ⟨column', a', ha', hplain⟩ := ih hw.2 (by simp) (column + 1) (some a)
          exact ⟨column', a', ha', congrArg (List.cons a) hplain⟩

theorem exists_plain_spaces (indent k column : Nat) (rest : List Char) :
    ∃ column', plain indent column (some ' ') (List.replicate k ' ' ++ rest) =
      List.replicate k ' ' ++ plain indent column' (some ' ') rest := by
  induction k generalizing column with
  | zero => exact ⟨column, rfl⟩
  | succ k ih =>
      obtain ⟨column', hplain⟩ := ih (column + 1)
      have hsingle : isSingleSpace (some ' ') (' ' :: (List.replicate k ' ' ++ rest)) = false := by
        cases List.replicate k ' ' ++ rest <;> simp [isSingleSpace]
      refine ⟨column', ?_⟩
      rw [List.replicate_succ, List.cons_append, plain, if_neg (by simp [hsingle]), hplain]
      rfl

/-- Spaces after a word are written as they are, or one alone as a new line. -/
theorem plain_spaces_cases (indent column k : Nat) (before : Option Char) (rest : List Char) :
    (∃ column', plain indent column before (List.replicate (k + 1) ' ' ++ rest) =
      List.replicate (k + 1) ' ' ++ plain indent column' (some ' ') rest) ∨
    k = 0 ∧ plain indent column before (List.replicate (k + 1) ' ' ++ rest) =
      newLine indent ++ plain indent indent (some ' ') rest := by
  rw [List.replicate_succ, List.cons_append, plain]
  split
  · rename_i hfold
    right
    rw [Bool.and_eq_true] at hfold
    cases k with
    | zero => exact ⟨rfl, rfl⟩
    | succ k => simp [isSingleSpace, List.replicate_succ] at hfold
  · left
    obtain ⟨column', hplain⟩ := exists_plain_spaces indent k (column + 1) rest
    exact ⟨column', congrArg (List.cons ' ') hplain⟩

theorem length_le_plain (indent : Nat) (cs : List Char) (column : Nat) (before : Option Char) :
    cs.length ≤ (plain indent column before cs).length := by
  induction cs generalizing column before with
  | nil => exact Nat.zero_le _
  | cons a cs ih =>
      rw [plain]
      split
      · have hrest := ih indent (some a)
        simp only [newLine, List.cons_append, List.length_cons, List.length_append]
        omega
      · exact Nat.succ_le_succ (ih _ _)

/-! ### What goes without marks -/

/-- A string that goes without marks, whatever kind its spelling asks for. -/
structure Bare (cs : List Char) : Prop where
  starts : ∃ a rest, cs = a :: rest ∧ canStart a rest.head? = true ∧ isQuiet a rest = true
  noMark : Cursor.NoMark cs
  noSpaceFirst : cs.head? ≠ some ' '
  noSpaceLast : cs.getLast? ≠ some ' '
  simple : ∀ a ∈ cs, isSimple a = true ∧ a ≠ '\n'

theorem bare_of_canBePlain (h : canBePlain cs = true) : Bare cs := by
  cases cs with
  | nil => cases h
  | cons a rest =>
      simp only [canBePlain, Bool.and_eq_true, Bool.not_eq_true', List.all_eq_true,
        decide_eq_true_eq] at h
      obtain ⟨⟨⟨⟨⟨⟨⟨hstart, hquiet⟩, hhyphens⟩, hpoints⟩, hfirst⟩, hlast⟩, hsimple⟩, -⟩ := h
      refine ⟨⟨a, rest, rfl, hstart, hquiet⟩, ⟨?_, ?_⟩, by simpa using hfirst, by simpa using hlast,
        fun b hb => by simpa using hsimple b hb⟩
      · intro htake
        refine Bool.eq_false_iff.mp hhyphens ?_
        rw [List.isPrefixOf_iff_prefix, List.prefix_iff_eq_take]
        exact htake.symm
      · intro htake
        refine Bool.eq_false_iff.mp hpoints ?_
        rw [List.isPrefixOf_iff_prefix, List.prefix_iff_eq_take]
        exact htake.symm

theorem kind_of_canBePlain (h : canBePlain cs = true) :
    Scalar.kind (String.ofList cs) = .string := by
  cases cs with
  | nil => cases h
  | cons a rest =>
      simp only [canBePlain, Bool.and_eq_true, decide_eq_true_eq] at h
      exact h.2

/-- A row of words: spaces stand only between them, and nothing in it starts a comment or ends a
key. -/
structure Row (cs : List Char) : Prop where
  notEmpty : cs ≠ []
  noSpaceFirst : cs.head? ≠ some ' '
  noSpaceLast : cs.getLast? ≠ some ' '
  noHash : cs.head? ≠ some '#'
  quiet : ∃ before, isQuiet before cs = true
  simple : ∀ a ∈ cs, isSimple a = true ∧ a ≠ '\n'

theorem Bare.row (h : Bare cs) : Row cs := by
  obtain ⟨a, rest, rfl, hstart, hquiet⟩ := h.starts
  have hhash : a ≠ '#' := by
    rintro rfl
    simp [canStart] at hstart
  have hcolon : (a = ':' && isGap rest.head?) = false := by
    rw [Bool.eq_false_iff, ne_eq, Bool.and_eq_true, decide_eq_true_eq]
    rintro ⟨rfl, hgap⟩
    simp [canStart, hgap] at hstart
  refine ⟨by simp, h.noSpaceFirst, h.noSpaceLast, by simpa using hhash, ⟨'x', ?_⟩, h.simple⟩
  rw [isQuiet, hquiet, hcolon]
  simp [hhash]

theorem quiet_split {xs ys : List Char} (h : isQuiet b (xs ++ a :: ys) = true) :
    (a = ':' && isGap ys.head?) = false ∧ isQuiet a ys = true := by
  induction xs generalizing b with
  | nil =>
      rw [List.nil_append, isQuiet, Bool.and_eq_true, Bool.and_eq_true, Bool.not_eq_true'] at h
      exact ⟨h.1.1, h.2⟩
  | cons x xs ih =>
      rw [List.cons_append, isQuiet, Bool.and_eq_true] at h
      exact ih h.2

/-- A word does not end in a colon. -/
theorem Row.noColon {w : List Char} (h : Row (w ++ rest)) (hrest : isGap rest.head? = true) :
    w.getLast? ≠ some ':' := by
  intro hlast
  obtain ⟨b, hquiet⟩ := h.quiet
  rw [← List.dropLast_append_getLast? ':' hlast, List.append_assoc] at hquiet
  have hcolon : (decide (':' = ':') && isGap rest.head?) = false := (quiet_split hquiet).1
  rw [hrest] at hcolon
  cases hcolon

/-- What comes after the spaces behind a word is a row again. -/
theorem Row.after {w : List Char} (h : Row (w ++ (List.replicate (k + 1) ' ' ++ rest)))
    (hrest : rest.head? ≠ some ' ') : Row rest := by
  obtain ⟨b, hquiet⟩ := h.quiet
  rw [List.replicate_succ', ← List.append_assoc, ← List.append_assoc, List.append_assoc] at hquiet
  have hspace : isQuiet ' ' rest = true := (quiet_split hquiet).2
  have hne : rest ≠ [] := by
    rintro rfl
    refine h.noSpaceLast ?_
    rw [List.append_nil, List.replicate_succ', ← List.append_assoc, List.getLast?_concat]
  refine ⟨hne, hrest, ?_, ?_, ⟨' ', hspace⟩, fun a ha => h.simple a (by simp [ha])⟩
  · have hlast := h.noSpaceLast
    rwa [← List.append_assoc, List.getLast?_append_of_ne_nil _ hne] at hlast
  · intro hhash
    cases rest with
    | nil => cases hhash
    | cons a rest =>
        obtain rfl : a = '#' := by simpa using hhash
        simp [isQuiet, isGap] at hspace

/-- A text is cut after its first word. -/
theorem exists_word (cs : List Char) (hsimple : ∀ a ∈ cs, isSimple a = true ∧ a ≠ '\n') :
    ∃ w t, cs = w ++ t ∧ (∀ a ∈ w, isInk a = true) ∧ (t = [] ∨ ∃ r, t = ' ' :: r) := by
  induction cs with
  | nil => exact ⟨[], [], rfl, by simp, .inl rfl⟩
  | cons a cs ih =>
      rw [List.forall_mem_cons] at hsimple
      by_cases hspace : a = ' '
      · exact ⟨[], a :: cs, rfl, by simp, .inr ⟨cs, by rw [hspace]⟩⟩
      · obtain ⟨w, t, rfl, hink, ht⟩ := ih hsimple.2
        refine ⟨a :: w, t, rfl, ?_, ht⟩
        rw [List.forall_mem_cons]
        exact ⟨isInk_of_isSimple hsimple.1.1 hsimple.1.2 hspace, hink⟩

/-- A row starts with ink, and so does what is written of it. -/
theorem Row.exists_plain (h : Row cs) (indent : Nat) : ∃ a, isInk a = true ∧ a ≠ '#' ∧
    ∀ column before, ∃ t, plain indent column before cs = a :: t := by
  cases cs with
  | nil => exact absurd rfl h.notEmpty
  | cons a cs =>
      have hspace : a ≠ ' ' := by simpa using h.noSpaceFirst
      have hsimple := h.simple a (by simp)
      exact ⟨a, isInk_of_isSimple hsimple.1 hsimple.2 hspace, by simpa using h.noHash,
        fun column before => ⟨_, plain_ink hspace⟩⟩

/-- The first word of a row, and the row after it, if there is one. -/
theorem Row.cases (h : Row cs) : ∃ w, w ≠ [] ∧ (∀ a ∈ w, isInk a = true) ∧ w.getLast? ≠ some ':' ∧
    w.head? = cs.head? ∧
    (cs = w ∨ ∃ k rest, cs = w ++ (List.replicate (k + 1) ' ' ++ rest) ∧ Row rest) := by
  obtain ⟨w, t, rfl, hink, ht⟩ := exists_word cs h.simple
  have hgap : isGap t.head? = true := by
    rcases ht with rfl | ⟨r, rfl⟩
    · rfl
    · rfl
  have hne : w ≠ [] := by
    rintro rfl
    rcases ht with rfl | ⟨r, rfl⟩
    · exact h.notEmpty rfl
    · exact h.noSpaceFirst rfl
  refine ⟨w, hne, hink, h.noColon hgap, (List.head?_append_of_ne_nil _ hne).symm, ?_⟩
  rcases ht with rfl | ⟨r, rfl⟩
  · exact .inl (List.append_nil w)
  · obtain ⟨k, rest, hrun, hrest⟩ := exists_run ' ' r
    rw [hrun] at h ⊢
    exact .inr ⟨k, rest, rfl, h.after hrest⟩

end Print

/-! ### What is read -/

namespace Lexeme

variable {c : Cursor} {cs w t tail gap : List Char} {k indent column fuel : Nat} {need : Int}
  {fresh : Bool} {before : Option Char}

open Print (Row Bare)

/-- One word, and what its gap makes of the rest. -/
theorem plainFrom_word (hw : ∀ a ∈ w, isInk a = true) (hne : w ≠ []) (hlast : w.getLast? ≠ some ':')
    (hhash : w.head? ≠ some '#') (ht : plainLength false t = 0) (hc : c.rest = w ++ t) :
    plainFrom false need (fuel + 1) gap fresh c =
      match plainGap (c.skip w.length) with
      | (next, broke, c') =>
        if next.isEmpty || c'.head = some '#' || (c'.column : Int) < need then (gap ++ w, broke, c')
        else
          match plainFrom false need fuel next broke c' with
          | (rest, broke, c'') => (gap ++ w ++ rest, broke, c'') := by
  have hhead : c.head ≠ some '#' := by
    rw [Cursor.head, hc, List.head?_append_of_ne_nil _ hne]
    exact hhash
  have hlength : plainLength false c.rest = w.length := by
    rw [hc, plainLength_word hw hlast ht]
  have hword : c.rest.take w.length = w := by
    rw [hc]
    exact List.take_left
  rw [plainFrom, if_neg hhead]
  simp only [hlength, hword]
  rw [if_neg (by simpa using hne)]
  rfl

/-- The gap between two words of a row, whichever way it was written. -/
theorem plainGap_row {rest : List Char} {j : Nat} (hrow : Row rest) (hindent : need ≤ indent)
    (hneed : 0 < need) (hcolumn : need ≤ c.column)
    (hc : c.rest = Print.plain indent column before (List.replicate (j + 1) ' ' ++ rest) ++ t) :
    plainLength false c.rest = 0 ∧ ∃ broke c' column',
      plainGap c = (List.replicate (j + 1) ' ', broke, c') ∧ c'.head ≠ some '#' ∧
      c'.rest = Print.plain indent column' (some ' ') rest ++ t ∧ need ≤ c'.column := by
  obtain ⟨b, hb, hhash, hstart⟩ := hrow.exists_plain indent
  rcases Print.plain_spaces_cases indent column j before rest with
    ⟨column', hspaces⟩ | ⟨rfl, hspaces⟩
  · obtain ⟨r, hr⟩ := hstart column' (some ' ')
    rw [hspaces, List.append_assoc] at hc
    have hskip := Cursor.skip_spaces hc
    refine ⟨plainLength_of_endsWord (by rw [hc]; rfl), false, c.skip (j + 1), column', ?_, ?_,
      by rw [hskip], by rw [hskip]; push_cast; omega⟩
    · exact plainGap_spaces (by rw [hc, hr, List.cons_append]) hb
    · rw [hskip, Cursor.head, hr]
      simpa using hhash
  · obtain ⟨r, hr⟩ := hstart indent (some ' ')
    obtain ⟨indent, rfl⟩ : ∃ m, indent = m + 1 := ⟨indent - 1, by omega⟩
    rw [hspaces, List.append_assoc] at hc
    obtain ⟨c', hc', hcolumn', hgap⟩ := plainGap_newLine hc
      (by rw [hr]; intro a ha; cases ha; exact hb) ⟨by simp [List.replicate_succ], by
        simp [List.replicate_succ]⟩
    refine ⟨plainLength_of_endsWord (by rw [hc]; rfl), true, c', indent + 1, hgap, ?_, hc',
      by rw [hcolumn']; exact hindent⟩
    rw [Cursor.head, hc', hr]
    simpa using hhash

/-- **A row of words reads back**, up to the line that goes back to the left of it. -/
theorem plainFrom_row (gap : List Char) (fresh : Bool) (h : Row cs) (hindent : need ≤ indent)
    (hk : (k : Int) < need) (htail : StartsInk tail)
    (hmark : Cursor.NoMark (List.replicate k ' ' ++ tail)) (hfuel : cs.length ≤ fuel)
    (hc : c.rest = Print.plain indent column before cs ++ '\n' :: (List.replicate k ' ' ++ tail))
    (hcolumn : need ≤ c.column) : ∃ c', c'.rest = tail ∧ c'.column = k ∧
      plainFrom false need fuel gap fresh c = (gap ++ cs, true, c') := by
  induction fuel generalizing cs c column before gap fresh with
  | zero => exact absurd (List.length_eq_zero_iff.mp (Nat.le_zero.mp hfuel)) h.notEmpty
  | succ fuel ih =>
      obtain ⟨w, hne, hink, hlast, hhead, hcs⟩ := h.cases
      have hhash : w.head? ≠ some '#' := by
        rw [hhead]
        exact h.noHash
      have hsub : w ⊆ cs := by
        rcases hcs with rfl | ⟨j, rest, rfl, -⟩
        · exact List.Subset.refl _
        · exact List.subset_append_left _ _
      have hcalm : ∀ a ∈ w, Cursor.IsCalm a := fun a ha =>
        ⟨isBreak_of_isInk (hink a ha), Print.ne_mark_of_isSimple (h.simple a (hsub ha)).1⟩
      rcases hcs with rfl | ⟨j, rest, rfl, hrow⟩
      · -- The last word: the line after it ends the row.
        obtain ⟨_, _, -, hplain⟩ :=
          Print.exists_plain_word hink hne indent column before []
        rw [List.append_nil, Print.plain, List.append_nil] at hplain
        rw [hplain] at hc
        have hskip := Cursor.skip_calm hc hcalm
        obtain ⟨c', hc', hcolumn', hgap⟩ := plainGap_newLine
          (c := c.skip cs.length) (by rw [hskip]) htail hmark
        refine ⟨c', hc', hcolumn', ?_⟩
        rw [plainFrom_word hink hne hlast hhash (plainLength_of_endsWord rfl) hc, hgap]
        simp [hcolumn', hk]
      · -- A word with another one after it: the gap reads as its spaces, folded or not.
        obtain ⟨column', a, -, hplain⟩ := Print.exists_plain_word hink hne indent column
          before (List.replicate (j + 1) ' ' ++ rest)
        rw [hplain, List.append_assoc] at hc
        have hskip := Cursor.skip_calm hc hcalm
        obtain ⟨hstop, broke, c₁, column'', hgap, hhash₁, hc₁, hcolumn₁⟩ := plainGap_row
          (c := c.skip w.length) hrow hindent (by omega) (by rw [hskip]; push_cast; omega)
          (by rw [hskip])
        obtain ⟨c', hc', hcolumn', hread⟩ := ih (List.replicate (j + 1) ' ') broke
          hrow (by simp at hfuel; omega) hc₁ hcolumn₁
        refine ⟨c', hc', hcolumn', ?_⟩
        rw [hskip] at hstop
        rw [plainFrom_word hink hne hlast hhash hstop hc, hgap]
        have hgoes : ¬((List.replicate (j + 1) ' ').isEmpty || decide (c₁.head = some '#') ||
            decide ((c₁.column : Int) < need)) = true := by
          simp [hhash₁, Int.not_lt.mpr hcolumn₁]
        simp only [if_neg hgoes, hread, List.append_assoc]

/-- **A string without marks reads back.** -/
theorem plain_read (need : Int) (h : Bare cs) (hindent : need ≤ indent) (hk : (k : Int) < need)
    (htail : StartsInk tail) (hmark : Cursor.NoMark (List.replicate k ' ' ++ tail))
    (hc : c.rest = Print.plain indent column before cs ++ '\n' :: (List.replicate k ' ' ++ tail))
    (hcolumn : need ≤ c.column) : ∃ c', c'.rest = tail ∧ c'.column = k ∧
      plain false need c = (cs.map .char, true, c') := by
  have hfuel : cs.length ≤ c.rest.length := by
    have hlength := Print.length_le_plain indent cs column before
    rw [hc, List.length_append]
    omega
  obtain ⟨c', hc', hcolumn', hread⟩ := plainFrom_row [] false h.row hindent hk
    htail hmark hfuel hc hcolumn
  refine ⟨c', hc', hcolumn', ?_⟩
  unfold plain
  rw [hread]
  rfl

/-- A word in front of a colon that ends it. -/
theorem plain_key (need : Int) (hw : ∀ a ∈ w, isInk a = true) (hne : w ≠ [])
    (hlast : w.getLast? ≠ some ':') (hhash : w.head? ≠ some '#') (ht : endsWord t.head? = true)
    (hc : c.rest = w ++ ':' :: t) :
    plain false need c = (w.map .char, false, c.skip w.length) := by
  have hstop : plainLength false (':' :: t) = 0 := by
    rw [plainLength, if_neg (by decide), if_pos (by simp [ht])]
  have hcolon : (c.skip w.length).rest = ':' :: t := by
    rw [Cursor.rest_skip, hc, List.drop_left]
  have hgap : plainGap (c.skip w.length) = ([], false, c.skip w.length) := by
    have hspaces : (c.skip w.length).takeWhile (· = ' ') = [] := by
      rw [Cursor.takeWhile, hcolon]
      rfl
    unfold plainGap
    simp only [hspaces, List.length_nil, Cursor.skip, Cursor.head_of_rest hcolon]
    rfl
  obtain ⟨fuel, hfuel⟩ : ∃ fuel, c.rest.length = fuel + 1 := ⟨(w ++ t).length, by
    simp [hc, Nat.add_assoc]⟩
  unfold plain
  rw [hfuel, plainFrom_word hw hne hlast hhash hstop hc, hgap]
  rfl

end Lexeme

end Semicolon.Yaml
