/-
Trimming, counting and the two ends of a text.

A rule looks at a line through few windows: the text without its indentation, the first glyph
of that, the last glyph of the code, the words at either end, and how many brackets there are.
What is said here is how each window reacts when blanks are taken away or a text is put
together from two parts.  The rest of the theory never opens a trim again.
-/
import Mathlib.Data.List.DropRight
import Semicolon.Line.State

namespace Semicolon

namespace Text

/-! ### Blanks -/

theorem isBlank_iff {t : Text} : t.isBlank = true ↔ ∀ g ∈ t, g.isBlank = true := by
  simp [isBlank]

theorem isBlank_append {t u : Text} : (t ++ u).isBlank = (t.isBlank && u.isBlank) := by
  simp [isBlank]

theorem trimLeft_eq_nil_iff {t : Text} : t.trimLeft = [] ↔ t.isBlank = true := by
  rw [trimLeft, List.dropWhile_eq_nil_iff, isBlank_iff]

theorem trimLeft_ne_nil {t : Text} (ht : t.isBlank = false) : t.trimLeft ≠ [] := by
  intro h
  rw [trimLeft_eq_nil_iff.mp h] at ht
  exact Bool.noConfusion ht

theorem trimRight_eq_nil_iff {t : Text} : t.trimRight = [] ↔ t.isBlank = true := by
  rw [isBlank_iff]
  exact List.rdropWhile_eq_nil_iff

theorem trimLeft_suffix (t : Text) : t.trimLeft <:+ t := List.dropWhile_suffix _

theorem trimRight_prefix (t : Text) : t.trimRight <+: t := List.rdropWhile_prefix _ _

/-- What begins like a trimmed text has no indentation. -/
theorem trimLeft_of_prefix {a t : Text} (h : a <+: t.trimLeft) : a.trimLeft = a := by
  cases a with
  | nil => rfl
  | cons g a =>
      obtain ⟨b, hb⟩ := h
      have hhead := List.head?_dropWhile_not Glyph.isBlank t
      rw [show t.dropWhile Glyph.isBlank = g :: (a ++ b) from hb.symm] at hhead
      simp only [List.head?_cons] at hhead
      rw [trimLeft, List.dropWhile_cons_of_neg (by simp [hhead])]

/-- The indentation of a text is blank, and the trimmed text follows it. -/
theorem exists_indent (t : Text) : ∃ w : Text, w.isBlank = true ∧ t = w ++ t.trimLeft := by
  refine ⟨t.takeWhile Glyph.isBlank, ?_, (List.takeWhile_append_dropWhile).symm⟩
  rw [isBlank_iff]
  intro g hg
  exact List.mem_takeWhile_imp hg

theorem isBlank_trimLeft (t : Text) : t.trimLeft.isBlank = t.isBlank := by
  obtain ⟨w, hw, hcut⟩ := exists_indent t
  conv_rhs => rw [hcut, isBlank_append, hw, Bool.true_and]

/-- What trimming takes off at the right is blank. -/
theorem exists_trailing (t : Text) : ∃ w : Text, w.isBlank = true ∧ t = t.trimRight ++ w := by
  refine ⟨t.rtakeWhile Glyph.isBlank, ?_, (List.rdropWhile_append_rtakeWhile).symm⟩
  rw [isBlank_iff]
  intro g hg
  exact List.mem_rtakeWhile_imp hg

theorem trimLeft_blank_append {w t : Text} (hw : w.isBlank = true) :
    (w ++ t).trimLeft = t.trimLeft :=
  List.dropWhile_append_of_pos (isBlank_iff.mp hw)

theorem trimLeft_append {t u : Text} (ht : t.isBlank = false) :
    (t ++ u).trimLeft = t.trimLeft ++ u := by
  have hne : t.trimLeft ≠ [] := trimLeft_ne_nil ht
  rw [trimLeft, List.dropWhile_append, if_neg (by simpa [trimLeft] using hne)]
  rfl

theorem trimRight_append_blank {t w : Text} (hw : w.isBlank = true) :
    (t ++ w).trimRight = t.trimRight := by
  have hrev : ∀ g ∈ w.reverse, g.isBlank = true := by
    intro g hg
    exact isBlank_iff.mp hw g (List.mem_reverse.mp hg)
  rw [trimRight, List.reverse_append, List.dropWhile_append_of_pos hrev]
  rfl

theorem trimRight_append {t u : Text} (hu : u.isBlank = false) :
    (t ++ u).trimRight = t ++ u.trimRight := by
  have hne : u.reverse.dropWhile Glyph.isBlank ≠ [] := by
    intro hnil
    have hblank : u.trimRight = [] := by rw [trimRight, hnil, List.reverse_nil]
    rw [trimRight_eq_nil_iff.mp hblank] at hu
    exact Bool.noConfusion hu
  rw [trimRight, List.reverse_append, List.dropWhile_append, if_neg (by simpa using hne),
    List.reverse_append, List.reverse_reverse, trimRight]

theorem trimRight_concat {t : Text} {g : Glyph} (hg : g.isBlank = false) :
    Text.trimRight (t ++ [g]) = t ++ [g] :=
  List.rdropWhile_concat_neg _ _ _ (by simp [hg])

/-- The left end may be trimmed before or after the right one. -/
theorem trimLeft_trimRight (t : Text) : t.trimRight.trimLeft = t.trimLeft.trimRight := by
  obtain ⟨w, hw, ht⟩ := exists_trailing t
  by_cases hblank : t.isBlank = true
  · rw [trimRight_eq_nil_iff.mpr hblank, trimLeft_eq_nil_iff.mpr hblank]
    rfl
  · have hcore : t.trimRight.isBlank = false := by
      rw [ht, isBlank_append, hw, Bool.and_true] at hblank
      simpa using hblank
    have hleft : t.trimLeft = t.trimRight.trimLeft ++ w := by
      nth_rewrite 1 [ht]
      exact trimLeft_append hcore
    rw [hleft, trimRight_append_blank hw]
    -- The trimmed core ends in the glyph the core ends in, which is no blank.
    symm
    refine List.rdropWhile_eq_self_iff.mpr ?_
    intro hne
    rw [(trimLeft_suffix t.trimRight).getLast hne]
    exact List.rdropWhile_last_not _ _ _

/-! ### The last glyph and the words at the ends -/

theorem last?_trimLeft {t : Text} (ht : t.isBlank = false) : t.trimLeft.last? = t.last? := by
  have hne : t.trimLeft ≠ [] := trimLeft_ne_nil ht
  have hne' : t ≠ [] := (trimLeft_suffix t).ne_nil hne
  rw [last?, last?, List.getLast?_eq_some_getLast hne, List.getLast?_eq_some_getLast hne',
    (trimLeft_suffix t).getLast hne]

theorem startsWith_iff {t : Text} {word : String} :
    t.startsWith word = true ↔ ofString word <+: t :=
  List.isPrefixOf_iff_prefix

theorem endsWith_iff {t : Text} {word : String} :
    t.endsWith word = true ↔ ofString word <:+ t :=
  List.isSuffixOf_iff_suffix

theorem startsWithAny_iff {t : Text} {words : List String} :
    t.startsWithAny words = true ↔ ∃ word ∈ words, ofString word <+: t := by
  simp [startsWithAny, startsWith_iff]

theorem endsWithAny_iff {t : Text} {words : List String} :
    t.endsWithAny words = true ↔ ∃ word ∈ words, ofString word <:+ t := by
  simp [endsWithAny, endsWith_iff]

theorem any_among_append (t : Option Glyph) (cs ds : String) :
    t.any (·.among (cs ++ ds)) = (t.any (·.among cs) || t.any (·.among ds)) := by
  cases t with
  | none => rfl
  | some g => cases g <;> simp [Glyph.among, String.toList_append]

/-- The first glyph of a text is that of the word it begins with. -/
theorem first?_any_of_startsWith {t : Text} {word cs : String} (h : t.startsWith word = true)
    (hword : (ofString word).first?.any (·.among cs) = true) :
    t.first?.any (·.among cs) = true := by
  obtain ⟨rest, rfl⟩ := startsWith_iff.mp h
  cases hw : ofString word with
  | nil =>
      rw [hw] at hword
      exact Bool.noConfusion hword
  | cons g w =>
      rw [hw] at hword
      exact hword

theorem endsWith_singleton {t : Text} {c : Char} (h : t.last? = some (.char c)) :
    [Glyph.char c] <:+ t := by
  obtain ⟨a, ha⟩ := List.getLast?_eq_some_iff.mp h
  exact ⟨a, ha.symm⟩

/-- A word without blanks stands at the end of a text exactly if it does so when the text is
trimmed at its other end. -/
theorem endsWith_trimLeft {t : Text} {word : String}
    (hword : ∀ g ∈ ofString word, g.isBlank = false) :
    t.trimLeft.endsWith word = t.endsWith word := by
  obtain ⟨w, hw, hcut⟩ := exists_indent t
  rw [Bool.eq_iff_iff, endsWith_iff, endsWith_iff]
  constructor
  · intro h
    rw [hcut]
    exact h.trans (List.suffix_append _ _)
  · intro h
    rcases List.suffix_or_suffix_of_suffix h (trimLeft_suffix t) with hshort | ⟨v, hv⟩
    · exact hshort
    · -- The word would reach into the indentation, but it holds no blank.
      have hvw : v <:+ w := by
        have hword' : v ++ t.trimLeft <:+ w ++ t.trimLeft := by
          rw [hv, ← hcut]
          exact h
        exact List.suffix_append_self_iff.mp hword'
      have hnil : v = [] := by
        refine List.eq_nil_iff_forall_not_mem.mpr fun g hg => ?_
        have hblank := isBlank_iff.mp hw g (hvw.subset hg)
        rw [hword g (by rw [← hv]; exact List.mem_append_left _ hg)] at hblank
        exact Bool.noConfusion hblank
      rw [← hv, hnil]
      exact List.suffix_refl _

theorem endsWithAny_trimLeft {t : Text} {words : List String}
    (hwords : ∀ word ∈ words, ∀ g ∈ ofString word, g.isBlank = false) :
    t.trimLeft.endsWithAny words = t.endsWithAny words := by
  rw [Bool.eq_iff_iff, endsWithAny_iff, endsWithAny_iff]
  refine exists_congr fun word => and_congr_right fun hword => ?_
  rw [← endsWith_iff, ← endsWith_iff, endsWith_trimLeft (hwords word hword)]

/-- The last glyph of a text may be asked for before or after trimming, if the question is not
about blanks. -/
theorem last?_any_trimLeft {cs : String} (hcs : ∀ g ∈ ofString cs, g.isBlank = false)
    (t : Text) : t.trimLeft.last?.any (·.among cs) = t.last?.any (·.among cs) := by
  by_cases hblank : t.isBlank = true
  · have hnone : t.last?.any (·.among cs) = false := by
      rw [Bool.eq_false_iff, ne_eq, Option.any_eq_true]
      rintro ⟨g, hlast, hg⟩
      have hgblank := isBlank_iff.mp hblank g (List.mem_of_getLast? hlast)
      cases g with
      | char c =>
          have hmem : Glyph.char c ∈ ofString cs :=
            List.mem_map_of_mem (by simpa [Glyph.among] using hg)
          rw [hcs _ hmem] at hgblank
          exact Bool.noConfusion hgblank
      | byte b => exact Bool.noConfusion hg
    rw [trimLeft_eq_nil_iff.mpr hblank, hnone]
    rfl
  · rw [last?_trimLeft (by simpa using hblank)]

/-! ### Counting -/

theorem net_append (opening closing : Char) (t u : Text) :
    net opening closing (t ++ u) = net opening closing t + net opening closing u := by
  simp only [net, occurrences, List.count_append]
  omega

theorem net_of_isBlank {opening closing : Char} {w : Text} (hw : w.isBlank = true)
    (ho : (Glyph.char opening).isBlank = false) (hc : (Glyph.char closing).isBlank = false) :
    net opening closing w = 0 := by
  have habsent : ∀ c : Char, (Glyph.char c).isBlank = false → w.count (.char c) = 0 := by
    intro c hblank
    refine List.count_eq_zero.mpr fun hmem => ?_
    rw [isBlank_iff.mp hw _ hmem] at hblank
    exact Bool.noConfusion hblank
  simp only [net, occurrences, habsent _ ho, habsent _ hc]
  rfl

theorem net_trimLeft {opening closing : Char} (ho : (Glyph.char opening).isBlank = false)
    (hc : (Glyph.char closing).isBlank = false) (t : Text) :
    net opening closing t.trimLeft = net opening closing t := by
  obtain ⟨w, hw, hcut⟩ := exists_indent t
  conv_rhs => rw [hcut, net_append, net_of_isBlank hw ho hc, Int.zero_add]

theorem parenNet_trimLeft (t : Text) : t.trimLeft.parenNet = t.parenNet :=
  net_trimLeft (by decide) (by decide) t

theorem has_trimLeft {c : Char} (hc : (Glyph.char c).isBlank = false) (t : Text) :
    t.trimLeft.has c = t.has c := by
  obtain ⟨w, hw, hcut⟩ := exists_indent t
  have habsent : w.has c = false := by
    rw [Bool.eq_false_iff, ne_eq, has, List.contains_iff_mem]
    intro hmem
    rw [isBlank_iff.mp hw _ hmem] at hc
    exact Bool.noConfusion hc
  have happ : (w ++ t.trimLeft).has c = (w.has c || t.trimLeft.has c) := List.contains_append
  conv_rhs => rw [hcut, happ, habsent, Bool.false_or]

/-! ### A semicolon or a slash ends what a trigger can see

The words that open a block hold neither of the two, and nor do blanks or braces.  So whatever
makes a text a trigger stands in front of its first semicolon or slash, and anything may follow
there. -/

theorem dropWhile_append_cons {p : Glyph → Bool} {g : Glyph} (hg : p g = false) (t u : Text) :
    (t ++ g :: u).dropWhile p = t.dropWhile p ++ g :: u := by
  rw [List.dropWhile_append]
  split
  · rename_i hnil
    rw [List.isEmpty_iff.mp hnil, List.nil_append, List.dropWhile_cons_of_neg (by simp [hg])]
  · rfl

theorem dropWhile_append_of_ne_nil {p : Glyph → Bool} {t : Text} (ht : t.dropWhile p ≠ [])
    (u : Text) : (t ++ u).dropWhile p = t.dropWhile p ++ u := by
  rw [List.dropWhile_append, if_neg (by simpa using ht)]

theorem prefix_of_prefix_append_cons {g : Glyph} {l t u : Text} (hg : g ∉ l)
    (h : l <+: t ++ g :: u) : l <+: t := by
  rcases List.prefix_or_prefix_of_prefix h (List.prefix_append t (g :: u)) with hshort | ⟨v, rfl⟩
  · exact hshort
  · have hv : v <+: g :: u := (List.prefix_append_right_inj t).mp h
    cases v with
    | nil => simp
    | cons a v =>
        have hag : a = g := (List.cons_prefix_cons.mp hv).1
        exact absurd (by simp [hag]) hg

theorem opensCondition_append {g : Glyph} (hg : g ∈ [.char ';', .char '/']) {t u : Text}
    (h : (t ++ g :: u).opensCondition = true) (v : Text) : (t ++ v).opensCondition = true := by
  have hstop : ∀ g ∈ [Glyph.char ';', .char '/'],
      g.isBlank = false ∧ decide (g = .char '\x7d') = false := by decide
  have hdrop : ∀ t u : Text, Text.trimLeft (t ++ g :: u) = t.trimLeft ++ g :: u :=
    fun t u => dropWhile_append_cons (hstop g hg).1 t u
  rw [opensCondition, hdrop, dropWhile_append_cons (hstop g hg).2, hdrop, startsWithAny_iff] at h
  obtain ⟨word, hword, hpre⟩ := h
  have hclean : ∀ g ∈ [Glyph.char ';', .char '/'],
      ∀ word ∈ ["if ", "if(", "while ", "while(", "for ", "for(", "else if"],
        g ∉ ofString word ∧ ofString word ≠ [] := by decide
  have hcore := prefix_of_prefix_append_cons (hclean g hg word hword).1 hpre
  -- The trigger word is not empty, so neither is anything that was trimmed to reach it.
  have h3 := hcore.ne_nil (hclean g hg word hword).2
  have h2 : t.trimLeft.dropWhile (fun g => decide (g = .char '\x7d')) ≠ [] := by
    intro hnil
    rw [hnil] at h3
    exact h3 rfl
  have h1 : t.trimLeft ≠ [] := by
    intro hnil
    rw [hnil] at h2
    exact h2 rfl
  rw [opensCondition, startsWithAny_iff]
  refine ⟨word, hword, ?_⟩
  rw [show (t ++ v).trimLeft = t.trimLeft ++ v from dropWhile_append_of_ne_nil h1 v,
    dropWhile_append_of_ne_nil h2, trimLeft, dropWhile_append_of_ne_nil h3]
  exact hcore.trans (List.prefix_append _ _)

theorem opensResult_append {g : Glyph} (hg : g ∈ [.char ';', .char '/']) {t u : Text}
    (h : (t ++ g :: u).opensResult = true) (v : Text) : (t ++ v).opensResult = true := by
  have hstop : ∀ g ∈ [Glyph.char ';', .char '/'],
      g.isBlank = false ∧ g ∉ ofString "return" ∧ g ∉ ofString "(" := by decide
  obtain ⟨hblank, hreturn, hopening⟩ := hstop g hg
  rw [opensResult, Bool.and_eq_true, startsWith_iff, startsWith_iff] at h
  obtain ⟨r, rfl⟩ := prefix_of_prefix_append_cons hreturn h.1
  have hdrop : ∀ x : Text, (ofString "return" ++ r ++ x).drop 6 = r ++ x := by
    intro x
    rw [List.append_assoc]
    rfl
  have hparen : ofString "(" <+: Text.trimLeft r := by
    have hpre := h.2
    rw [hdrop, trimLeft, dropWhile_append_cons hblank] at hpre
    exact prefix_of_prefix_append_cons hopening hpre
  rw [opensResult, Bool.and_eq_true, startsWith_iff, startsWith_iff, hdrop, trimLeft,
    dropWhile_append_of_ne_nil (hparen.ne_nil (by decide))]
  refine ⟨?_, hparen.trans (List.prefix_append _ _)⟩
  rw [List.append_assoc]
  exact List.prefix_append _ _

end Text

end Semicolon
