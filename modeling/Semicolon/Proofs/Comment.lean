/-
What a comment can say.

The linter does not take comments out before it looks at a line.  The blocks, the rule about
`&&` and `||` and the line above all see a comment as it stands, and still only three things
about it matter: how many round brackets it leaves open, whether there is a semicolon in it,
and whether it ends in an operator of logic.  A comment that agrees with the old one in these
three may take its place on any line, and nothing changes but its own text.

The reason is that a comment begins with a slash.  No word that opens a block and no glyph that
a trim takes away is a slash, so whatever is looked for at the front of a line is found before
the comment or not at all; and since there are two slashes, what is looked for at the end of a
line and is no longer than that is found in the comment or not at all.
-/
import Semicolon.Proofs.Alike

namespace Semicolon

/-! ### Texts that end in a comment -/

namespace Text

variable {a c c' : Text}

theorem exists_of_mark (hc : c.startsWith "//" = true) :
    ∃ r : Text, c = .char '/' :: .char '/' :: r := by
  obtain ⟨r, rfl⟩ := startsWith_iff.mp hc
  exact ⟨r, rfl⟩

theorem trimLeft_append_mark (hc : c.startsWith "//" = true) :
    (a ++ c).trimLeft = a.trimLeft ++ c := by
  obtain ⟨r, rfl⟩ := exists_of_mark hc
  exact dropWhile_append_cons (by decide) a _

/-- The first two glyphs of a line are code or the mark of its comment. -/
theorem take_two_append_mark (hc : c.startsWith "//" = true) (hc' : c'.startsWith "//" = true) :
    (a ++ c).take 2 = (a ++ c').take 2 := by
  obtain ⟨r, rfl⟩ := exists_of_mark hc
  obtain ⟨r', rfl⟩ := exists_of_mark hc'
  match a with
  | [] => rfl
  | [_] => rfl
  | _ :: _ :: _ => rfl

theorem startsWith_append_mark (word : String) (hword : (ofString word).length ≤ 2)
    (hc : c.startsWith "//" = true) (hc' : c'.startsWith "//" = true) :
    (a ++ c).startsWith word = (a ++ c').startsWith word := by
  have hshort : ∀ t : Text, t.startsWith word = true ↔ ofString word <+: t.take 2 := by
    intro t
    rw [startsWith_iff, List.prefix_take_iff]
    exact (and_iff_left hword).symm
  rw [Bool.eq_iff_iff, hshort, hshort, take_two_append_mark hc hc']

theorem first?_append_mark (hc : c.startsWith "//" = true) (hc' : c'.startsWith "//" = true) :
    (a ++ c).first? = (a ++ c').first? := by
  have hhead : ∀ t : Text, t.first? = (t.take 2).head? := by
    intro t
    cases t <;> rfl
  rw [hhead, hhead, take_two_append_mark hc hc']

/-- The last two glyphs of a line with a comment are in the comment. -/
theorem endsWith_append_mark (word : String) (hword : (ofString word).length ≤ 2)
    (hc : c.startsWith "//" = true) : (a ++ c).endsWith word = c.endsWith word := by
  obtain ⟨r, rfl⟩ := exists_of_mark hc
  rw [Bool.eq_iff_iff, endsWith_iff, endsWith_iff]
  constructor
  · intro h
    refine List.suffix_of_suffix_length_le h (List.suffix_append _ _) ?_
    simp only [List.length_cons]
    omega
  · intro h
    exact h.trans (List.suffix_append _ _)

theorem isBareDeclaration_append_mark (hc : c.startsWith "//" = true) :
    (a ++ c).isBareDeclaration = false := by
  obtain ⟨r, rfl⟩ := exists_of_mark hc
  rw [Bool.eq_false_iff, ne_eq, isBareDeclaration, isOneOf, List.any_eq_true]
  rintro ⟨word, hword, heq⟩
  have hclean : ∀ word ∈ ["const", "let", "var"], Glyph.char '/' ∉ ofString word := by decide
  refine hclean word hword ?_
  rw [← of_decide_eq_true heq]
  simp

/-- What opens a block stands before the comment. -/
theorem opens_append_mark {opens : Text → Bool}
    (hopens : ∀ {t u : Text}, opens (t ++ .char '/' :: u) = true → ∀ v, opens (t ++ v) = true)
    (hc : c.startsWith "//" = true) (hc' : c'.startsWith "//" = true) :
    opens (a ++ c) = opens (a ++ c') := by
  obtain ⟨r, rfl⟩ := exists_of_mark hc
  obtain ⟨r', rfl⟩ := exists_of_mark hc'
  rw [Bool.eq_iff_iff]
  exact ⟨fun h => hopens h _, fun h => hopens h _⟩

end Text

/-! ### Another comment on a line -/

namespace Line

/-- The text with another comment in the place of its own.  A text without a comment stays as it
is. -/
def withComment (t c : Text) : Text := if (split t).2 = [] then t else (cut none t).1 ++ c

/-- A comment that may take the place of another one. -/
structure StandsFor (c old : Text) : Prop where
  mark : c.startsWith "//" = true
  parens : c.parenNet = old.parenNet
  semicolon : c.has ';' = old.has ';'
  logic : c.endsWithAny ["&&", "||"] = old.endsWithAny ["&&", "||"]

variable {t c : Text}

theorem cut_comment_eq (t : Text) : (cut none t).2 = (split t).2 := by
  by_cases h : (cut none t).2 = []
  · rw [split_of_unmarked h, h]
  · rw [split_of_marked h]

/-- The comment is what is replaced, whatever stands before it. -/
theorem withComment_append {head comment : Text} (h : (split (head ++ comment)).2 = comment)
    (hne : comment ≠ []) (c : Text) : withComment (head ++ comment) c = head ++ c := by
  have hcut := cut_append none (head ++ comment)
  rw [cut_comment_eq, h] at hcut
  rw [withComment, if_neg (by rw [h]; exact hne), List.append_cancel_right hcut]

/-- The first mark is where it was: what stands before it, and the two slashes it consists of, are
all that the search has seen. -/
theorem cut_replace {before : Option Glyph} {t c : Text} (hmarked : (cut before t).2 ≠ [])
    (hc : c.startsWith "//" = true) :
    cut before ((cut before t).1 ++ c) = ((cut before t).1, c) := by
  fun_induction cut before t with
  | case1 => exact absurd rfl hmarked
  | case2 before g rest hmark =>
      rw [Bool.and_eq_true, decide_eq_true_eq] at hmark
      exact cut_of_startsWith hc hmark.2
  | case3 before g rest hmark code comment hcut ih =>
      rw [hcut] at ih
      have hcomment : comment.startsWith "//" = true := by
        have h := cut_comment (some g) rest
        rw [hcut] at h
        exact h.resolve_left hmarked
      have hrest : g :: rest = (g :: code) ++ comment := by
        have h := cut_append (some g) rest
        rw [hcut] at h
        rw [List.cons_append, h]
      have hmark' : ¬ (Text.startsWith (g :: (code ++ c)) "//"
          && decide (before ≠ some (.char ':'))) = true := by
        rw [hrest, Text.startsWith_append_mark "//" (by decide) hcomment hc] at hmark
        exact hmark
      rw [List.cons_append, cut_cons_of_not_mark hmark', ih hmarked]

theorem split_withComment (hne : (split t).2 ≠ []) (hc : c.startsWith "//" = true) :
    split (withComment t c) = ((split t).1, c) := by
  have hmarked : (cut none t).2 ≠ [] := by
    rw [cut_comment_eq]
    exact hne
  have hcut := cut_replace hmarked hc
  have hcne : c ≠ [] := by
    rintro rfl
    exact absurd hc (by decide)
  rw [withComment, if_neg hne, split_of_marked (by rw [hcut]; exact hcne), hcut,
    split_of_marked hmarked]

/-- **Two comments that agree in three things make lines that no rule can tell apart**, if they
stand behind the same text and are found there. -/
theorem alike_append {a code old c : Text} (hold : split (a ++ old) = (code, old))
    (hnew : split (a ++ c) = (code, c)) (hmark : old.startsWith "//" = true)
    (h : StandsFor c old) : Text.Alike (a ++ old) (a ++ c) := by
  have htrim : (a ++ old).trimLeft = a.trimLeft ++ old := Text.trimLeft_append_mark hmark
  have htrim' : (a ++ c).trimLeft = a.trimLeft ++ c := Text.trimLeft_append_mark h.mark
  have hfirst : (a ++ c).trimLeft.first? = (a ++ old).trimLeft.first? := by
    rw [htrim, htrim', Text.first?_append_mark h.mark hmark]
  have hbare : (a ++ c).trimLeft.isBareDeclaration = (a ++ old).trimLeft.isBareDeclaration := by
    rw [htrim, htrim', Text.isBareDeclaration_append_mark hmark,
      Text.isBareDeclaration_append_mark h.mark]
  have hlogic : (a ++ c).endsWithAny ["&&", "||"] = (a ++ old).endsWithAny ["&&", "||"] := by
    have hends := h.logic
    simp only [Text.endsWithAny, List.any_cons, List.any_nil] at hends ⊢
    rw [Text.endsWith_append_mark "&&" (by decide) h.mark,
      Text.endsWith_append_mark "||" (by decide) h.mark,
      Text.endsWith_append_mark "&&" (by decide) hmark,
      Text.endsWith_append_mark "||" (by decide) hmark, hends]
  have hstarts : (a ++ c).trimLeft.startsWithAny ["*", "//", "/*"]
      = (a ++ old).trimLeft.startsWithAny ["*", "//", "/*"] := by
    simp only [Text.startsWithAny, List.any_cons, List.any_nil]
    rw [htrim, htrim', Text.startsWith_append_mark "*" (by decide) h.mark hmark,
      Text.startsWith_append_mark "//" (by decide) h.mark hmark,
      Text.startsWith_append_mark "/*" (by decide) h.mark hmark]
  refine ⟨?_, ?_, ?_, ?_, ?_, ?_, hbare, ?_, ?_, ?_, ?_⟩
  · rw [hold, hnew]
  · rw [hold, hnew]
  · rw [endsOpen, endsOpen, ofText, ofText, hold, hnew]
  · rw [Text.picksUp, Text.picksUp, hfirst]
  · rw [Text.dangles, Text.dangles, hlogic, hfirst]
  · intro p
    rw [Text.isIgnorable, Text.isIgnorable, split_trimLeft, split_trimLeft, hold, hnew, hstarts,
      hbare]
  · have hsemi := h.semicolon
    simp only [Text.has] at hsemi ⊢
    rw [List.contains_append, List.contains_append, hsemi]
  · rw [htrim, htrim']
    exact Text.opens_append_mark (Text.opensCondition_append (by decide)) h.mark hmark
  · rw [htrim, htrim']
    exact Text.opens_append_mark (Text.opensResult_append (by decide)) h.mark hmark
  · have hnet := h.parens
    simp only [Text.parenNet] at hnet ⊢
    rw [Text.net_append, Text.net_append, hnet]

theorem alike_withComment (hne : (split t).2 ≠ []) (h : StandsFor c (split t).2) :
    t.Alike (withComment t c) := by
  have hparts : (cut none t).1 ++ (split t).2 = t := by rw [← cut_comment_eq, cut_append]
  have hnew := split_withComment hne h.mark
  rw [withComment, if_neg hne] at hnew ⊢
  have halike := alike_append (by rw [hparts]) hnew ((split_comment t).resolve_left hne) h
  rwa [hparts] at halike

end Line

/-! ### Other comments in a file -/

namespace Scan

/-- The lines with another comment on each one for which there is one.  The first line has the
index zero. -/
def recomment (new : Nat → Option Text) (lines : List Text) : List Text :=
  lines.mapIdx fun i t => (new i).elim t (Line.withComment t)

variable {p : Policy} {lines : List Text} {new : Nat → Option Text}

theorem getElem?_recomment (new : Nat → Option Text) (lines : List Text) (i : Nat) :
    (recomment new lines)[i]? = lines[i]?.map fun t => (new i).elim t (Line.withComment t) :=
  List.getElem?_mapIdx

/-- Each new comment may take the place of the one that it replaces. -/
def Unnoticed (new : Nat → Option Text) (lines : List Text) : Prop :=
  ∀ i t c, lines[i]? = some t → new i = some c → (Line.split t).2 ≠ [] →
    Line.StandsFor c (Line.split t).2

theorem forall₂_recomment {R : Text → Text → Prop} (hnew : Unnoticed new lines)
    (hrefl : ∀ t, R t t)
    (hrep : ∀ t c, (Line.split t).2 ≠ [] → Line.StandsFor c (Line.split t).2 →
      R t (Line.withComment t c)) : List.Forall₂ R lines (recomment new lines) := by
  refine forall₂_mapIdx fun i t ht => ?_
  cases hc : new i with
  | none => exact hrefl _
  | some c =>
      by_cases hne : (Line.split t).2 = []
      · rw [Option.elim_some, Line.withComment, if_pos hne]
        exact hrefl _
      · exact hrep _ c hne (hnew i t c ht hc hne)

theorem alike_recomment (hnew : Unnoticed new lines) :
    List.Forall₂ Text.Alike lines (recomment new lines) :=
  forall₂_recomment hnew Text.Alike.refl fun _ _ => Line.alike_withComment

theorem code_recomment (hnew : Unnoticed new lines) :
    (recomment new lines).map (fun t => (Line.split t).1)
      = lines.map fun t => (Line.split t).1 := by
  have hcode : List.Forall₂ (fun t u => (Line.split t).1 = (Line.split u).1) lines
      (recomment new lines) := by
    refine forall₂_recomment hnew (fun _ => rfl) fun t c hne h => ?_
    rw [Line.split_withComment hne h.mark]
  exact (List.forall₂_eq_eq_eq ▸ List.forall₂_map_left_iff.mpr
    (List.forall₂_map_right_iff.mpr hcode) : _ = _).symm

/-- A semicolon in front of the comment and another comment in its place do not get in each other's
way. -/
theorem terminated_withComment {t c : Text} (h : (Line.split t).2 ≠ [] →
    c.startsWith "//" = true) :
    (Line.ofText (Line.withComment t c)).terminated
      = Line.withComment (Line.ofText t).terminated c := by
  by_cases hne : (Line.split t).2 = []
  · have hnone : (Line.split (Line.ofText t).terminated).2 = [] := by
      rw [Line.split_terminated, hne]
    rw [Line.withComment, if_pos hne, Line.withComment, if_pos hnone]
  · have hparts : (Line.ofText t).terminated
        = ((Line.split t).1 ++ [.char ';']) ++ (Line.split t).2 := by
      rw [List.append_assoc]
      rfl
    have hcomment : (Line.split (((Line.split t).1 ++ [.char ';']) ++ (Line.split t).2)).2
        = (Line.split t).2 := by
      rw [← hparts, Line.split_terminated]
    rw [hparts, Line.withComment_append hcomment hne, Line.terminated, Line.ofText,
      Line.split_withComment hne (h hne), List.append_assoc]
    rfl

theorem mended_recomment (hnew : Unnoticed new lines) :
    mended p (recomment new lines) = recomment new (mended p lines) := by
  refine List.ext_getElem? fun i => ?_
  rw [getElem?_mended, getElem?_recomment, getElem?_recomment, getElem?_mended,
    missing_of_alike p (alike_recomment hnew)]
  cases ht : lines[i]? with
  | none => rfl
  | some t =>
      simp only [Option.map_some]
      cases hc : new i with
      | none => rfl
      | some c =>
          simp only [Option.elim_some]
          split
          · rw [terminated_withComment fun hne => (hnew i t c ht hc hne).mark]
          · rfl

/-- **Only three things about a comment matter.**  Put other comments on any of the lines that have
one, with as many round brackets left open, a semicolon where there was one and an operator of
logic at the end where there was one: every line has the code it had, the same semicolons are
missing, and the mended text is the old one with the new comments on it. -/
theorem recomment_unnoticed (p : Policy) (lines : List Text) (new : Nat → Option Text)
    (hnew : Unnoticed new lines) :
    (recomment new lines).map (fun t => (Line.split t).1) = lines.map (fun t => (Line.split t).1) ∧
    missing p (recomment new lines) = missing p lines ∧
    mended p (recomment new lines) = recomment new (mended p lines) :=
  ⟨code_recomment hnew, missing_of_alike p (alike_recomment hnew), mended_recomment hnew⟩

/-- A line with a host in front of its comment, one whose comment matters in two ways, and one whose
slashes are no comment. -/
def hostLines : List Text :=
  [Text.ofString "u = 'http://h' // (a", Text.ofString "v // b; ||", Text.ofString "w ://c"]

/-- Other comments for the first two of them, and one for the third, which has none. -/
def hostComments : Nat → Option Text
  | 0 => some (Text.ofString "//((b)")
  | 1 => some (Text.ofString "///;&&")
  | _ => some (Text.ofString "// d")

theorem recomment_unnoticed_host :
    Unnoticed hostComments hostLines ∧
    mended {} (recomment hostComments hostLines)
      = [Text.ofString "u = 'http://h';//((b)", Text.ofString "v ///;&&", Text.ofString "w ://c;"]
      := by
  have hnew : Unnoticed hostComments hostLines := by
    intro i t c ht hc hne
    match i with
    | 0 =>
        cases ht
        cases hc
        exact ⟨by decide, by decide, by decide, by decide⟩
    | 1 =>
        cases ht
        cases hc
        exact ⟨by decide, by decide, by decide, by decide⟩
    | 2 =>
        cases ht
        exact absurd (by decide) hne
    | i + 3 => cases ht
  refine ⟨hnew, ?_⟩
  rw [(recomment_unnoticed {} hostLines hostComments hnew).2.2]
  decide

end Scan

end Semicolon
