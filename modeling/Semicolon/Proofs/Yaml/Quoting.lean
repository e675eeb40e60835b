/-
Strings in quotation marks, written and read back.

The two writers are gone through along the string, with a rule of the reader for each thing that
they write.  Where a line is broken does not matter, since each way of breaking it reads as what it
was written for.  What does matter is what comes next: spaces are only kept if the line does not
end after them, and a broken line only goes on where no space follows, so both writers are shown
never to put a space at such a place.

The main results are `closes_single` and `closes_double`.
-/
import Semicolon.Proofs.Yaml.Quotation

namespace Semicolon.Yaml

/-! ### Strings in single marks -/

namespace Print

variable {cs rest tail : List Char} {a : Char} {before : Option Char} {column indent k : Nat}

open Lexeme (isInk StartsInk Solid Closes breakLines solid_of_ink closes_mark)

theorem isInk_of_isSimple (ha : isSimple a = true) (hfeed : a ≠ '\n') (hspace : a ≠ ' ') :
    isInk a = true := by
  by_contra hno
  have hblank : a = ' ' ∨ a = '\t' ∨ isBreak a = true := by
    simp [isInk, Lexeme.isBlank] at hno
    tauto
  rcases hblank with hblank | rfl | hbreak
  · exact hspace hblank
  · exact absurd ha (by decide)
  · have hmem : a ∈ ['\r', '\n', '\u0085', '\u2028', '\u2029'] := by simpa [isBreak] using hbreak
    simp only [List.mem_cons, List.not_mem_nil, or_false] at hmem
    rcases hmem with rfl | rfl | rfl | rfl | rfl
    · exact absurd ha (by decide)
    · exact hfeed rfl
    all_goals exact absurd ha (by decide)

/-- A character that is written as it is in single marks. -/
theorem single_ink (hfeed : a ≠ '\n') (hspace : a ≠ ' ') (hmark : a ≠ '\'') :
    single indent column before (a :: rest) =
      a :: single indent (column + 1) (some a) rest := by
  have hsingle : isSingleSpace before (a :: rest) = false := by
    unfold isSingleSpace
    split
    · rename_i heq
      exact absurd (List.cons.inj heq).1 hspace
    · rfl
  rw [single, if_neg hfeed, if_neg hmark, if_neg (by simp [hsingle])]

/-- A run of one character and what comes after it. -/
theorem exists_run (a : Char) (cs : List Char) :
    ∃ k rest, a :: cs = List.replicate (k + 1) a ++ rest ∧ rest.head? ≠ some a := by
  induction cs with
  | nil => exact ⟨0, [], rfl, by simp⟩
  | cons b cs ih =>
      by_cases hb : b = a
      · obtain ⟨k, rest, hrun, hrest⟩ := ih
        refine ⟨k + 1, rest, ?_, hrest⟩
        rw [hb, hrun]
        rfl
      · exact ⟨0, b :: cs, rfl, by simpa using hb⟩

theorem single_feeds (hbefore : before ≠ some '\n') (hrest : rest.head? ≠ some '\n') :
    single indent column before (List.replicate (k + 1) '\n' ++ rest) =
      breakLines (k + 2) indent ++ single indent indent (some '\n') rest := by
  have hrun : ∀ k column, single indent column (some '\n') (List.replicate (k + 1) '\n' ++ rest) =
      breakLines (k + 1) indent ++ single indent indent (some '\n') rest := by
    intro k
    induction k with
    | zero =>
        intro column
        show single indent column (some '\n') ('\n' :: rest) = _
        rw [single, if_pos rfl]
        simp [hrest, breakLines]
    | succ k ih =>
        intro column
        show single indent column (some '\n') ('\n' :: (List.replicate (k + 1) '\n' ++ rest)) = _
        rw [single, if_pos rfl, ih]
        simp [breakLines, List.replicate_succ]
  cases k with
  | zero =>
      show single indent column before ('\n' :: rest) = _
      rw [single, if_pos rfl]
      simp [hrest, hbefore, breakLines, List.replicate_succ]
  | succ k =>
      show single indent column before ('\n' :: (List.replicate (k + 1) '\n' ++ rest)) = _
      rw [single, if_pos rfl, hrun]
      simp [hbefore, breakLines, List.replicate_succ]

/-- What is written of a string that starts with neither a space nor a line feed starts with ink. -/
theorem startsInk_single (hsimple : cs.all isSimple = true) (hfeed : cs.head? ≠ some '\n')
    (hspace : cs.head? ≠ some ' ') :
    StartsInk (single indent column before cs ++ '\'' :: tail) := by
  intro b hb
  cases cs with
  | nil =>
      cases hb
      decide
  | cons a cs =>
      rw [List.all_cons, Bool.and_eq_true] at hsimple
      have hfeed : a ≠ '\n' := by simpa using hfeed
      have hspace : a ≠ ' ' := by simpa using hspace
      by_cases hmark : a = '\''
      · rw [hmark, single, if_neg (by decide), if_pos rfl] at hb
        cases hb
        decide
      · rw [single_ink hfeed hspace hmark] at hb
        cases hb
        exact isInk_of_isSimple hsimple.1 hfeed hspace

theorem single_space (rest : List Char) : single indent column (some ' ') (' ' :: rest) =
    ' ' :: single indent (column + 1) (some ' ') rest := by
  have hsingle : isSingleSpace (some ' ') (' ' :: rest) = false := by
    cases rest <;> simp [isSingleSpace]
  rw [single, if_neg (by decide), if_neg (by decide), if_neg (by simp [hsingle])]

/-- Spaces that are written after a space do not end the line. -/
theorem solid_single (hsimple : cs.all isSimple = true)
    (hloose : hasLooseSpace (' ' :: cs) = false) :
    Solid (single indent column (some ' ') cs ++ '\'' :: tail) := by
  induction cs generalizing column with
  | nil => exact solid_of_ink (by decide)
  | cons a cs ih =>
      rw [List.all_cons, Bool.and_eq_true] at hsimple
      have hfeed : a ≠ '\n' := by
        rintro rfl
        simp [hasLooseSpace] at hloose
      by_cases hspace : a = ' '
      · subst hspace
        rw [single_space]
        exact (ih hsimple.2 (by simpa [hasLooseSpace] using hloose)).space
      by_cases hmark : a = '\''
      · rw [hmark, single, if_neg (by decide), if_pos rfl]
        exact solid_of_ink (by decide)
      · rw [single_ink hfeed hspace hmark]
        exact solid_of_ink (isInk_of_isSimple hsimple.1 hfeed hspace)

theorem hasLooseSpace_append (cs rest : List Char) (h : hasLooseSpace (cs ++ rest) = false) :
    hasLooseSpace rest = false := by
  induction cs with
  | nil => exact h
  | cons a cs ih =>
      refine ih ?_
      cases hcs : cs ++ rest with
      | nil => rfl
      | cons b bs =>
          rw [List.cons_append, hcs, hasLooseSpace, Bool.or_eq_false_iff] at h
          exact h.2

/-- Line feeds in front of what reads back. -/
theorem closes_feeds (hindent : 0 < indent) (hbefore : before ≠ some '\n')
    (hrest : rest.head? ≠ some '\n') (hsimple : rest.all isSimple = true)
    (hloose : hasLooseSpace (List.replicate (k + 1) '\n' ++ rest) = false)
    (h : Closes false (single indent indent (some '\n') rest ++ '\'' :: tail) (rest.map .char)
      tail) :
    Closes false (single indent column before (List.replicate (k + 1) '\n' ++ rest) ++ '\'' :: tail)
      ((List.replicate (k + 1) '\n' ++ rest).map .char) tail := by
  have hspace : rest.head? ≠ some ' ' := by
    intro hspace
    rw [List.replicate_succ', List.append_assoc] at hloose
    have hpair := hasLooseSpace_append _ _ hloose
    cases rest with
    | nil => cases hspace
    | cons b rest =>
        obtain rfl : b = ' ' := by simpa using hspace
        simp [hasLooseSpace] at hpair
  rw [single_feeds hbefore hrest, List.append_assoc, List.map_append, List.map_replicate]
  exact h.lines hindent (startsInk_single hsimple hrest hspace)

/-- A space in front of what reads back; it may have been given up for a new line. -/
theorem closes_space (hindent : 0 < indent) (hsimple : cs.all isSimple = true)
    (hloose : hasLooseSpace (' ' :: cs) = false)
    (h : ∀ column,
      Closes false (single indent column (some ' ') cs ++ '\'' :: tail) (cs.map .char) tail) :
    Closes false (single indent column before (' ' :: cs) ++ '\'' :: tail)
      ((' ' :: cs).map .char) tail := by
  rw [single, if_neg (by decide), if_neg (by decide)]
  split
  · rename_i hfold
    rw [Bool.and_eq_true] at hfold
    have hspace : cs.head? ≠ some ' ' := by
      intro hspace
      cases cs with
      | nil => cases hspace
      | cons b cs =>
          obtain rfl : b = ' ' := by simpa using hspace
          simp [isSingleSpace] at hfold
    have hfeed : cs.head? ≠ some '\n' := by
      intro hfeed
      cases cs with
      | nil => cases hfeed
      | cons b cs =>
          obtain rfl : b = '\n' := by simpa using hfeed
          simp [hasLooseSpace] at hloose
    rw [List.append_assoc]
    exact (h indent).lines (n := 0) hindent (startsInk_single hsimple hfeed hspace)
  · exact (h _).space (solid_single hsimple hloose)

/-- **A string in single marks reads back.**  A run of line feeds is taken as a whole, since the
first of them is written twice; otherwise the string is read as it was written, by characters. -/
theorem closes_single (hindent : 0 < indent) (htail : tail.head? ≠ some '\'') (cs : List Char)
    (column : Nat) (before : Option Char) (hsimple : cs.all isSimple = true)
    (hloose : hasLooseSpace cs = false) (hbefore : cs.head? = some '\n' → before ≠ some '\n') :
    Closes false (single indent column before cs ++ '\'' :: tail) (cs.map .char) tail := by
  induction hn : cs.length using Nat.strong_induction_on generalizing cs column before with
  | _ n ih =>
      cases cs with
      | nil => exact closes_mark htail
      | cons a cs =>
          by_cases hfeed : a = '\n'
          · subst hfeed
            obtain ⟨k, rest, hrun, hrest⟩ := exists_run '\n' cs
            have hlength : rest.length < n := by
              rw [← hn, hrun]
              simp
            rw [hrun] at hsimple hloose ⊢
            rw [List.all_append, Bool.and_eq_true] at hsimple
            exact closes_feeds hindent (hbefore rfl) hrest hsimple.2 hloose
              (ih _ hlength rest indent _ hsimple.2 (hasLooseSpace_append _ _ hloose)
                (fun h => absurd h hrest) rfl)
          rw [List.all_cons, Bool.and_eq_true] at hsimple
          have hnext : ∀ column,
              Closes false (single indent column (some a) cs ++ '\'' :: tail) (cs.map .char) tail :=
            fun column => ih _ (by simp [← hn]) cs column (some a) hsimple.2
              (hasLooseSpace_append [a] cs hloose) (fun _ h => hfeed (Option.some.inj h)) rfl
          by_cases hmark : a = '\''
          · subst hmark
            rw [single, if_neg hfeed, if_pos rfl]
            exact (hnext _).doubled
          by_cases hspace : a = ' '
          · subst hspace
            exact closes_space hindent hsimple.2 hloose hnext
          · rw [single_ink hfeed hspace hmark]
            exact (hnext _).ink (isInk_of_isSimple hsimple.1 hfeed hspace) hmark (by simp)

/-! ### Strings in double marks -/

theorem slash_of_escape? {e : List Char} (he : escape? a = some e) : ∃ e', e = '\\' :: e' := by
  obtain ⟨e', heq, -⟩ := Lexeme.escape_of_escape? he []
  exact ⟨e', heq⟩

/-- A character that needs no escape. -/
theorem visible_of_escape? (he : escape? a = none) :
    (' ' ≤ a ∧ a ≤ '~') ∧ a ≠ '"' ∧ a ≠ '\\' := by
  refine ⟨?_, ?_, ?_⟩
  · unfold escape? at he
    split at he
    · cases he
    · split at he
      · rename_i hvisible
        simpa using hvisible
      · split at he
        · cases he
        · split at he <;> cases he
  · rintro rfl
    exact absurd he (by decide)
  · rintro rfl
    exact absurd he (by decide)

theorem isInk_of_escape? (he : escape? a = none) (hspace : a ≠ ' ') : isInk a = true := by
  obtain ⟨hvisible, -⟩ := visible_of_escape? he
  refine isInk_of_isSimple ?_ ?_ hspace
  · simp [isSimple, hvisible]
  · rintro rfl
    exact absurd he (by decide)

/-- What is written in double marks starts with ink, or with a space that stood first. -/
theorem double_cases (indent column : Nat) (first loose : Bool) (cs tail : List Char) :
    (∃ b rest, double indent column first loose cs ++ '"' :: tail = b :: rest ∧ isInk b = true) ∨
      ∃ column' rest, cs = ' ' :: rest ∧ double indent column first loose cs ++ '"' :: tail =
        ' ' :: (double indent column' false false rest ++ '"' :: tail) := by
  cases cs with
  | nil => exact .inl ⟨'"', tail, rfl, by decide⟩
  | cons a rest =>
      rw [double]
      cases he : escape? a with
      | some e =>
          obtain ⟨e', rfl⟩ := slash_of_escape? he
          left
          refine ⟨'\\', ?_⟩
          dsimp only
          split
          · split <;> exact ⟨_, rfl, by decide⟩
          · exact ⟨_, rfl, by decide⟩
      | none =>
          dsimp only
          split
          · left
            split <;> exact ⟨'\\', _, rfl, by decide⟩
          · by_cases hspace : a = ' '
            · subst hspace
              exact .inr ⟨_, rest, rfl, rfl⟩
            · exact .inl ⟨a, _, rfl, isInk_of_escape? he hspace⟩

theorem startsInk_double {first loose : Bool} (hspace : cs.head? ≠ some ' ') :
    StartsInk (double indent column first loose cs ++ '"' :: tail) := by
  rcases double_cases indent column first loose cs tail with
    ⟨b, rest, hwritten, hink⟩ | ⟨_, rest, rfl, -⟩
  · rw [hwritten]
    intro b' hb'
    obtain rfl : b = b' := by simpa using hb'
    exact hink
  · exact absurd rfl hspace

theorem solid_double (cs : List Char) (column : Nat) (first loose : Bool) :
    Solid (double indent column first loose cs ++ '"' :: tail) := by
  induction cs generalizing column first loose with
  | nil => exact solid_of_ink (by decide)
  | cons a cs ih =>
      rcases double_cases indent column first loose (a :: cs) tail with
        ⟨b, rest, hwritten, hink⟩ | ⟨column', rest, hcs, hwritten⟩
      · rw [hwritten]
        exact solid_of_ink hink
      · obtain ⟨-, rfl⟩ := List.cons.inj hcs
        rw [hwritten]
        exact (ih column' false false).space

/-- A character that needs no escape, in front of what reads back. -/
theorem closes_visible (he : escape? a = none) {first loose : Bool}
    (h : Closes true (double indent column first loose cs ++ '"' :: tail) (cs.map .char) tail) :
    Closes true (a :: double indent column first loose cs ++ '"' :: tail)
      ((a :: cs).map .char) tail := by
  by_cases hspace : a = ' '
  · subst hspace
    exact h.space (solid_double cs column first loose)
  · obtain ⟨-, hmark, hslash⟩ := visible_of_escape? he
    exact h.ink (isInk_of_escape? he hspace) hmark fun _ => hslash

/-- A space at the start of a line is not broken off again. -/
theorem double_space (hwidth : indent < width) {first loose : Bool} :
    double indent (indent + 1) first loose (' ' :: rest) =
      ' ' :: double indent (indent + 1 + 1) false false rest := by
  have he : escape? ' ' = none := by decide
  rw [double, he]
  exact if_neg (by simp; omega)

/-- **A string in double marks reads back.** -/
theorem closes_double (hindent : 0 < indent) (hwidth : indent < width)
    (htail : tail.head? ≠ some '"') (cs : List Char) (column : Nat) (first loose : Bool) :
    Closes true (double indent column first loose cs ++ '"' :: tail) (cs.map .char) tail := by
  induction hn : cs.length using Nat.strong_induction_on generalizing cs column first loose with
  | _ n ih =>
      cases cs with
      | nil => exact closes_mark htail
      | cons a cs =>
          have hnext : ∀ column first loose, Closes true
              (double indent column first loose cs ++ '"' :: tail) (cs.map .char) tail :=
            fun column first loose => ih _ (by simp [← hn]) cs column first loose rfl
          rw [double]
          cases he : escape? a with
          | some e =>
              dsimp only
              split
              · split
                · rename_i hspace
                  cases cs with
                  | nil => cases hspace
                  | cons b cs =>
                      -- The backslash in front of the space comes from here, so that the space
                      -- itself is written by the next call and must not be folded there.
                      obtain rfl : b = ' ' := by simpa using hspace
                      have hrest := ih cs.length (by simp [← hn]) cs (indent + 1 + 1)
                        false false rfl
                      rw [double_space hwidth]
                      simp only [List.append_assoc, List.cons_append]
                      exact (hrest.blank.continued hindent
                        (fun b hb => by cases hb; decide)).escaped he
                · rename_i hspace
                  simp only [List.append_assoc, List.cons_append]
                  exact ((hnext _ _ _).continued hindent (startsInk_double hspace)).escaped he
              · rw [List.append_assoc]
                exact (hnext _ _ _).escaped he
          | none =>
              dsimp only
              split
              · split
                · rename_i hspace
                  subst hspace
                  simp only [List.append_assoc, List.cons_append]
                  exact (hnext _ _ _).blank.continued hindent (fun b hb => by cases hb; decide)
                · rename_i hspace
                  simp only [List.append_assoc, List.cons_append]
                  exact (closes_visible he (hnext _ _ _)).continued hindent
                    (fun b hb => by cases hb; exact isInk_of_escape? he hspace)
              · exact closes_visible he (hnext _ _ _)

/-! ### Nothing else is written

Visible ASCII and line feeds are all that a string is written with, so that it can stand in any
stream. -/

theorem isSimple_newLine : ∀ a ∈ newLine indent, isSimple a = true := by
  intro a ha
  rcases List.mem_cons.mp ha with rfl | ha
  · decide
  · rw [List.eq_of_mem_replicate ha]
    decide

theorem isSimple_plain (h : ∀ a ∈ cs, isSimple a = true) :
    ∀ a ∈ plain indent column before cs, isSimple a = true := by
  induction cs generalizing column before with
  | nil => simp [plain]
  | cons a cs ih =>
      rw [List.forall_mem_cons] at h
      rw [plain]
      split
      · rw [List.forall_mem_append]
        exact ⟨isSimple_newLine, ih h.2⟩
      · rw [List.forall_mem_cons]
        exact ⟨h.1, ih h.2⟩

theorem isSimple_single (h : ∀ a ∈ cs, isSimple a = true) :
    ∀ a ∈ single indent column before cs, isSimple a = true := by
  have hmark : isSimple '\'' = true := by decide
  have hfeed : isSimple '\n' = true := by decide
  have hspaces : ∀ a ∈ List.replicate indent ' ', isSimple a = true := fun a ha => by
    rw [List.eq_of_mem_replicate ha]
    decide
  induction cs generalizing column before with
  | nil => simp [single]
  | cons a cs ih =>
      rw [List.forall_mem_cons] at h
      rw [single]
      split
      · simp only [List.forall_mem_append]
        refine ⟨⟨?_, ?_⟩, ih h.2⟩
        · split <;> simp [hfeed]
        · split
          · simp
          · exact hspaces
      · split
        · simp only [List.forall_mem_cons]
          exact ⟨hmark, hmark, ih h.2⟩
        · split
          · rw [List.forall_mem_append]
            exact ⟨isSimple_newLine, ih h.2⟩
          · rw [List.forall_mem_cons]
            exact ⟨h.1, ih h.2⟩

theorem isSimple_of_range (hlow : ' ' ≤ a) (hhigh : a ≤ '~') : isSimple a = true := by
  simp [isSimple, hlow, hhigh]

theorem isSimple_of_isHexDigit (ha : isHexDigit a = true) : isSimple a = true := by
  simp only [isHexDigit, Bool.or_eq_true, Bool.and_eq_true, decide_eq_true_eq] at ha
  rcases ha with (⟨hlow, hhigh⟩ | ⟨hlow, hhigh⟩) | ⟨hlow, hhigh⟩
  · exact isSimple_of_range (Char.le_trans (by decide) hlow) (Char.le_trans hhigh (by decide))
  · exact isSimple_of_range (Char.le_trans (by decide) hlow) (Char.le_trans hhigh (by decide))
  · exact isSimple_of_range (Char.le_trans (by decide) hlow) (Char.le_trans hhigh (by decide))

theorem isSimple_escape {e : List Char} (he : escape? a = some e) :
    ∀ b ∈ e, isSimple b = true := by
  have hletters : ∀ entry ∈ letters, isSimple entry.2 = true := by decide
  have hhex : ∀ digits n, ∀ b ∈ hex digits n, isSimple b = true := fun digits n b hb =>
    isSimple_of_isHexDigit (isHexDigit_of_mem_hex hb)
  have hslash : isSimple '\\' = true := by decide
  have hx : isSimple 'x' = true := by decide
  have hu : isSimple 'u' = true := by decide
  have hU : isSimple 'U' = true := by decide
  unfold escape? at he
  split at he
  · rename_i letter hletter
    obtain ⟨before, after, hlist, -⟩ := List.lookup_eq_some_iff.mp hletter
    cases he
    simp [hslash, hletters (a, letter) (by simp [hlist])]
  · split at he
    · cases he
    · split at he
      · cases he
        simp only [List.forall_mem_cons]
        exact ⟨hslash, hx, hhex _ _⟩
      · split at he
        · cases he
          simp only [List.forall_mem_cons]
          exact ⟨hslash, hu, hhex _ _⟩
        · cases he
          simp only [List.forall_mem_cons]
          exact ⟨hslash, hU, hhex _ _⟩

theorem isSimple_double (cs : List Char) (column : Nat) (first loose : Bool) :
    ∀ a ∈ double indent column first loose cs, isSimple a = true := by
  have hslash : isSimple '\\' = true := by decide
  have hspace : isSimple ' ' = true := by decide
  induction cs generalizing column first loose with
  | nil => simp [double]
  | cons a cs ih =>
      rw [double]
      cases he : escape? a with
      | some e =>
          have hescape := isSimple_escape he
          dsimp only
          split
          · split
            · simp only [List.forall_mem_append, List.forall_mem_cons]
              exact ⟨⟨hescape, hslash, isSimple_newLine⟩, hslash, ih _ _ _⟩
            · simp only [List.forall_mem_append, List.forall_mem_cons]
              exact ⟨⟨hescape, hslash, isSimple_newLine⟩, ih _ _ _⟩
          · rw [List.forall_mem_append]
            exact ⟨hescape, ih _ _ _⟩
      | none =>
          obtain ⟨⟨hlow, hhigh⟩, -⟩ := visible_of_escape? he
          have ha := isSimple_of_range hlow hhigh
          dsimp only
          split
          · split
            · simp only [List.forall_mem_append, List.forall_mem_cons]
              exact ⟨⟨hslash, isSimple_newLine⟩, hslash, ha, ih _ _ _⟩
            · simp only [List.forall_mem_append, List.forall_mem_cons]
              exact ⟨⟨hslash, isSimple_newLine⟩, ha, ih _ _ _⟩
          · rw [List.forall_mem_cons]
            exact ⟨ha, ih _ _ _⟩

theorem isSimple_of_canBePlain (h : canBePlain cs = true) : ∀ a ∈ cs, isSimple a = true := by
  cases cs with
  | nil => simp
  | cons a cs =>
      simp only [canBePlain, Bool.and_eq_true, List.all_eq_true] at h
      exact fun b hb => (h.1.2 b hb).1

/-- **What a string is written as** is visible ASCII and line feeds. -/
theorem isSimple_string (indent column : Nat) (s : String) :
    ∀ a ∈ string indent column s, isSimple a = true := by
  have hmark : isSimple '\'' = true ∧ isSimple '"' = true := by decide
  unfold string
  dsimp only
  split
  · rename_i hplain
    exact isSimple_plain (isSimple_of_canBePlain hplain)
  · split
    · rename_i hsingle
      unfold canBeSingle at hsingle
      rw [Bool.and_eq_true, List.all_eq_true] at hsingle
      simp only [List.forall_mem_append, List.forall_mem_cons]
      exact ⟨⟨hmark.1, isSimple_single hsingle.1⟩, hmark.1, by simp⟩
    · simp only [List.forall_mem_append, List.forall_mem_cons]
      exact ⟨⟨hmark.2, isSimple_double _ _ _ _⟩, hmark.2, by simp⟩

theorem isStreamChar_of_isSimple (ha : isSimple a = true) : isStreamChar a = true := by
  simp only [isSimple, Bool.or_eq_true, Bool.and_eq_true, decide_eq_true_eq] at ha
  rcases ha with rfl | ⟨hlow, hhigh⟩
  · decide
  · have hlow : 0x20 ≤ a.toNat := hlow
    have hhigh : a.toNat ≤ 0x7E := hhigh
    simp [isStreamChar, hlow, hhigh]

end Print

end Semicolon.Yaml
