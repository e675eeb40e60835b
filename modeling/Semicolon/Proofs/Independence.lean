/-
One semicolon does not depend on another.

Put in the missing semicolons of some lines and leave the others: exactly the others are still
missing, and mending the rest gives the text that mending everything at once would have given.
So a text that has been mended needs no second mending.

The scan of the edited text does not go through the states of the first scan.  A line such as
`if // )` leaves its bracket count behind in an idle block, and the mended `if;// )` does not
open the block at all.  But the count of an idle block is never read, and the two scans agree
on everything that is, which is what `State.Agrees` says.  A line that is in both texts keeps
it.  A mended line keeps it because it was held by no block when it was reported, and with its
semicolon it can open none: what opens a block stands before the first semicolon of a line.

The line above a mended one sees it through its first glyph only, and that glyph is code.
-/
import Mathlib.Data.Finset.Basic
import Semicolon.Proofs.Agreement

namespace Semicolon

/-! ### A line with its semicolon put in -/

namespace Line

variable {t : Text}

theorem trimLeft_terminated (hcode : (split t).1.isBlank = false) :
    (ofText t).terminated.trimLeft = (split t).1.trimLeft ++ .char ';' :: (split t).2 :=
  Text.trimLeft_append hcode

/-- A line with code in it begins with that code. -/
theorem exists_trimLeft_append (hcode : (split t).1.isBlank = false) :
    ∃ rest : Text, t.trimLeft = (split t).1.trimLeft ++ rest := by
  obtain ⟨w, -, hparts, -⟩ := split_parts t
  refine ⟨w ++ (split t).2, ?_⟩
  rw [← Text.trimLeft_append hcode, ← List.append_assoc, ← hparts]

/-- The line above sees no difference. -/
theorem picksUp_terminated (hcode : (split t).1.isBlank = false) :
    (ofText t).terminated.picksUp = t.picksUp := by
  obtain ⟨rest, hrest⟩ := exists_trimLeft_append hcode
  have hne := Text.trimLeft_ne_nil hcode
  rw [Text.picksUp, Text.picksUp, trimLeft_terminated hcode, hrest, Text.first?, Text.first?,
    List.head?_append_of_ne_nil _ hne, List.head?_append_of_ne_nil _ hne]

theorem parenNet_terminated (t : Text) : (ofText t).terminated.parenNet = t.parenNet := by
  obtain ⟨w, hw, hparts, -⟩ := split_parts t
  conv_rhs => rw [hparts]
  show Text.net '(' ')' ((split t).1 ++ ([.char ';'] ++ (split t).2)) = _
  rw [Text.parenNet, Text.net_append, Text.net_append, Text.net_append, Text.net_append,
    Text.net_of_isBlank hw (by decide) (by decide)]
  have hsemi : Text.net '(' ')' [.char ';'] = 0 := by decide
  rw [hsemi]
  omega

theorem isIgnorable_terminated (t : Text) (p : Policy) :
    (ofText t).terminated.isIgnorable p = true := by
  refine Text.isIgnorable_of_last (c := ';') p ?_ (by decide)
  rw [split_terminated]
  exact List.getLast?_concat

/-- What opens a block stands before the semicolon, so it stands in the old line too. -/
theorem opens_of_terminated {opens : Text → Bool} (hcode : (split t).1.isBlank = false)
    (hopens : ∀ {a u : Text}, opens (a ++ .char ';' :: u) = true → ∀ v, opens (a ++ v) = true)
    (h : opens (ofText t).terminated.trimLeft = true) : opens t.trimLeft = true := by
  rw [trimLeft_terminated hcode] at h
  obtain ⟨rest, hrest⟩ := exists_trimLeft_append hcode
  rw [hrest]
  exact hopens h rest

end Line

namespace Scan

/-! ### A mended line leaves an agreeing state behind -/

theorem after_terminated {p : Policy} {s s' : State} {t next : Text} (h : s.Agrees s')
    (hlacks : Lacks p s t next) : (after s t).Agrees (after s' (Line.ofText t).terminated) := by
  have hcode := Text.isBlank_code_of_not_ignorable hlacks.accountable
  have hfree := hlacks.free
  rw [holds_eq, Bool.or_eq_false_iff, Bool.or_eq_false_iff, Bool.or_eq_false_iff] at hfree
  obtain ⟨⟨⟨hdecl, hbare⟩, hcond⟩, hres⟩ := hfree
  have hnet : (Line.ofText t).terminated.trimLeft.parenNet = t.trimLeft.parenNet := by
    rw [Text.parenNet_trimLeft, Text.parenNet_trimLeft, Line.parenNet_terminated]
  have hsplit : (Line.split (Line.ofText t).terminated).1 = (Line.split t).1 ++ [.char ';'] := by
    rw [Line.split_terminated]
  have hdepth : ∀ opening closing : Char, opening ≠ ';' → closing ≠ ';' →
      Text.net opening closing (Line.split (Line.ofText t).terminated).1
        = Text.net opening closing (Line.split t).1 := by
    intro opening closing ho hc
    have hsemi : Text.net opening closing [.char ';'] = 0 := by
      simp [Text.net, Text.occurrences, Ne.symm ho, Ne.symm hc]
    rw [hsplit, Text.net_append, hsemi, Int.add_zero]
  refine ⟨?_, ?_, ?_, ?_, ?_⟩
  · rw [after_parens, after_parens, h.parens, hdepth '(' ')' (by decide) (by decide)]
  · rw [after_brackets, after_brackets, h.brackets, hdepth '[' ']' (by decide) (by decide)]
  · -- The semicolon closes a declaration block at once, and none was open before.
    have hsemi : (Line.ofText t).terminated.has ';' = true := by
      show ((Line.split t).1 ++ .char ';' :: (Line.split t).2).has ';' = true
      simp [Text.has]
    rw [after_declaration, after_declaration, hdecl, hbare, hsemi]
    simp
  · exact h.condition.step_of_not_held hcond
      (Line.opens_of_terminated hcode (Text.opensCondition_append (by decide))) hnet
  · exact h.result.step_of_not_held hres
      (Line.opens_of_terminated hcode (Text.opensResult_append (by decide))) hnet

/-! ### Mending some of the lines -/

/-- The lines with a semicolon put in on those whose number is chosen.  Lines count from one. -/
def mendOnly (chosen : Finset Nat) (lines : List Text) : List Text :=
  lines.mapIdx fun i t => if i + 1 ∈ chosen then (Line.ofText t).terminated else t

theorem getElem?_mendOnly (chosen : Finset Nat) (lines : List Text) (i : Nat) :
    (mendOnly chosen lines)[i]? = lines[i]?.map fun t =>
      if i + 1 ∈ chosen then (Line.ofText t).terminated else t :=
  List.getElem?_mapIdx

section

variable {p : Policy} {lines : List Text} {chosen : Finset Nat}

theorem lacks_of_chosen (hsub : ∀ n ∈ chosen, n ∈ missing p lines) {i : Nat} {t : Text}
    (hi : i + 1 ∈ chosen) (ht : lines[i]? = some t) :
    Lacks p (entering lines i) t (lines.getD (i + 1) []) :=
  lacks_of_mem_missing ht (hsub _ hi)

/-- The scan of the edited lines keeps step with the scan of the lines. -/
theorem entering_mendOnly (hsub : ∀ n ∈ chosen, n ∈ missing p lines) (i : Nat) :
    (entering lines i).Agrees (entering (mendOnly chosen lines) i) := by
  induction i with
  | zero => exact State.Agrees.refl _
  | succ i ih =>
      have hget := getElem?_mendOnly chosen lines i
      cases ht : lines[i]? with
      | none =>
          rw [ht] at hget
          rw [entering_succ_none ht, entering_succ_none hget]
          exact ih
      | some t =>
          rw [ht, Option.map_some] at hget
          rw [entering_succ ht, entering_succ hget]
          split
          · rename_i hi
            exact after_terminated ih (lacks_of_chosen hsub hi ht)
          · exact after_agrees ih t

theorem picksUp_mendOnly (hsub : ∀ n ∈ chosen, n ∈ missing p lines) (i : Nat) :
    ((mendOnly chosen lines).getD i []).picksUp = (lines.getD i []).picksUp := by
  rw [List.getD_eq_getElem?_getD, List.getD_eq_getElem?_getD, getElem?_mendOnly]
  cases ht : lines[i]? with
  | none => rfl
  | some t =>
      simp only [Option.map_some, Option.getD_some]
      split
      · rename_i hi
        exact Line.picksUp_terminated
          (Text.isBlank_code_of_not_ignorable (lacks_of_chosen hsub hi ht).accountable)
      · rfl

theorem succ_mem_missing_mendOnly (hsub : ∀ n ∈ chosen, n ∈ missing p lines) (i : Nat) :
    i + 1 ∈ missing p (mendOnly chosen lines) ↔ i + 1 ∈ missing p lines ∧ i + 1 ∉ chosen := by
  rw [succ_mem_missing_iff, succ_mem_missing_iff, getElem?_mendOnly]
  have hcongr : ∀ t, Lacks p (entering (mendOnly chosen lines) i) t
      ((mendOnly chosen lines).getD (i + 1) []) ↔
        Lacks p (entering lines i) t (lines.getD (i + 1) []) :=
    fun t => (lacks_congr (entering_mendOnly hsub i) (picksUp_mendOnly hsub (i + 1)).symm).symm
  cases ht : lines[i]? with
  | none => simp
  | some t =>
      by_cases hi : i + 1 ∈ chosen
      · -- With its semicolon the line is ignorable, whatever the state.
        have hnot : ∀ s next, ¬ Lacks p s (Line.ofText t).terminated next := by
          intro s next hlacks
          have hign := hlacks.accountable
          rw [Line.isIgnorable_terminated] at hign
          exact Bool.noConfusion hign
        simp [hi, hnot]
      · simp only [Option.map_some, if_neg hi, Option.some.injEq, exists_eq_left', hcongr]
        exact ⟨fun hlacks => ⟨hlacks, hi⟩, fun hlacks => hlacks.1⟩

theorem missing_mendOnly (hsub : ∀ n ∈ chosen, n ∈ missing p lines) :
    missing p (mendOnly chosen lines) = (missing p lines).filter (· ∉ chosen) := by
  refine missing_eq_of_mem_iff ((missing_pairwise p lines).filter _) ?_
  intro n
  rw [List.mem_filter, decide_eq_true_eq]
  cases n with
  | zero => simp [zero_not_mem_missing]
  | succ i => exact succ_mem_missing_mendOnly hsub i

theorem mended_mendOnly (hsub : ∀ n ∈ chosen, n ∈ missing p lines) :
    mended p (mendOnly chosen lines) = mended p lines := by
  refine List.ext_getElem? fun i => ?_
  rw [getElem?_mended, getElem?_mended, getElem?_mendOnly]
  cases ht : lines[i]? with
  | none => rfl
  | some t =>
      simp only [Option.map_some, succ_mem_missing_mendOnly hsub]
      by_cases hi : i + 1 ∈ chosen
      · simp [hi, hsub _ hi]
      · simp [hi]

end

/-! ### Mending all of them -/

theorem mended_eq_mendOnly (p : Policy) (lines : List Text) :
    mended p lines = mendOnly (missing p lines).toFinset lines := by
  refine List.ext_getElem? fun i => ?_
  rw [getElem?_mended, getElem?_mendOnly]
  simp only [List.mem_toFinset]

/-- Nothing is missing in a mended text. -/
theorem missing_mended (p : Policy) (lines : List Text) : missing p (mended p lines) = [] := by
  rw [mended_eq_mendOnly, missing_mendOnly fun n hn => List.mem_toFinset.mp hn,
    List.filter_eq_nil_iff]
  intro n hn
  simp [hn]

/-- A mended text is its own mended text. -/
theorem mended_mended (p : Policy) (lines : List Text) :
    mended p (mended p lines) = mended p lines := by
  conv_lhs => rw [mended_eq_mendOnly p lines]
  exact mended_mendOnly fun n hn => List.mem_toFinset.mp hn

/-- **The missing semicolons are independent of one another.**  If some of the lines whose
semicolon is missing get theirs, exactly the other ones are still missing, in order, and the
mended text is the one that mending the file gives. -/
theorem mendOnly_leaves_the_rest (p : Policy) (lines : List Text) (chosen : Finset Nat)
    (hsub : ∀ n ∈ chosen, n ∈ missing p lines) :
    missing p (mendOnly chosen lines) = (missing p lines).filter (· ∉ chosen) ∧
      mended p (mendOnly chosen lines) = mended p lines :=
  ⟨missing_mendOnly hsub, mended_mendOnly hsub⟩

/-- In this file the first line leaves the count of its comment behind in an idle block, and no
longer does so with its semicolon. -/
theorem mendOnly_idle_count :
    (∀ n ∈ ({1, 3} : Finset Nat), n ∈ missing {}
      [Text.ofString "if // )", Text.ofString "f(x)  // call", Text.ofString "return y"]) ∧
    missing {} (mendOnly {1, 3}
      [Text.ofString "if // )", Text.ofString "f(x)  // call", Text.ofString "return y"])
      = [2] := by
  have hsub : ∀ n ∈ ({1, 3} : Finset Nat), n ∈ missing {}
      [Text.ofString "if // )", Text.ofString "f(x)  // call", Text.ofString "return y"] := by
    decide
  refine ⟨hsub, ?_⟩
  rw [(mendOnly_leaves_the_rest _ _ _ hsub).1]
  decide

end Scan

end Semicolon
