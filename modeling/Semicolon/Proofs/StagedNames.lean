/-
Which staged files are found among the names that are printed.

Version control prints each staged name with a line feed after it.  The answer is cut at every
character that may end a line, and the line feed is only one of these: a form feed or a line
separator in a name cuts the name apart.  So what is found is the source files among the stretches
of the names.  These are the source files among the names themselves exactly if every name that
comes apart is no source file and has none among its stretches; otherwise a file is missed, or one
is found that nobody named.
-/
import Semicolon.Proofs.Selection

namespace Semicolon.Discovery

variable {d : Disk} {name : String} {names : List String}

/-! ### The stretches of a text -/

/-- The stretches of a text between the characters that end a line. -/
def stretches (s : String) : List String := (s.toList.splitOnP isLineBreak).map String.ofList

/-- No character of the name ends a line. -/
def IsWhole (name : String) : Prop := ∀ c ∈ name.toList, isLineBreak c = false

theorem stretches_of_isWhole (h : IsWhole name) : stretches name = [name] := by
  rw [stretches, List.splitOnP_eq_singleton h, List.map_singleton, String.ofList_toList]

/-- How a text is cut, character by character from the right. -/
theorem cut_cons (c : Char) (cs : List Char) : ∃ first rest,
    cs.splitOnP isLineBreak = first :: rest ∧
      (isLineBreak c = true → (c :: cs).splitOnP isLineBreak = [] :: first :: rest) ∧
      (isLineBreak c = false → (c :: cs).splitOnP isLineBreak = (c :: first) :: rest) := by
  obtain ⟨first, rest, hcut⟩ := List.exists_cons_of_ne_nil (List.splitOnP_ne_nil isLineBreak cs)
  refine ⟨first, rest, hcut, fun hc => ?_, fun hc => ?_⟩
  · rw [List.splitOnP_cons_eq_if_modifyHead, if_pos hc, hcut]
  · rw [List.splitOnP_cons_eq_if_modifyHead, if_neg (by simp [hc]), hcut, List.modifyHead_cons]

theorem isWhole_of_mem_stretches {s q : String} (h : q ∈ stretches s) : IsWhole q := by
  have key : ∀ cs : List Char, ∀ p ∈ cs.splitOnP isLineBreak, ∀ c ∈ p, isLineBreak c = false := by
    intro cs
    induction cs with
    | nil => simp
    | cons b cs ih =>
        obtain ⟨first, rest, hcut, hbreak, hinner⟩ := cut_cons b cs
        rw [hcut] at ih
        obtain ⟨hfirst, hrest⟩ := List.forall_mem_cons.mp ih
        by_cases hb : isLineBreak b = true
        · rw [hbreak hb]
          exact List.forall_mem_cons.mpr ⟨by simp, ih⟩
        · rw [Bool.not_eq_true] at hb
          rw [hinner hb]
          exact List.forall_mem_cons.mpr ⟨List.forall_mem_cons.mpr ⟨hb, hfirst⟩, hrest⟩
  obtain ⟨p, hp, rfl⟩ := List.mem_map.mp h
  rw [IsWhole, String.toList_ofList]
  exact key _ p hp

/-! ### The lines of an answer -/

/-- The lines of an answer are the stretches of its text, except for empty ones: a break at the
very end starts no line, and nothing stands between a carriage return and its line feed.  So a
filter that refuses the empty line takes the same from both. -/
theorem answerLines_cut {p : List Char → Bool} (hp : p [] = false) (cs : List Char) :
    (answerLines cs).headD [] = (cs.splitOnP isLineBreak).headD [] ∧
      (answerLines cs).filter p = (cs.splitOnP isLineBreak).filter p := by
  -- The first line grows to the left: it has to be the same, whether or not it passes the filter.
  fun_induction answerLines cs with
  | case1 => simp [hp]
  | case2 rest ih =>
      have hcut : ('\r' :: '\n' :: rest).splitOnP isLineBreak
          = [] :: [] :: rest.splitOnP isLineBreak := by
        rw [List.splitOnP_cons_eq_if_modifyHead, if_pos (by decide),
          List.splitOnP_cons_eq_if_modifyHead, if_pos (by decide)]
      rw [hcut]
      exact ⟨rfl, by simp [hp, ih.2]⟩
  | case3 c rest _ hc ih =>
      rw [List.splitOnP_cons_eq_if_modifyHead, if_pos hc]
      exact ⟨rfl, by simp [hp, ih.2]⟩
  | case4 c rest _ hc hnone ih =>
      obtain ⟨first, others, hcut, -, hinner⟩ := cut_cons c rest
      rw [hnone, hcut] at ih
      obtain ⟨hfirst, hothers⟩ := ih
      obtain rfl : [] = first := hfirst
      rw [hinner (by simpa using hc)]
      refine ⟨rfl, ?_⟩
      rw [List.filter_nil, List.filter_cons_of_neg (by simp [hp])] at hothers
      rw [List.filter_cons, List.filter_cons, ← hothers, List.filter_nil]
  | case5 c rest _ hc l ls hsome ih =>
      obtain ⟨first, others, hcut, -, hinner⟩ := cut_cons c rest
      rw [hsome, hcut] at ih
      obtain ⟨hfirst, hothers⟩ := ih
      obtain rfl : l = first := hfirst
      rw [hinner (by simpa using hc)]
      refine ⟨rfl, ?_⟩
      have hrest : ls.filter p = others.filter p := by
        by_cases hl : p l = true
        · rw [List.filter_cons_of_pos hl, List.filter_cons_of_pos hl] at hothers
          exact (List.cons.inj hothers).2
        · rwa [List.filter_cons_of_neg hl, List.filter_cons_of_neg hl] at hothers
      rw [List.filter_cons, List.filter_cons, hrest]

/-! ### What is found -/

theorem isSourceFile_empty (d : Disk) : isSourceFile d "" = false := by
  have hsource : isSource "" = false := by decide
  rw [isSourceFile, hsource, Bool.false_and]

/-- The text that prints each name with a line feed after it. -/
def feed (names : List String) : String := String.join (names.map (· ++ "\n"))

/-- Version control with these names staged, which it prints. -/
def printed (names : List String) : Staging where
  staged := .given 0 (feed names)

theorem stretches_feed (names : List String) :
    stretches (feed names) = names.flatMap stretches ++ [""] := by
  induction names with
  | nil => simp [feed, stretches]
  | cons name names ih =>
      have htext : (feed (name :: names)).toList = name.toList ++ '\n' :: (feed names).toList := by
        simp [feed]
      rw [stretches, htext, List.splitOnP_append_cons _ _ (by decide), List.map_append,
        List.flatMap_cons, List.append_assoc, ← ih]
      rfl

/-- The files that are found are the source files among the stretches of the answer. -/
theorem exists_staged_printed (d : Disk) (names : List String) : ∃ s,
    staged d (printed names) = .ok s ∧
      s.files = (names.flatMap stretches).filter (isSourceFile d) := by
  refine exists_staged_iff.mpr ⟨_, rfl, ?_⟩
  have hlines := answerLines_cut (p := isSourceFile d ∘ String.ofList) (isSourceFile_empty d)
    (feed names).toList
  have hstretches : ((answerLines (feed names).toList).map String.ofList).filter (isSourceFile d) =
      (stretches (feed names)).filter (isSourceFile d) := by
    rw [stretches, List.filter_map, List.filter_map, hlines.2]
  rw [hstretches, stretches_feed, List.filter_append,
    List.filter_cons_of_neg (by simp [isSourceFile_empty]), List.filter_nil, List.append_nil]

/-! ### When the names themselves are found -/

/-- The name has no part in the result, whole or cut: it is no source file, and none of its
stretches is one. -/
def Harmless (d : Disk) (name : String) : Prop :=
  isSourceFile d name = false ∧ ∀ q ∈ stretches name, isSourceFile d q = false

/-- If only whole names are source files, each of them is found, in the order of the names. -/
theorem filter_sublist (h : ∀ name ∈ names, isSourceFile d name = true → IsWhole name) :
    (names.filter (isSourceFile d)).Sublist
      ((names.flatMap stretches).filter (isSourceFile d)) := by
  induction names with
  | nil => exact List.Sublist.refl _
  | cons name names ih =>
      rw [List.forall_mem_cons] at h
      rw [List.flatMap_cons, List.filter_append]
      by_cases hname : isSourceFile d name = true
      · rw [stretches_of_isWhole (h.1 hname), List.filter_singleton, hname,
          List.filter_cons_of_pos hname]
        exact (ih h.2).cons_cons name
      · rw [List.filter_cons_of_neg hname]
        exact (ih h.2).trans (List.sublist_append_right _ _)

theorem harmless_of_filter_eq
    (h : (names.flatMap stretches).filter (isSourceFile d) = names.filter (isSourceFile d)) :
    ∀ name ∈ names, IsWhole name ∨ Harmless d name := by
  -- What is found is whole, so no source file among the names comes apart.
  have hwhole : ∀ name ∈ names, isSourceFile d name = true → IsWhole name := by
    intro name hname hfile
    have hfound : name ∈ (names.flatMap stretches).filter (isSourceFile d) := by
      rw [h]
      exact List.mem_filter.mpr ⟨hname, hfile⟩
    obtain ⟨s, -, hs⟩ := List.mem_flatMap.mp (List.mem_filter.mp hfound).1
    exact isWhole_of_mem_stretches hs
  induction names with
  | nil => simp
  | cons name names ih =>
      rw [List.forall_mem_cons] at hwhole
      rw [List.flatMap_cons, List.filter_append] at h
      refine List.forall_mem_cons.mpr ?_
      by_cases hname : IsWhole name
      · rw [stretches_of_isWhole hname, ← List.filter_append, List.singleton_append,
          List.filter_cons, List.filter_cons] at h
        refine ⟨Or.inl hname, ih ?_ hwhole.2⟩
        split at h
        · exact (List.cons.inj h).2
        · exact h
      · have hno : isSourceFile d name = false :=
          Bool.eq_false_iff.mpr fun hfile => hname (hwhole.1 hfile)
        rw [List.filter_cons_of_neg (by simp [hno])] at h
        -- The rest is found already, so the stretches of this name have nothing to add to it.
        have hrest := (filter_sublist hwhole.2).length_le
        have hlength := congrArg List.length h
        rw [List.length_append] at hlength
        have hnone : (stretches name).filter (isSourceFile d) = [] :=
          List.eq_nil_of_length_eq_zero (by omega)
        rw [hnone, List.nil_append] at h
        refine ⟨Or.inr ⟨hno, ?_⟩, ih h hwhole.2⟩
        simpa [List.filter_eq_nil_iff] using hnone

theorem filter_eq_of_harmless (h : ∀ name ∈ names, IsWhole name ∨ Harmless d name) :
    (names.flatMap stretches).filter (isSourceFile d) = names.filter (isSourceFile d) := by
  induction names with
  | nil => rfl
  | cons name names ih =>
      rw [List.forall_mem_cons] at h
      rw [List.flatMap_cons, List.filter_append, ih h.2]
      rcases h.1 with hwhole | ⟨hno, hnone⟩
      · rw [stretches_of_isWhole hwhole, ← List.filter_append, List.singleton_append]
      · have hnothing : (stretches name).filter (isSourceFile d) = [] :=
          List.filter_eq_nil_iff.mpr (by simpa using hnone)
        rw [hnothing, List.nil_append, List.filter_cons_of_neg (by simp [hno])]

/-- **What is found among the staged names that are printed.**  It is the source files among the
stretches of the names, in their order.  That is the source files among the names themselves
exactly if no other name than a whole one is or holds a source file. -/
theorem staged_printed (d : Disk) (names : List String) :
    ∃ s, staged d (printed names) = .ok s ∧
      s.files = (names.flatMap stretches).filter (isSourceFile d) ∧
      (s.files = names.filter (isSourceFile d) ↔
        ∀ name ∈ names, IsWhole name ∨ Harmless d name) := by
  obtain ⟨s, hs, hfiles⟩ := exists_staged_printed d names
  refine ⟨s, hs, hfiles, ?_⟩
  rw [hfiles]
  exact ⟨harmless_of_filter_eq, filter_eq_of_harmless⟩

/-- A disk with a file whose name holds a line separator, and another file of the name that stands
after it. -/
def separatedName : Disk where
  entries := [(["x\u2028a.js"], .file [] false), (["a.js"], .file [] false)]

/-- The file that is staged is missed, and the one that is not is found in its place. -/
theorem staged_printed_separated :
    '\n' ∉ "x\u2028a.js".toList ∧ '\r' ∉ "x\u2028a.js".toList ∧
    ["x\u2028a.js"].filter (isSourceFile separatedName) = ["x\u2028a.js"] ∧
    ∃ s, staged separatedName (printed ["x\u2028a.js"]) = .ok s ∧ s.files = ["a.js"] := by
  refine ⟨by decide, by decide, by decide +kernel, exists_staged_iff.mpr ⟨_, rfl, ?_⟩⟩
  decide +kernel

end Semicolon.Discovery
