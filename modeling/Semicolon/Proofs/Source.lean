/-
Lines read and written again.

A text that can be a line of a file has no line feed in it, does not end in a carriage return,
and is read back from the bytes it is written as.  Every line of every file is such a text, and
writing such texts and reading the file again gives them back: the line feed after each one is
ASCII, so it merges with no stray byte before it and with none after it.  Putting in a
semicolon keeps a line one that can be read, because a semicolon is ASCII too and replaces the
blanks it removes.
-/
import Mathlib.Data.List.DropRight
import Semicolon.Source
import Semicolon.Proofs.Pass
import Semicolon.Proofs.Utf8

namespace Semicolon.Source

/-! ### Cutting at line feeds -/

theorem exists_pieces (t : Text) : ∃ p ps, pieces t = p :: ps := by
  induction t with
  | nil => exact ⟨[], [], rfl⟩
  | cons g t ih =>
      obtain ⟨p, ps, h⟩ := ih
      rw [pieces, h]
      by_cases hg : g = .char '\n'
      · exact ⟨[], p :: ps, if_pos hg⟩
      · exact ⟨g :: p, ps, if_neg hg⟩

theorem pieces_newline (t : Text) : pieces (.char '\n' :: t) = [] :: pieces t := by
  obtain ⟨p, ps, h⟩ := exists_pieces t
  rw [pieces, h]
  rfl

theorem pieces_cons {g : Glyph} {t p : Text} {ps : List Text} (hg : g ≠ .char '\n')
    (h : pieces t = p :: ps) : pieces (g :: t) = (g :: p) :: ps := by
  rw [pieces, h]
  exact if_neg hg

/-- A piece is a stretch of the text, and there is no line feed in it. -/
theorem mem_pieces {t q : Text} (h : q ∈ pieces t) : q <:+: t ∧ .char '\n' ∉ q := by
  -- The first piece is where the induction needs more: it begins where the text does.
  have key : ∀ t : Text, ∀ p ps, pieces t = p :: ps →
      (p <+: t ∧ .char '\n' ∉ p) ∧ ∀ q ∈ ps, q <:+: t ∧ .char '\n' ∉ q := by
    intro t
    induction t with
    | nil =>
        intro p ps hp
        obtain ⟨rfl, rfl⟩ := List.cons.inj hp
        exact ⟨⟨List.prefix_refl _, by simp⟩, by simp⟩
    | cons g t ih =>
        intro p ps hp
        obtain ⟨p', ps', h'⟩ := exists_pieces t
        obtain ⟨⟨hpre, hfree⟩, hrest⟩ := ih p' ps' h'
        have hrest' : ∀ q ∈ ps', q <:+: g :: t ∧ .char '\n' ∉ q :=
          fun q hq => ⟨List.infix_cons (hrest q hq).1, (hrest q hq).2⟩
        by_cases hg : g = .char '\n'
        · subst hg
          rw [pieces_newline, h'] at hp
          obtain ⟨rfl, rfl⟩ := List.cons.inj hp
          refine ⟨⟨List.nil_prefix, by simp⟩, fun q hq => ?_⟩
          rcases List.mem_cons.mp hq with rfl | hq
          · exact ⟨List.infix_cons hpre.isInfix, hfree⟩
          · exact hrest' q hq
        · rw [pieces_cons hg h'] at hp
          obtain ⟨rfl, rfl⟩ := List.cons.inj hp
          refine ⟨⟨List.cons_prefix_cons.mpr ⟨rfl, hpre⟩, ?_⟩, hrest'⟩
          rw [List.mem_cons, not_or]
          exact ⟨fun hc => hg hc.symm, hfree⟩
  obtain ⟨p, ps, hp⟩ := exists_pieces t
  obtain ⟨⟨hpre, hfree⟩, hrest⟩ := key t p ps hp
  rw [hp] at h
  rcases List.mem_cons.mp h with rfl | hq
  · exact ⟨hpre.isInfix, hfree⟩
  · exact hrest q hq

/-- A text up to its first line feed is its first piece. -/
theorem pieces_append_newline {l : Text} (hl : .char '\n' ∉ l) (t : Text) :
    pieces (l ++ .char '\n' :: t) = l :: pieces t := by
  induction l with
  | nil => exact pieces_newline t
  | cons g l ih =>
      rw [List.mem_cons, not_or] at hl
      exact pieces_cons (fun hc => hl.1 hc.symm) (ih hl.2)

theorem pieces_joined {ls : List Text} (hls : ∀ l ∈ ls, .char '\n' ∉ l) :
    pieces (ls.flatMap fun l => l ++ [.char '\n']) = ls ++ [[]] := by
  induction ls with
  | nil => rfl
  | cons l ls ih =>
      rw [List.flatMap_cons, List.append_assoc, List.singleton_append,
        pieces_append_newline (hls l List.mem_cons_self),
        ih fun l' hl' => hls l' (List.mem_cons_of_mem _ hl')]
      rfl

/-! ### Texts that can be lines -/

/-- A text that can be a line of a file. -/
structure IsLine (t : Text) : Prop where
  /-- No line feed is in it. -/
  unbroken : .char '\n' ∉ t
  /-- It does not end in a carriage return. -/
  chomped : chomp t = t
  /-- Its bytes are read as this text. -/
  faithful : Utf8.Faithful t

theorem chomp_isPrefix (t : Text) : chomp t <+: t := List.rdropWhile_prefix _ _

theorem chomp_chomp (t : Text) : chomp (chomp t) = chomp t := List.rdropWhile_idempotent _ _

theorem chomp_concat_iff {t : Text} {g : Glyph} :
    chomp (t ++ [g]) = t ++ [g] ↔ isLineEnd g = false := by
  show List.rdropWhile isLineEnd (t ++ [g]) = t ++ [g] ↔ _
  rw [List.rdropWhile_eq_self_iff]
  simp

/-- Every line that is read from a file is one that can be written to it. -/
theorem isLine_of_mem_lines {bs : Bytes} {l : Text} (h : l ∈ lines bs) : IsLine l := by
  rw [lines, linesOfText] at h
  obtain ⟨q, hq, rfl⟩ := List.mem_map.mp h
  have hpiece : q ∈ pieces (Utf8.decode bs) := by
    split at hq
    · exact List.dropLast_subset _ hq
    · exact hq
  obtain ⟨⟨a, b, hinfix⟩, hfree⟩ := mem_pieces hpiece
  have hfaithful : Utf8.Faithful q := by
    have hwhole := Utf8.faithful_decode bs
    rw [← hinfix] at hwhole
    exact hwhole.left.right
  obtain ⟨r, hr⟩ := chomp_isPrefix q
  refine ⟨fun hmem => hfree ((chomp_isPrefix q).subset hmem), chomp_chomp q, ?_⟩
  rw [← hr] at hfaithful
  exact hfaithful.left

theorem encode_joined (ls : List Text) :
    Utf8.encode (ls.flatMap fun l => l ++ [.char '\n']) = bytes ls := by
  induction ls with
  | nil => rfl
  | cons l ls ih =>
      rw [List.flatMap_cons, Utf8.encode_append, Utf8.encode_append, ih]
      rfl

theorem faithful_joined {ls : List Text} (hls : ∀ l ∈ ls, Utf8.Faithful l) :
    Utf8.Faithful (ls.flatMap fun l => l ++ [.char '\n']) := by
  induction ls with
  | nil => exact Utf8.faithful_nil
  | cons l ls ih =>
      rw [List.flatMap_cons, List.append_assoc, List.singleton_append]
      exact (hls l List.mem_cons_self).join
        (ih fun l' hl' => hls l' (List.mem_cons_of_mem _ hl')) (by decide)

/-- **Lines that were written are read back.** -/
theorem lines_bytes {ls : List Text} (hls : ∀ l ∈ ls, IsLine l) : lines (bytes ls) = ls := by
  have hread : Utf8.decode (bytes ls) = ls.flatMap fun l => l ++ [.char '\n'] := by
    rw [← encode_joined]
    exact faithful_joined fun l hl => (hls l hl).faithful
  rw [lines, linesOfText, hread, pieces_joined fun l hl => (hls l hl).unbroken]
  simp only [List.getLast?_concat, if_pos, List.dropLast_concat]
  rw [List.map_congr_left fun l hl => (hls l hl).chomped, List.map_id']

/-! ### Lines that were mended -/

/-- A semicolon put into a line leaves it one that can be written and read. -/
theorem isLine_terminated {t : Text} (h : IsLine t) : IsLine (Line.ofText t).terminated := by
  obtain ⟨w, -, hparts, -⟩ := Line.split_parts t
  obtain ⟨hunbroken, hchomped, hfaithful⟩ := h
  show IsLine ((Line.split t).1 ++ .char ';' :: (Line.split t).2)
  generalize (Line.split t).1 = code, (Line.split t).2 = comment at hparts ⊢
  subst hparts
  refine ⟨?_, ?_, hfaithful.left.left.join hfaithful.right (by decide)⟩
  · simp only [List.mem_append, not_or] at hunbroken
    simp [hunbroken.1.1, hunbroken.2]
  · -- The last glyph is the semicolon, or the one that the line had before.
    rcases List.eq_nil_or_concat comment with rfl | ⟨body, g, rfl⟩
    · exact chomp_concat_iff.mpr (by decide)
    · rw [List.concat_eq_append] at hchomped ⊢
      rw [← List.append_assoc] at hchomped
      have hg : isLineEnd g = false := chomp_concat_iff.mp hchomped
      rw [← List.cons_append, ← List.append_assoc]
      exact chomp_concat_iff.mpr hg

theorem isLine_of_mem_mended {p : Policy} {ls : List Text} (hls : ∀ l ∈ ls, IsLine l)
    {l : Text} (h : l ∈ Scan.mended p ls) : IsLine l := by
  obtain ⟨i, hi⟩ := List.mem_iff_getElem?.mp h
  rw [Scan.getElem?_mended] at hi
  obtain ⟨t, ht, rfl⟩ := Option.map_eq_some_iff.mp hi
  have hline : IsLine t := hls t (List.mem_iff_getElem?.mpr ⟨i, ht⟩)
  split
  · exact isLine_terminated hline
  · exact hline

/-- **What is written for a mended file is read as the mended lines.** -/
theorem lines_bytes_mended (p : Policy) (bs : Bytes) :
    lines (bytes (Scan.mended p (lines bs))) = Scan.mended p (lines bs) :=
  lines_bytes fun _ hl => isLine_of_mem_mended (fun _ hl' => isLine_of_mem_lines hl') hl

end Semicolon.Source
