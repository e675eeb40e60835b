/-
Lines as stretches of bytes.

A file is read as text, cut into lines and trimmed as text, and mended as text, but it is kept as
bytes.  Here the same is said of the bytes alone: which stretches of them the lines are, and what
mending does to such a stretch.  The two views agree because every cut is made at an ASCII
character.  No sequence of bytes that spells a longer character, and no stray byte, takes an ASCII
byte in, so reading the bytes on the two sides of one apart gives what reading them together
does.
-/
import Semicolon.Proofs.Edit
import Semicolon.Proofs.Source

namespace Semicolon

/-! ### Reading on both sides of an ASCII byte -/

namespace Utf8

theorem encode_ascii {c : Char} (hc : c.toNat ≤ 0x7F) (s t : Text) :
    encode (s ++ .char c :: t) = encode s ++ c.toNat.toUInt8 :: encode t := by
  have hchar : encodeChar c = [c.toNat.toUInt8] := by rw [encodeChar, if_pos hc]
  rw [encode_append, encode, encode, encode, List.flatMap_cons, encodeGlyph, hchar]
  rfl

/-- **Bytes on the two sides of an ASCII byte are read apart.** -/
theorem decode_ascii {c : Char} (hc : c.toNat ≤ 0x7F) (x y : Bytes) :
    decode (x ++ c.toNat.toUInt8 :: y) = decode x ++ .char c :: decode y := by
  have hjoin : Faithful (decode x ++ .char c :: decode y) :=
    (faithful_decode x).join (faithful_decode y) hc
  rw [Faithful, encode_ascii hc, encode_decode, encode_decode] at hjoin
  exact hjoin

/-- An ASCII character that was read has its byte in the same position. -/
theorem eq_of_decode {c : Char} (hc : c.toNat ≤ 0x7F) {bs : Bytes} {s t : Text}
    (h : decode bs = s ++ .char c :: t) : bs = encode s ++ c.toNat.toUInt8 :: encode t := by
  rw [← encode_decode bs, h, encode_ascii hc]

theorem decode_eq_nil_iff {bs : Bytes} : decode bs = [] ↔ bs = [] := by
  constructor
  · intro h
    rw [← encode_decode bs, h]
    rfl
  · rintro rfl
    rfl

end Utf8

namespace Source

/-! ### The stretches of bytes that are lines -/

/-- The stretches of the bytes between line feeds, without the carriage returns that each one ends
in.  A final line feed starts no further stretch, and of no bytes there are none. -/
def rawLines (bs : Bytes) : List Bytes :=
  let ps := bs.splitOn 0x0A
  (if ps.getLast? = some [] then ps.dropLast else ps).map (List.rdropWhile (· = 0x0D))

theorem newline_not_mem_decode {bs : Bytes} (h : 0x0A ∉ bs) : .char '\n' ∉ Utf8.decode bs := by
  intro hmem
  obtain ⟨s, t, hread⟩ := List.mem_iff_append.mp hmem
  have hbytes := Utf8.eq_of_decode (by decide) hread
  exact h (by rw [hbytes]; exact List.mem_append_right _ List.mem_cons_self)

theorem pieces_of_not_mem {t : Text} (h : .char '\n' ∉ t) : pieces t = [t] := by
  induction t with
  | nil => rfl
  | cons g t ih =>
      rw [List.mem_cons, not_or] at h
      exact pieces_cons (fun hc => h.1 hc.symm) (ih h.2)

/-- The pieces of the text are read from the pieces of the bytes. -/
theorem pieces_decode (bs : Bytes) :
    pieces (Utf8.decode bs) = (bs.splitOn 0x0A).map Utf8.decode := by
  induction hn : bs.length using Nat.strongRecOn generalizing bs with
  | ind n ih =>
      by_cases hmem : 0x0A ∈ bs
      · obtain ⟨x, y, rfl, hx⟩ := List.eq_append_cons_of_mem hmem
        have hread : Utf8.decode (x ++ 0x0A :: y)
            = Utf8.decode x ++ .char '\n' :: Utf8.decode y :=
          Utf8.decode_ascii (c := '\n') (by decide) x y
        have hfree : ∀ b ∈ x, (b == 0x0A) = false :=
          fun b hb => beq_false_of_ne (ne_of_mem_of_not_mem hb hx)
        have hcut : (x ++ 0x0A :: y).splitOn 0x0A = x :: y.splitOn 0x0A :=
          List.splitOnP_append_cons_of_forall_mem hfree 0x0A (by decide) y
        have hless : y.length < n := by
          rw [← hn, List.length_append, List.length_cons]
          omega
        rw [hread, pieces_append_newline (newline_not_mem_decode hx), ih y.length hless y rfl, hcut,
          List.map_cons]
      · rw [pieces_of_not_mem (newline_not_mem_decode hmem), List.splitOn_eq_singleton hmem]
        rfl

/-- The carriage returns at the end of a piece are dropped with their bytes. -/
theorem chomp_decode {q : Bytes} (hq : .char '\n' ∉ Utf8.decode q) :
    chomp (Utf8.decode q) = Utf8.decode (q.rdropWhile (· = 0x0D)) := by
  induction q using List.reverseRecOn with
  | nil => rfl
  | append_singleton q b ih =>
      by_cases hb : b = 0x0D
      · subst hb
        have hread : Utf8.decode (q ++ [0x0D]) = Utf8.decode q ++ [.char '\r'] :=
          Utf8.decode_ascii (c := '\r') (by decide) q []
        rw [hread] at hq ⊢
        rw [List.rdropWhile_concat_pos _ _ _ (by simp), ← ih]
        · exact List.rdropWhile_concat_pos _ _ _ (by decide)
        · exact fun hmem => hq (List.mem_append_left _ hmem)
      · rw [List.rdropWhile_concat_neg _ _ _ (by simpa using hb)]
        have hne : Utf8.decode (q ++ [b]) ≠ [] := by simp [Utf8.decode_eq_nil_iff]
        obtain ⟨t, g, ht⟩ := (List.eq_nil_or_concat _).resolve_left hne
        rw [List.concat_eq_append] at ht
        rw [ht] at hq ⊢
        refine chomp_concat_iff.mpr ?_
        by_contra hend
        have hg : g = .char '\r' ∨ g = .char '\n' := by
          rw [isLineEnd, Bool.not_eq_false, Bool.or_eq_true] at hend
          exact hend.imp of_decide_eq_true of_decide_eq_true
        rcases hg with rfl | rfl
        · have hbytes := Utf8.eq_of_decode (by decide) ht
          exact hb (List.cons.inj (List.append_inj' hbytes rfl).2).1
        · exact hq (by simp)

theorem lines_eq_map_rawLines (bs : Bytes) : lines bs = (rawLines bs).map Utf8.decode := by
  have hempty : ((bs.splitOn 0x0A).map Utf8.decode).getLast? = some [] ↔
      (bs.splitOn 0x0A).getLast? = some [] := by
    rw [List.getLast?_map, Option.map_eq_some_iff]
    constructor
    · rintro ⟨q, hq, hread⟩
      rw [hq, Utf8.decode_eq_nil_iff.mp hread]
    · intro hq
      exact ⟨[], hq, rfl⟩
  have hchomp : ∀ q ∈ bs.splitOn 0x0A,
      chomp (Utf8.decode q) = Utf8.decode (q.rdropWhile (· = 0x0D)) := by
    intro q hq
    refine chomp_decode (mem_pieces (t := Utf8.decode bs) ?_).2
    rw [pieces_decode]
    exact List.mem_map_of_mem hq
  rw [lines, linesOfText, rawLines, pieces_decode]
  simp only [hempty]
  split
  · rw [← List.map_dropLast, List.map_map, List.map_map]
    exact List.map_congr_left fun q hq => hchomp q (List.dropLast_subset _ hq)
  · rw [List.map_map, List.map_map]
    exact List.map_congr_left hchomp

/-- **The bytes of a line are a stretch of the bytes of the file.** -/
theorem map_encode_lines (bs : Bytes) : (lines bs).map Utf8.encode = rawLines bs := by
  rw [lines_eq_map_rawLines, List.map_map]
  exact (List.map_congr_left fun q _ => Utf8.encode_decode q).trans (List.map_id _)

/-! ### A semicolon among bytes -/

/-- The bytes of the blanks. -/
def blankBytes : Bytes := [0x20, 0x09, 0x0A, 0x0B, 0x0C, 0x0D]

/-- `new` is `old` with a semicolon at its end, or in place of the blanks before two slashes. -/
def Terminates (old new : Bytes) : Prop :=
  ∃ x w y : Bytes, old = x ++ w ++ y ∧ new = x ++ 0x3B :: y ∧ (∀ b ∈ w, b ∈ blankBytes) ∧
    (y = [] ∧ w = [] ∨ [0x2F, 0x2F] <+: y)

theorem mem_blankBytes {t : Text} (ht : ∀ g ∈ t, g.isBlank = true) {b : UInt8}
    (hb : b ∈ Utf8.encode t) : b ∈ blankBytes := by
  obtain ⟨g, hg, hb⟩ := List.mem_flatMap.mp hb
  have hblank := ht g hg
  cases g with
  | byte a => cases hblank
  | char c =>
      have hc : c = ' ' ∨ c = '\t' ∨ c = '\n' ∨ c = '\x0b' ∨ c = '\x0c' ∨ c = '\r' := by
        simpa [Glyph.isBlank] using hblank
      have hbyte : ∀ b ∈ Utf8.encodeChar c, b ∈ blankBytes := by
        rcases hc with rfl | rfl | rfl | rfl | rfl | rfl <;> decide +kernel
      exact hbyte b hb

theorem slashes_of_startsWith {t : Text} (h : t.startsWith "//" = true) :
    [0x2F, 0x2F] <+: Utf8.encode t := by
  obtain ⟨rest, rfl⟩ := List.isPrefixOf_iff_prefix.mp h
  rw [Utf8.encode_append]
  exact List.prefix_append _ _

/-- The bytes of a line that was mended are mended bytes. -/
theorem terminates_of_mends {old new : Text} (h : Line.Mends old new) :
    Terminates (Utf8.encode old) (Utf8.encode new) := by
  obtain ⟨code, w, comment, rfl, rfl, hblank, hnone, -, hcomment, -, -⟩ := h
  refine ⟨Utf8.encode code, Utf8.encode w, Utf8.encode comment, ?_, ?_, ?_, ?_⟩
  · rw [Utf8.encode_append, Utf8.encode_append]
  · exact Utf8.encode_ascii (by decide) code comment
  · exact fun b hb => mem_blankBytes hblank hb
  · rcases hcomment with rfl | hslashes
    · rw [hnone rfl]
      exact Or.inl ⟨rfl, rfl⟩
    · exact Or.inr (slashes_of_startsWith hslashes)

/-- **Mending a file keeps every byte it does not mean to touch.**  The new file is as many
stretches of bytes as the old one had, each with a line feed behind it; one whose semicolon was
missing has got it, and every other one is what it was. -/
theorem bytes_mended (p : Policy) (bs : Bytes) :
    ∃ qs : List Bytes, bytes (Scan.mended p (lines bs)) = qs.flatMap (fun q => q ++ [0x0A]) ∧
      qs.length = (rawLines bs).length ∧
      ∀ i, (i + 1 ∈ Scan.missing p (lines bs) →
          Terminates ((rawLines bs).getD i []) (qs.getD i [])) ∧
        (i + 1 ∉ Scan.missing p (lines bs) → qs.getD i [] = (rawLines bs).getD i []) := by
  refine ⟨(Scan.mended p (lines bs)).map Utf8.encode, ?_, ?_, fun i => ?_⟩
  · rw [bytes, List.flatMap_map]
  · rw [← map_encode_lines, List.length_map, List.length_map, Scan.length_mended]
  have hat : ∀ ls : List Text, (ls.map Utf8.encode).getD i [] = Utf8.encode (ls[i]?.getD []) := by
    intro ls
    rw [List.getD_eq_getElem?_getD, List.getElem?_map]
    cases ls[i]? <;> rfl
  rw [← map_encode_lines, hat, hat, Scan.getElem?_mended]
  refine ⟨fun hmem => ?_, fun hmem => ?_⟩
  · obtain ⟨t, ht, hlacks⟩ := Scan.succ_mem_missing_iff.mp hmem
    have hcode := Text.isBlank_code_of_not_ignorable hlacks.accountable
    simp only [ht, Option.map_some, Option.getD_some, if_pos hmem]
    exact terminates_of_mends (Line.terminated_mends hcode)
  · simp only [if_neg hmem, Option.map_id_fun']
    rfl

end Source

end Semicolon
