/-
Bytes read and written again.

Reading never fails and loses nothing, so writing a text that was read gives its bytes back.
The other way round is not so: two stray bytes that were apart may spell a character once they
stand next to each other, and then reading what was written gives another text.  A text for
which this does not happen is `Faithful`.  What was read is faithful, a stretch of a faithful text
is, and faithful texts may be joined at any ASCII character, because such a character is never
part of a longer sequence.  That is all that cutting lines apart and mending them needs.
-/
import Mathlib.Data.List.Basic
import Semicolon.Text.Utf8

namespace Semicolon.Utf8

/-! ### The ranges as numbers -/

theorem isTail_iff {b : UInt8} : isTail b = true ↔ 0x80 ≤ b.toNat ∧ b.toNat ≤ 0xBF := by
  simp [isTail, UInt8.le_iff_toNat_le]

theorem isSecond_iff {a b : UInt8} : isSecond a b = true ↔
    (0x80 ≤ b.toNat ∧ b.toNat ≤ 0xBF) ∧ (a.toNat = 0xE0 → 0xA0 ≤ b.toNat) ∧
      (a.toNat = 0xED → b.toNat ≤ 0x9F) ∧ (a.toNat = 0xF0 → 0x90 ≤ b.toNat) ∧
      (a.toNat = 0xF4 → b.toNat ≤ 0x8F) := by
  simp only [isSecond, isTail, ← UInt8.toNat_inj]
  split_ifs <;> simp_all [UInt8.le_iff_toNat_le] <;> omega

theorem width?_eq_some_iff {a : UInt8} {w : Nat} : width? a = some w ↔
    (w = 1 ∧ a.toNat ≤ 0x7F) ∨ (w = 2 ∧ 0xC2 ≤ a.toNat ∧ a.toNat ≤ 0xDF) ∨
      (w = 3 ∧ 0xE0 ≤ a.toNat ∧ a.toNat ≤ 0xEF) ∨ (w = 4 ∧ 0xF0 ≤ a.toNat ∧ a.toNat ≤ 0xF4) := by
  simp only [width?, UInt8.le_iff_toNat_le, Bool.and_eq_true, decide_eq_true_eq]
  split_ifs <;> simp_all <;> omega

theorem toNat_ofNat_of_valid {n : Nat} (h : n.isValidChar) : (Char.ofNat n).toNat = n := by
  rw [Char.ofNat, dif_pos h]
  rfl

theorem toNat_toUInt8 {n : Nat} (h : n < 256) : n.toUInt8.toNat = n := by
  simp
  omega

theorem tailBits_eq (b : UInt8) : tailBits b = b.toNat - 0x80 := rfl

/-! ### The sequences of a character -/

/-- The well-formed sequences, by their width, and the character that each one spells. -/
inductive Spells : Bytes → Char → Prop
  | one {a : UInt8} (ha : a.toNat ≤ 0x7F) : Spells [a] (Char.ofNat a.toNat)
  | two {a b : UInt8} (ha : 0xC2 ≤ a.toNat ∧ a.toNat ≤ 0xDF) (hb : isSecond a b = true) :
      Spells [a, b] (Char.ofNat ((a.toNat - 0xC0) * 64 + tailBits b))
  | three {a b c : UInt8} (ha : 0xE0 ≤ a.toNat ∧ a.toNat ≤ 0xEF) (hb : isSecond a b = true)
      (hc : isTail c = true) :
      Spells [a, b, c] (Char.ofNat (((a.toNat - 0xE0) * 64 + tailBits b) * 64 + tailBits c))
  | four {a b c d : UInt8} (ha : 0xF0 ≤ a.toNat ∧ a.toNat ≤ 0xF4) (hb : isSecond a b = true)
      (hc : isTail c = true) (hd : isTail d = true) :
      Spells [a, b, c, d] (Char.ofNat ((((a.toNat - 0xF0) * 64 + tailBits b) * 64
        + tailBits c) * 64 + tailBits d))

theorem char?_of_spells {q : Bytes} {c : Char} (h : Spells q c) (rest : Bytes) :
    char? (q ++ rest) = some (c, q.length) := by
  cases h with
  | one ha =>
      have hw := width?_eq_some_iff.mpr (Or.inl ⟨rfl, ha⟩)
      simp [char?, hw]
  | two ha hb =>
      have hw := width?_eq_some_iff.mpr (Or.inr (Or.inl ⟨rfl, ha⟩))
      simp [char?, hw, hb]
  | three ha hb hc =>
      have hw := width?_eq_some_iff.mpr (Or.inr (Or.inr (Or.inl ⟨rfl, ha⟩)))
      simp [char?, hw, hb, hc]
  | four ha hb hc hd =>
      have hw := width?_eq_some_iff.mpr (Or.inr (Or.inr (Or.inr ⟨rfl, ha⟩)))
      simp [char?, hw, hb, hc, hd]

theorem spells_of_char? {bs : Bytes} {c : Char} {w : Nat} :
    char? bs = some (c, w) → ∃ q rest, bs = q ++ rest ∧ q.length = w ∧ Spells q c := by
  fun_cases char? bs with
  | case1 => simp
  | case2 a rest hw =>
      intro h
      obtain ⟨rfl, rfl⟩ := Prod.mk.inj (Option.some.inj h)
      exact ⟨[a], rest, rfl, rfl, .one (by simpa using width?_eq_some_iff.mp hw)⟩
  | case3 a b rest hw hb =>
      intro h
      obtain ⟨rfl, rfl⟩ := Prod.mk.inj (Option.some.inj h)
      exact ⟨[a, b], rest, rfl, rfl, .two (by simpa using width?_eq_some_iff.mp hw) hb⟩
  | case4 => simp
  | case5 a b d rest hw hbd =>
      intro h
      obtain ⟨rfl, rfl⟩ := Prod.mk.inj (Option.some.inj h)
      rw [Bool.and_eq_true] at hbd
      exact ⟨[a, b, d], rest, rfl, rfl,
        .three (by simpa using width?_eq_some_iff.mp hw) hbd.1 hbd.2⟩
  | case6 => simp
  | case7 a b d e rest hw hbde =>
      intro h
      obtain ⟨rfl, rfl⟩ := Prod.mk.inj (Option.some.inj h)
      rw [Bool.and_eq_true, Bool.and_eq_true] at hbde
      exact ⟨[a, b, d, e], rest, rfl, rfl,
        .four (by simpa using width?_eq_some_iff.mp hw) hbde.1.1 hbde.1.2 hbde.2⟩
  | case8 => simp
  | case9 => simp

/-- After its first byte a sequence holds tails only. -/
theorem Spells.tail {q : Bytes} {c : Char} (h : Spells q c) :
    ∃ a tail, q = a :: tail ∧ ∀ b ∈ tail, 0x80 ≤ b.toNat := by
  cases h with
  | one ha => exact ⟨_, [], rfl, by simp⟩
  | two ha hb =>
      refine ⟨_, _, rfl, ?_⟩
      simpa using (isSecond_iff.mp hb).1.1
  | three ha hb hc =>
      refine ⟨_, _, rfl, ?_⟩
      simpa using ⟨(isSecond_iff.mp hb).1.1, (isTail_iff.mp hc).1⟩
  | four ha hb hc hd =>
      refine ⟨_, _, rfl, ?_⟩
      simpa using ⟨(isSecond_iff.mp hb).1.1, (isTail_iff.mp hc).1, (isTail_iff.mp hd).1⟩

/-- A character is written as a sequence that spells it. -/
theorem spells_encodeChar (c : Char) : Spells (encodeChar c) c := by
  have hvalid : c.toNat < 0xD800 ∨ (0xDFFF < c.toNat ∧ c.toNat < 0x110000) := c.valid
  have hspell : ∀ {q : Bytes} {n : Nat}, Spells q (Char.ofNat n) → n = c.toNat → Spells q c := by
    rintro q n h rfl
    rwa [Char.ofNat_toNat] at h
  have htail : ∀ m, (0x80 + m % 64).toUInt8.toNat = 0x80 + m % 64 :=
    fun m => toNat_toUInt8 (by omega)
  unfold encodeChar
  generalize c.toNat = n at hvalid hspell
  -- The bytes are kept apart from their numbers, so that only the numbers are computed with.
  show Spells (if n ≤ 0x7F then _ else _) c
  split_ifs with h1 h2 h3
  · have ha := toNat_toUInt8 (show n < 256 by omega)
    generalize n.toUInt8 = a at ha ⊢
    exact hspell (.one (by omega)) ha
  · have ha := toNat_toUInt8 (show 0xC0 + n / 64 < 256 by omega)
    have hb := htail n
    generalize (0xC0 + n / 64).toUInt8 = a at ha ⊢
    generalize (0x80 + n % 64).toUInt8 = b at hb ⊢
    have hs : Spells [a, b] _ := .two (by omega) (isSecond_iff.mpr (by omega))
    refine hspell hs ?_
    have := tailBits_eq b
    omega
  · have ha := toNat_toUInt8 (show 0xE0 + n / 4096 < 256 by omega)
    have hb := htail (n / 64)
    have hd := htail n
    generalize (0xE0 + n / 4096).toUInt8 = a at ha ⊢
    generalize (0x80 + n / 64 % 64).toUInt8 = b at hb ⊢
    generalize (0x80 + n % 64).toUInt8 = d at hd ⊢
    have hs : Spells [a, b, d] _ :=
      .three (by omega) (isSecond_iff.mpr (by omega)) (isTail_iff.mpr (by omega))
    refine hspell hs ?_
    have := tailBits_eq b
    have := tailBits_eq d
    omega
  · have ha := toNat_toUInt8 (show 0xF0 + n / 262144 < 256 by omega)
    have hb := htail (n / 4096)
    have hd := htail (n / 64)
    have he := htail n
    generalize (0xF0 + n / 262144).toUInt8 = a at ha ⊢
    generalize (0x80 + n / 4096 % 64).toUInt8 = b at hb ⊢
    generalize (0x80 + n / 64 % 64).toUInt8 = d at hd ⊢
    generalize (0x80 + n % 64).toUInt8 = e at he ⊢
    have hs : Spells [a, b, d, e] _ :=
      .four (by omega) (isSecond_iff.mpr (by omega)) (isTail_iff.mpr (by omega))
        (isTail_iff.mpr (by omega))
    refine hspell hs ?_
    have := tailBits_eq b
    have := tailBits_eq d
    have := tailBits_eq e
    omega

theorem toUInt8_eq {a : UInt8} {k : Nat} (h : a.toNat = k) : k.toUInt8 = a := by
  rw [← h]
  exact UInt8.ofNat_toNat

/-- And a character has no other sequence. -/
theorem Spells.eq_encodeChar {q : Bytes} {c : Char} (h : Spells q c) : q = encodeChar c := by
  cases h with
  | @one a ha =>
      have hn := toNat_ofNat_of_valid (n := a.toNat) (Or.inl (by omega))
      unfold encodeChar
      rw [hn, if_pos ha, toUInt8_eq rfl]
  | @two a b ha hb =>
      have hb := isSecond_iff.mp hb
      have hx := tailBits_eq b
      generalize tailBits b = x at hx ⊢
      have hn := toNat_ofNat_of_valid (n := (a.toNat - 0xC0) * 64 + x) (Or.inl (by omega))
      unfold encodeChar
      rw [hn, if_neg (by omega), if_pos (by omega), toUInt8_eq (a := a) (by omega),
        toUInt8_eq (a := b) (by omega)]
  | @three a b d ha hb hd =>
      have hb := isSecond_iff.mp hb
      have hd := isTail_iff.mp hd
      have hx := tailBits_eq b
      have hy := tailBits_eq d
      generalize tailBits b = x at hx ⊢
      generalize tailBits d = y at hy ⊢
      have hn := toNat_ofNat_of_valid (n := ((a.toNat - 0xE0) * 64 + x) * 64 + y)
        (by unfold Nat.isValidChar; omega)
      unfold encodeChar
      rw [hn, if_neg (by omega), if_neg (by omega), if_pos (by omega),
        toUInt8_eq (a := a) (by omega), toUInt8_eq (a := b) (by omega),
        toUInt8_eq (a := d) (by omega)]
  | @four a b d e ha hb hd he =>
      have hb := isSecond_iff.mp hb
      have hd := isTail_iff.mp hd
      have he := isTail_iff.mp he
      have hx := tailBits_eq b
      have hy := tailBits_eq d
      have hz := tailBits_eq e
      generalize tailBits b = x at hx ⊢
      generalize tailBits d = y at hy ⊢
      generalize tailBits e = z at hz ⊢
      have hn := toNat_ofNat_of_valid (n := (((a.toNat - 0xF0) * 64 + x) * 64 + y) * 64 + z)
        (by unfold Nat.isValidChar; omega)
      unfold encodeChar
      rw [hn, if_neg (by omega), if_neg (by omega), if_neg (by omega),
        toUInt8_eq (a := a) (by omega), toUInt8_eq (a := b) (by omega),
        toUInt8_eq (a := d) (by omega), toUInt8_eq (a := e) (by omega)]

/-! ### Where a character is found -/

theorem char?_encodeChar (c : Char) (rest : Bytes) :
    char? (encodeChar c ++ rest) = some (c, (encodeChar c).length) :=
  char?_of_spells (spells_encodeChar c) rest

theorem exists_of_char? {bs : Bytes} {c : Char} {w : Nat} (h : char? bs = some (c, w)) :
    ∃ rest, bs = encodeChar c ++ rest ∧ w = (encodeChar c).length := by
  obtain ⟨q, rest, hbs, hlen, hq⟩ := spells_of_char? h
  obtain rfl := hq.eq_encodeChar
  exact ⟨rest, hbs, hlen.symm⟩

/-- More bytes behind a character do not hide it. -/
theorem char?_append {x : Bytes} {r : Char × Nat} (h : char? x = some r) (y : Bytes) :
    char? (x ++ y) = some r := by
  obtain ⟨c, w⟩ := r
  obtain ⟨rest, rfl, rfl⟩ := exists_of_char? h
  rw [List.append_assoc, char?_encodeChar]

/-- An ASCII byte completes no character that was begun before it. -/
theorem char?_append_ascii {b : UInt8} {x y : Bytes} {a : UInt8} (ha : a.toNat ≤ 0x7F)
    (h : char? (b :: x) = none) : char? (b :: x ++ a :: y) = none := by
  cases hr : char? (b :: x ++ a :: y) with
  | none => rfl
  | some r =>
      exfalso
      obtain ⟨c, w⟩ := r
      obtain ⟨rest, hbytes, -⟩ := exists_of_char? hr
      rcases List.append_eq_append_iff.mp hbytes with ⟨v, hv, hv'⟩ | ⟨v, hv, hv'⟩
      · cases v with
        | nil =>
            rw [List.append_nil] at hv
            rw [← hv, ← List.append_nil (encodeChar c), char?_encodeChar] at h
            exact absurd h (by simp)
        | cons a' v =>
            -- The character would reach beyond the ASCII byte, which is no tail.
            obtain ⟨g, tail, hq, htail⟩ := (spells_encodeChar c).tail
            obtain rfl : a = a' := (List.cons.inj hv').1
            rw [hv, List.cons_append] at hq
            have hle := htail a (by rw [← (List.cons.inj hq).2]; simp)
            omega
      · rw [hv, char?_encodeChar] at h
        exact absurd h (by simp)

/-! ### Reading -/

theorem glyphs_eq_decode (skip : Nat) (bs : Bytes) : glyphs skip bs = decode (bs.drop skip) := by
  induction bs generalizing skip with
  | nil => cases skip <;> simp [decode, glyphs]
  | cons a rest ih =>
      cases skip with
      | zero => rfl
      | succ skip => rw [glyphs, ih, List.drop_succ_cons]

theorem decode_encodeChar (c : Char) (rest : Bytes) :
    decode (encodeChar c ++ rest) = .char c :: decode rest := by
  obtain ⟨g, tail, hq, -⟩ := (spells_encodeChar c).tail
  have hchar := char?_encodeChar c rest
  rw [hq, List.cons_append] at hchar ⊢
  rw [decode, glyphs, hchar]
  simp only [glyphs_eq_decode, List.length_cons, Nat.add_sub_cancel, List.drop_left]

theorem decode_stray {a : UInt8} {rest : Bytes} (h : char? (a :: rest) = none) :
    decode (a :: rest) = .byte a :: decode rest := by
  rw [decode, glyphs, h]
  rfl

/-- Bytes are read from the front, a character or a stray byte at a time. -/
theorem decode_induction {P : Bytes → Prop} (nil : P [])
    (char : ∀ c rest, P rest → P (encodeChar c ++ rest))
    (stray : ∀ a rest, char? (a :: rest) = none → P rest → P (a :: rest)) (bs : Bytes) : P bs := by
  induction hn : bs.length using Nat.strongRecOn generalizing bs with
  | ind n ih =>
      cases bs with
      | nil => exact nil
      | cons a rest =>
          cases hr : char? (a :: rest) with
          | none => exact stray a rest hr (ih rest.length (by simp [← hn]) rest rfl)
          | some r =>
              obtain ⟨rest', hbs, -⟩ := exists_of_char? hr
              obtain ⟨g, tail, hq, -⟩ := (spells_encodeChar r.1).tail
              have hlen : rest'.length < n := by
                rw [← hn, hbs, hq, List.length_append, List.length_cons]
                omega
              rw [hbs]
              exact char r.1 rest' (ih rest'.length hlen rest' rfl)

/-- **Writing what was read gives the bytes back**, whatever they are. -/
theorem encode_decode (bs : Bytes) : encode (decode bs) = bs := by
  induction bs using decode_induction with
  | nil => rfl
  | char c rest ih =>
      rw [decode_encodeChar, encode, List.flatMap_cons]
      exact congrArg (encodeChar c ++ ·) ih
  | stray a rest h ih =>
      rw [decode_stray h, encode, List.flatMap_cons]
      exact congrArg (a :: ·) ih

/-! ### Texts that reading gives back -/

/-- Reading what the text is written as gives the text. -/
def Faithful (t : Text) : Prop := decode (encode t) = t

theorem faithful_decode (bs : Bytes) : Faithful (decode bs) := by
  rw [Faithful, encode_decode]

theorem faithful_nil : Faithful [] := rfl

theorem encode_append (t u : Text) : encode (t ++ u) = encode t ++ encode u :=
  List.flatMap_append

theorem faithful_char {c : Char} {t : Text} : Faithful (.char c :: t) ↔ Faithful t := by
  have hread : decode (encode (.char c :: t)) = .char c :: decode (encode t) :=
    decode_encodeChar c (encode t)
  rw [Faithful, Faithful, hread, List.cons.injEq]
  exact and_iff_right rfl

/-- A stray byte has to stay one: the bytes behind it must not complete a character. -/
theorem faithful_byte {b : UInt8} {t : Text} :
    Faithful (.byte b :: t) ↔ char? (b :: encode t) = none ∧ Faithful t := by
  show decode (b :: encode t) = .byte b :: t ↔ _
  cases h : char? (b :: encode t) with
  | none =>
      rw [decode_stray h, List.cons.injEq]
      exact and_congr_left fun _ => iff_of_true rfl rfl
  | some r =>
      obtain ⟨rest, hbs, -⟩ := exists_of_char? h
      rw [hbs, decode_encodeChar]
      simp

theorem Faithful.right {t u : Text} (h : Faithful (t ++ u)) : Faithful u := by
  induction t with
  | nil => exact h
  | cons g t ih =>
      cases g with
      | char c => exact ih (faithful_char.mp h)
      | byte b => exact ih (faithful_byte.mp h).2

theorem Faithful.left {t u : Text} (h : Faithful (t ++ u)) : Faithful t := by
  induction t with
  | nil => exact faithful_nil
  | cons g t ih =>
      rw [List.cons_append] at h
      cases g with
      | char c => exact faithful_char.mpr (ih (faithful_char.mp h))
      | byte b =>
          obtain ⟨hstray, hrest⟩ := faithful_byte.mp h
          refine faithful_byte.mpr ⟨?_, ih hrest⟩
          cases hr : char? (b :: encode t) with
          | none => rfl
          | some r =>
              have hlonger := char?_append hr (encode u)
              rw [List.cons_append, ← encode_append, hstray] at hlonger
              exact absurd hlonger (by simp)

/-- **Faithful texts may be joined at an ASCII character.** -/
theorem Faithful.join {t u : Text} {c : Char} (ht : Faithful t) (hu : Faithful u)
    (hc : c.toNat ≤ 0x7F) : Faithful (t ++ .char c :: u) := by
  induction t with
  | nil => exact faithful_char.mpr hu
  | cons g t ih =>
      rw [List.cons_append]
      cases g with
      | char d => exact faithful_char.mpr (ih (faithful_char.mp ht))
      | byte b =>
          obtain ⟨hstray, hrest⟩ := faithful_byte.mp ht
          refine faithful_byte.mpr ⟨?_, ih hrest⟩
          have hascii : encodeChar c = [c.toNat.toUInt8] := by rw [encodeChar, if_pos hc]
          have hjoin : encode (t ++ .char c :: u) = encode t ++ c.toNat.toUInt8 :: encode u := by
            rw [encode_append]
            show encode t ++ (encodeChar c ++ encode u) = _
            rw [hascii]
            rfl
          rw [hjoin]
          exact char?_append_ascii (by rw [toNat_toUInt8 (by omega)]; exact hc) hstray

end Semicolon.Utf8
