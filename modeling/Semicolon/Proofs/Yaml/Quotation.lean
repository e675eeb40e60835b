/-
Scalars in quotation marks, read back.

The writer breaks lines where it likes, so nothing here depends on where that is.  What is read is
put together from the end: `Closes` says what letters a text stands for from some place inside the
marks up to its closing mark, and there is one rule for each thing that the writer may put in front
of it.  A character stands for itself, a run of line feeds and the indentation after it for one line
feed less, an escape for its character, and a broken line inside double marks for nothing.

The places that this is about are told by what is ahead of them; their line and column do not matter
between marks.
-/
import Mathlib.Data.List.Basic
import Mathlib.Data.Nat.Digits.Lemmas
import Semicolon.Yaml.Print
import Semicolon.Yaml.Lexeme

namespace Semicolon.Yaml

/-! ### Places -/

namespace Cursor

variable {c : Cursor} {rest : List Char}

theorem rest_next (c : Cursor) : c.next.rest = c.rest.tail := by
  unfold next
  cases hrest : c.rest with
  | nil => simp [hrest]
  | cons a rest => simp only [List.tail_cons]; split <;> rfl

theorem rest_skip (c : Cursor) (k : Nat) : (c.skip k).rest = c.rest.drop k := by
  induction k generalizing c with
  | zero => rfl
  | succ k ih => rw [skip, ih, rest_next, List.drop_tail]

theorem rest_skipWhile (c : Cursor) (p : Char → Bool) :
    (c.skipWhile p).rest = c.rest.dropWhile p := by
  have hcut : (c.rest.takeWhile p ++ c.rest.dropWhile p).drop (c.rest.takeWhile p).length =
      c.rest.dropWhile p := List.drop_left
  rw [List.takeWhile_append_dropWhile] at hcut
  rw [skipWhile, rest_skip, hcut]

theorem head_of_rest {a : Char} (hrest : c.rest = a :: rest) : c.head = some a := by
  rw [head, hrest, List.head?_cons]

theorem lineBreak_of_feed (hrest : c.rest = '\n' :: rest) :
    c.lineBreak = (['\n'], c.next) := by
  unfold lineBreak
  rw [hrest]
  rfl

theorem isMark_of_head {mark : Char} (hhead : c.rest.head? ≠ some mark) :
    c.isMark mark = false := by
  unfold isMark
  cases hrest : c.rest with
  | nil => simp
  | cons a rest =>
      rw [hrest] at hhead
      have ha : a ≠ mark := by simpa using hhead
      simp [ha]

theorem isSeparator_of_head (hhyphen : c.rest.head? ≠ some '-') (hpoint : c.rest.head? ≠ some '.') :
    c.isSeparator = false := by
  rw [isSeparator, isMark_of_head hhyphen, isMark_of_head hpoint]
  rfl

end Cursor

namespace Lexeme

variable {c : Cursor} {double : Bool} {rest tail : List Char} {ls : List Letter} {a : Char}
  {n indent : Nat}

/-- A blank inside a line of a scalar. -/
def isBlank (a : Char) : Bool := a = ' ' || a = '\t'

theorem blank_fun : (fun a : Char => decide (a = ' ') || decide (a = '\t')) = isBlank := rfl

/-- A character of a scalar that neither separates words nor ends a line. -/
def isInk (a : Char) : Bool := !isBlank a && !isBreak a

/-! ### What is read between the marks -/

/-- The mark that a scalar begins and ends with. -/
def mark (double : Bool) : Char := if double then '"' else '\''

/-- With the text `rest` ahead, the scalar goes on with the letters `ls` and has been closed when
`tail` is ahead. -/
def Closes (double : Bool) (rest : List Char) (ls : List Letter) (tail : List Char) : Prop :=
  ∀ (c : Cursor) (fuel : Nat), c.rest = rest → rest.length ≤ fuel →
    ∃ c', c'.rest = tail ∧ quotedFrom double fuel c = .ok (ls, c')

theorem Closes.quoted (h : Closes double rest ls tail) (hc : c.rest = mark double :: rest) :
    ∃ c', c'.rest = tail ∧ quoted double c = .ok (ls, c') := by
  refine h c.next c.rest.length ?_ ?_
  · rw [Cursor.rest_next, hc, List.tail_cons]
  · rw [hc, List.length_cons]
    omega

theorem closes_mark (htail : tail.head? ≠ some (mark double)) :
    Closes double (mark double :: tail) [] tail := by
  intro c fuel hc hfuel
  obtain ⟨fuel, rfl⟩ : ∃ k, fuel = k + 1 := ⟨fuel - 1, by simp at hfuel; omega⟩
  refine ⟨c.next, by rw [Cursor.rest_next, hc, List.tail_cons], ?_⟩
  rw [quotedFrom]
  cases double with
  | true => simp [Cursor.head, hc, mark]
  | false =>
      have hpeek : c.peek 1 ≠ some '\'' := by
        unfold Cursor.peek
        rw [hc]
        cases tail with
        | nil => simp
        | cons b tail => simpa [mark] using htail
      simp [Cursor.head, hc, mark, hpeek]

/-- A character that means nothing else stands for itself. -/
theorem Closes.ink (h : Closes double rest ls tail) (ha : isInk a = true) (hmark : a ≠ mark double)
    (hslash : double = true → a ≠ '\\') : Closes double (a :: rest) (.char a :: ls) tail := by
  intro c fuel hc hfuel
  obtain ⟨fuel, rfl⟩ : ∃ k, fuel = k + 1 := ⟨fuel - 1, by simp at hfuel; omega⟩
  obtain ⟨c', htail, hread⟩ := h c.next fuel (by rw [Cursor.rest_next, hc, List.tail_cons])
    (by simpa using hfuel)
  refine ⟨c', htail, ?_⟩
  have hplain : ¬(decide (a = ' ') || decide (a = '\t') || isBreak a) = true := by
    simp [isInk, isBlank] at ha
    simp [ha]
  rw [quotedFrom]
  simp only [Cursor.head_of_rest hc]
  cases double with
  | true =>
      have hslash := hslash rfl
      simp only [mark, if_true] at hmark
      simp [hmark, hslash, hplain, hread, bind, Except.bind]
  | false =>
      simp only [mark, Bool.false_eq_true, if_false] at hmark
      simp [hmark, hplain, hread, bind, Except.bind]

/-- The mark itself is written twice inside single marks. -/
theorem Closes.doubled (h : Closes false rest ls tail) :
    Closes false ('\'' :: '\'' :: rest) (.char '\'' :: ls) tail := by
  intro c fuel hc hfuel
  obtain ⟨fuel, rfl⟩ : ∃ k, fuel = k + 1 := ⟨fuel - 1, by simp at hfuel; omega⟩
  obtain ⟨c', htail, hread⟩ := h (c.skip 2) fuel (by simp [Cursor.rest_skip, hc])
    (by simp at hfuel; omega)
  refine ⟨c', htail, ?_⟩
  rw [quotedFrom]
  simp [Cursor.head, Cursor.peek, hc, hread, bind, Except.bind]

/-- After the blanks at its start, the text does not end its line. -/
def Solid (rest : List Char) : Prop := ∀ b ∈ (rest.dropWhile isBlank).head?, isBreak b = false

theorem solid_of_ink (ha : isInk a = true) : Solid (a :: rest) := by
  unfold isInk at ha
  rw [Bool.and_eq_true, Bool.not_eq_true', Bool.not_eq_true'] at ha
  intro b hb
  rw [List.dropWhile_cons_of_neg (by simp [ha.1])] at hb
  obtain rfl : a = b := by simpa using hb
  exact ha.2

theorem Solid.space (h : Solid rest) : Solid (' ' :: rest) := by
  unfold Solid
  rw [List.dropWhile_cons_of_pos (by decide)]
  exact h

/-- A gap that does not end in a line break is kept, together with the gap after it. -/
theorem quotedFrom_gap {fuel : Nat} (hc : c.rest = a :: rest) (ha : isBlank a = true)
    (hsolid : Solid (a :: rest)) :
    quotedFrom double (fuel + 1) c =
      (quotedFrom double fuel (c.skip ((a :: rest).takeWhile isBlank).length)).map
        fun r => (((a :: rest).takeWhile isBlank).map .char ++ r.1, r.2) := by
  have hgap : c.takeWhile (fun a => decide (a = ' ') || decide (a = '\t')) =
      (a :: rest).takeWhile isBlank := by
    rw [Cursor.takeWhile, hc]
    rfl
  have hbreak : (c.skip ((a :: rest).takeWhile isBlank).length).head.any isBreak = false := by
    rw [Cursor.head, ← hc]
    show (c.skipWhile isBlank).rest.head?.any isBreak = false
    rw [Cursor.rest_skipWhile, hc]
    cases hhead : ((a :: rest).dropWhile isBlank).head? with
    | none => rfl
    | some b => exact hsolid b hhead
  have hblank : a = ' ' ∨ a = '\t' := by simpa [isBlank] using ha
  rw [quotedFrom]
  simp only [Cursor.head_of_rest hc]
  have hmark : a ≠ '\'' ∧ a ≠ '"' ∧ a ≠ '\\' := by
    rcases hblank with rfl | rfl <;> decide
  have hplain : (decide (a = ' ') || decide (a = '\t') || isBreak a) = true := by
    rcases hblank with rfl | rfl <;> decide
  rw [if_neg (by simp [hmark]), if_neg (by cases double <;> simp [hmark]),
    if_neg (by simp [hmark]), if_pos hplain, hgap]
  simp only [hbreak, Bool.false_eq_true, if_false]
  cases quotedFrom double fuel (c.skip ((a :: rest).takeWhile isBlank).length) <;> rfl

/-- Spaces are kept unless the line ends after them. -/
theorem Closes.space (h : Closes double rest ls tail) (hsolid : Solid rest) :
    Closes double (' ' :: rest) (.char ' ' :: ls) tail := by
  intro c fuel hc hfuel
  obtain ⟨fuel, rfl⟩ : ∃ k, fuel = k + 1 := ⟨fuel - 1, by simp at hfuel; omega⟩
  have hnext : c.next.rest = rest := by rw [Cursor.rest_next, hc, List.tail_cons]
  have hrun : (' ' :: rest).takeWhile isBlank = ' ' :: rest.takeWhile isBlank :=
    List.takeWhile_cons_of_pos (by decide)
  rw [quotedFrom_gap hc (by decide) hsolid.space, hrun]
  cases hgap : rest.takeWhile isBlank with
  | nil =>
      obtain ⟨c', htail, hread⟩ := h c.next fuel hnext (by simpa using hfuel)
      refine ⟨c', htail, ?_⟩
      show (quotedFrom double fuel c.next).map _ = _
      rw [hread]
      rfl
  | cons b gap =>
      -- The blanks that follow would have been read in one go too.
      obtain ⟨c', htail, hread⟩ := h c.next (fuel + 1) hnext (by simp at hfuel; omega)
      refine ⟨c', htail, ?_⟩
      cases rest with
      | nil => cases hgap
      | cons a rest =>
          have ha : isBlank a = true := by
            by_contra hno
            rw [List.takeWhile_cons_of_neg hno] at hgap
            cases hgap
          rw [quotedFrom_gap hnext ha hsolid, hgap] at hread
          show (quotedFrom double fuel (c.next.skip (b :: gap).length)).map _ = _
          cases hlast : quotedFrom double fuel (c.next.skip (b :: gap).length) with
          | error p =>
              rw [hlast] at hread
              cases hread
          | ok r =>
              rw [hlast] at hread
              cases hread
              rfl

/-- Line feeds and the indentation after them. -/
def breakLines (feeds indent : Nat) : List Char :=
  List.replicate feeds '\n' ++ List.replicate indent ' '

/-- The text ahead starts with a character that belongs to the scalar, or with nothing. -/
def StartsInk (rest : List Char) : Prop := ∀ b ∈ rest.head?, isInk b = true

theorem dropWhile_indent (hrest : StartsInk rest) :
    (breakLines 0 indent ++ rest).dropWhile isBlank = rest := by
  unfold breakLines
  rw [List.replicate_zero, List.nil_append, List.dropWhile_append_of_pos]
  · cases rest with
    | nil => rfl
    | cons b rest =>
        have hb := hrest b rfl
        refine List.dropWhile_cons_of_neg ?_
        intro hblank
        simp [isInk, hblank] at hb
  · intro b hb
    rw [List.eq_of_mem_replicate hb]
    decide

/-- No mark that ends a document stands in front of an indentation. -/
theorem isSeparator_of_breakLines (hc : c.rest = breakLines n indent ++ rest)
    (hindent : 0 < indent) : c.isSeparator = false := by
  obtain ⟨indent, rfl⟩ : ∃ k, indent = k + 1 := ⟨indent - 1, by omega⟩
  have hhead : c.rest.head? = some '\n' ∨ c.rest.head? = some ' ' := by
    rw [hc]
    cases n with
    | zero => exact Or.inr rfl
    | succ n => exact Or.inl rfl
  rcases hhead with hhead | hhead
  · exact Cursor.isSeparator_of_head (by simp [hhead]) (by simp [hhead])
  · exact Cursor.isSeparator_of_head (by simp [hhead]) (by simp [hhead])

/-- Line feeds are counted, and the indentation of the next line is passed over. -/
theorem breaksFrom_breakLines {fuel : Nat} (hc : c.rest = breakLines n indent ++ rest)
    (hfuel : n < fuel) (hindent : 0 < indent) (hrest : StartsInk rest) :
    ∃ c', c'.rest = rest ∧ breaksFrom fuel c = .ok (List.replicate n '\n', c') := by
  induction n generalizing c fuel with
  | zero =>
      obtain ⟨fuel, rfl⟩ : ∃ k, fuel = k + 1 := ⟨fuel - 1, by omega⟩
      have hskip : (c.skipWhile isBlank).rest = rest := by
        rw [Cursor.rest_skipWhile, hc, dropWhile_indent hrest]
      have hbreak : (c.skipWhile isBlank).head.any isBreak = false := by
        rw [Cursor.head, hskip]
        cases rest with
        | nil => rfl
        | cons b rest =>
            have hb := hrest b rfl
            simp only [isInk, Bool.and_eq_true, Bool.not_eq_true'] at hb
            exact hb.2
      refine ⟨c.skipWhile isBlank, hskip, ?_⟩
      rw [breaksFrom, if_neg (by simp [isSeparator_of_breakLines hc hindent]), blank_fun]
      exact if_neg (by simp [hbreak])
  | succ n ih =>
      obtain ⟨fuel, rfl⟩ : ∃ k, fuel = k + 1 := ⟨fuel - 1, by omega⟩
      have hfeed : c.rest = '\n' :: (breakLines n indent ++ rest) := hc
      have hskip : c.skipWhile isBlank = c := by
        rw [Cursor.skipWhile, hfeed, List.takeWhile_cons_of_neg (by decide)]
        rfl
      have hnext : c.next.rest = breakLines n indent ++ rest := by
        rw [Cursor.rest_next, hfeed, List.tail_cons]
      obtain ⟨c', hc', hread⟩ := ih hnext (Nat.le_of_succ_le_succ hfuel)
      refine ⟨c', hc', ?_⟩
      rw [breaksFrom, if_neg (by simp [isSeparator_of_breakLines hc hindent]), blank_fun]
      simp only [hskip, Cursor.head_of_rest hfeed, Cursor.lineBreak_of_feed hfeed, hread]
      rfl

/-- **Broken lines.**  One line feed stands for a space, and of several the first for nothing. -/
theorem Closes.lines (h : Closes double rest ls tail) (hindent : 0 < indent)
    (hrest : StartsInk rest) :
    Closes double (breakLines (n + 1) indent ++ rest)
      ((if n = 0 then [.char ' '] else List.replicate n (.char '\n')) ++ ls) tail := by
  intro c fuel hc hfuel
  obtain ⟨fuel, rfl⟩ : ∃ k, fuel = k + 1 := ⟨fuel - 1, by simp [breakLines] at hfuel; omega⟩
  have hfeed : c.rest = '\n' :: (breakLines n indent ++ rest) := hc
  have hnext : c.next.rest = breakLines n indent ++ rest := by
    rw [Cursor.rest_next, hfeed, List.tail_cons]
  have hlength : n < c.next.rest.length := by
    simp [hnext, breakLines]
    omega
  obtain ⟨c₁, hc₁, hbreaks⟩ := breaksFrom_breakLines hnext hlength hindent hrest
  obtain ⟨c', htail, hread⟩ := h c₁ fuel hc₁ (by simp [breakLines] at hfuel; omega)
  refine ⟨c', htail, ?_⟩
  have hgap : c.takeWhile isBlank = [] := by
    rw [Cursor.takeWhile, hfeed]
    rfl
  rw [quotedFrom, blank_fun]
  simp only [Cursor.head_of_rest hfeed]
  rw [if_neg (by simp), if_neg (by cases double <;> simp), if_neg (by simp), if_pos (by decide),
    hgap]
  simp only [List.length_nil, Cursor.skip, Cursor.head_of_rest hfeed,
    Cursor.lineBreak_of_feed hfeed, hbreaks]
  simp only [bind, Except.bind, hread]
  rw [if_pos (by decide)]
  cases n with
  | zero => rfl
  | succ n => simp [folded, List.replicate_succ]

end Lexeme

/-! ### Numbers in digits -/

namespace Scalar

variable {base n : Nat} {f : Char → Char}

theorem number_append (base : Nat) (cs : List Char) (a : Char) :
    number base (cs ++ [a]) = number base cs * base + number base [a] := by
  unfold number
  rw [List.foldl_append]
  simp

/-- Digits spell the number that they were made of, whatever is done to each digit without changing
its value. -/
theorem number_toDigits (hbase : 1 < base)
    (hdigit : ∀ k < base, number base [f (Nat.digitChar k)] = k) (n : Nat) :
    number base ((Nat.toDigits base n).map f) = n := by
  induction n using Nat.strong_induction_on with
  | _ n ih =>
      rcases Nat.lt_or_ge n base with hlt | hge
      · rw [Nat.toDigits_of_lt_base hlt, List.map_singleton, hdigit n hlt]
      · rw [Nat.toDigits_of_base_le hbase hge, List.map_append, List.map_singleton, number_append,
          ih _ (Nat.div_lt_self (by omega) hbase), hdigit _ (Nat.mod_lt _ (by omega))]
        exact Nat.div_add_mod' n base

theorem number_zeros (base k : Nat) (cs : List Char) :
    number base (List.replicate k '0' ++ cs) = number base cs := by
  have hzeros : number base (List.replicate k '0') = 0 := by
    induction k with
    | zero => rfl
    | succ k ih =>
        rw [List.replicate_succ', number_append, ih]
        simp [number, isDigit]
  unfold number at hzeros ⊢
  rw [List.foldl_append, hzeros]

end Scalar

namespace Print

variable {digits n : Nat}

theorem length_hex (hdigits : 0 < digits) (hn : n < 16 ^ digits) :
    (hex digits n).length = digits := by
  have hlength := Nat.toDigits_length 16 n digits hdigits hn
  simp only [hex, Quoted.hex, List.length_map, List.length_append, List.length_replicate]
  omega

theorem isHexDigit_of_mem_hex {a : Char} (ha : a ∈ hex digits n) : isHexDigit a = true := by
  have hdigit : ∀ k < 16, isHexDigit (Nat.digitChar k).toUpper = true := by decide
  have hdigits : ∀ n, ∀ b ∈ Nat.toDigits 16 n, isHexDigit b.toUpper = true := by
    intro n
    induction n using Nat.strong_induction_on with
    | _ n ih =>
        intro b hb
        rcases Nat.lt_or_ge n 16 with hlt | hge
        · rw [Nat.toDigits_of_lt_base hlt, List.mem_singleton] at hb
          rw [hb, hdigit n hlt]
        · rw [Nat.toDigits_of_base_le (by decide) hge, List.mem_append, List.mem_singleton] at hb
          rcases hb with hb | rfl
          · exact ih _ (Nat.div_lt_self (by omega) (by decide)) b hb
          · exact hdigit _ (Nat.mod_lt _ (by decide))
  simp only [hex, Quoted.hex, List.mem_map, List.mem_append] at ha
  obtain ⟨b, hb | hb, rfl⟩ := ha
  · rw [List.eq_of_mem_replicate hb]
    decide
  · exact hdigits n b hb

theorem number_hex (digits n : Nat) : Scalar.number 16 (hex digits n) = n := by
  unfold hex Quoted.hex
  rw [List.map_append, List.map_replicate]
  show Scalar.number 16 (List.replicate _ '0' ++ _) = n
  rw [Scalar.number_zeros]
  exact Scalar.number_toDigits (by decide) (by decide) n

end Print

namespace Lexeme

variable {c : Cursor} {rest tail e : List Char} {ls : List Letter} {a : Char} {indent : Nat}

/-! ### Escapes -/

/-- An escape by a letter. -/
theorem escape_letter {letter : Char} (hletter : Print.letters.lookup a = some letter)
    (hc : c.rest = letter :: rest) : escape c = .ok ([.char a], c.next) := by
  have htable : ∀ entry ∈ Print.letters, escapes.lookup entry.2 = some entry.1 := by decide
  obtain ⟨before, after, hletters, -⟩ := List.lookup_eq_some_iff.mp hletter
  have hback := htable (a, letter) (by simp [hletters])
  unfold escape
  simp only [Cursor.head_of_rest hc, hback]

/-- An escape by a number. -/
theorem escape_number {letter : Char} {width : Nat} (hletter : escapes.lookup letter = none)
    (hwidth : escapeWidths.lookup letter = some width) (hpos : 0 < width)
    (ha : a.toNat < 16 ^ width) (hc : c.rest = letter :: Print.hex width a.toNat ++ rest) :
    escape c = .ok ([.char a], c.skip (1 + width)) := by
  have hdigits : (c.rest.drop 1).take width = Print.hex width a.toNat := by
    rw [hc, List.cons_append, List.drop_one, List.tail_cons]
    exact List.take_left' (Print.length_hex hpos ha)
  have hall : (Print.hex width a.toNat).all isHexDigit = true :=
    List.all_eq_true.mpr fun b hb => Print.isHexDigit_of_mem_hex hb
  have hvalid : a.toNat.isValidChar := a.valid
  have hsmall : ¬a.toNat > 0x10FFFF := by
    unfold Nat.isValidChar at hvalid
    omega
  unfold escape
  simp only [Cursor.head_of_rest hc, hletter, hwidth, hdigits, hall, Print.length_hex hpos ha,
    Print.number_hex, decide_true, Bool.and_self, if_true, hsmall, if_false, Letter.ofNat, hvalid,
    Char.ofNat_toNat]

/-- Every escape that is written reads as its character. -/
theorem escape_of_escape? (he : Print.escape? a = some e) (rest : List Char) :
    ∃ e', e = '\\' :: e' ∧ ∀ c : Cursor, c.rest = e' ++ rest →
      ∃ c', c'.rest = rest ∧ escape c = .ok ([.char a], c') := by
  unfold Print.escape? at he
  cases hletter : Print.letters.lookup a with
  | some letter =>
      rw [hletter] at he
      cases he
      refine ⟨[letter], rfl, fun c hc => ⟨c.next, ?_, escape_letter hletter hc⟩⟩
      rw [Cursor.rest_next, hc]
      rfl
  | none =>
      have hnumber : ∀ letter width, escapes.lookup letter = none →
          escapeWidths.lookup letter = some width → 0 < width → a.toNat < 16 ^ width →
          e = '\\' :: letter :: Print.hex width a.toNat →
          ∃ e', e = '\\' :: e' ∧ ∀ c : Cursor, c.rest = e' ++ rest →
            ∃ c', c'.rest = rest ∧ escape c = .ok ([.char a], c') := by
        intro letter width hescapes hwidth hpos ha heq
        refine ⟨_, heq, fun c hc => ⟨_, ?_, escape_number hescapes hwidth hpos ha hc⟩⟩
        rw [Cursor.rest_skip, hc, Nat.add_comm, List.cons_append, List.drop_succ_cons]
        exact List.drop_left' (Print.length_hex hpos ha)
      have hvalid : a.toNat.isValidChar := a.valid
      unfold Nat.isValidChar at hvalid
      simp only [hletter] at he
      split at he
      · cases he
      · split at he
        · cases he
          exact hnumber 'x' 2 (by decide) (by decide) (by decide) (by omega) rfl
        · split at he
          · cases he
            exact hnumber 'u' 4 (by decide) (by decide) (by decide) (by omega) rfl
          · cases he
            exact hnumber 'U' 8 (by decide) (by decide) (by decide) (by omega) rfl

theorem Closes.escaped (h : Closes true rest ls tail) (he : Print.escape? a = some e) :
    Closes true (e ++ rest) (.char a :: ls) tail := by
  obtain ⟨e', rfl, hescape⟩ := escape_of_escape? he rest
  intro c fuel hc hfuel
  obtain ⟨fuel, rfl⟩ : ∃ k, fuel = k + 1 := ⟨fuel - 1, by simp at hfuel; omega⟩
  obtain ⟨c₁, hc₁, hread₁⟩ := hescape c.next (by rw [Cursor.rest_next, hc]; rfl)
  obtain ⟨c', htail, hread⟩ := h c₁ fuel hc₁ (by simp at hfuel; omega)
  refine ⟨c', htail, ?_⟩
  rw [quotedFrom]
  simp [Cursor.head_of_rest hc, hread₁, hread, bind, Except.bind]

/-- A space after a backslash is a space, also at the start of a line. -/
theorem Closes.blank (h : Closes true rest ls tail) :
    Closes true ('\\' :: ' ' :: rest) (.char ' ' :: ls) tail := by
  intro c fuel hc hfuel
  obtain ⟨fuel, rfl⟩ : ∃ k, fuel = k + 1 := ⟨fuel - 1, by simp at hfuel; omega⟩
  have hnext : c.next.rest = ' ' :: rest := by rw [Cursor.rest_next, hc, List.tail_cons]
  obtain ⟨c', htail, hread⟩ := h c.next.next fuel (by rw [Cursor.rest_next, hnext, List.tail_cons])
    (by simp at hfuel; omega)
  refine ⟨c', htail, ?_⟩
  have hescape : escape c.next = .ok ([.char ' '], c.next.next) := by
    unfold escape
    rw [Cursor.head_of_rest hnext]
    rfl
  rw [quotedFrom]
  simp [Cursor.head_of_rest hc, hescape, hread, bind, Except.bind]

/-- A line that is broken after a backslash goes on as if it were not. -/
theorem Closes.continued (h : Closes true rest ls tail) (hindent : 0 < indent)
    (hrest : StartsInk rest) : Closes true ('\\' :: Print.newLine indent ++ rest) ls tail := by
  intro c fuel hc hfuel
  obtain ⟨fuel, rfl⟩ : ∃ k, fuel = k + 1 := ⟨fuel - 1, by simp at hfuel; omega⟩
  have hfeed : c.next.rest = '\n' :: (breakLines 0 indent ++ rest) := by
    rw [Cursor.rest_next, hc]
    rfl
  have hnext : c.next.next.rest = breakLines 0 indent ++ rest := by
    rw [Cursor.rest_next, hfeed, List.tail_cons]
  have hlength : 0 < c.next.rest.length := by simp [hfeed]
  obtain ⟨c₁, hc₁, hbreaks⟩ := breaksFrom_breakLines hnext hlength hindent hrest
  obtain ⟨c', htail, hread⟩ := h c₁ fuel hc₁ (by simp at hfuel; omega)
  refine ⟨c', htail, ?_⟩
  have hescape : escape c.next = .ok ([], c₁) := by
    unfold escape
    simp only [Cursor.head_of_rest hfeed, Cursor.lineBreak_of_feed hfeed, hbreaks]
    rfl
  rw [quotedFrom]
  simp [Cursor.head_of_rest hc, hescape, hread, bind, Except.bind]

end Lexeme

end Semicolon.Yaml
