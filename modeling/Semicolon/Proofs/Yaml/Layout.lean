/-
How a layout of blocks is scanned.

Between two tokens the scan is described by what is ahead, by the blocks that are open, and by the
tokens given out so far, with the marks of the keys among them.  `Ready` is that description; how
far the text has been read does not matter otherwise.  There is one lemma for each piece of a
layout: a key with its colon, a value, the hyphen of an entry, and the end of the text.  Each says
how the description changes, and how many tokens are taken, so that a whole layout is a chain of
them.

No candidate for a key is left open between two pieces: a key is followed by its colon at once, and
a value cannot be a key.
-/
import Semicolon.Proofs.Yaml.Words
import Semicolon.Yaml.Stream

namespace Semicolon.Yaml.Stream

/-! ### Marks of keys -/

variable {keys : List (Nat × Bool)} {n m : Nat} {ts : List Token} {opened : Bool}

theorem spliced_append (keys : List (Nat × Bool)) (n : Nat) (ts ts' : List Token) :
    spliced keys n (ts ++ ts') = spliced keys n ts ++ spliced keys (n + ts.length) ts' := by
  induction ts generalizing n with
  | nil => rfl
  | cons t ts ih =>
      rw [List.cons_append, spliced, ih, spliced, List.length_cons, Nat.add_assoc,
        Nat.add_comm 1, List.append_assoc, List.cons_append]

theorem lookup_of_below (hkeys : ∀ key ∈ keys, key.1 < n) (hm : n ≤ m) : keys.lookup m = none := by
  rw [List.lookup_eq_none_iff]
  intro key hkey
  have hlt := hkeys key hkey
  simp
  omega

/-- Past all keys there is nothing to put in. -/
theorem spliced_of_below (hkeys : ∀ key ∈ keys, key.1 < n) (hm : n ≤ m) :
    spliced keys m ts = ts := by
  induction ts generalizing m with
  | nil => rfl
  | cons t ts ih =>
      rw [spliced, lookup_of_below hkeys hm, ih (by omega)]
      rfl

/-- A key further on changes nothing before it. -/
theorem spliced_cons_key (hn : m + ts.length ≤ n) :
    spliced ((n, opened) :: keys) m ts = spliced keys m ts := by
  induction ts generalizing m with
  | nil => rfl
  | cons t ts ih =>
      have hne : (m == n) = false := by
        simp at hn
        simp
        omega
      rw [spliced, spliced, List.lookup_cons, hne, ih (by simp at hn; omega)]

/-- The marks in front of a key. -/
def keyMarks (opened : Bool) : List Token :=
  if opened then [.blockMappingStart, .key] else [.key]

/-- A key that is noted right after its token. -/
theorem spliced_key (hkeys : ∀ key ∈ keys, key.1 < ts.length) (t t' : Token) :
    spliced ((ts.length, opened) :: keys) 0 (ts ++ [t, t']) =
      spliced keys 0 ts ++ keyMarks opened ++ [t, t'] := by
  have hnext : ((ts.length, opened) :: keys).lookup (ts.length + 1) = none := by
    have hne : (ts.length + 1 == ts.length) = false := by simp
    rw [List.lookup_cons, hne]
    exact lookup_of_below hkeys (Nat.le_succ _)
  rw [spliced_append, spliced_cons_key (by omega), Nat.zero_add, spliced, spliced, hnext,
    List.lookup_cons_self, List.append_assoc]
  cases opened <;> rfl

/-! ### Between two tokens -/

/-- What the scan depends on between two tokens: the text ahead, its column, whether a key may start
there, the open blocks, and the tokens so far. -/
structure Ready (s : Stream) (rest : List Char) (column : Nat) (allowed : Bool) (indent : Int)
    (outer : List Int) (out : List Token) : Prop where
  rest : s.place.rest = rest
  column : s.place.column = column
  allowed : s.keyAllowed = allowed
  flow : s.flow = 0
  indent : s.indent = indent
  outer : s.outer = outer
  candidates : s.candidates = []
  keys : ∀ key ∈ s.keys, key.1 < s.tokens.toList.length
  out : spliced s.keys 0 s.tokens.toList = out

variable {s s' : Stream} {rest : List Char} {column : Nat} {allowed : Bool} {indent : Int}
  {outer : List Int} {out : List Token} {a : Char} {k : Nat}

open Lexeme (isInk StartsInk)

/-- A token could start here: no blank, comment or byte order mark is ahead. -/
def Begins (rest : List Char) : Prop := ∀ a ∈ rest.head?, isInk a = true ∧ a ≠ '#' ∧ a ≠ '\uFEFF'

theorem blanks_of_begins (h : Begins rest) : blanks false rest = (0, false) := by
  cases rest with
  | nil => rfl
  | cons a rest =>
      obtain ⟨hink, hhash, -⟩ := h a rfl
      have hspace := Lexeme.ne_space_of_isInk hink
      rw [blanks, if_neg (by simp [Lexeme.isBreak_of_isInk hink]), if_neg (by simp [hhash, hspace])]

theorem blanks_spaces (h : Begins rest) (k : Nat) :
    blanks false (List.replicate k ' ' ++ rest) = (k, false) := by
  induction k with
  | zero => exact blanks_of_begins h
  | succ k ih =>
      rw [List.replicate_succ, List.cons_append, blanks, if_neg (by decide), if_pos (by simp)]
      simp [ih]

/-- What blanks are passed over depends on the text ahead only. -/
theorem skipBlanks_of_head (hhead : s.place.rest.head? ≠ some '\uFEFF') :
    s.skipBlanks = { s.advance (blanks false s.place.rest).1 with
      keyAllowed := s.keyAllowed || ((blanks false s.place.rest).2 && s.flow = 0) } := by
  unfold skipBlanks
  rw [if_neg (by simp [Cursor.head, hhead])]

theorem Ready.skip {broke : Bool} (h : Ready s rest column allowed indent outer out)
    (hhead : rest.head? ≠ some '\uFEFF') (hblanks : blanks false rest = (n, broke)) :
    Ready s.skipBlanks (rest.drop n) (s.place.skip n).column (allowed || broke) indent outer
      out := by
  rw [skipBlanks_of_head (by rwa [h.rest]), h.rest, hblanks]
  refine ⟨?_, rfl, ?_, h.flow, h.indent, h.outer, h.candidates, h.keys, h.out⟩
  · show (s.place.skip n).rest = rest.drop n
    rw [Cursor.rest_skip, h.rest]
  · show (s.keyAllowed || (broke && decide (s.flow = 0))) = (allowed || broke)
    simp [h.allowed, h.flow]

theorem Ready.skip_none (h : Ready s rest column allowed indent outer out) (hrest : Begins rest) :
    Ready s.skipBlanks rest column allowed indent outer out := by
  have hskip := h.skip (fun hhead => (hrest _ hhead).2.2 rfl) (blanks_of_begins hrest)
  rwa [List.drop_zero, Bool.or_false, Cursor.skip, h.column] at hskip

/-- A space before the next token. -/
theorem Ready.skip_space (h : Ready s (' ' :: rest) column allowed indent outer out)
    (hrest : Begins rest) : Ready s.skipBlanks rest (column + 1) allowed indent outer out := by
  have hplace : s.place.rest = List.replicate 1 ' ' ++ rest := h.rest
  have hskip := h.skip (by simp) (blanks_spaces hrest 1)
  rwa [Bool.or_false, Cursor.skip_spaces hplace, h.column] at hskip

/-- A new line before the next token, where a key may start. -/
theorem Ready.skip_line
    (h : Ready s ('\n' :: (List.replicate k ' ' ++ rest)) column allowed indent outer out)
    (hrest : Begins rest) : Ready s.skipBlanks rest k true indent outer out := by
  have hblanks : blanks false ('\n' :: (List.replicate k ' ' ++ rest)) = (k + 1, true) := by
    rw [blanks, if_pos (by decide), blanks_spaces hrest]
  have hplace : s.place.next.rest = List.replicate k ' ' ++ rest := by
    rw [Cursor.rest_next, h.rest, List.tail_cons]
  have hcolumn := Cursor.skip_spaces hplace
  have hskip := h.skip (by simp) hblanks
  rw [Cursor.column_next_of_feed h.rest, Nat.zero_add] at hcolumn
  rw [Bool.or_true, Cursor.skip, hcolumn, List.drop_succ_cons, List.drop_left' (by simp)] at hskip
  exact hskip

/-! ### One token -/

/-- The scan goes from one state to another by taking `n` tokens. -/
def Moves (n : Nat) (s s' : Stream) : Prop := ∀ fuel, run (fuel + n) s = run fuel s'

theorem Moves.trans {s'' : Stream} (h : Moves n s s') (h' : Moves m s' s'') :
    Moves (n + m) s s'' := by
  intro fuel
  rw [Nat.add_comm n, ← Nat.add_assoc, h, h']

theorem moves_of_step (h : s.step = .ok (s', false)) : Moves 1 s s' := by
  intro fuel
  rw [run, h]

/-- Nothing is left open that could run out. -/
theorem Ready.dropStale (h : Ready s rest column allowed indent outer out) :
    s.dropStale = .ok s := by
  unfold Stream.dropStale
  rw [h.candidates]
  obtain ⟨place, flow, indent', outer', allowed', candidates, tokens, keys⟩ := s
  cases h.candidates
  rfl

theorem Ready.dropCandidate (h : Ready s rest column allowed indent outer out) :
    s.dropCandidate = .ok s := by
  unfold Stream.dropCandidate
  rw [h.candidates]
  rfl

theorem Ready.emit (h : Ready s rest column allowed indent outer out) (t : Token) :
    Ready (s.emit t) rest column allowed indent outer (out ++ [t]) := by
  refine ⟨h.rest, h.column, h.allowed, h.flow, h.indent, h.outer, h.candidates, ?_, ?_⟩
  · intro key hkey
    have hlt := h.keys key hkey
    simp only [Stream.emit, Array.toList_push, List.length_append, List.length_singleton]
    omega
  · show spliced s.keys 0 (s.tokens.push t).toList = out ++ [t]
    rw [Array.toList_push, spliced_append, h.out, Nat.zero_add,
      spliced_of_below h.keys (Nat.le_refl _)]

/-! ### Blocks that end -/

theorem place_endBlocks (column : Int) (outer : List Int) (s : Stream) :
    (endBlocks column outer s).place = s.place := by
  induction outer generalizing s with
  | nil => rfl
  | cons next outer ih =>
      rw [endBlocks]
      split
      · exact ih _
      · rfl

theorem place_unwind (s : Stream) (column : Int) : (s.unwind column).place = s.place := by
  unfold unwind
  split
  · rfl
  · exact place_endBlocks column s.outer s

/-- The text goes on inside the innermost block. -/
theorem unwind_of_le {left : Int} (hflow : s.flow = 0) (hindent : s.indent ≤ left) :
    s.unwind left = s := by
  unfold unwind
  rw [if_neg (by simp [hflow])]
  cases s.outer with
  | nil => rfl
  | cons next more => rw [endBlocks, if_neg (by omega)]

/-- The text goes back to the left of the innermost block, but not of the one around it. -/
theorem Ready.unwind_one {next : Int} (h : Ready s rest column allowed indent (next :: outer) out)
    (left : Int) (hindent : left < indent) (hnext : next ≤ left) :
    Ready (s.unwind left) rest column allowed next outer (out ++ [.blockEnd]) := by
  have hout : Ready { s with indent := next, outer := outer } rest column allowed next outer out :=
    ⟨h.rest, h.column, h.allowed, h.flow, rfl, rfl, h.candidates, h.keys, h.out⟩
  have hleft := hout.emit .blockEnd
  have hunwind : s.unwind left =
      ({ s with indent := next, outer := outer }.emit .blockEnd).unwind left := by
    unfold Stream.unwind
    rw [if_neg (by simp [h.flow]), if_neg (by simp [hleft.flow]), h.outer, endBlocks,
      if_pos (by rw [h.indent]; omega)]
    rfl
  rw [hunwind, unwind_of_le hleft.flow (by rwa [hleft.indent])]
  exact hleft

theorem step_of_ready (h : Ready s.skipBlanks (a :: rest) column allowed indent outer out) :
    s.step = (Stream.token (s.skipBlanks.unwind column) a).map fun s => (s, false) := by
  have hhead : (s.skipBlanks.unwind column).place.head = some a := by
    rw [place_unwind]
    exact Cursor.head_of_rest h.rest
  unfold step
  rw [h.dropStale]
  simp only [bind, Except.bind, h.column, hhead]
  cases Stream.token (s.skipBlanks.unwind column) a <;> rfl

/-! ### The pieces of a layout -/

/-- Calm characters are taken off the text ahead. -/
theorem Ready.advance (xs : List Char) (h : Ready s (xs ++ rest) column allowed indent outer out)
    (hxs : ∀ a ∈ xs, Cursor.IsCalm a) :
    Ready (s.advance xs.length) rest (column + xs.length) allowed indent outer out := by
  have hskip := Cursor.skip_calm h.rest hxs
  refine ⟨?_, ?_, h.allowed, h.flow, h.indent, h.outer, h.candidates, h.keys, h.out⟩
  · show (s.place.skip xs.length).rest = rest
    rw [hskip]
  · show (s.place.skip xs.length).column = column + xs.length
    rw [hskip, h.column]

theorem Ready.allow (h : Ready s rest column allowed indent outer out) (allowed' : Bool) :
    Ready { s with keyAllowed := allowed' } rest column allowed' indent outer out :=
  ⟨h.rest, h.column, rfl, h.flow, h.indent, h.outer, h.candidates, h.keys, h.out⟩

/-- A hyphen at the column of the innermost block starts no further one. -/
theorem token_hyphen (h : Ready s ('-' :: ' ' :: rest) 0 true 0 outer out) :
    s.token '-' = .ok (({ s with keyAllowed := true }.advance 1).emit .blockEntry) := by
  have hmark : s.place.isMark '-' = false := by
    unfold Cursor.isMark
    rw [h.rest]
    simp
  have hpoint : s.place.isMark '.' = false := Cursor.isMark_of_head (by rw [h.rest]; simp)
  have hends : endsWord (s.place.peek 1) = true := by
    rw [Cursor.peek, h.rest]
    rfl
  have hstart : s.startBlock .blockSequenceStart = s := by
    unfold startBlock openBlock
    rw [if_neg (by simp [h.flow]), h.indent, h.column, if_neg (by decide)]
  have hentry :
      s.blockEntry = .ok (({ s with keyAllowed := true }.advance 1).emit .blockEntry) := by
    unfold blockEntry
    rw [if_neg (by simp [h.allowed]), hstart, (h.allow true).dropCandidate]
    rfl
  unfold token
  simp [hmark, hpoint, hends, hentry]

/-- **The hyphen of an entry**, in a sequence that is not indented further than its key. -/
theorem moves_entry {indent₀ : Int} {outer₀ : List Int} {out₀ : List Token}
    (hs : Ready s.skipBlanks ('-' :: ' ' :: rest) 0 true indent₀ outer₀ out₀)
    (h : Ready (s.skipBlanks.unwind 0) ('-' :: ' ' :: rest) 0 true 0 outer out)
    (hrest : Begins rest) : ∃ s', Moves 1 s s' ∧
      Ready s'.skipBlanks rest 2 true 0 outer (out ++ [.blockEntry]) := by
  refine ⟨({ s.skipBlanks.unwind 0 with keyAllowed := true }.advance 1).emit .blockEntry,
    moves_of_step ?_, ?_⟩
  · rw [step_of_ready hs]
    show (token (s.skipBlanks.unwind 0) '-').map _ = _
    rw [token_hyphen h]
    rfl
  · have hnext : Ready (({ s.skipBlanks.unwind 0 with keyAllowed := true }.advance 1).emit
        .blockEntry) (' ' :: rest) 1 true 0 outer (out ++ [.blockEntry]) :=
      ((h.allow true).advance ['-'] (by simp [Cursor.IsCalm, isBreak])).emit _
    exact hnext.skip_space hrest

/-- What a scalar without marks can start with starts no other token. -/
theorem ne_of_startsPlain {next : Option Char} (h : startsPlain false a next = true) :
    (∀ b ∈ "%[]\x7b\x7d,*&!|>'\"".toList, a ≠ b) ∧
      (a = '-' ∨ a = '?' ∨ a = ':' → endsWord next = false) := by
  constructor
  · have hspecial : "%[]\x7b\x7d,*&!|>'\"".toList.all (fun b =>
        "-?:,[]\x7b\x7d#&*!|>'\"%@`".toList.contains b && b ≠ '-' && b ≠ '?' && b ≠ ':') =
          true := by
      decide
    rintro b hb rfl
    have hb := List.all_eq_true.mp hspecial a hb
    simp only [Bool.and_eq_true, decide_eq_true_eq] at hb
    obtain ⟨⟨⟨hmem, hhyphen⟩, hquestion⟩, hcolon⟩ := hb
    unfold startsPlain at h
    rw [hmem] at h
    simp [hhyphen, hquestion, hcolon] at h
  · intro hcase
    have hmem : "-?:,[]\x7b\x7d#&*!|>'\"%@`".toList.contains a = true := by
      rcases hcase with rfl | rfl | rfl <;> decide
    unfold startsPlain at h
    rw [hmem] at h
    simp at h
    exact h.1

/-- A scalar without marks is read where nothing else can start. -/
theorem token_plain (h : Ready s (a :: rest) column allowed indent outer out)
    (hstart : startsPlain false a rest.head? = true)
    (hmark : column = 0 → Cursor.NoMark (a :: rest)) : s.token a = s.plain := by
  have hpeek : s.place.peek 1 = rest.head? := by
    rw [Cursor.peek, h.rest]
    cases rest <;> rfl
  have hmarks : ∀ mark, (mark = '-' ∨ mark = '.') →
      (decide (s.place.column = 0) && s.place.isMark mark) = false := by
    intro mark hcase
    rw [Bool.eq_false_iff, ne_eq, Bool.and_eq_true, decide_eq_true_eq, h.column]
    rintro ⟨hzero, hat⟩
    have hnone := hmark hzero
    unfold Cursor.isMark at hat
    rw [h.rest, Bool.and_eq_true, decide_eq_true_eq] at hat
    rcases hcase with rfl | rfl
    · exact hnone.1 hat.1
    · exact hnone.2 hat.1
  have hhyphen := hmarks '-' (.inl rfl)
  have hpoint := hmarks '.' (.inr rfl)
  rw [← hpeek] at hstart
  unfold token
  simp only [h.flow, hhyphen, hpoint]
  obtain ⟨hother, hends⟩ := ne_of_startsPlain hstart
  simp only [String.reduceToList, List.forall_mem_cons] at hother
  have hnone : ∀ b, (b = '-' ∨ b = '?' ∨ b = ':') →
      ¬(a = b ∧ endsWord (s.place.peek 1) = true) := by
    rintro b hb ⟨rfl, hyes⟩
    rw [hends hb] at hyes
    cases hyes
  simp [hother, hnone, hstart]

theorem startsPlain_of_none {next : Option Char} (h : startsPlain false a none = true) :
    startsPlain false a next = true := by
  have hends : endsWord none = true := rfl
  unfold startsPlain at h ⊢
  rw [hends] at h
  simp only [Bool.not_true, Bool.false_and, Bool.or_false] at h
  rw [h, Bool.true_or]

/-- A word that is written as a key: it is read as one, and in time for its colon. -/
structure KeyWord (w : List Char) : Prop where
  ink : w.all (fun a => isInk a && a ≠ '\uFEFF') = true
  starts : w.head?.any (fun a => startsPlain false a none && a ≠ '.') = true
  noColon : w.getLast? ≠ some ':'
  short : w.length ≤ maxKey

instance (w : List Char) : Decidable (KeyWord w) :=
  decidable_of_iff
    (w.all (fun a => isInk a && a ≠ '\uFEFF') = true ∧
      w.head?.any (fun a => startsPlain false a none && a ≠ '.') = true ∧
        w.getLast? ≠ some ':' ∧ w.length ≤ maxKey)
    ⟨fun h => ⟨h.1, h.2.1, h.2.2.1, h.2.2.2⟩, fun h => ⟨h.ink, h.starts, h.noColon, h.short⟩⟩

theorem KeyWord.isInk_of_mem {w : List Char} (hw : KeyWord w) (ha : a ∈ w) :
    isInk a = true ∧ a ≠ '\uFEFF' := by
  simpa using List.all_eq_true.mp hw.ink a ha

theorem KeyWord.isCalm {w : List Char} (hw : KeyWord w) : ∀ a ∈ w, Cursor.IsCalm a := fun _ ha =>
  ⟨Lexeme.isBreak_of_isInk (hw.isInk_of_mem ha).1, (hw.isInk_of_mem ha).2⟩

theorem KeyWord.cases {w : List Char} (hw : KeyWord w) : ∃ a w', w = a :: w' ∧
    startsPlain false a none = true ∧ a ≠ '-' ∧ a ≠ '.' ∧ a ≠ '#' := by
  have hstarts := hw.starts
  cases w with
  | nil => cases hstarts
  | cons a w =>
      rw [List.head?_cons, Option.any_some, Bool.and_eq_true, decide_eq_true_eq] at hstarts
      refine ⟨a, w, rfl, hstarts.1, ?_, hstarts.2, ?_⟩
      · rintro rfl
        exact absurd hstarts.1 (by decide)
      · rintro rfl
        exact absurd hstarts.1 (by decide)

theorem KeyWord.begins {w : List Char} (hw : KeyWord w) : Begins (w ++ rest) := by
  obtain ⟨a, w, rfl, -, -, -, hhash⟩ := hw.cases
  intro b hb
  cases hb
  have hink := hw.isInk_of_mem (a := a) (by simp)
  exact ⟨hink.1, hhash, hink.2⟩

theorem KeyWord.noMark {w : List Char} (hw : KeyWord w) (k : Nat) :
    Cursor.NoMark (List.replicate k ' ' ++ (w ++ rest)) := by
  obtain ⟨a, w, rfl, -, hhyphen, hpoint, -⟩ := hw.cases
  cases k with
  | zero => exact ⟨by simp [hhyphen], by simp [hpoint]⟩
  | succ k => exact ⟨by simp [List.replicate_succ], by simp [List.replicate_succ]⟩

/-- The candidate that the next token is. -/
def candidateAt (s : Stream) : Candidate where
  number := s.tokens.size
  required := s.flow = 0 && s.indent = (s.place.column : Int)
  index := s.place.index
  line := s.place.line
  column := s.place.column

/-- The state after a word that may be a key. -/
def afterWord (s : Stream) (w : List Char) : Stream :=
  { s with
    place := s.place.skip w.length
    keyAllowed := false
    candidates := [(0, s.candidateAt)]
    tokens := s.tokens.push (.scalar (w.map .char) true) }

theorem plain_of_keyWord {w : List Char} (hw : KeyWord w) (hrest : endsWord rest.head? = true)
    (h : Ready s (w ++ ':' :: rest) column true indent outer out) :
    s.plain = .ok (s.afterWord w) := by
  have hfirst : w ≠ [] ∧ w.head? ≠ some '#' := by
    obtain ⟨a, w, rfl, -, -, -, hhash⟩ := hw.cases
    exact ⟨by simp, by simpa using hhash⟩
  have hread := Lexeme.plain_key (s.indent + 1) (fun a ha => (hw.isInk_of_mem ha).1) hfirst.1
    hw.noColon hfirst.2 hrest h.rest
  unfold plain saveCandidate
  rw [if_pos h.allowed]
  simp only [h.dropCandidate, bind, Except.bind, h.flow, h.candidates]
  simp only [gt_iff_lt, Nat.lt_irrefl, decide_false, hread]
  unfold afterWord candidateAt emit
  simp only [h.flow]

/-- The state after the colon of a key. -/
def afterColon (s : Stream) (w : List Char) : Stream :=
  { s with
    place := (s.place.skip w.length).skip 1
    indent := s.place.column
    outer := if s.indent < s.place.column then s.indent :: s.outer else s.outer
    keyAllowed := false
    candidates := []
    tokens := (s.tokens.push (.scalar (w.map .char) true)).push .value
    keys := (s.tokens.size, decide (s.indent < s.place.column)) :: s.keys }

theorem value_afterWord {w : List Char} (hflow : s.flow = 0) (hindent : s.indent ≤ s.place.column) :
    (s.afterWord w).value = .ok (s.afterColon w) := by
  have hlookup : (s.afterWord w).candidates.lookup (s.afterWord w).flow = some s.candidateAt := by
    show [(0, s.candidateAt)].lookup s.flow = _
    rw [hflow]
    rfl
  have hinner : (s.afterWord w).indent = s.indent := rfl
  have hcolumn : s.candidateAt.column = s.place.column := rfl
  have hbrackets : (s.afterWord w).flow = 0 := hflow
  unfold value
  rw [hlookup]
  by_cases hlt : s.indent < s.place.column
  · simp only [hbrackets, if_true, openBlock, hcolumn, hinner, hlt]
    simp [afterColon, afterWord, candidateAt, advance, emit, hlt, hflow]
  · have heq : s.indent = s.place.column := by omega
    simp only [hbrackets, if_true, openBlock, hcolumn, hinner, hlt, if_false]
    simp [afterColon, afterWord, candidateAt, advance, emit, heq, hflow]

/-- The colon comes in time, and turns the word into a key. -/
theorem step_afterWord {w : List Char} (hw : KeyWord w) (hrest : endsWord rest.head? = true)
    (h : Ready s (w ++ ':' :: rest) column true indent outer out) (hindent : indent ≤ column) :
    (s.afterWord w).step = .ok (s.afterColon w, false) := by
  have hplace : (s.afterWord w).place =
      { rest := ':' :: rest, index := s.place.index + w.length, line := s.place.line
        column := s.place.column + w.length } :=
    Cursor.skip_calm h.rest hw.isCalm
  have hblanks : (s.afterWord w).skipBlanks = s.afterWord w := by
    rw [skipBlanks_of_head (by simp [hplace]), hplace]
    rfl
  -- The candidate is on the same line, and a key word is short enough.
  have hstale : (s.afterWord w).dropStale = .ok (s.afterWord w) := by
    have hfresh : isStale (s.afterWord w).place s.candidateAt = false := by
      have hshort := hw.short
      simp [isStale, hplace, candidateAt]
      omega
    unfold dropStale
    simp [afterWord] at hfresh ⊢
    simp [hfresh]
  have hunwind : (s.afterWord w).unwind (s.afterWord w).place.column = s.afterWord w := by
    refine unwind_of_le h.flow ?_
    show s.indent ≤ _
    rw [hplace, h.indent, h.column]
    push_cast
    omega
  have htoken : (s.afterWord w).token ':' = (s.afterWord w).value := by
    have hmark : ∀ mark, mark ≠ ':' → (s.afterWord w).place.isMark mark = false := fun mark hne =>
      Cursor.isMark_of_head (by rw [hplace]; simpa using hne.symm)
    have hends : endsWord ((s.afterWord w).place.peek 1) = true := by
      rw [Cursor.peek, hplace]
      cases rest <;> exact hrest
    unfold token
    simp [hmark, hends]
  have hhead : (s.afterWord w).place.head = some ':' := by rw [hplace]; rfl
  unfold step
  rw [hblanks, hstale]
  simp only [bind, Except.bind, hunwind, hhead, htoken]
  rw [value_afterWord h.flow (by rwa [h.indent, h.column])]

theorem Ready.afterColon {w : List Char} (hw : KeyWord w)
    (h : Ready s (w ++ ':' :: rest) column true indent outer out) :
    Ready (s.afterColon w) rest (column + w.length + 1) false column
      (if indent < column then indent :: outer else outer)
      (out ++ keyMarks (indent < column) ++ [.scalar (w.map .char) true, .value]) := by
  have hplace : (s.place.skip w.length).skip 1 =
      { rest, index := s.place.index + w.length + 1, line := s.place.line
        column := s.place.column + w.length + 1 } := by
    rw [Cursor.skip_calm h.rest hw.isCalm]
    rfl
  have hsize : s.tokens.size = s.tokens.toList.length := Array.length_toList.symm
  refine ⟨?_, ?_, rfl, h.flow, ?_, ?_, rfl, ?_, ?_⟩
  · show ((s.place.skip w.length).skip 1).rest = rest
    rw [hplace]
  · show ((s.place.skip w.length).skip 1).column = _
    rw [hplace, h.column]
  · show (s.place.column : Int) = column
    rw [h.column]
  · show (if s.indent < s.place.column then s.indent :: s.outer else s.outer) = _
    rw [h.indent, h.column, h.outer]
  · intro key hkey
    rcases List.mem_cons.mp hkey with rfl | hkey
    · simp [Stream.afterColon]
    · have hlt := h.keys key hkey
      simp [Stream.afterColon] at hlt ⊢
      omega
  · show spliced ((s.tokens.size, decide (s.indent < s.place.column)) :: s.keys) 0
      ((s.tokens.push _).push _).toList = _
    rw [Array.toList_push, Array.toList_push, List.append_assoc, hsize]
    exact (spliced_key h.keys _ _).trans (by rw [h.out, h.indent, h.column])

/-- **A key with its colon.**  It opens a block if it is to the right of the open ones. -/
theorem moves_key {w : List Char} (hw : KeyWord w) (hrest : endsWord rest.head? = true)
    (h : Ready s.skipBlanks (w ++ ':' :: rest) column true indent outer out)
    (hindent : indent ≤ column) :
    ∃ s', Moves 2 s s' ∧ Ready s' rest (column + w.length + 1) false column
      (if indent < column then indent :: outer else outer)
      (out ++ keyMarks (indent < column) ++ [.scalar (w.map .char) true, .value]) := by
  refine ⟨s.skipBlanks.afterColon w,
    (moves_of_step ?_).trans (moves_of_step (step_afterWord hw hrest h hindent)), h.afterColon hw⟩
  have hplain := plain_of_keyWord hw hrest h
  have hmark : Cursor.NoMark (w ++ ':' :: rest) := hw.noMark 0
  obtain ⟨a, w, rfl, hstarts, -⟩ := hw.cases
  rw [step_of_ready h, unwind_of_le h.flow (by rwa [h.indent]),
    token_plain h (startsPlain_of_none hstarts) (fun _ => hmark), hplain]
  rfl

/-! ### Values -/

section Values

variable {cs tail : List Char} {before : Option Char} {column' width : Nat}

open Print (Bare)

theorem startsPlain_of_canStart {next next' : Option Char} (ha : isInk a = true)
    (h : Print.canStart a next = true)
    (hnext : Print.isGap next = false → endsWord next' = false) :
    startsPlain false a next' = true := by
  unfold Print.canStart at h
  rw [Bool.and_eq_true, Bool.not_eq_true', Bool.not_eq_true'] at h
  unfold startsPlain
  rw [Lexeme.endsWord_of_isInk ha, Bool.false_or]
  by_cases hspecial : ['?', ':', '-'].contains a = true
  · rw [hspecial, Bool.true_and] at h
    rw [hnext h.2]
    simp at hspecial
    rcases hspecial with rfl | rfl | rfl <;> rfl
  · have hother : "-?:,[]\x7b\x7d#&*!|>'\"%@`".toList.contains a = false := by
      simp at hspecial h ⊢
      simp [hspecial, h]
    rw [hother]
    rfl

/-- What a string without marks is written as starts a scalar without marks. -/
theorem startsPlain_of_bare (h : Bare cs) (width column' : Nat) (before : Option Char)
    (tail : List Char) : ∃ a text,
    Print.plain width column' before cs ++ '\n' :: tail = a :: text ∧
      startsPlain false a text.head? = true ∧ isInk a = true ∧ a ≠ '#' ∧ a ≠ '\uFEFF' := by
  obtain ⟨a, rest, rfl, hstart, -⟩ := h.starts
  have hspace : a ≠ ' ' := by simpa using h.noSpaceFirst
  have hsimple := h.simple a (by simp)
  have hink := Print.isInk_of_isSimple hsimple.1 hsimple.2 hspace
  refine ⟨a, _, by rw [Print.plain_ink hspace, List.cons_append], ?_, hink,
    by simpa using h.row.noHash, Print.ne_mark_of_isSimple hsimple.1⟩
  refine startsPlain_of_canStart hink hstart ?_
  intro hgap
  cases rest with
  | nil => cases hgap
  | cons b rest =>
      have hb : b ≠ ' ' := by
        rintro rfl
        cases hgap
      have hsimple := h.simple b (by simp)
      rw [Print.plain_ink hb, List.cons_append, List.head?_cons]
      exact Lexeme.endsWord_of_isInk (Print.isInk_of_isSimple hsimple.1 hsimple.2 hb)

/-- A value cannot be a key. -/
theorem saveCandidate_of_ready (h : Ready s rest column false indent outer out) :
    s.saveCandidate = .ok s := by
  unfold saveCandidate
  rw [if_neg (by simp [h.allowed])]

/-- After a value the scan goes on wherever the value ended. -/
theorem Ready.goOn (h : Ready s rest column allowed indent outer out) (c : Cursor)
    (allowed' : Bool) :
    Ready { s with place := c, keyAllowed := allowed' } c.rest c.column allowed' indent outer out :=
  ⟨rfl, rfl, rfl, h.flow, h.indent, h.outer, h.candidates, h.keys, h.out⟩

theorem Begins.startsInk (h : Begins rest) : StartsInk rest := fun a ha => (h a ha).1

/-- **A value without marks**, up to the line that ends it. -/
theorem moves_bare (hcs : Bare cs) (hwidth : indent < width) (hk : (k : Int) ≤ indent)
    (htail : Begins tail) (hmark : Cursor.NoMark (List.replicate k ' ' ++ tail))
    (h : Ready s (' ' :: (Print.plain width column' before cs ++
      '\n' :: (List.replicate k ' ' ++ tail))) column false indent outer out)
    (hcolumn : indent ≤ column) :
    ∃ s', Moves 1 s s' ∧ Ready s'.skipBlanks tail k true indent outer
      (out ++ [.scalar (cs.map .char) true]) := by
  obtain ⟨a, text, htext, hstart, hink, hhash, hbom⟩ := startsPlain_of_bare hcs width column'
    before (List.replicate k ' ' ++ tail)
  have hskip := h.skip_space (by
    rw [htext]
    intro b hb
    cases hb
    exact ⟨hink, hhash, hbom⟩)
  obtain ⟨c', hrest', hcolumn', hread⟩ := Lexeme.plain_read (s.skipBlanks.indent + 1) hcs
    (by rw [hskip.indent]; omega) (by rw [hskip.indent]; omega) htail.startsInk hmark hskip.rest
    (by rw [hskip.indent, hskip.column]; push_cast; omega)
  have hplain : s.skipBlanks.plain = .ok ({ s.skipBlanks with place := c', keyAllowed := true }.emit
      (.scalar (cs.map .char) true)) := by
    unfold plain
    simp only [saveCandidate_of_ready hskip, bind, Except.bind, hskip.flow, gt_iff_lt,
      Nat.lt_irrefl, decide_false, hread]
  have hnext := (hskip.goOn c' true).emit (.scalar (cs.map .char) true)
  rw [hrest', hcolumn'] at hnext
  rw [htext] at hskip
  refine ⟨_, moves_of_step ?_, hnext.skip_none htail⟩
  rw [step_of_ready hskip, unwind_of_le hskip.flow (by rw [hskip.indent]; push_cast; omega),
    token_plain hskip hstart (by omega), hplain]
  rfl

/-- A single word as a value. -/
theorem moves_word (hcs : Bare cs) (hspace : ' ' ∉ cs) (hk : (k : Int) ≤ indent)
    (htail : Begins tail) (hmark : Cursor.NoMark (List.replicate k ' ' ++ tail))
    (h : Ready s (' ' :: (cs ++ '\n' :: (List.replicate k ' ' ++ tail))) column false indent outer
      out)
    (hcolumn : indent ≤ column) :
    ∃ s', Moves 1 s s' ∧ Ready s'.skipBlanks tail k true indent outer
      (out ++ [.scalar (cs.map .char) true]) := by
  have hplain : Print.plain (column + 1) column none cs = cs := Print.plain_of_noSpace hspace
  rw [← hplain] at h
  exact moves_bare hcs (by push_cast; omega) hk htail hmark h hcolumn

/-- A mark starts a scalar in marks. -/
theorem token_mark {double : Bool} (h : Ready s (Lexeme.mark double :: rest) column allowed indent
    outer out) : s.token (Lexeme.mark double) = s.content fun c =>
      (Lexeme.quoted double c).map fun (text, c) => (.scalar text false, c) := by
  have hmark : ∀ a, a ≠ Lexeme.mark double → s.place.isMark a = false := fun a hne =>
    Cursor.isMark_of_head (by rw [h.rest]; simpa using hne.symm)
  unfold token
  cases double with
  | true => simp [hmark '-' (by decide), hmark '.' (by decide), Lexeme.mark]
  | false => simp [hmark '-' (by decide), hmark '.' (by decide), Lexeme.mark]

/-- **A value in marks**, and the new line after it. -/
theorem moves_quoted {double : Bool} {ls : List Letter}
    (hclose : Lexeme.Closes double rest ls ('\n' :: (List.replicate k ' ' ++ tail)))
    (htail : Begins tail)
    (h : Ready s (' ' :: Lexeme.mark double :: rest) column false indent outer out)
    (hcolumn : indent ≤ column) :
    ∃ s', Moves 1 s s' ∧ Ready s'.skipBlanks tail k true indent outer
      (out ++ [.scalar ls false]) := by
  have hskip := h.skip_space (by
    intro b hb
    cases hb
    cases double <;> decide)
  obtain ⟨c', hrest', hread⟩ := hclose.quoted hskip.rest
  have hcontent : s.skipBlanks.token (Lexeme.mark double) =
      .ok ({ s.skipBlanks with place := c', keyAllowed := false }.emit (.scalar ls false)) := by
    rw [token_mark hskip]
    unfold content
    simp only [saveCandidate_of_ready hskip, bind, Except.bind, hread]
    rfl
  have hnext := (hskip.goOn c' false).emit (.scalar ls false)
  rw [hrest'] at hnext
  refine ⟨_, moves_of_step ?_, hnext.skip_line htail⟩
  rw [step_of_ready hskip, unwind_of_le hskip.flow (by rw [hskip.indent]; push_cast; omega),
    hcontent]
  rfl

/-- **A string as a value** is read as itself, whichever marks it was written in. -/
theorem moves_string {text : String} (hpos : 0 < width) (hwide : width < Print.width)
    (hwidth : indent < width) (hk : (k : Int) ≤ indent) (htail : Begins tail)
    (hmark : Cursor.NoMark (List.replicate k ' ' ++ tail))
    (h : Ready s (' ' :: (Print.string width column' text ++
      '\n' :: (List.replicate k ' ' ++ tail))) column false indent outer out)
    (hcolumn : indent ≤ column) :
    ∃ s', Moves 1 s s' ∧ Ready s'.skipBlanks tail k true indent outer
      (out ++ [.scalar (Letter.ofText text) (Print.canBePlain text.toList)]) := by
  unfold Print.string at h
  dsimp only at h
  split at h
  · rename_i hplain
    rw [hplain]
    exact moves_bare (Print.bare_of_canBePlain hplain) hwidth hk htail hmark h hcolumn
  · rename_i hplain
    rw [Bool.not_eq_true] at hplain
    rw [hplain]
    split at h
    · rename_i hsingle
      unfold Print.canBeSingle at hsingle
      rw [Bool.and_eq_true, Bool.not_eq_true'] at hsingle
      simp only [List.cons_append, List.append_assoc, List.nil_append] at h
      exact moves_quoted (Print.closes_single hpos (by simp) _ _ _ hsingle.1 hsingle.2 (by simp))
        htail h hcolumn
    · simp only [List.cons_append, List.append_assoc, List.nil_append] at h
      exact moves_quoted (Print.closes_double hpos hwide (by simp) _ _ _ _) htail h hcolumn

end Values

/-! ### The end of the text -/

/-- **At the end of the text** the blocks that are still open end: those to the right of its last
line, and the outermost one. -/
theorem run_end {indent₀ : Int} {outer₀ : List Int} {out₀ : List Token}
    (hs : Ready s.skipBlanks [] column allowed indent₀ outer₀ out₀)
    (h : Ready (s.skipBlanks.unwind column) [] column allowed indent [-1] out)
    (hindent : -1 < indent) (fuel : Nat) :
    ∃ s', run (fuel + 1) s = (s', none) ∧
      spliced s'.keys 0 s'.tokens.toList = out ++ [.blockEnd] := by
  have hlast := h.unwind_one (-1) hindent (Int.le_refl _)
  refine ⟨(s.skipBlanks.unwind column).unwind (-1), ?_, hlast.out⟩
  have hhead : (s.skipBlanks.unwind column).place.head = none := by
    rw [Cursor.head, h.rest]
    rfl
  have hstep : s.step = .ok ((s.skipBlanks.unwind column).unwind (-1), true) := by
    unfold step
    rw [hs.dropStale]
    simp only [bind, Except.bind, hs.column, hhead]
    unfold finish
    rw [hlast.dropCandidate]
  rw [run, hstep]

/-- The tokens of a text that is scanned to its end. -/
theorem tokens_of_run {text : List Char} (htext : ∀ a ∈ text, isStreamChar a = true)
    (h : ∃ s, run (text.length + 1) { place := { rest := text } } = (s, none) ∧
      spliced s.keys 0 s.tokens.toList = out) : Yaml.tokens text = out := by
  obtain ⟨s, hrun, rfl⟩ := h
  unfold Yaml.tokens
  rw [if_pos (List.all_eq_true.mpr htext), hrun]

end Semicolon.Yaml.Stream
