/-
Reading undoes writing, and does not see how a line ends.

Three things can keep a line that was written from being read back: a line feed cuts it, a carriage
return at its end is dropped, and stray bytes next to each other may spell a character.  A text with
no stray byte is safe from the last of these, and so is one that was read, because its stray bytes
did not spell anything when they were read.

The other way round, carriage returns before a line feed make no difference.  A line feed is never
part of a longer character, so the bytes before it are read on their own, and the carriage returns
among them are dropped from the end of the line.
-/
import Mathlib.Logic.Relation
import Semicolon.Proofs.Bytes
import Semicolon.Proofs.Idempotence

namespace Semicolon

namespace Utf8

/-- A text without stray bytes is read back from its bytes. -/
theorem faithful_of_chars {t : Text} (h : ∀ b, .byte b ∉ t) : Faithful t := by
  induction t with
  | nil => exact faithful_nil
  | cons g t ih =>
      cases g with
      | char c => exact faithful_char.mpr (ih fun b hb => h b (List.mem_cons_of_mem _ hb))
      | byte b => exact absurd List.mem_cons_self (h b)

end Utf8

namespace Source

/-! ### Lines that are read back -/

/-- A text that a file can hold as a line. -/
structure Storable (t : Text) : Prop where
  /-- No line feed is in it. -/
  unbroken : .char '\n' ∉ t
  /-- It does not end in a carriage return. -/
  unreturned : t.getLast? ≠ some (.char '\r')
  /-- It has no stray byte, or a file was read that has this line. -/
  legible : (∀ b, .byte b ∉ t) ∨ ∃ bs, t ∈ lines bs

theorem chomp_eq_self_iff {t : Text} (h : .char '\n' ∉ t) :
    chomp t = t ↔ t.getLast? ≠ some (.char '\r') := by
  rcases List.eq_nil_or_concat t with rfl | ⟨t, g, rfl⟩
  · simp [chomp]
  · rw [List.concat_eq_append] at h ⊢
    have hg : g ≠ .char '\n' := by
      rintro rfl
      exact h (by simp)
    rw [chomp_concat_iff, List.getLast?_concat]
    simp [isLineEnd, hg]

theorem isLine_iff_storable {t : Text} : IsLine t ↔ Storable t := by
  constructor
  · intro hline
    have hread : lines (bytes [t]) = [t] := lines_bytes (by simpa using hline)
    have hmem : t ∈ lines (bytes [t]) := by
      rw [hread]
      exact List.mem_singleton_self t
    exact ⟨hline.unbroken, (chomp_eq_self_iff hline.unbroken).mp hline.chomped, Or.inr ⟨_, hmem⟩⟩
  · rintro ⟨hunbroken, hreturn, hchars | ⟨bs, hbs⟩⟩
    · exact ⟨hunbroken, (chomp_eq_self_iff hunbroken).mpr hreturn, Utf8.faithful_of_chars hchars⟩
    · exact isLine_of_mem_lines hbs

/-- Lines are read back from the bytes that are written for them exactly if each is storable. -/
theorem lines_bytes_eq_iff {ls : List Text} :
    lines (bytes ls) = ls ↔ ∀ l ∈ ls, Storable l := by
  constructor
  · intro hread l hl
    rw [← hread] at hl
    exact isLine_iff_storable.mp (isLine_of_mem_lines hl)
  · intro hls
    exact lines_bytes fun l hl => isLine_iff_storable.mpr (hls l hl)

/-- What a file is read as that was replaced by lines. -/
theorem readLines_of_replaced {d : Disk} {h : Hazards} {path : String} {ls new : List Text}
    {o : Replacement.Outcome} (hrun : Replacement.apply d h path ls = .ok o)
    (hdone : o.replaced = true) (hread : Lint.readLines o.disk path = .ok new) :
    new = lines (bytes ls) := by
  cases hbytes : o.disk.readFile path with
  | error e =>
      rw [Lint.readLines, hbytes] at hread
      cases hread
  | ok bs =>
      rw [Lint.readLines_of_readFile hbytes] at hread
      rw [← Replacement.readFile_of_replaced hrun hdone hbytes]
      exact (Except.ok.inj hread).symm

/-! ### Carriage returns before a line feed -/

/-- One line feed of the bytes gets another number of carriage returns before it. -/
inductive Returns : Bytes → Bytes → Prop
  | swap (x y : Bytes) (m n : Nat) :
      Returns (x ++ List.replicate m 0x0D ++ 0x0A :: y) (x ++ List.replicate n 0x0D ++ 0x0A :: y)

theorem rdropWhile_returns (q : Bytes) (m : Nat) :
    (q ++ List.replicate m 0x0D).rdropWhile (· = 0x0D) = q.rdropWhile (· = 0x0D) := by
  induction m with
  | zero => rw [List.replicate_zero, List.append_nil]
  | succ m ih =>
      rw [List.replicate_succ', ← List.append_assoc, List.rdropWhile_concat_pos _ _ _ (by simp), ih]

/-- Carriage returns behind some bytes go to the last stretch of these, and are dropped from it. -/
theorem map_splitOn_returns (x : Bytes) (m : Nat) :
    ((x ++ List.replicate m 0x0D).splitOn 0x0A).map (List.rdropWhile (· = 0x0D))
      = (x.splitOn 0x0A).map (List.rdropWhile (· = 0x0D)) := by
  induction hn : x.length using Nat.strongRecOn generalizing x with
  | ind n ih =>
      by_cases hmem : 0x0A ∈ x
      · obtain ⟨a, b, rfl⟩ := List.append_of_mem hmem
        have hless : b.length < n := by
          rw [← hn, List.length_append, List.length_cons]
          omega
        rw [List.append_assoc, List.cons_append, List.splitOn_append_cons_self,
          List.splitOn_append_cons_self, List.map_append, List.map_append, ih b.length hless b rfl]
      · have hfree : 0x0A ∉ x ++ List.replicate m 0x0D := by simp [hmem]
        rw [List.splitOn_eq_singleton hfree, List.splitOn_eq_singleton hmem, List.map_singleton,
          List.map_singleton, rdropWhile_returns]

/-- The bytes before a line feed and those after it are cut apart. -/
theorem rawLines_append_newline (x y : Bytes) :
    rawLines (x ++ 0x0A :: y)
      = (x.splitOn 0x0A).map (List.rdropWhile (· = 0x0D)) ++ rawLines y := by
  have hlast : (x.splitOn 0x0A ++ y.splitOn 0x0A).getLast? = (y.splitOn 0x0A).getLast? :=
    List.getLast?_append_of_ne_nil _ (List.splitOn_ne_nil _ _)
  rw [rawLines, rawLines, List.splitOn_append_cons_self]
  simp only [hlast]
  split
  · rw [List.dropLast_append_of_ne_nil (List.splitOn_ne_nil _ _), List.map_append]
  · rw [List.map_append]

theorem lines_of_returns {bs bs' : Bytes} (h : Returns bs bs') : lines bs = lines bs' := by
  cases h with
  | swap x y m n =>
      rw [lines_eq_map_rawLines, lines_eq_map_rawLines, rawLines_append_newline,
        rawLines_append_newline, map_splitOn_returns, map_splitOn_returns]

theorem lines_of_reflTransGen {bs bs' : Bytes} (h : Relation.ReflTransGen Returns bs bs') :
    lines bs = lines bs' := by
  induction h with
  | refl => rfl
  | tail _ hstep ih => exact ih.trans (lines_of_returns hstep)

/-- **Reading undoes writing, and does not see how lines end.**  Lines are read back from their
bytes exactly if each of them is storable, also from a file that was replaced by them; and bytes
have the same lines however many carriage returns are put in or left out before their line
feeds. -/
theorem read_undoes_write :
    (∀ ls : List Text, lines (bytes ls) = ls ↔ ∀ l ∈ ls, Storable l) ∧
    (∀ (d : Disk) (h : Hazards) (path : String) (ls new : List Text) (o : Replacement.Outcome),
      Replacement.apply d h path ls = .ok o → o.replaced = true →
        Lint.readLines o.disk path = .ok new → (new = ls ↔ ∀ l ∈ ls, Storable l)) ∧
    ∀ bs bs' : Bytes, Relation.ReflTransGen Returns bs bs' → lines bs = lines bs' := by
  refine ⟨fun ls => lines_bytes_eq_iff, ?_, fun bs bs' h => lines_of_reflTransGen h⟩
  intro d h path ls new o hrun hdone hread
  rw [readLines_of_replaced hrun hdone hread]
  exact lines_bytes_eq_iff

/-- Two stray bytes that would spell a character together, each on its own line; a carriage return
inside a line; and empty lines at the end. -/
def oddLines : List Text :=
  [[.byte 0xC3], [.byte 0xA9], [.char 'é', .char '\r', .char 'b'], [], []]

theorem read_undoes_write_oddLines :
    (∀ l ∈ oddLines, Storable l) ∧ lines (bytes oddLines) = oddLines ∧
    (∃ o, Replacement.apply (Lint.oneFile []) {} "a.js" oddLines = .ok o ∧ o.replaced = true ∧
      Lint.readLines o.disk "a.js" = .ok oddLines) ∧
    lines [0xC3, 0x0D, 0x0A, 0xA9, 0x0A] = lines [0xC3, 0x0A, 0xA9, 0x0D, 0x0D, 0x0A] := by
  obtain ⟨hback, hfile, hreturns⟩ := read_undoes_write
  have hstray : ∀ l ∈ oddLines.take 2, l ∈ lines [0xC3, 0x0D, 0x0A, 0xA9] := by decide +kernel
  have hls : ∀ l ∈ oddLines, Storable l := by
    intro l hl
    have hcases : l ∈ oddLines.take 2 ∨ l = [.char 'é', .char '\r', .char 'b'] ∨ l = [] := by
      simpa [oddLines, or_assoc] using hl
    rcases hcases with hl | rfl | rfl
    · exact isLine_iff_storable.mp (isLine_of_mem_lines (hstray l hl))
    · exact ⟨by decide, by decide, Or.inl (by simp)⟩
    · exact ⟨by decide, by decide, Or.inl (by simp)⟩
  have hend : (Replacement.apply (Lint.oneFile []) {} "a.js" oddLines).map
      (fun o => (o.replaced, (Lint.readLines o.disk "a.js").isOk)) = .ok (true, true) := by
    decide +kernel
  have hnul : '\x00' ∉ "a.js".toList := by decide
  obtain ⟨o, hrun⟩ := Replacement.exists_apply hnul (Lint.oneFile []) {} oddLines
  rw [hrun] at hend
  obtain ⟨hdone, hok⟩ := Prod.mk.inj (Except.ok.inj hend)
  refine ⟨hls, (hback oddLines).mpr hls, ⟨o, hrun, hdone, ?_⟩, hreturns _ _ ?_⟩
  · cases hread : Lint.readLines o.disk "a.js" with
    | error e =>
        rw [hread] at hok
        cases hok
    | ok new => rw [(hfile _ _ _ _ _ _ hrun hdone hread).mpr hls]
  · have hfirst : Returns [0xC3, 0x0D, 0x0A, 0xA9, 0x0A] [0xC3, 0x0A, 0xA9, 0x0A] :=
      .swap [0xC3] [0xA9, 0x0A] 1 0
    have hsecond : Returns [0xC3, 0x0A, 0xA9, 0x0A] [0xC3, 0x0A, 0xA9, 0x0D, 0x0D, 0x0A] :=
      .swap [0xC3, 0x0A, 0xA9] [] 0 2
    exact (Relation.ReflTransGen.single hfirst).tail hsecond

end Source

end Semicolon
