/-
A file that was mended needs no mending.

The lines that a second run reads are the ones that the first run wrote, since mended lines are
lines that can be read back; no line of them lacks its semicolon, since mending is done after one
pass; and so the second run writes the bytes that are there already.  What the bytes of the file
were before, and whether they were text at all, plays no part.
-/
import Semicolon.Lint
import Semicolon.Proofs.Independence
import Semicolon.Proofs.Source
import Semicolon.Proofs.Replacement

namespace Semicolon.Lint

variable {d : Disk} {h : Hazards} {p : Policy} {path : String} {bs : Bytes}

/-! ### The lint of one file -/

/-- What the scan of a file with these bytes gives. -/
def scanned (p : Policy) (path : String) (bs : Bytes) : FileResult where
  findings := Scan.findings p path (Source.lines bs)
  mended := Scan.mended p (Source.lines bs)

theorem readLines_of_readFile (hread : d.readFile path = .ok bs) :
    readLines d path = .ok (Source.lines bs) := by
  rw [readLines, hread]
  rfl

/-- A file that can be read gets its result, whatever becomes of its replacement. -/
theorem exists_file (hread : d.readFile path = .ok bs) (h : Hazards) (p : Policy) (mode : Mode) :
    ∃ o, file d h p mode path = .ok o ∧ o.result = some (scanned p path bs) := by
  simp only [file, readLines_of_readFile hread]
  cases mode with
  | check => exact ⟨_, rfl, rfl⟩
  | fix =>
      obtain ⟨hnul, -⟩ := Disk.readFile_eq_ok_iff.mp hread
      obtain ⟨o, ho⟩ := Replacement.exists_apply hnul d h (Scan.mended p (Source.lines bs))
      simp only [ho]
      exact ⟨_, rfl, rfl⟩

theorem disk_of_fix {o : FileOutcome} {a : Replacement.Outcome}
    (hread : d.readFile path = .ok bs) (hfile : file d h p .fix path = .ok o)
    (hrun : Replacement.apply d h path (scanned p path bs).mended = .ok a) : o.disk = a.disk := by
  have hrun' : Replacement.apply d h path (Scan.mended p (Source.lines bs)) = .ok a := hrun
  simp only [file, readLines_of_readFile hread, hrun'] at hfile
  cases hfile
  rfl

/-! ### A file mended twice -/

/-- The lint mended the file: its bytes were `old`, the scan gave `r`, the replacement succeeded,
and the file can be read and holds `new`. -/
structure Fixes (d : Disk) (h : Hazards) (p : Policy) (path : String) (old : Bytes)
    (r : FileResult) (new : Bytes) : Prop where
  held : d.readFile path = .ok old
  replaced : ∃ a, Replacement.apply d h path r.mended = .ok a ∧ a.replaced = true
  outcome : ∃ o, file d h p .fix path = .ok o ∧ o.result = some r ∧ o.disk.readFile path = .ok new

theorem fixes_of_replaced {old new : Bytes} {a : Replacement.Outcome}
    (hheld : d.readFile path = .ok old)
    (hrun : Replacement.apply d h path (scanned p path old).mended = .ok a)
    (hdone : a.replaced = true) (hread : a.disk.readFile path = .ok new) :
    Fixes d h p path old (scanned p path old) new := by
  obtain ⟨o, hfile, hresult⟩ := exists_file hheld h p .fix
  refine ⟨hheld, ⟨a, hrun, hdone⟩, o, hfile, hresult, ?_⟩
  rw [disk_of_fix hheld hfile hrun, hread]

theorem Fixes.result_eq {old new : Bytes} {r : FileResult} (hfix : Fixes d h p path old r new) :
    r = scanned p path old := by
  obtain ⟨o, hfile, hresult, -⟩ := hfix.outcome
  obtain ⟨o', hfile', hresult'⟩ := exists_file hfix.held h p .fix
  rw [hfile] at hfile'
  cases hfile'
  rw [hresult] at hresult'
  exact Option.some.inj hresult'

/-- A mended file holds its mended lines. -/
theorem Fixes.new_eq {old new : Bytes} {r : FileResult} (hfix : Fixes d h p path old r new) :
    new = Source.bytes r.mended := by
  obtain ⟨a, hrun, hdone⟩ := hfix.replaced
  obtain ⟨o, hfile, -, hread⟩ := hfix.outcome
  obtain rfl := hfix.result_eq
  rw [disk_of_fix hfix.held hfile hrun] at hread
  exact Replacement.readFile_of_replaced hrun hdone hread

theorem lines_bytes_scanned (p : Policy) (path : String) (bs : Bytes) :
    Source.lines (Source.bytes (scanned p path bs).mended) = (scanned p path bs).mended :=
  Source.lines_bytes_mended p bs

/-- The scan of a mended file finds nothing and mends nothing. -/
theorem scanned_bytes_scanned (p : Policy) (path path' : String) (bs : Bytes) :
    scanned p path' (Source.bytes (scanned p path bs).mended)
      = { findings := [], mended := (scanned p path bs).mended } := by
  rw [scanned, lines_bytes_scanned, scanned, Scan.findings, Scan.missing_mended,
    Scan.mended_mended]
  rfl

/-- **A file that was mended needs no mending, down to its bytes.**  Wherever the bytes of a
mended file are read, their lines are the mended lines, a lint in either mode finds nothing
missing, and a lint that mends them again leaves the same bytes. -/
theorem fixes_again {old new : Bytes} {r : FileResult} (hfix : Fixes d h p path old r new)
    {d' : Disk} {path' : String} (hheld : d'.readFile path' = .ok new) :
    readLines d' path' = .ok r.mended ∧
    (∀ h' mode, ∃ o, file d' h' p mode path' = .ok o ∧
      o.result = some { findings := [], mended := r.mended }) ∧
    ∀ h' r' new', Fixes d' h' p path' new r' new' → new' = new := by
  have hnew := hfix.new_eq
  obtain rfl := hfix.result_eq
  have hagain : scanned p path' new = { findings := [], mended := (scanned p path old).mended } := by
    rw [hnew, scanned_bytes_scanned]
  refine ⟨?_, ?_, ?_⟩
  · rw [readLines_of_readFile hheld, hnew, lines_bytes_scanned]
  · intro h' mode
    rw [← hagain]
    exact exists_file hheld h' p mode
  · intro h' r' new' hfix'
    rw [hfix'.new_eq, hfix'.result_eq, hagain, ← hnew]

/-! ### A line with a stray byte and a carriage return -/

/-- A disk on which `a.js` holds the bytes and nothing else is there. -/
def oneFile (bs : Bytes) : Disk where
  entries := [(["a.js"], .file bs false)]

/-- An `a`, a blank, two slashes, a byte that is no text, and both line ends. -/
def strayLine : Bytes := [0x61, 0x20, 0x2F, 0x2F, 0x80, 0x0D, 0x0A]

/-- The same line mended. -/
def strayMended : Bytes := [0x61, 0x3B, 0x2F, 0x2F, 0x80, 0x0A]

theorem readFile_oneFile (bs : Bytes) : (oneFile bs).readFile "a.js" = .ok bs := by
  have hspot : (oneFile bs).resolve true "a.js" = .ok (.taken ["a.js"] (.file bs false)) := rfl
  exact Disk.readFile_eq_ok_iff.mpr ⟨by decide, _, _, hspot⟩

theorem fixes_strayLine : Fixes (oneFile strayLine) {} {} "a.js" strayLine
    (scanned {} "a.js" strayLine) strayMended := by
  have hwrite : (oneFile strayLine).createFile {} (Replacement.sibling "a.js")
      (Source.bytes (scanned {} "a.js" strayLine).mended)
      = .ok ((oneFile strayLine).put ["a.js.autofix.tmp"] (.file strayMended false)) := by
    decide +kernel
  have hmove : ((oneFile strayLine).put ["a.js.autofix.tmp"] (.file strayMended false)).rename
      (Replacement.sibling "a.js") "a.js" = .ok (oneFile strayMended) := by
    decide +kernel
  have hswap := (Disk.replaceFile_eq_ok_iff (h := {})).mpr ⟨rfl, by decide, by decide, hmove⟩
  obtain ⟨hrun, hdone⟩ := Replacement.apply_replaced_iff.mpr ⟨_, _, hwrite, hswap, rfl⟩
  exact fixes_of_replaced (readFile_oneFile _) hrun hdone (readFile_oneFile _)

theorem fixes_again_strayLine :
    Fixes (oneFile strayLine) {} {} "a.js" strayLine (scanned {} "a.js" strayLine) strayMended ∧
    readLines (oneFile strayMended) "a.js"
      = .ok [[.char 'a', .char ';', .char '/', .char '/', .byte 0x80]] ∧
    ∀ h' r' new', Fixes (oneFile strayMended) h' {} "a.js" strayMended r' new' →
      new' = strayMended := by
  obtain ⟨hlines, -, hbytes⟩ := fixes_again fixes_strayLine (readFile_oneFile strayMended)
  have hmended : (scanned {} "a.js" strayLine).mended
      = [[.char 'a', .char ';', .char '/', .char '/', .byte 0x80]] := by
    decide +kernel
  rw [hmended] at hlines
  exact ⟨fixes_strayLine, hlines, hbytes⟩

end Semicolon.Lint
