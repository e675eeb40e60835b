/-
What mending leaves of a file.

A lint that mends a file puts a semicolon into the lines it reports and keeps the bytes of all
others, text or not.  Line ends are the one thing that it makes uniform.

This needs the file to be there afterwards.  The new text goes through the sibling's name, and if a
link of that name leads back to the file, the move puts the link in the file's place: the path then
leads to itself and the text is lost.  If the sibling is no link, the new text is there.
-/
import Semicolon.Proofs.Bytes
import Semicolon.Proofs.Idempotence
import Semicolon.Proofs.Rewrite

namespace Semicolon.Lint

variable {d : Disk} {h : Hazards} {p : Policy} {path : String} {old : Bytes}

open Replacement (sibling)

/-! ### Whether a file was replaced -/

/-- Does every replacement succeed that a lint attempts when it mends the file?  It attempts none
if the file cannot be read. -/
def replaced (d : Disk) (h : Hazards) (p : Policy) (path : String) : Bool :=
  match readLines d path with
  | .error _ => true
  | .ok lines =>
    match Replacement.apply d h path (Scan.mended p lines) with
    | .error _ => false
    | .ok o => o.replaced

theorem apply_of_replaced (hread : d.readFile path = .ok old)
    (hdone : replaced d h p path = true) :
    ∃ a, Replacement.apply d h path (scanned p path old).mended = .ok a ∧ a.replaced = true := by
  simp only [replaced, readLines_of_readFile hread] at hdone
  split at hdone
  · cases hdone
  · rename_i a hrun
    exact ⟨a, hrun, hdone⟩

/-- A path can only be replaced if it ends in a name. -/
theorem opens_of_replaced (hread : d.readFile path = .ok old)
    (hdone : replaced d h p path = true) : ∃ dir name loc, d.Opens path dir name loc old := by
  obtain ⟨a, hrun, hreplaced⟩ := apply_of_replaced hread hdone
  obtain ⟨d₁, d₂, -, hmove, -⟩ := Replacement.apply_replaced_iff.mp ⟨hrun, hreplaced⟩
  obtain ⟨-, -, -, hrename⟩ := Disk.replaceFile_eq_ok_iff.mp hmove
  obtain ⟨_, name, _, _, _, -, hsteps, hname, -⟩ := Replacement.moved_of_rename hrename
  obtain ⟨dir, loc, hopen⟩ := Disk.opens_of_readFile hread hsteps hname.notUp
  exact ⟨dir, name, loc, hopen⟩

/-! ### The bytes that are left -/

/-- The new bytes are the lines of the old ones, each with a line feed behind it.  A line that the
findings name has got a semicolon, and every other one is what it was. -/
def EditsOnly (path : String) (findings : List Finding) (old new : Bytes) : Prop :=
  ∃ qs : List Bytes, new = qs.flatMap (fun q => q ++ [0x0A]) ∧
    qs.length = (Source.rawLines old).length ∧
    ∀ i : Nat,
      (⟨path, (i + 1 : Nat)⟩ ∈ findings →
        Source.Terminates ((Source.rawLines old).getD i []) (qs.getD i [])) ∧
      (⟨path, (i + 1 : Nat)⟩ ∉ findings → qs.getD i [] = (Source.rawLines old).getD i [])

theorem mem_findings_iff {lines : List Text} {n : Nat} :
    ⟨path, (n : Int)⟩ ∈ Scan.findings p path lines ↔ n ∈ Scan.missing p lines := by
  unfold Scan.findings
  rw [List.mem_map]
  constructor
  · rintro ⟨m, hm, heq⟩
    have hline : (m : Int) = n := congrArg Finding.line heq
    rwa [Int.ofNat_inj.mp hline] at hm
  · intro hn
    exact ⟨n, hn, rfl⟩

theorem editsOnly_scanned (p : Policy) (path : String) (old : Bytes) :
    EditsOnly path (scanned p path old).findings old
      (Source.bytes (scanned p path old).mended) := by
  obtain ⟨qs, hbytes, hlength, hlines⟩ := Source.bytes_mended p old
  refine ⟨qs, hbytes, hlength, fun i => ?_⟩
  rw [scanned, mem_findings_iff]
  exact hlines i

/-- **Mending a file keeps every byte that it does not mean to touch.**  After a replacement that
succeeded, a file that the path leads to holds the old lines, those reported with their semicolon;
and the path does lead to one, if the sibling was no link. -/
theorem fix_edits_only (hheld : d.readFile path = .ok old)
    (hdone : replaced d h p path = true) :
    ∃ o r, file d h p .fix path = .ok o ∧ o.result = some r ∧
      (∀ new, o.disk.readFile path = .ok new → EditsOnly path r.findings old new) ∧
      (d.isLink (sibling path) = false → ∃ new, o.disk.readFile path = .ok new) := by
  obtain ⟨a, hrun, hreplaced⟩ := apply_of_replaced hheld hdone
  obtain ⟨o, hfile, hresult⟩ := exists_file hheld h p .fix
  have hdisk : o.disk = a.disk := disk_of_fix hheld hfile hrun
  refine ⟨o, scanned p path old, hfile, hresult, fun new hnew => ?_, fun hlink => ?_⟩
  · rw [hdisk] at hnew
    rw [Replacement.readFile_of_replaced hrun hreplaced hnew]
    exact editsOnly_scanned p path old
  · obtain ⟨dir, name, loc, hopen⟩ := opens_of_replaced hheld hdone
    have hplain : d.Plain (sibling path) :=
      Disk.plain_of_isLink (by simp [sibling]) hlink
    rcases Replacement.rewrites_of_apply hopen hplain hrun with ⟨-, hkept⟩ | ⟨-, -, hplaced⟩
    · rw [hreplaced] at hkept
      cases hkept
    · rw [hdisk]
      exact ⟨_, ((hplaced hreplaced).opens hopen).readFile_eq⟩

theorem fix_edits_only_strayLine :
    replaced (oneFile strayLine) {} {} "a.js" = true ∧
    ∃ o r, file (oneFile strayLine) {} {} .fix "a.js" = .ok o ∧ o.result = some r ∧
      (∀ new, o.disk.readFile "a.js" = .ok new → EditsOnly "a.js" r.findings strayLine new) ∧
      ∃ new, o.disk.readFile "a.js" = .ok new := by
  have hdone : replaced (oneFile strayLine) {} {} "a.js" = true := by decide +kernel
  obtain ⟨o, r, hfile, hresult, hedits, hthere⟩ :=
    fix_edits_only (readFile_oneFile strayLine) hdone
  exact ⟨hdone, o, r, hfile, hresult, hedits, hthere (by decide +kernel)⟩

/-- A disk on which the sibling of `a.js` is a link back to it. -/
def linkedBack : Disk where
  entries := [(["a.js"], .file [0x61, 0x0A] false), (["a.js.autofix.tmp"], .link "a.js")]

/-- The text of the file is lost, though the replacement succeeds. -/
theorem fix_loses_linkedBack :
    linkedBack.readFile "a.js" = .ok [0x61, 0x0A] ∧
    replaced linkedBack {} {} "a.js" = true ∧
    (file linkedBack {} {} .fix "a.js").map (fun o => o.disk.readFile "a.js")
      = .ok (.error (.refused { fault := .tooManyLinks, path := some "a.js" })) := by
  decide +kernel

end Semicolon.Lint
