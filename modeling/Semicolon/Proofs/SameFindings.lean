/-
Mending files finds what checking them finds.

A lint that checks reads every file on the same disk.  One that mends reads each file on a disk that
the visits before it have changed, so the two agree only if no visit changes what a later path
opens.  A path that opens a file goes on opening it by the same entries, until a visit touches one
of them; and a visit touches an entry on the way to a file only if the visited path, or its sibling,
denoted that very file to begin with.  A path that opened nothing can come to open a file, but only
a mended one, where there is nothing to find.

With every path visited once, that is all.  If paths come again, the second visit finds a file that
is mended, provided that the first one succeeded.

A sibling that was created but not filled is another matter.  Its text is cut short, and a link that
led nowhere may lead to it now.
-/
import Semicolon.Proofs.Visit

namespace Semicolon.Lint

variable {d₀ d d' : Disk} {p : Policy} {path q : String} {loc : Location} {data : Bytes}
  {done : Bool} {paths seen rest : List String} {findings : List Finding}

open Replacement (sibling siblingName)
open Disk (Opens Keeps Plain Within Leads base child maxLinks)

/-! ### Paths that open what they opened -/

/-- The path leads to the file at `loc` by entries that the first disk and the second both have. -/
def Survives (d₀ d : Disk) (path : String) (loc : Location) (data : Bytes) : Prop :=
  ∃ c n x, Within c d₀ ∧ Within c d ∧ n ≤ maxLinks ∧
    Leads c n (base d₀.cwd path) (Path.steps path) (.taken loc (.file data x))

theorem survives_self (hread : d₀.readFile path = .ok data) :
    ∃ loc, d₀.denotes path = some loc ∧ Survives d₀ d₀ path loc data := by
  obtain ⟨hnul, loc, x, hspot⟩ := Disk.readFile_eq_ok_iff.mp hread
  obtain ⟨-, -, n, hn, hleads⟩ := Disk.resolve_eq_ok_iff.mp hspot
  exact ⟨loc, Disk.denotes_eq_some_iff.mpr ⟨hnul, data, x, hspot⟩, d₀, n, x,
    fun _ _ hl => hl, fun _ _ hl => hl, hn, hleads⟩

theorem Survives.readFile_eq (hsurv : Survives d₀ d path loc data) (hcwd : d.cwd = d₀.cwd)
    (hread : d₀.readFile path = .ok data) : d.readFile path = .ok data := by
  obtain ⟨hnul, _, _, hspot⟩ := Disk.readFile_eq_ok_iff.mp hread
  obtain ⟨hempty, hshort, -⟩ := Disk.resolve_eq_ok_iff.mp hspot
  obtain ⟨c, n, x, -, hsub, hn, hleads⟩ := hsurv
  refine Disk.readFile_eq_ok_iff.mpr ⟨hnul, loc, x, ?_⟩
  rw [Disk.resolve_eq_ok_iff, hcwd]
  exact ⟨hempty, hshort, n, hn, hleads.within hsub⟩

/-- What a path opens in a place that has not changed it denoted before. -/
theorem denotes_of_keeps {Q : Bytes → Prop} {dir : Location} {name : String}
    (hkeeps : Keeps Q d₀ d) (hopen : Opens d q dir name loc data)
    (hsame : ∀ e, d.get? loc = some e → d₀.get? loc = some e) : d₀.denotes q = some loc := by
  obtain ⟨x, hspot⟩ := hopen.resolve_eq
  rcases hkeeps.resolve hspot with hspot' | ⟨-, hnew⟩
  · exact Disk.denotes_eq_some_iff.mpr ⟨hopen.noNul, data, x, hspot'⟩
  · obtain ⟨-, -, n, -, hleads⟩ := Disk.resolve_eq_ok_iff.mp hspot
    exact absurd (hsame _ hleads.get?_place) hnew

/-- **A visit leaves a path alone unless the visited path, or its sibling, denoted the same
file.** -/
theorem Survives.visit (hsurv : Survives d₀ d path loc data) (hkeeps : Keeps (Clean p) d₀ d)
    (hvisit : Visit p d q done d') : Survives d₀ d' path loc data ∨
      d₀.denotes q = some loc ∨ d₀.denotes (sibling q) = some loc := by
  rcases hvisit.cases with rfl | ⟨dir, name, locq, old, hopen, ⟨hshort, hname⟩, hrew⟩
  · exact Or.inl hsurv
  obtain ⟨c, n, x, hsub₀, hsub, hn, hleads⟩ := hsurv
  -- The file has not changed, since both disks have it as the part does on which the walk goes.
  have hfile : d.get? loc = some (.file data x) := hsub _ _ hleads.get?_place
  have hsame : ∀ e, d.get? loc = some e → d₀.get? loc = some e := by
    intro e he
    cases hfile.symm.trans he
    exact hsub₀ _ _ hleads.get?_place
  rcases hrew.leads_spared hopen hsub (by simp) hleads with hspared | rfl | rfl
  · exact Or.inl ⟨c.spared dir name, n, x, (Disk.within_spared c dir name).trans hsub₀,
      hrew.spared_within hsub, hn, hspared⟩
  · exact Or.inr (Or.inl (denotes_of_keeps hkeeps hopen hsame))
  · obtain ⟨k, hk, hsite⟩ := hopen.site
    have hsibling : Opens d (sibling q) dir (siblingName name) _ data :=
      .of_site (Replacement.not_mem_sibling hopen.noNul) (by simp [sibling]) hshort hk
        (hsite.sibling hopen.notEmpty hname) hfile
    exact Or.inr (Or.inr (denotes_of_keeps hkeeps hsibling hsame))

/-! ### The course of a lint -/

/-- Different paths of the list lead to different files, and no path leads to the sibling of
another. -/
structure Apart (d : Disk) (paths : List String) : Prop where
  files : ∀ a ∈ paths, ∀ b ∈ paths, d.SameFile a b → a = b
  siblings : ∀ a ∈ paths, ∀ b ∈ paths, d.SameFile a (sibling b) → a = b

/-- What holds while the paths are visited, those in `seen` having been: the disk has got nothing
but mended files, and the paths still to come open what they opened on the first disk. -/
structure Course (p : Policy) (d₀ : Disk) (paths seen : List String) (d : Disk) : Prop where
  keeps : Keeps (Clean p) d₀ d
  fresh : ∀ path ∈ paths, path ∉ seen → ∀ data, d₀.readFile path = .ok data →
    ∃ loc, d₀.denotes path = some loc ∧ Survives d₀ d path loc data

theorem Course.visit (hcourse : Course p d₀ paths seen d) (hapart : Apart d₀ paths)
    (hq : q ∈ paths) (hvisit : Visit p d q done d') : Course p d₀ paths (q :: seen) d' := by
  refine ⟨hcourse.keeps.trans hvisit.keeps, fun path hpath hnew data hread => ?_⟩
  rw [List.mem_cons, not_or] at hnew
  obtain ⟨loc, hdenotes, hsurv⟩ := hcourse.fresh path hpath hnew.2 data hread
  refine ⟨loc, hdenotes, ?_⟩
  rcases hsurv.visit hcourse.keeps hvisit with hsurv' | hself | hsibling
  · exact hsurv'
  · exact absurd (hapart.files path hpath q hq (Disk.sameFile_of_denotes hdenotes hself)) hnew.1
  · exact absurd (hapart.siblings path hpath q hq (Disk.sameFile_of_denotes hdenotes hsibling))
      hnew.1

theorem Course.readFile_eq (hcourse : Course p d₀ paths seen d) (hpath : path ∈ paths)
    (hnew : path ∉ seen) (hread : d₀.readFile path = .ok data) : d.readFile path = .ok data := by
  obtain ⟨loc, -, hsurv⟩ := hcourse.fresh path hpath hnew data hread
  exact hsurv.readFile_eq hcourse.keeps.cwd hread

/-- A path that opened nothing has nothing to find, whatever it opens by now. -/
theorem Course.found_of_closed (hcourse : Course p d₀ paths seen d)
    (hclosed : ∀ bs, d₀.readFile path ≠ .ok bs) : found d p path = [] := by
  by_cases hopens : ∃ bs, d.readFile path = .ok bs
  · obtain ⟨bs, hread⟩ := hopens
    rw [found_of_readFile hread]
    rcases hcourse.keeps.readFile hread with hbefore | hclean
    · exact absurd hbefore (hclosed bs)
    · exact hclean.findings_eq path
  · exact Lint.found_of_closed fun bs hbs => hopens ⟨bs, hbs⟩

/-- Every visited path that opened a file has it mended and at rest. -/
def Settled (p : Policy) (d₀ : Disk) (seen : List String) (d : Disk) : Prop :=
  ∀ path ∈ seen, ∀ bs, d₀.readFile path = .ok bs →
    ∃ loc, Rests d path loc (Source.bytes (scanned p path bs).mended)

theorem Settled.visit (hsettled : Settled p d₀ seen d) (hcourse : Course p d₀ paths seen d)
    (hjs : ∀ path ∈ paths, Discovery.isSource path = true) (hseen : ∀ path ∈ seen, path ∈ paths)
    (hq : q ∈ paths) (hvisit : Visit p d q true d') : Settled p d₀ (q :: seen) d' := by
  intro path hpath bs hread
  by_cases hold : path ∈ seen
  · obtain ⟨loc, hrest⟩ := hsettled path hold bs hread
    exact ⟨loc, hrest.visit (hjs path (hseen path hold)) (clean_scanned p path bs) hvisit⟩
  · obtain rfl : path = q := (List.mem_cons.mp hpath).resolve_right hold
    exact hvisit.rests (hcourse.readFile_eq hq hold hread)

/-- A check of the paths finds what each of them has on the disk. -/
theorem files_check (hnul : ∀ path ∈ paths, '\x00' ∉ path.toList) (d : Disk) (hs : Nat → Hazards)
    (p : Policy) : ∃ out, files d hs p .check paths = .ok out ∧ out.disk = d ∧
      out.findings = paths.flatMap (found d p) := by
  obtain ⟨out, hrun⟩ := exists_files hnul d hs p .check
  exact ⟨out, hrun, files_of_check hrun⟩

end Semicolon.Lint
