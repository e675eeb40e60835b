/-
Files mended one after another.

A lint that mends files visits one path after the other, each on the disk that the visits before it
have left.  What one visit can do is said once: it leaves the disk alone, or the path opens a file
and what the mended text needs is done at the path's site.  From then on only that is used.  A
sibling that was created but not filled is left out of this, since a text that is cut short is no
mended text.

All that visits ever bring to a disk are mended files, so a path that opens a file after them opened
the same one before, or opens a mended one.  And a path whose file was replaced opens a mended file
right at its site for good, since whoever comes to that site again mends what is mended.
-/
import Semicolon.Proofs.Preservation

namespace Semicolon.Lint

variable {d d' : Disk} {h : Hazards} {hs : Nat → Hazards} {p : Policy} {path q : String}
  {loc : Location} {data old : Bytes} {done : Bool} {paths : List String}

open Replacement (sibling siblingName)
open Disk (Opens Rewrites Replaces Keeps Plain child)

/-! ### Mended files -/

/-- The bytes are those of a file that was mended. -/
def Clean (p : Policy) (data : Bytes) : Prop :=
  ∃ bs, data = Source.bytes (Scan.mended p (Source.lines bs))

theorem clean_scanned (p : Policy) (path : String) (bs : Bytes) :
    Clean p (Source.bytes (scanned p path bs).mended) := ⟨bs, rfl⟩

theorem Clean.findings_eq (h : Clean p data) (path : String) :
    (scanned p path data).findings = [] := by
  obtain ⟨bs, rfl⟩ := h
  exact congrArg FileResult.findings (scanned_bytes_scanned p path path bs)

theorem Clean.bytes_eq (h : Clean p data) :
    Source.bytes (Scan.mended p (Source.lines data)) = data := by
  obtain ⟨bs, rfl⟩ := h
  exact congrArg (fun r => Source.bytes r.mended) (scanned_bytes_scanned p "" "" bs)

/-! ### One visit -/

/-- What a visit to a path makes of the disk; `done` says that every replacement it attempted
succeeded. -/
inductive Visit (p : Policy) (d : Disk) (path : String) : (done : Bool) → Disk → Prop where
  /-- The path opens no file. -/
  | closed (hclosed : ∀ bs, d.readFile path ≠ .ok bs) : Visit p d path true d
  /-- The sibling could not be written. -/
  | kept : Visit p d path false d
  /-- The sibling was written, but it was not moved. -/
  | rewritten {dir loc : Location} {name : String} {old : Bytes} {d' : Disk}
      (hopen : Opens d path dir name loc old)
      (hsibling : (Utf8.encodeString (sibling path)).length < Disk.maxPath ∧
        Disk.IsName (siblingName name))
      (hrew : Rewrites d d' dir name (Source.bytes (scanned p path old).mended)) :
      Visit p d path false d'
  /-- The file was replaced. -/
  | replaced {dir loc : Location} {name : String} {old : Bytes} {d' : Disk}
      (hopen : Opens d path dir name loc old)
      (hsibling : (Utf8.encodeString (sibling path)).length < Disk.maxPath ∧
        Disk.IsName (siblingName name))
      (hrep : Replaces d d' dir name (Source.bytes (scanned p path old).mended)) :
      Visit p d path true d'

theorem opens_of_isSource (hjs : Discovery.isSource path = true)
    (hread : d.readFile path = .ok data) : ∃ dir name loc, Opens d path dir name loc data := by
  obtain ⟨first, stem, hsteps⟩ := Discovery.steps_of_isSource hjs
  have hup : stem ++ Discovery.sourceSuffix ≠ ".." := by
    intro heq
    have hlast := congrArg (fun s : String => s.toList.getLast?) heq
    simp only [String.toList_append] at hlast
    rw [List.getLast?_append_of_ne_nil _ (by decide)] at hlast
    exact absurd hlast (by decide)
  obtain ⟨dir, loc, hopen⟩ := Disk.opens_of_readFile hread hsteps hup
  exact ⟨dir, _, loc, hopen⟩

theorem file_of_closed (hclosed : ∀ bs, d.readFile path ≠ .ok bs) {o : FileOutcome} {mode : Mode}
    (hfile : file d h p mode path = .ok o) : o.disk = d ∧ o.result = none := by
  have hread : ∃ e, readLines d path = .error e := by
    unfold readLines
    cases hbytes : d.readFile path with
    | error e => exact ⟨e, rfl⟩
    | ok bs => exact absurd hbytes (hclosed bs)
  obtain ⟨e, hread⟩ := hread
  cases e with
  | embeddedNul =>
      simp only [file, hread] at hfile
      cases hfile
  | refused f =>
      simp only [file, hread] at hfile
      cases hfile
      exact ⟨rfl, rfl⟩

/-- A lint that mends a file finds it closed, or comes to what the replacement of the file it opens
comes to. -/
theorem file_cases (hjs : Discovery.isSource path = true) {o : FileOutcome}
    (hfile : file d h p .fix path = .ok o) :
    ((∀ bs, d.readFile path ≠ .ok bs) ∧ o.disk = d ∧ replaced d h p path = true) ∨
      ∃ dir name loc bs a, Opens d path dir name loc bs ∧
        Replacement.apply d h path (scanned p path bs).mended = .ok a ∧ o.disk = a.disk ∧
        replaced d h p path = a.replaced := by
  by_cases hopens : ∃ bs, d.readFile path = .ok bs
  · obtain ⟨bs, hread⟩ := hopens
    obtain ⟨dir, name, loc, hopen⟩ := opens_of_isSource hjs hread
    obtain ⟨a, hrun⟩ := Replacement.exists_apply hopen.noNul d h (scanned p path bs).mended
    refine Or.inr ⟨dir, name, loc, bs, a, hopen, hrun, disk_of_fix hread hfile hrun, ?_⟩
    simp only [replaced, readLines_of_readFile hread]
    rw [show Scan.mended p (Source.lines bs) = (scanned p path bs).mended from rfl, hrun]
  · have hclosed : ∀ bs, d.readFile path ≠ .ok bs := fun bs hbs => hopens ⟨bs, hbs⟩
    refine Or.inl ⟨hclosed, (file_of_closed hclosed hfile).1, ?_⟩
    unfold replaced readLines
    cases hbytes : d.readFile path with
    | error e => rfl
    | ok bs => exact absurd hbytes (hclosed bs)

/-- **A lint that mends a file is a visit to it**, if what it writes is not cut short. -/
theorem visit_of_file (hjs : Discovery.isSource path = true) (hplain : Plain d (sibling path))
    (hwhole : replaced d h p path = true ∨ h.fillStops = none) {o : FileOutcome}
    (hfile : file d h p .fix path = .ok o) : Visit p d path (replaced d h p path) o.disk := by
  rcases file_cases hjs hfile with
    ⟨hclosed, hdisk, hdone⟩ | ⟨dir, name, loc, bs, a, hopen, hrun, hdisk, hdone⟩
  · rw [hdone, hdisk]
    exact .closed hclosed
  rw [hdone] at hwhole ⊢
  rw [hdisk]
  rcases Replacement.rewrites_of_apply hopen hplain hrun with
    ⟨hkept, hnot⟩ | ⟨hsibling, ⟨text, hrew, htext⟩, hrep⟩
  · rw [hkept, hnot]
    exact .kept
  · cases hreplaced : a.replaced with
    | true => exact .replaced hopen hsibling (hrep hreplaced)
    | false =>
        obtain rfl := htext (hwhole.resolve_left (by simp [hreplaced]))
        exact .rewritten hopen hsibling hrew

/-- A visit leaves the disk alone or works at the path's site. -/
theorem Visit.cases (hvisit : Visit p d path done d') :
    d' = d ∨ ∃ dir name loc old, Opens d path dir name loc old ∧
      ((Utf8.encodeString (sibling path)).length < Disk.maxPath ∧
        Disk.IsName (siblingName name)) ∧
      Rewrites d d' dir name (Source.bytes (scanned p path old).mended) := by
  cases hvisit with
  | closed | kept => exact Or.inl rfl
  | rewritten hopen hsibling hrew => exact Or.inr ⟨_, _, _, _, hopen, hsibling, hrew⟩
  | replaced hopen hsibling hrep => exact Or.inr ⟨_, _, _, _, hopen, hsibling, hrep.toRewrites⟩

/-- A visit brings nothing to a disk but mended files. -/
theorem Visit.keeps (hvisit : Visit p d path done d') : Keeps (Clean p) d d' := by
  rcases hvisit.cases with rfl | ⟨dir, name, loc, old, -, -, hrew⟩
  · exact .refl d'
  · refine hrew.keeps.imp ?_
    rintro data rfl
    exact clean_scanned p path old

/-! ### Files at rest -/

/-- The path opens a file with these bytes right at its site, which is `loc`. -/
def Rests (d : Disk) (path : String) (loc : Location) (data : Bytes) : Prop :=
  ∃ dir name, loc = child dir name ∧ Opens d path dir name loc data

theorem Rests.readFile_eq (hrest : Rests d path loc data) : d.readFile path = .ok data := by
  obtain ⟨dir, name, -, hopen⟩ := hrest
  exact hopen.readFile_eq

theorem Rests.denotes_eq (hrest : Rests d path loc data) : d.denotes path = some loc := by
  obtain ⟨dir, name, -, hopen⟩ := hrest
  exact hopen.denotes_eq

/-- A file that was replaced comes to rest. -/
theorem Visit.rests (hvisit : Visit p d path true d') (hread : d.readFile path = .ok old) :
    ∃ loc, Rests d' path loc (Source.bytes (scanned p path old).mended) := by
  cases hvisit with
  | closed hclosed => exact absurd hread (hclosed old)
  | @replaced dir loc name old' _ hopen _ hrep =>
      obtain rfl : old' = old := Except.ok.inj (hopen.readFile_eq.symm.trans hread)
      exact ⟨_, dir, name, rfl, hrep.opens hopen⟩

/-- The name of a source file's site is no sibling's. -/
theorem site_ne_sibling (hjs : Discovery.isSource q = true) {dir dir' : Location}
    {name name' : String} (hopen : Opens d q dir name loc data) :
    child dir name ≠ child dir' (siblingName name') := by
  obtain ⟨k, -, hsite⟩ := hopen.site
  obtain ⟨first, hsteps, -⟩ := hsite.way
  obtain ⟨first', stem, hsteps'⟩ := Discovery.steps_of_isSource hjs
  rw [hsteps] at hsteps'
  obtain ⟨-, hlast⟩ := List.append_inj' hsteps' rfl
  intro heq
  refine Disk.siblingName_ne_source name' stem ?_
  rw [← (Disk.child_inj.mp heq).2]
  exact (List.cons.inj hlast).1

/-- **A mended file at rest stays as it is**, whatever path is visited. -/
theorem Rests.visit (hrest : Rests d q loc data) (hjs : Discovery.isSource q = true)
    (hclean : Clean p data) (hvisit : Visit p d path done d') : Rests d' q loc data := by
  rcases hvisit.cases with rfl | ⟨dir', name', loc', old, hopen', -, hrew⟩
  · exact hrest
  obtain ⟨dir, name, rfl, hopen⟩ := hrest
  obtain ⟨k, hk, hsite⟩ := hopen.site
  obtain ⟨x, hfile⟩ := hopen.get?_loc
  have hfile' : ∃ x, d'.get? (child dir name) = some (.file data x) := by
    by_cases hsame : child dir name = child dir' name'
    · -- The visited path opens the same mended file, so its text is written again.
      obtain ⟨rfl, rfl⟩ := Disk.child_inj.mp hsame
      obtain rfl : old = data := by
        rcases hopen'.entry_cases with ⟨-, x', hentry⟩ | ⟨target, m, x', hentry, -⟩
        · cases hfile.symm.trans hentry
          rfl
        · cases hfile.symm.trans hentry
      have hbytes : Source.bytes (scanned p path old).mended = old := hclean.bytes_eq
      rw [hbytes] at hrew
      rcases hrew.atName with hkept | hnew
      · exact ⟨x, hkept.trans hfile⟩
      · exact hnew
    · rw [hrew.elsewhere _ hsame (site_ne_sibling hjs hopen)]
      exact ⟨x, hfile⟩
  obtain ⟨x', hfile'⟩ := hfile'
  exact ⟨dir, name, rfl, .of_site hopen.noNul hopen.notEmpty hopen.short hk
    (hrew.site hopen' hsite) hfile'⟩

/-! ### One visit after another -/

/-- The findings of a lint of the path. -/
def found (d : Disk) (p : Policy) (path : String) : List Finding :=
  match d.readFile path with
  | .error _ => []
  | .ok bs => (scanned p path bs).findings

theorem found_of_readFile (hread : d.readFile path = .ok data) :
    found d p path = (scanned p path data).findings := by
  rw [found, hread]

theorem found_of_closed (hclosed : ∀ bs, d.readFile path ≠ .ok bs) : found d p path = [] := by
  unfold found
  cases hbytes : d.readFile path with
  | error e => rfl
  | ok bs => exact absurd hbytes (hclosed bs)

/-- Visits to paths one after another: the disk at the end, the findings on the way, and whether
every replacement succeeded. -/
inductive Tour (p : Policy) : Disk → List String → (done : Bool) → List Finding → Disk → Prop where
  | nil {d : Disk} : Tour p d [] true [] d
  | cons {d d₁ d' : Disk} {path : String} {paths : List String} {done done' : Bool}
      {findings : List Finding} (hvisit : Visit p d path done d₁)
      (hrest : Tour p d₁ paths done' findings d') :
      Tour p d (path :: paths) (done && done') (found d p path ++ findings) d'

namespace Tour

variable {paths : List String} {findings : List Finding}

/-- Visits bring nothing to a disk but mended files. -/
theorem keeps (htour : Tour p d paths done findings d') : Keeps (Clean p) d d' := by
  induction htour with
  | nil => exact .refl _
  | cons hvisit _ ih => exact hvisit.keeps.trans ih

theorem rests (htour : Tour p d paths done findings d') (hrest : Rests d q loc data)
    (hjs : Discovery.isSource q = true) (hclean : Clean p data) : Rests d' q loc data := by
  induction htour with
  | nil => exact hrest
  | cons hvisit _ ih => exact ih (hrest.visit hjs hclean hvisit)

/-- **After visits that all succeeded, a visited path opens a mended file or none.** -/
theorem clean (htour : Tour p d paths done findings d') (hdone : done = true)
    (hjs : ∀ path ∈ paths, Discovery.isSource path = true) (hq : q ∈ paths)
    (hread : d'.readFile q = .ok data) : Clean p data := by
  induction htour with
  | nil => cases hq
  | @cons d d₁ d' path paths done done' findings hvisit htour ih =>
      rw [Bool.and_eq_true] at hdone
      obtain ⟨rfl, hrest⟩ := hdone
      rcases List.mem_cons.mp hq with rfl | hq
      · by_cases hopens : ∃ bs, d.readFile q = .ok bs
        · obtain ⟨bs, hbs⟩ := hopens
          have hjsq := hjs q List.mem_cons_self
          obtain ⟨loc, hrests⟩ := hvisit.rests hbs
          have hlast := htour.rests hrests hjsq (clean_scanned p q bs)
          obtain rfl : _ = data := Except.ok.inj (hlast.readFile_eq.symm.trans hread)
          exact clean_scanned p q bs
        · -- There was no file to mend, so what has come since is mended.
          rcases (hvisit.keeps.trans htour.keeps).readFile hread with hbefore | hclean
          · exact absurd ⟨data, hbefore⟩ hopens
          · exact hclean
      · exact ih hrest (fun path hpath => hjs path (List.mem_cons_of_mem _ hpath)) hq hread

end Tour

/-! ### A lint of several files as a tour -/

/-- Does every replacement succeed that a lint attempts when it mends the files? -/
def allReplaced (p : Policy) : Disk → (Nat → Hazards) → List String → Bool
  | _, _, [] => true
  | d, h, path :: rest =>
    match file d (h 0) p .fix path with
    | .error _ => false
    | .ok o => replaced d (h 0) p path && allReplaced p o.disk (fun turn => h (turn + 1)) rest

theorem exists_file_of_noNul (hnul : '\x00' ∉ path.toList) (d : Disk) (h : Hazards) (p : Policy)
    (mode : Mode) : ∃ o, file d h p mode path = .ok o := by
  cases hbytes : d.readFile path with
  | ok bs =>
      obtain ⟨o, hfile, -⟩ := exists_file hbytes h p mode
      exact ⟨o, hfile⟩
  | error e =>
      have hread : readLines d path = .error e := by
        rw [readLines, hbytes]
        rfl
      cases e with
      | refused f =>
          simp only [file, hread]
          exact ⟨_, rfl⟩
      | embeddedNul => exact absurd hbytes (Disk.onPath_ne_embeddedNul hnul)

theorem findings_of_file {o : FileOutcome} {mode : Mode} (hfile : file d h p mode path = .ok o) :
    (match o.result with
      | some r => r.findings
      | none => []) = found d p path := by
  by_cases hopens : ∃ bs, d.readFile path = .ok bs
  · obtain ⟨bs, hread⟩ := hopens
    obtain ⟨o', hfile', hresult⟩ := exists_file hread h p mode
    cases hfile.symm.trans hfile'
    rw [hresult, found_of_readFile hread]
  · have hclosed : ∀ bs, d.readFile path ≠ .ok bs := fun bs hbs => hopens ⟨bs, hbs⟩
    rw [(file_of_closed hclosed hfile).2, found_of_closed hclosed]

theorem exists_files (hnul : ∀ path ∈ paths, '\x00' ∉ path.toList) (d : Disk)
    (hs : Nat → Hazards) (p : Policy) (mode : Mode) : ∃ out, files d hs p mode paths = .ok out := by
  induction paths generalizing d hs with
  | nil => exact ⟨_, rfl⟩
  | cons path paths ih =>
      rw [List.forall_mem_cons] at hnul
      obtain ⟨o, hfile⟩ := exists_file_of_noNul hnul.1 d (hs 0) p mode
      obtain ⟨out, hrest⟩ := ih hnul.2 o.disk fun turn => hs (turn + 1)
      simp only [files, hfile, hrest]
      exact ⟨_, rfl⟩

/-- The first file of a lint and the rest of it. -/
theorem files_cons {mode : Mode} {out : Outcome}
    (hrun : files d hs p mode (path :: paths) = .ok out) :
    ∃ o out', file d (hs 0) p mode path = .ok o ∧
      files o.disk (fun turn => hs (turn + 1)) p mode paths = .ok out' ∧
      out.disk = out'.disk ∧ out.findings = found d p path ++ out'.findings := by
  rw [files] at hrun
  cases hfile : file d (hs 0) p mode path with
  | error e =>
      rw [hfile] at hrun
      cases hrun
  | ok o =>
      simp only [hfile] at hrun
      cases hrest : files o.disk (fun turn => hs (turn + 1)) p mode paths with
      | error e =>
          rw [hrest] at hrun
          cases hrun
      | ok out' =>
          rw [hrest] at hrun
          cases hrun
          have hfound := congrArg (· ++ out'.findings) (findings_of_file hfile)
          exact ⟨o, out', rfl, hrest, rfl, hfound⟩

/-- A lint that only checks leaves the disk alone, and finds what each file has on it. -/
theorem files_of_check {out : Outcome} (hrun : files d hs p .check paths = .ok out) :
    out.disk = d ∧ out.findings = paths.flatMap (found d p) := by
  induction paths generalizing hs out with
  | nil =>
      cases hrun
      exact ⟨rfl, rfl⟩
  | cons path paths ih =>
      obtain ⟨o, out', hfile, hrest, hdisk, hfound⟩ := files_cons hrun
      have hkept : o.disk = d := by
        by_cases hopens : ∃ bs, d.readFile path = .ok bs
        · obtain ⟨bs, hread⟩ := hopens
          simp only [file, readLines_of_readFile hread] at hfile
          cases hfile
          rfl
        · exact (file_of_closed (fun bs hbs => hopens ⟨bs, hbs⟩) hfile).1
      rw [hkept] at hrest
      obtain ⟨hdisk', hfound'⟩ := ih hrest
      exact ⟨hdisk.trans hdisk', by rw [hfound, hfound', List.flatMap_cons]⟩

/-- **A lint that mends files is a tour**, if they are source files whose siblings are no links, and
nothing that it writes is cut short. -/
theorem tour_of_files {out : Outcome} (hjs : ∀ path ∈ paths, Discovery.isSource path = true)
    (hplain : ∀ path ∈ paths, Plain d (sibling path))
    (hwhole : allReplaced p d hs paths = true ∨ ∀ turn, (hs turn).fillStops = none)
    (hrun : files d hs p .fix paths = .ok out) :
    Tour p d paths (allReplaced p d hs paths) out.findings out.disk := by
  induction paths generalizing d hs out with
  | nil =>
      cases hrun
      exact .nil
  | cons path paths ih =>
      rw [List.forall_mem_cons] at hjs hplain
      obtain ⟨o, out', hfile, hrest, hdisk, hfound⟩ := files_cons hrun
      simp only [allReplaced, hfile, Bool.and_eq_true] at hwhole ⊢
      have hvisit := visit_of_file hjs.1 hplain.1 (hwhole.imp And.left fun hall => hall 0) hfile
      have htour := ih hjs.2 (fun q hq => hvisit.keeps.plain (hplain.2 q hq))
        (hwhole.imp And.right fun hall turn => hall (turn + 1)) hrest
      rw [hdisk, hfound]
      exact .cons hvisit htour

end Semicolon.Lint
