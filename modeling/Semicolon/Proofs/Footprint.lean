/-
What a run may change on a disk without links.

Without links the place of a path can be read off its names, so it can be said for each operation at
which path it works.  A lint that mends works at the paths that it is given and at their siblings.
A report is written to its path, and before that, directories are made where there is nothing yet on
the way to it.  Nothing else is touched, however the run ends, and a run that shows help or refuses
to follow its command line touches nothing and does not even ask version control.
-/
import Semicolon.Main
import Semicolon.Proofs.Account

namespace Semicolon

/-! ### Places by name -/

namespace Disk

variable {d d' : Disk} {path name : String} {n : Nat} {here dir : Location} {todo : List String}
  {spot : Spot}

open CommandLine (place)

/-- There is no link on the disk. -/
def NoLinks (d : Disk) : Prop := ∀ l target, d.get? l ≠ some (.link target)

theorem noLinks_of_linkCount (h : Discovery.linkCount d = 0) : NoLinks d := by
  intro l target hentry
  unfold get? at hentry
  split at hentry
  · cases hentry
  · obtain ⟨before, after, hentries, -⟩ := List.lookup_eq_some_iff.mp hentry
    have hnone := List.countP_eq_zero.mp h (l, .link target) (by simp [hentries])
    exact hnone rfl

/-- The place that names lead to from a place. -/
def along (here : Location) (names : List String) : Location :=
  names.foldl
    (fun here name =>
      if name = "" || name = "." then here
      else if name = ".." then here.dropLast
      else child here name)
    here

theorem place_eq_along (cwd : Location) (path : String) :
    place cwd path = along (base cwd path) (Path.steps path) := rfl

theorem along_append (here : Location) (names names' : List String) :
    along here (names ++ names') = along (along here names) names' := List.foldl_append

theorem along_name (here : Location) (hname : IsName name) :
    along here [name] = child here name := by
  simp [along, hname.notEmpty, hname.notHere, hname.notUp]

theorem along_empty (here : Location) {names : List String} (hnames : ∀ name ∈ names, name = "") :
    along here names = here := by
  induction names with
  | nil => rfl
  | cons name names ih =>
      rw [List.forall_mem_cons] at hnames
      rw [← List.singleton_append, along_append, hnames.1]
      exact ih hnames.2

/-- **Without links, a walk ends where its names lead.** -/
theorem Leads.place_eq (h : Leads d n here todo spot) (hlinks : NoLinks d) :
    spot.place = along here todo := by
  induction h with
  | stop => rfl
  | @free here name rest _ hname _ hrest =>
      rw [← List.singleton_append, along_append, along_name here hname, along_empty _ hrest]
      rfl
  | @step k n here there name more rest spot _ hnext _ ih =>
      rw [ih, ← List.singleton_append (x := name), along_append, along_append]
      congr 1
      cases hnext with
      | stay hname => rcases hname with rfl | rfl <;> rfl
      | up => rfl
      | down hname => exact (along_name here hname).symm
      | link _ hentry => exact absurd hentry (hlinks _ _)

theorem place_of_steps {first rest : List String} (hlinks : NoLinks d)
    (hsteps : Path.steps path = first ++ name :: rest) (hname : IsName name)
    (hrest : ∀ r ∈ rest, r = "")
    (hfirst : Leads d n (base d.cwd path) first (.taken dir .directory)) :
    place d.cwd path = child dir name := by
  rw [place_eq_along, hsteps, ← List.singleton_append, along_append, along_append,
    ← hfirst.place_eq hlinks, along_empty _ hrest]
  exact along_name dir hname

theorem Site.place_eq {k : Nat} (h : Site d path k dir name) (hlinks : NoLinks d) :
    place d.cwd path = child dir name := by
  obtain ⟨first, hsteps, hfirst⟩ := h.way
  exact place_of_steps hlinks hsteps h.isName (by simp) hfirst

theorem Keeps.noLinks {Q : Bytes → Prop} (h : Keeps Q d d') (hlinks : NoLinks d) : NoLinks d' := by
  intro l target hentry
  exact hlinks l target (h.get?_of_ne_file (by simp) hentry)

end Disk

/-! ### Files that are mended -/

namespace Lint

variable {d : Disk} {h : Hazards} {hs : Nat → Hazards} {p : Policy} {path : String}
  {paths : List String}

open CommandLine (place)
open Replacement (sibling)

/-- The disks differ at most at these paths and at their siblings, and there is no link on the
second one either. -/
structure WorksAt (paths : List String) (d d' : Disk) : Prop where
  noLinks : d'.NoLinks
  cwd : d'.cwd = d.cwd
  places : ∀ l, d'.get? l ≠ d.get? l →
    ∃ path ∈ paths, l = place d.cwd path ∨ l = place d.cwd (sibling path)

theorem WorksAt.refl (hlinks : d.NoLinks) : WorksAt paths d d :=
  ⟨hlinks, rfl, fun _ hl => absurd rfl hl⟩

theorem WorksAt.cons {d₁ d' : Disk} (h : WorksAt [path] d d₁) (h' : WorksAt paths d₁ d') :
    WorksAt (path :: paths) d d' := by
  refine ⟨h'.noLinks, h'.cwd.trans h.cwd, fun l hl => ?_⟩
  by_cases hrest : d'.get? l = d₁.get? l
  · rw [hrest] at hl
    obtain ⟨q, hq, hplace⟩ := h.places l hl
    exact ⟨q, List.mem_cons.mpr (Or.inl (List.mem_singleton.mp hq)), hplace⟩
  · obtain ⟨q, hq, hplace⟩ := h'.places l hrest
    rw [h.cwd] at hplace
    exact ⟨q, List.mem_cons_of_mem _ hq, hplace⟩

theorem plain_of_noLinks (hlinks : d.NoLinks) (path : String) : d.Plain path := by
  intro _ _ _ dir name _ target
  exact hlinks _ target

/-- A lint that mends a file works at its path and at its sibling, however much of the sibling it
comes to write. -/
theorem file_footprint {o : FileOutcome} (hlinks : d.NoLinks)
    (hjs : Discovery.isSource path = true) (hfile : file d h p .fix path = .ok o) :
    WorksAt [path] d o.disk := by
  rcases file_cases hjs hfile with ⟨-, hdisk, -⟩ | ⟨dir, name, loc, bs, a, hopen, hrun, hdisk, -⟩
  · rw [hdisk]
    exact .refl hlinks
  rw [hdisk]
  rcases Replacement.rewrites_of_apply hopen (plain_of_noLinks hlinks _) hrun with
    ⟨hkept, -⟩ | ⟨⟨-, hname⟩, ⟨text, hrew, -⟩, -⟩
  · rw [hkept]
    exact .refl hlinks
  obtain ⟨k, -, hsite⟩ := hopen.site
  refine ⟨hrew.keeps.noLinks hlinks, hrew.keeps.cwd, fun l hl => ⟨path, by simp, ?_⟩⟩
  rw [hsite.place_eq hlinks, (hsite.sibling hopen.notEmpty hname).place_eq hlinks]
  by_contra hother
  rw [not_or] at hother
  exact hl (hrew.elsewhere l hother.1 hother.2)

/-- **A lint that mends source files works at them and at their siblings**, whatever hazards each
of them meets. -/
theorem files_footprint {out : Outcome} (hlinks : d.NoLinks)
    (hjs : ∀ path ∈ paths, Discovery.isSource path = true)
    (hrun : files d hs p .fix paths = .ok out) : WorksAt paths d out.disk := by
  induction paths generalizing d hs out with
  | nil =>
      cases hrun
      exact .refl hlinks
  | cons path paths ih =>
      rw [List.forall_mem_cons] at hjs
      obtain ⟨o, out', hfile, hrest, hdisk, -⟩ := files_cons hrun
      have hfirst := file_footprint hlinks hjs.1 hfile
      rw [hdisk]
      exact hfirst.cons (ih hfirst.noLinks hjs.2 hrest)

end Lint

/-! ### Paths above a path -/

namespace Path

variable {path head q : String}

/-- Something other than a slash is in the path. -/
def IsNamed (path : String) : Prop := ∃ c ∈ path.toList, c ≠ '/'

theorem IsNamed.ne_empty (h : IsNamed path) : path ≠ "" := by
  rintro rfl
  obtain ⟨c, hc, -⟩ := h
  cases hc

/-- The path goes on with a slash where `above` ends. -/
def Extends (path above : String) : Prop := ∃ rest, path = above ++ "/" ++ rest

theorem Extends.trans (h : Extends path head) (h' : Extends head q) : Extends path q := by
  obtain ⟨rest, rfl⟩ := h
  obtain ⟨rest', rfl⟩ := h'
  exact ⟨rest' ++ "/" ++ rest, by simp only [String.append_assoc]⟩

theorem Extends.isNamed (h : Extends path head) (hnamed : IsNamed head) : IsNamed path := by
  obtain ⟨rest, rfl⟩ := h
  obtain ⟨c, hc, hne⟩ := hnamed
  exact ⟨c, by simp [hc], hne⟩

theorem parts_slash (cs : List Char) : parts ('/' :: cs) = [] :: parts cs := by
  obtain ⟨first, last, hparts, -⟩ := parts_append cs
  rw [parts, hparts]
  cases first <;> rfl

theorem parts_of_slashes {cs : List Char} (hcs : ∀ c ∈ cs, c = '/') : ∀ p ∈ parts cs, p = [] := by
  induction cs with
  | nil => simp [parts]
  | cons c cs ih =>
      rw [List.forall_mem_cons] at hcs
      rw [hcs.1, parts_slash, List.forall_mem_cons]
      exact ⟨rfl, ih hcs.2⟩

/-- A path with a step that is not empty has something in it besides slashes. -/
theorem isNamed_of_mem_steps {name : String} (h : name ∈ steps path) (hname : name ≠ "") :
    IsNamed path := by
  by_contra hslashes
  obtain ⟨p, hp, rfl⟩ := List.mem_map.mp h
  have hall : ∀ c ∈ path.toList, c = '/' := by
    intro c hc
    by_contra hne
    exact hslashes ⟨c, hc, hne⟩
  exact hname (by rw [parts_of_slashes hall p hp])

/-- A text that ends in a slash goes on with one where its last slashes are dropped. -/
theorem rdropWhile_slash {cs : List Char} (hcs : cs ≠ []) (hlast : cs.getLast hcs = '/') :
    ∃ rest, cs = cs.rdropWhile (· = '/') ++ '/' :: rest := by
  have hslashes : cs.rtakeWhile (· = '/') ≠ [] := by
    intro hnil
    exact List.rtakeWhile_eq_nil_iff.mp hnil hcs (by simpa using hlast)
  obtain ⟨c, rest, hcons⟩ := List.exists_cons_of_ne_nil hslashes
  obtain rfl : c = '/' := by
    have hmem : c ∈ cs.rtakeWhile (· = '/') := by simp [hcons]
    simpa using List.mem_rtakeWhile_imp hmem
  refine ⟨rest, ?_⟩
  rw [← hcons, List.rdropWhile_append_rtakeWhile]

/-- Where a text is cut at its last slash, and the slashes before that one are dropped too, it goes
on with a slash, unless only slashes are left. -/
theorem bare_cutLast (cs : List Char) :
    (∀ c ∈ bare (cutLast cs).1, c = '/') ∨ ∃ rest, cs = bare (cutLast cs).1 ++ '/' :: rest := by
  have hcut : (cutLast cs).1 = cs.rdropWhile (· ≠ '/') := rfl
  rw [hcut, bare]
  split
  · rename_i hall
    exact .inl (by simpa using hall)
  · rename_i hsome
    have hhead : cs.rdropWhile (· ≠ '/') ≠ [] := by
      intro hnil
      rw [hnil] at hsome
      exact hsome rfl
    have hlast : (cs.rdropWhile (· ≠ '/')).getLast hhead = '/' := by
      have hslash := List.rdropWhile_last_not _ cs hhead
      rwa [decide_eq_true_eq, not_not] at hslash
    obtain ⟨rest, hrest⟩ := rdropWhile_slash hhead hlast
    refine .inr ⟨rest ++ cs.rtakeWhile (· ≠ '/'), ?_⟩
    have hparts : cs.rdropWhile (· ≠ '/') ++ cs.rtakeWhile (· ≠ '/') = cs :=
      List.rdropWhile_append_rtakeWhile
    rw [hrest, List.append_assoc, List.cons_append] at hparts
    exact hparts.symm

/-- A path extends its directory part, if that part is more than slashes. -/
theorem extends_split (hnamed : IsNamed (split path).1) : Extends path (split path).1 := by
  have hsplit : (split path).1 = String.ofList (bare (cutLast path.toList).1) := rfl
  rw [hsplit] at hnamed ⊢
  rcases bare_cutLast path.toList with hslashes | ⟨rest, hrest⟩
  · obtain ⟨c, hc, hne⟩ := hnamed
    rw [String.toList_ofList] at hc
    exact absurd (hslashes c hc) hne
  · refine ⟨String.ofList rest, ?_⟩
    rw [← String.toList_inj]
    simpa using hrest

end Path

/-! ### Directories that are made -/

namespace Disk

variable {d d' : Disk} {path head : String} {Q Q' : String → Prop}

open CommandLine (place)

/-- The disks differ at most in new directories, at places of paths that `Q` allows. -/
structure Paves (Q : String → Prop) (d d' : Disk) : Prop where
  cwd : d'.cwd = d.cwd
  places : ∀ l, d'.get? l = d.get? l ∨
    d.get? l = none ∧ d'.get? l = some .directory ∧ ∃ q, Q q ∧ l = place d.cwd q

namespace Paves

theorem refl (d : Disk) : Paves Q d d := ⟨rfl, fun _ => .inl rfl⟩

theorem trans {d'' : Disk} (h : Paves Q d d') (h' : Paves Q d' d'') : Paves Q d d'' := by
  refine ⟨h'.cwd.trans h.cwd, fun l => ?_⟩
  rcases h'.places l with hsame | ⟨hfree, hnew, hq⟩
  · rw [hsame]
    exact h.places l
  · rcases h.places l with hsame | ⟨-, hnew', -⟩
    · rw [h.cwd] at hq
      exact .inr ⟨hsame.symm.trans hfree, hnew, hq⟩
    · cases hfree.symm.trans hnew'

theorem imp (h : Paves Q d d') (himp : ∀ q, Q q → Q' q) : Paves Q' d d' := by
  refine ⟨h.cwd, fun l => (h.places l).imp id ?_⟩
  rintro ⟨hfree, hnew, q, hq, hplace⟩
  exact ⟨hfree, hnew, q, himp q hq, hplace⟩

theorem noLinks (h : Paves Q d d') (hlinks : NoLinks d) : NoLinks d' := by
  intro l target hentry
  rcases h.places l with hsame | ⟨-, hnew, -⟩
  · exact hlinks l target (hsame.symm.trans hentry)
  · cases hnew.symm.trans hentry

end Paves

/-- The disk that is left by what may fail on the way. -/
def left : Except (DiskError × Disk) Disk → Disk
  | .ok d => d
  | .error (_, d) => d

/-- The path itself or one that it extends, and not just slashes. -/
def OnWay (path q : String) : Prop := Path.IsNamed q ∧ (q = path ∨ Path.Extends path q)

theorem OnWay.above {q : String} (hway : OnWay head q)
    (hhead : Path.IsNamed head → Path.Extends path head) : Path.Extends path q := by
  obtain ⟨hnamed, rfl | hextends⟩ := hway
  · exact hhead hnamed
  · exact (hhead (hextends.isNamed hnamed)).trans hextends

/-- One directory is made at the place of its path. -/
theorem paves_makeDirectory (hlinks : NoLinks d) (h : d.makeDirectory path = .ok d') :
    Paves (OnWay path) d d' := by
  rw [makeDirectory, onPath_eq_ok_iff] at h
  obtain ⟨-, h⟩ := h
  split at h
  · cases h
  rename_i dir name slashed hparent
  split at h
  · cases h
  rename_i hfree
  cases h
  simp only [Bool.or_eq_true, decide_eq_true_eq, not_or, Option.not_isSome_iff_eq_none] at hfree
  obtain ⟨hname, -, -, first, rest, hsteps, hrest, -, n, -, hleads⟩ :=
    (resolveParent_eq_ok_iff hfree.1).mp hparent
  have hplace := place_of_steps hlinks hsteps hname hrest hleads
  refine ⟨rfl, fun l => ?_⟩
  by_cases hl : l = child dir name
  · subst hl
    refine .inr ⟨hfree.2, get?_put_self d _ (child_ne_nil _ _), path, ⟨?_, .inl rfl⟩, hplace.symm⟩
    exact Path.isNamed_of_mem_steps (by simp [hsteps]) hname.notEmpty
  · exact .inl (get?_put_of_ne d _ hl)

/-- So it is if a directory that is there already is no failure. -/
theorem paves_finish (hlinks : NoLinks d) (path : String) :
    Paves (OnWay path) d (left (match d.makeDirectory path with
      | .ok d => .ok d
      | .error e => if d.isDirectory path then .ok d else .error (e, d))) := by
  cases hmake : d.makeDirectory path with
  | ok d' => exact paves_makeDirectory hlinks hmake
  | error e =>
      simp only
      split <;> exact .refl d

/-- The path whose directories are made first, slashes at the end left out. -/
def upper (path : String) : String :=
  (if (Path.split path).2.isEmpty then Path.split (Path.split path).1 else Path.split path).1

theorem extends_upper (hnamed : Path.IsNamed (upper path)) :
    Path.Extends path (upper path) := by
  unfold upper at hnamed ⊢
  split
  · rename_i hempty
    rw [if_pos hempty] at hnamed
    have hupper := Path.extends_split hnamed
    exact (Path.extends_split (hupper.isNamed hnamed)).trans hupper
  · rename_i hsome
    rw [if_neg hsome] at hnamed
    exact Path.extends_split hnamed

/-- **Making a directory and the ones above it makes directories on the way to it, where there is
nothing yet, and does nothing else**, whether it succeeds or fails. -/
theorem paves_makeDirectoriesWith (hlinks : NoLinks d) (fuel : Nat) (path : String) :
    Paves (OnWay path) d (left (d.makeDirectoriesWith fuel path)) := by
  induction fuel generalizing d path with
  | zero => exact .refl d
  | succ fuel ih =>
      have hupper : Path.IsNamed (upper path) → Path.Extends path (upper path) := extends_upper
      unfold upper at hupper
      rw [makeDirectoriesWith]
      rcases hsplit : Path.split path with ⟨head₀, tail₀⟩
      rw [hsplit] at hupper
      simp only at hupper ⊢
      rcases hpair : (if tail₀.isEmpty then Path.split head₀ else (head₀, tail₀)) with ⟨head, tail⟩
      rw [hpair] at hupper
      simp only at hupper ⊢
      split
      · have habove : Paves (OnWay path) d (left (d.makeDirectoriesWith fuel head)) :=
          (ih hlinks head).imp fun q hq => ⟨hq.1, .inr (hq.above hupper)⟩
        have hboth := habove.trans (paves_finish (habove.noLinks hlinks) path)
        rcases hmake : d.makeDirectoriesWith fuel head with ⟨e, d₁⟩ | d₁
        · rw [hmake] at habove hboth
          cases e with
          | embeddedNul => exact habove
          | refused f =>
              simp only
              split
              · split
                · exact habove
                · exact hboth
              · exact habove
        · rw [hmake] at habove hboth
          simp only
          split
          · exact habove
          · exact hboth
      · exact paves_finish hlinks path

end Disk

/-! ### The report -/

namespace Report

variable {d : Disk} {mode : Lint.Mode} {findings : List Finding} {path : String} {l : Location}

open CommandLine (place)

theorem paves_parent (hlinks : d.NoLinks) (path : String) :
    Disk.Paves (fun q => q ≠ "" ∧ Path.Extends path q) d (Disk.left
      (if (Path.parent path).isEmpty then .ok d else d.makeDirectories (Path.parent path))) := by
  split
  · exact .refl d
  · refine (Disk.paves_makeDirectoriesWith hlinks _ _).imp fun q hq => ?_
    exact ⟨hq.1.ne_empty, hq.above Path.extends_split⟩

/-- **A report is written to its path, and directories are made on the way to it.** -/
theorem write_footprint (hlinks : d.NoLinks)
    (hl : (Disk.left (write d mode findings path)).get? l ≠ d.get? l) :
    l = place d.cwd path ∨
      d.get? l = none ∧ (Disk.left (write d mode findings path)).get? l = some .directory ∧
        ∃ above, (above ≠ "" ∧ Path.Extends path above) ∧ l = place d.cwd above := by
  have hpaves := paves_parent hlinks path
  simp only [write] at hl ⊢
  rcases hmake :
      (if (Path.parent path).isEmpty then .ok d else d.makeDirectories (Path.parent path))
    with ⟨e, d₁⟩ | d₁
  · simp only [hmake] at hl hpaves ⊢
    exact .inr ((hpaves.places l).resolve_left hl)
  · simp only [hmake] at hl hpaves ⊢
    cases hwrite : d₁.writeFile path ((yaml mode findings).flatMap Utf8.encodeChar) with
    | error e =>
        simp only [hwrite] at hl ⊢
        exact .inr ((hpaves.places l).resolve_left hl)
    | ok d₂ =>
        simp only [hwrite] at hl ⊢
        obtain ⟨spot, x, -, hspot, -, -, rfl⟩ := Disk.put_of_writeFile hwrite
        obtain ⟨-, -, n, -, hleads⟩ := Disk.resolve_eq_ok_iff.mp hspot
        have hplace : spot.place = place d.cwd path := by
          have hcwd : d₁.cwd = d.cwd := hpaves.cwd
          rw [hleads.place_eq (hpaves.noLinks hlinks), ← Disk.place_eq_along, hcwd]
        by_cases hat : l = spot.place
        · exact .inl (hat.trans hplace)
        · rw [Disk.left, Disk.get?_put_of_ne d₁ _ hat] at hl ⊢
          exact .inr ((hpaves.places l).resolve_left hl)

end Report

/-! ### The whole run -/

namespace Run

variable {w : World} {args : List String} {o : Options} {p : Policy} {out : Lint.Outcome}
  {root : String} {files : List String} {l : Location}

open CommandLine (place)
open Replacement (sibling)

/-- What a run may change: the file that it reports to, directories on the way to that file which
were not there, and, if the last mode word asks for it, the files that it lints and their
siblings. -/
inductive MayChange (w : World) (o : Options) (after : Disk) (l : Location) : Prop where
  | report {path : String} (hreport : o.report = some path) (hpath : path ≠ "")
      (hplace : l = place w.disk.cwd path)
  | newDirectory {path above rest : String} (hreport : o.report = some path) (habove : above ≠ "")
      (hway : path = above ++ "/" ++ rest) (hplace : l = place w.disk.cwd above)
      (hfree : w.disk.get? l = none) (hnew : after.get? l = some .directory)
  | mended {path : String} (hmode : Options.lastMode o.words = .fix) (hpath : path ∈ linted w o)
      (hplace : l = place w.disk.cwd path)
  | sibling {path : String} (hmode : Options.lastMode o.words = .fix) (hpath : path ∈ linted w o)
      (hplace : l = place w.disk.cwd (sibling path))

/-- The disk of a run that has linted files is that of the lint, or what the report makes of it. -/
theorem disk_conclude (o : Options) (mode : Lint.Mode) (queries : List (List String))
    (notices : List Notice) (out : Lint.Outcome) :
    (conclude o mode queries notices out).disk = out.disk ∨
      ∃ path, o.report = some path ∧ path ≠ "" ∧
        (conclude o mode queries notices out).disk =
          Disk.left (Report.write out.disk mode out.findings path) := by
  cases hreport : o.report.filter (fun path => !path.isEmpty) with
  | none =>
      simp only [conclude, hreport]
      exact .inl trivial
  | some path =>
      obtain ⟨hpath, hsome⟩ := Option.filter_eq_some_iff.mp hreport
      refine .inr ⟨path, hpath, by simpa using hsome, ?_⟩
      rcases hwrite : Report.write out.disk mode out.findings path with ⟨e, d⟩ | d
      · simp only [conclude, hreport, hwrite]
        rfl
      · simp only [conclude, hreport, hwrite]
        rfl

/-- A lint changes only what a run may change, and leaves a disk without links at the same working
directory. -/
theorem Stages.footprint (h : Stages w o (Options.modeAndFiles o.words).1 p root files out)
    (hlinks : w.disk.NoLinks) (after : Disk) : out.disk.NoLinks ∧ out.disk.cwd = w.disk.cwd ∧
      ∀ l, out.disk.get? l ≠ w.disk.get? l → MayChange w o after l := by
  have hmode : (Options.modeAndFiles o.words).1 = Options.lastMode o.words := by
    rw [Options.modeAndFiles_eq]
  have hgives := h.lintGives
  cases hlast : Options.lastMode o.words with
  | check =>
      rw [hmode, hlast] at hgives
      rw [(Lint.files_of_check hgives).1]
      exact ⟨hlinks, rfl, fun l hl => absurd rfl hl⟩
  | fix =>
      rw [hmode, hlast] at hgives
      have hworks := Lint.files_footprint hlinks (fun _ => Discovery.isSource_of_mem_keep) hgives
      refine ⟨hworks.noLinks, hworks.cwd, fun l hl => ?_⟩
      obtain ⟨path, hpath, hplace | hplace⟩ := hworks.places l hl
      · rw [← h.linted_eq] at hpath
        exact .mended hlast hpath hplace
      · rw [← h.linted_eq] at hpath
        exact .sibling hlast hpath hplace

theorem footprint_withOptions (hlinks : w.disk.NoLinks)
    (hl : (withOptions w o).disk.get? l ≠ w.disk.get? l) :
    MayChange w o (withOptions w o).disk l := by
  rcases stages_or_stopped w o with ⟨p, root, files, out, hstages⟩ | hstopped
  · obtain ⟨hlinks', hcwd, hlint⟩ := hstages.footprint hlinks (withOptions w o).disk
    by_cases hchanged : out.disk.get? l ≠ w.disk.get? l
    · exact hlint l hchanged
    rw [not_not] at hchanged
    obtain ⟨log, queries, hrun⟩ := withOptions_of_stages hstages
    by_cases hnone : linted w o = []
    · rw [hrun, if_pos hnone] at hl
      exact absurd rfl hl
    rw [if_neg hnone] at hrun
    rw [hrun] at hl ⊢
    rcases disk_conclude o _ queries (ofLog log) out with hdisk | ⟨path, hreport, hpath, hdisk⟩
    · rw [hdisk] at hl
      exact absurd hchanged hl
    · rw [hdisk, ← hchanged] at hl
      rw [hdisk]
      rcases Report.write_footprint hlinks' hl with
        hplace | ⟨hfree, hnew, above, ⟨habove, rest, hway⟩, hplace⟩
      · rw [hcwd] at hplace
        exact .report hreport hpath hplace
      · rw [hcwd] at hplace
        rw [hchanged] at hfree
        exact .newDirectory hreport habove hway hplace hfree hnew
  · rw [hstopped.disk] at hl
    exact absurd rfl hl

/-- A run that shows help, or refuses to follow its command line, touches nothing and asks
nothing. -/
theorem untouched_of_refused
    (hending : (run w args).ending = .help ∨ ∃ e, (run w args).ending = .usage e) :
    (run w args).disk = w.disk ∧ (run w args).queries = [] := by
  cases hparse : Options.parse args with
  | error e =>
      simp [run, hparse]
  | ok o =>
      rw [run_of_parse hparse] at hending ⊢
      have hescape : ∀ e, (withOptions w o).ending ≠ .escaped e := by
        intro e he
        simp [he] at hending
      rcases stages_or_stopped w o with ⟨p, root, files, out, hstages⟩ | hstopped
      · -- A run that goes through all stages has another ending.
        rcases hstages.accounts hescape with ⟨-, hidle, -⟩ | ⟨-, haccounts⟩
        · simp [hidle] at hending
        · simp [haccounts.ending] at hending
      · exact ⟨hstopped.disk, hstopped.silent hescape⟩

/-- **What a run changes.**  On a disk without links, wherever the disk is not as it was, the run
wrote the report that was asked for, made a directory on the way to it, or, if the last mode word
asks for it, worked at a file that it linted or at its sibling.  If it shows help or refuses to
follow the command line, nothing is changed and version control is asked nothing. -/
theorem run_footprint (hlinks : w.disk.NoLinks) (args : List String) :
    (∀ l, (run w args).disk.get? l ≠ w.disk.get? l →
      ∃ o, Options.parse args = .ok o ∧ MayChange w o (run w args).disk l) ∧
    ((run w args).ending = .help ∨ (∃ e, (run w args).ending = .usage e) →
      (run w args).disk = w.disk ∧ (run w args).queries = []) := by
  refine ⟨fun l hl => ?_, untouched_of_refused⟩
  cases hparse : Options.parse args with
  | error e =>
      simp only [run, hparse] at hl
      exact absurd rfl hl
  | ok o =>
      rw [run_of_parse hparse] at hl ⊢
      exact ⟨o, rfl, footprint_withOptions hlinks hl⟩

/-- A file that lacks a semicolon, in a directory. -/
def plainWorld : World where
  disk := { entries := [(["s"], .directory), (["s", "a.js"], .file [0x61, 0x0A] false)] }

theorem run_footprint_plain :
    (run plainWorld ["fix", "s/a.js", "--report", "out/r.yaml"]).disk.get? ["s", "a.js"] =
        some (.file [0x61, 0x3B, 0x0A] false) ∧
      (run plainWorld ["fix", "s/a.js", "--report", "out/r.yaml"]).disk.get? ["out"] =
        some .directory ∧
      ∀ l, (run plainWorld ["fix", "s/a.js", "--report", "out/r.yaml"]).disk.get? l ≠
          plainWorld.disk.get? l →
        ∃ o, Options.parse ["fix", "s/a.js", "--report", "out/r.yaml"] = .ok o ∧
          MayChange plainWorld o
            (run plainWorld ["fix", "s/a.js", "--report", "out/r.yaml"]).disk l := by
  have hlinks : plainWorld.disk.NoLinks := Disk.noLinks_of_linkCount (by decide)
  exact ⟨by decide +kernel, by decide +kernel, (run_footprint hlinks _).1⟩

end Run

end Semicolon
