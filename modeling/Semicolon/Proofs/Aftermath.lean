/-
What files that were all mended leave to choose from.

After visits that all succeeded, the disk has no more entries than before.  Every entry that is new
is the mended file of a visited path, and a path that was visited first of all still opens its file.
So whichever way files are chosen afterwards, one that is chosen opens a mended file: it was among
the files that were visited, or it opened no file before and opens a mended one now.
-/
import Semicolon.Proofs.SameFindings
import Semicolon.Proofs.Selection

namespace Semicolon.Lint

variable {d₀ d d' : Disk} {p : Policy} {path q : String} {loc : Location} {data : Bytes}
  {done : Bool} {paths : List String} {findings : List Finding}

open Replacement (sibling siblingName)
open Disk (Opens Keeps NoMore child)
open Discovery (isSource isSourceFile chosen keep)

/-! ### The disk after visits that succeeded -/

theorem Visit.noMore (hvisit : Visit p d path true d') : NoMore d d' := by
  cases hvisit with
  | closed => exact .refl d
  | @replaced dir loc name old _ hopen _ hrep =>
      refine ⟨hrep.noMore, fun l hl => ?_⟩
      by_cases hname : l = child dir name
      · rw [hname]
        rcases hopen.entry_cases with ⟨-, x, hfile⟩ | ⟨target, m, x, hlink, -⟩
        · rw [hfile]
          rfl
        · rw [hlink]
          rfl
      by_cases hsibling : l = child dir (siblingName name)
      · rw [hsibling, hrep.cleared] at hl
        cases hl
      · rwa [hrep.elsewhere l hname hsibling] at hl

theorem Tour.noMore (htour : Tour p d paths done findings d') (hdone : done = true) :
    NoMore d d' := by
  induction htour with
  | nil => exact .refl _
  | cons hvisit _ ih =>
      rw [Bool.and_eq_true] at hdone
      obtain ⟨rfl, hrest⟩ := hdone
      exact hvisit.noMore.trans (ih hrest)

/-- **What is new on the disk is the mended file of a visited path.** -/
theorem Tour.owned {l : Location} {e : Entry} (htour : Tour p d paths done findings d')
    (hdone : done = true) (hjs : ∀ path ∈ paths, isSource path = true)
    (hentry : d'.get? l = some e) :
    d.get? l = some e ∨ ∃ q ∈ paths, ∃ data, Clean p data ∧ Rests d' q l data := by
  induction htour with
  | nil => exact Or.inl hentry
  | @cons d d₁ d' path paths done done' findings hvisit htour ih =>
      rw [Bool.and_eq_true] at hdone
      obtain ⟨rfl, hrest⟩ := hdone
      obtain ⟨hpath, hjs⟩ := List.forall_mem_cons.mp hjs
      rcases ih hrest hjs hentry with hmid | ⟨q, hq, hrests⟩
      · cases hvisit with
        | closed => exact Or.inl hmid
        | @replaced dir loc name old _ hopen _ hrep =>
            by_cases hname : l = child dir name
            · have hclean := clean_scanned p path old
              have hrests : Rests d₁ path l _ := ⟨dir, name, hname, hname ▸ hrep.opens hopen⟩
              exact Or.inr ⟨path, List.mem_cons_self, _, hclean, htour.rests hrests hpath hclean⟩
            by_cases hsibling : l = child dir (siblingName name)
            · rw [hsibling, hrep.cleared] at hmid
              cases hmid
            · exact Or.inl (by rw [← hrep.elsewhere l hname hsibling, hmid])
      · exact Or.inr ⟨q, List.mem_cons_of_mem _ hq, hrests⟩

/-- The path that was visited first opens a file in the end, if it did so then. -/
theorem Tour.isFile_head (htour : Tour p d (path :: paths) done findings d') (hdone : done = true)
    (hjs : isSource path = true) (hfile : d.isFile path = true) : d'.isFile path = true := by
  obtain ⟨bs, hread⟩ := Disk.isFile_iff.mp hfile
  cases htour with
  | cons hvisit htour =>
      rw [Bool.and_eq_true] at hdone
      obtain ⟨rfl, -⟩ := hdone
      obtain ⟨loc, hrests⟩ := hvisit.rests hread
      exact Disk.isFile_iff.mpr
        ⟨_, (htour.rests hrests hjs (clean_scanned p path bs)).readFile_eq⟩

/-! ### A path that is not visited -/

theorem Survives.tour (hsurv : Survives d₀ d path loc data) (hkeeps : Keeps (Clean p) d₀ d)
    (htour : Tour p d paths done findings d')
    (happart : ∀ q ∈ paths, d₀.denotes q ≠ some loc ∧ d₀.denotes (sibling q) ≠ some loc) :
    Survives d₀ d' path loc data := by
  induction htour with
  | nil => exact hsurv
  | cons hvisit _ ih =>
      obtain ⟨hhead, happart⟩ := List.forall_mem_cons.mp happart
      rcases hsurv.visit hkeeps hvisit with hsurv' | hself | hsibling
      · exact ih hsurv' (hkeeps.trans hvisit.keeps) happart
      · exact absurd hself hhead.1
      · exact absurd hsibling hhead.2

/-- A path that leads to no visited file in the end opens what it opened. -/
theorem Tour.readFile_before (htour : Tour p d paths done findings d') (hdone : done = true)
    (hjs : ∀ path ∈ paths, isSource path = true)
    (hafter : ∀ q ∈ paths, ¬d'.SameFile path q) (hread : d'.readFile path = .ok data) :
    d.readFile path = .ok data := by
  obtain ⟨hnul, loc, x, hspot⟩ := Disk.readFile_eq_ok_iff.mp hread
  rcases htour.keeps.resolve hspot with hspot' | ⟨-, hnew⟩
  · exact Disk.readFile_eq_ok_iff.mpr ⟨hnul, loc, x, hspot'⟩
  · obtain ⟨-, -, n, -, hleads⟩ := Disk.resolve_eq_ok_iff.mp hspot
    rcases htour.owned hdone hjs hleads.get?_place with hold | ⟨q, hq, _, -, hrests⟩
    · exact absurd hold hnew
    · have hdenotes := Disk.denotes_eq_some_iff.mpr ⟨hnul, data, x, hspot⟩
      exact absurd (Disk.sameFile_of_denotes hdenotes hrests.denotes_eq) (hafter q hq)

/-- If, besides, it led to no visited file and to no sibling to begin with, it reads the same
bytes before and after. -/
theorem Tour.readFile_iff (htour : Tour p d paths done findings d') (hdone : done = true)
    (hjs : ∀ path ∈ paths, isSource path = true)
    (hbefore : ∀ q ∈ paths, ¬d.SameFile path q ∧ ¬d.SameFile path (sibling q))
    (hafter : ∀ q ∈ paths, ¬d'.SameFile path q) (data : Bytes) :
    d.readFile path = .ok data ↔ d'.readFile path = .ok data := by
  refine ⟨fun hread => ?_, htour.readFile_before hdone hjs hafter⟩
  obtain ⟨loc, hdenotes, hsurv⟩ := survives_self hread
  have hsurv' : Survives d d' path loc data := by
    refine hsurv.tour (.refl d) htour fun q hq => ⟨fun hself => ?_, fun hsibling => ?_⟩
    · exact (hbefore q hq).1 (Disk.sameFile_of_denotes hdenotes hself)
    · exact (hbefore q hq).2 (Disk.sameFile_of_denotes hdenotes hsibling)
  exact hsurv'.readFile_eq htour.keeps.cwd hread

/-! ### Choosing again -/

section Choice

variable {walker walker' : Discovery.Walker} {git : Discovery.Staging}
  {named names files files' : List String} {want : Bool} {root root' : String}

/-- Files that were staged and mended leave one of them staged. -/
theorem Tour.staged_ne_nil
    (htour : Tour p d (keep d (names.filter (isSourceFile d))).1 done findings d')
    (hdone : done = true) (hsome : names.filter (isSourceFile d) ≠ []) :
    names.filter (isSourceFile d') ≠ [] := by
  obtain ⟨q, hq⟩ := List.exists_mem_of_ne_nil _ hsome
  have hkept : q ∈ (keep d (names.filter (isSourceFile d))).1 :=
    Discovery.mem_keep_iff.mpr ⟨hq, Discovery.isSourceFile_iff.mp (List.mem_filter.mp hq).2⟩
  obtain ⟨first, rest, hlist⟩ := List.exists_cons_of_ne_nil (List.ne_nil_of_mem hkept)
  have hfirst : first ∈ (keep d (names.filter (isSourceFile d))).1 := by
    rw [hlist]
    exact List.mem_cons_self
  obtain ⟨hstaged, hjs, hfile⟩ := Discovery.mem_keep_iff.mp hfirst
  rw [hlist] at htour
  refine List.ne_nil_of_mem (a := first) (List.mem_filter.mpr ⟨(List.mem_filter.mp hstaged).1, ?_⟩)
  exact Discovery.isSourceFile_iff.mpr ⟨hjs, htour.isFile_head hdone hjs hfile⟩

/-- If nothing is named, and nothing that is wanted is staged, neither was it before. -/
theorem Tour.walked_before (hchosen : chosen walker d git [] want root = .ok files)
    (htour : Tour p d (keep d files).1 done findings d') (hdone : done = true)
    (hwalk : Discovery.wanted d' git want = .ok []) :
    Discovery.wanted d git want = .ok [] ∧ Discovery.sources walker d root = .ok files := by
  rcases Discovery.chosen_nil_eq_ok_iff.mp hchosen with ⟨hstaged, hsome⟩ | hwalked
  · exfalso
    obtain ⟨names, hnames⟩ := Discovery.exists_wanted hstaged
    rw [hnames d, Except.ok.injEq] at hstaged
    subst hstaged
    rw [hnames d', Except.ok.injEq] at hwalk
    exact htour.staged_ne_nil hdone hsome hwalk
  · exact hwalked

/-- Files can be chosen again. -/
theorem Tour.exists_chosen (hchosen : chosen walker d git named want root = .ok files)
    (htour : Tour p d (keep d files).1 done findings d') (hdone : done = true)
    (hlimit : walker'.limit = walker.limit)
    (hroot : named = [] → Discovery.wanted d git want = .ok [] → root' = root) :
    ∃ files', chosen walker' d' git named want root' = .ok files' := by
  by_cases hnamed : named ≠ []
  · exact ⟨named, if_pos hnamed⟩
  obtain rfl := not_not.mp hnamed
  obtain ⟨staged, hstaged⟩ : ∃ staged, Discovery.wanted d git want = .ok staged := by
    rcases Discovery.chosen_nil_eq_ok_iff.mp hchosen with ⟨hstaged, -⟩ | ⟨hnone, -⟩
    · exact ⟨_, hstaged⟩
    · exact ⟨_, hnone⟩
  obtain ⟨names, hnames⟩ := Discovery.exists_wanted hstaged
  by_cases hwalk : names.filter (isSourceFile d') = []
  · have hnone : Discovery.wanted d' git want = .ok [] := by rw [hnames d', hwalk]
    obtain ⟨hnone', hsources⟩ := htour.walked_before hchosen hdone hnone
    obtain rfl := hroot rfl hnone'
    obtain ⟨files', hsources'⟩ :=
      Discovery.exists_sources_again hlimit htour.keeps (htour.noMore hdone) hsources
    exact ⟨files', Discovery.chosen_nil_eq_ok_iff.mpr (Or.inr ⟨hnone, hsources'⟩)⟩
  · exact ⟨_, Discovery.chosen_nil_eq_ok_iff.mpr (Or.inl ⟨hnames d', hwalk⟩)⟩

/-- A file that is chosen afterwards was chosen before, if it was a file. -/
theorem Tour.mem_chosen (hchosen : chosen walker d git named want root = .ok files)
    (htour : Tour p d (keep d files).1 done findings d') (hdone : done = true)
    (hroot : named = [] → Discovery.wanted d git want = .ok [] → root' = root)
    (hchosen' : chosen walker' d' git named want root' = .ok files') (hq : q ∈ files')
    (hfile : d.isFile q = true) : q ∈ files := by
  by_cases hnamed : named ≠ []
  · rw [chosen, if_pos hnamed] at hchosen hchosen'
    cases hchosen
    cases hchosen'
    exact hq
  obtain rfl := not_not.mp hnamed
  rcases Discovery.chosen_nil_eq_ok_iff.mp hchosen' with ⟨hstaged', -⟩ | ⟨hnone', hsources'⟩
  · obtain ⟨names, hnames⟩ := Discovery.exists_wanted hstaged'
    rw [hnames d', Except.ok.injEq] at hstaged'
    subst hstaged'
    obtain ⟨hname, hsource⟩ := List.mem_filter.mp hq
    have hmem : q ∈ names.filter (isSourceFile d) := List.mem_filter.mpr
      ⟨hname, Discovery.isSourceFile_iff.mpr ⟨(Discovery.isSourceFile_iff.mp hsource).1, hfile⟩⟩
    rcases Discovery.chosen_nil_eq_ok_iff.mp hchosen with ⟨hstaged, -⟩ | ⟨hnone, -⟩
    · rw [hnames d, Except.ok.injEq] at hstaged
      rwa [← hstaged]
    · rw [hnames d, Except.ok.injEq] at hnone
      rw [hnone] at hmem
      cases hmem
  · obtain ⟨hnone, hsources⟩ := htour.walked_before hchosen hdone hnone'
    obtain rfl := hroot rfl hnone
    have hbelow := (Discovery.mem_sources_iff hsources').mp hq
    have hless := htour.noMore hdone
    exact (Discovery.mem_sources_iff hsources).mpr
      (Discovery.mem_below_mono (Discovery.depthBound_le hless)
        (Discovery.mem_below_of_keeps htour.keeps hless hfile hbelow))

/-- **Whatever is chosen afterwards is mended.** -/
theorem Tour.clean_chosen (hchosen : chosen walker d git named want root = .ok files)
    (htour : Tour p d (keep d files).1 done findings d') (hdone : done = true)
    (hroot : named = [] → Discovery.wanted d git want = .ok [] → root' = root)
    (hchosen' : chosen walker' d' git named want root' = .ok files')
    (hq : q ∈ (keep d' files').1) (hread : d'.readFile q = .ok data) : Clean p data := by
  obtain ⟨hq, hsource, -⟩ := Discovery.mem_keep_iff.mp hq
  rcases htour.keeps.readFile hread with hbefore | hclean
  · have hfile : d.isFile q = true := Disk.isFile_iff.mpr ⟨data, hbefore⟩
    have hmem := htour.mem_chosen hchosen hdone hroot hchosen' hq hfile
    exact htour.clean hdone (fun _ => Discovery.isSource_of_mem_keep)
      (Discovery.mem_keep_iff.mpr ⟨hmem, hsource, hfile⟩) hread
  · exact hclean

end Choice

end Semicolon.Lint
