/-
Which file a path opens.

A path opens a file through its last name: the steps before it lead to a directory, and there the
name is that of the file or of a link that leads to it.  So everything that can be done to the
file through the path happens at one name of one directory, which is the path's site.

Two comparisons of disks say what becomes of a walk.  A disk that holds all that another one holds
leads on every walk that the other does.  And a disk that differs from another one only in having
other files, or none, leads nowhere new except to those files.
-/
import Semicolon.Discovery
import Semicolon.Proofs.Replacement

namespace Semicolon

/-! ### The last name of a path -/

namespace Path

theorem exists_steps (path : String) : ∃ first name, steps path = first ++ [name] := by
  obtain ⟨first, last, hparts, -⟩ := parts_append path.toList
  exact ⟨first.map String.ofList, String.ofList last, by rw [steps, hparts]; simp⟩

end Path

/-- The last name of a source file's path has the suffix of one. -/
theorem Discovery.steps_of_isSource {path : String} (h : isSource path = true) :
    ∃ first stem, Path.steps path = first ++ [stem ++ sourceSuffix] := by
  obtain ⟨stem, hpath⟩ := List.isSuffixOf_iff_suffix.mp h
  obtain ⟨first, name, hsteps⟩ := Path.exists_steps (String.ofList stem)
  refine ⟨first, name, ?_⟩
  have hwhole : path = String.ofList stem ++ sourceSuffix := by
    rw [← String.ofList_toList (s := path), ← hpath, String.ofList_append, String.ofList_toList]
  rw [hwhole]
  exact Path.steps_append (by decide) hsteps

namespace Disk

variable {c d d' : Disk} {n k : Nat} {here dir loc : Location} {name path : String}
  {todo rest first : List String} {spot : Spot} {e : Entry} {data : Bytes}

/-! ### What a path denotes -/

/-- The place of the regular file that the path leads to, if it leads to one. -/
def denotes (d : Disk) (path : String) : Option Location :=
  if path.toList.contains '\x00' then none
  else
    match d.resolve true path with
    | .ok (.taken loc (.file _ _)) => some loc
    | _ => none

/-- Both paths lead to a regular file, and to the same one. -/
def SameFile (d : Disk) (a b : String) : Prop := (d.denotes a).isSome ∧ d.denotes a = d.denotes b

instance (d : Disk) (a b : String) : Decidable (d.SameFile a b) :=
  inferInstanceAs (Decidable (_ ∧ _))

/-- Is the last name of the path that of a link? -/
def isLink (d : Disk) (path : String) : Bool :=
  match d.resolve false path with
  | .ok (.taken _ (.link _)) => true
  | _ => false

theorem denotes_eq_some_iff : d.denotes path = some loc ↔
    '\x00' ∉ path.toList ∧ ∃ data x, d.resolve true path = .ok (.taken loc (.file data x)) := by
  unfold denotes
  by_cases hnul : '\x00' ∈ path.toList
  · simp [hnul]
  cases hspot : d.resolve true path with
  | error fault => simp [hnul]
  | ok spot =>
      cases spot with
      | free dir name slashed => simp [hnul]
      | taken loc' e => cases e <;> simp [hnul]

theorem sameFile_of_denotes {a b : String} (ha : d.denotes a = some loc)
    (hb : d.denotes b = some loc) : d.SameFile a b :=
  ⟨by rw [ha]; rfl, ha.trans hb.symm⟩

/-! ### Walks in two parts -/

theorem Leads.append {m : Nat} (hfirst : Leads d n here first (.taken loc e))
    (hrest : Leads d m loc rest spot) : Leads d (n + m) here (first ++ rest) spot := by
  generalize hmid : Spot.taken loc e = mid at hfirst
  induction hfirst with
  | stop =>
      cases hmid
      rw [Nat.zero_add]
      exact hrest
  | free => cases hmid
  | step hhere hnext _ ih =>
      have hmore := ih hmid
      rw [List.append_assoc] at hmore
      rw [Nat.add_assoc]
      exact .step hhere hnext hmore

/-- A name at the end of a walk is looked up in the directory that the steps before it lead to. -/
theorem Leads.split_last (h : Leads d n here (first ++ [name]) spot) (hname : name ≠ "") :
    ∃ n₁ n₂ dir, n = n₁ + n₂ ∧ Leads d n₁ here first (.taken dir .directory) ∧
      Leads d n₂ dir [name] spot := by
  generalize htodo : first ++ [name] = todo at h
  induction h generalizing first with
  | stop => simp at htodo
  | @free here name' rest hhere hname' hentry hrest =>
      cases first with
      | nil =>
          obtain ⟨rfl, rfl⟩ := List.cons.inj htodo
          exact ⟨0, 0, here, rfl, .stop hhere, .free hhere hname' hentry hrest⟩
      | cons s first =>
          obtain ⟨rfl, rfl⟩ := List.cons.inj htodo
          exact absurd (hrest name (by simp)) hname
  | @step k n here _ _ _ _ _ hhere hnext hrest ih =>
      cases first with
      | nil =>
          obtain ⟨rfl, rfl⟩ := List.cons.inj htodo
          exact ⟨0, k + n, here, (Nat.zero_add _).symm, .stop hhere, .step hhere hnext hrest⟩
      | cons s first =>
          obtain ⟨rfl, rfl⟩ := List.cons.inj htodo
          obtain ⟨n₁, n₂, dir, rfl, hfirst, hlast⟩ := ih (List.append_assoc _ _ _)
          exact ⟨k + n₁, n₂, dir, (Nat.add_assoc _ _ _).symm, .step hhere hnext hfirst, hlast⟩

/-- A walk that does not follow its last name finds the entry that stands there, a link or not. -/
theorem walk_of_entry (h : Leads d n here first (.taken dir .directory)) (hname : IsName name)
    (hentry : d.get? (child dir name) = some e) :
    ∀ links ≥ n, d.walk false links here (first ++ [name]) = .ok (.taken (child dir name) e) := by
  generalize hspot : Spot.taken dir .directory = spot at h
  induction h with
  | free => cases hspot
  | stop hhere =>
      cases hspot
      intro links _
      obtain ⟨jump, hwalk⟩ := exists_walkTo d false links
      rw [hwalk, List.nil_append, walkTo, hhere]
      cases e <;> simp [hname.notEmpty, hname.notHere, hname.notUp, Nat.not_lt.mpr hname.short,
        hentry, walkTo]
  | step hhere hnext _ ih =>
      intro links hn
      obtain ⟨jump, hwalk⟩ := exists_walkTo d false links
      cases hnext with
      | stay hdot =>
          have hrest := ih hspot links (by omega)
          rw [hwalk] at hrest ⊢
          rw [List.cons_append, walkTo, hhere]
          simpa [hdot] using hrest
      | up =>
          have hrest := ih hspot links (by omega)
          rw [hwalk] at hrest ⊢
          rw [List.cons_append, walkTo, hhere]
          simpa using hrest
      | @down _ e hstep hdown hlink =>
          have hrest := ih hspot links (by omega)
          rw [hwalk] at hrest ⊢
          rw [List.cons_append, walkTo, hhere]
          cases e with
          | link target => exact absurd rfl (hlink target)
          | file | directory =>
              simpa [hstep.notEmpty, hstep.notHere, hstep.notUp, Nat.not_lt.mpr hstep.short,
                hdown] using hrest
      | link hstep hdown =>
          obtain ⟨links, rfl⟩ : ∃ k, links = k + 1 := ⟨links - 1, by omega⟩
          rw [List.cons_append, walk, walkTo, hhere]
          simpa [hstep.notEmpty, hstep.notHere, hstep.notUp, Nat.not_lt.mpr hstep.short, hdown,
            base] using ih hspot links (by omega)

/-! ### Where the last name is looked up -/

/-- The last name of the path is `name`, and the steps before it lead to the directory `dir`
through `k` links. -/
structure Site (d : Disk) (path : String) (k : Nat) (dir : Location) (name : String) : Prop where
  isName : IsName name
  way : ∃ first, Path.steps path = first ++ [name] ∧
    Leads d k (base d.cwd path) first (.taken dir .directory)

theorem Site.leads {m : Nat} (hsite : Site d path k dir name) (h : Leads d m dir [name] spot) :
    Leads d (k + m) (base d.cwd path) (Path.steps path) spot := by
  obtain ⟨first, hsteps, hfirst⟩ := hsite.way
  rw [hsteps]
  exact hfirst.append h

/-- A path has only one site. -/
theorem Site.unique {k' : Nat} {dir' : Location} {name' : String} (h : Site d path k dir name)
    (h' : Site d path k' dir' name') : dir' = dir ∧ name' = name := by
  obtain ⟨first, hsteps, hfirst⟩ := h.way
  obtain ⟨first', hsteps', hfirst'⟩ := h'.way
  rw [hsteps] at hsteps'
  obtain ⟨rfl, hlast⟩ := List.append_inj' hsteps' rfl
  exact ⟨(Spot.taken.inj (hfirst'.unique hfirst)).1, (List.cons.inj hlast).1.symm⟩

/-- The sibling has its site in the same directory. -/
theorem Site.sibling (h : Site d path k dir name) (hpath : path ≠ "")
    (hname : IsName (Replacement.siblingName name)) :
    Site d (Replacement.sibling path) k dir (Replacement.siblingName name) := by
  obtain ⟨first, hsteps, hfirst⟩ := h.way
  refine ⟨hname, first, Replacement.steps_sibling hsteps, ?_⟩
  rw [Replacement.base_sibling hpath]
  exact hfirst

/-- No link is at the site of the path, unless the path is too long to be followed. -/
def Plain (d : Disk) (path : String) : Prop :=
  (Utf8.encodeString path).length < maxPath → ∀ k ≤ maxLinks, ∀ dir name, Site d path k dir name →
    ∀ target, d.get? (child dir name) ≠ some (.link target)

theorem plain_of_isLink (hpath : path ≠ "") (h : d.isLink path = false) : Plain d path := by
  intro hshort k hk dir name hsite target hentry
  obtain ⟨first, hsteps, hfirst⟩ := hsite.way
  have hwalk := walk_of_entry hfirst hsite.isName hentry maxLinks hk
  rw [← hsteps] at hwalk
  have hspot : d.resolve false path = .ok (.taken (child dir name) (.link target)) := by
    rw [resolve, if_neg (by simpa using hpath), if_neg (Nat.not_le.mpr hshort)]
    exact hwalk
  rw [isLink, hspot] at h
  cases h

/-! ### What a path opens -/

/-- The path opens the file at `loc` with these bytes, by the name `name` in the directory
`dir`. -/
structure Opens (d : Disk) (path : String) (dir : Location) (name : String) (loc : Location)
    (data : Bytes) : Prop where
  noNul : '\x00' ∉ path.toList
  notEmpty : path ≠ ""
  short : (Utf8.encodeString path).length < maxPath
  way : ∃ k m x, k + m ≤ maxLinks ∧ Site d path k dir name ∧
    Leads d m dir [name] (.taken loc (.file data x))

theorem opens_of_readFile (hread : d.readFile path = .ok data)
    (hsteps : Path.steps path = first ++ [name]) (hup : name ≠ "..") :
    ∃ dir loc, Opens d path dir name loc data := by
  obtain ⟨hnul, loc, x, hspot⟩ := readFile_eq_ok_iff.mp hread
  obtain ⟨hempty, hshort, n, hn, hleads⟩ := resolve_eq_ok_iff.mp hspot
  rw [hsteps] at hleads
  obtain ⟨k, m, dir, e, rfl, hfirst, hlast⟩ := hleads.split
  obtain rfl : e = .directory :=
    Option.some.inj (hfirst.get?_place.symm.trans hlast.directory_of_cons)
  have hname : IsName name := by
    cases hlast with
    | step hhere hnext hstop =>
        cases hnext with
        | stay =>
            -- A dot step would stay in the directory, where the walk ends at a file.
            have hfile := hstop.get?_place
            cases hstop with
            | stop => exact absurd (hhere.symm.trans hfile) (by simp [Spot.entry?])
        | up => exact absurd rfl hup
        | down hname | link hname => exact hname
  exact ⟨dir, loc, hnul, hempty, hshort, k, m, x, hn, ⟨hname, first, hsteps, hfirst⟩, hlast⟩

namespace Opens

variable {path' : String} {dir' loc' : Location} {name' : String} {data' : Bytes}

theorem site (h : Opens d path dir name loc data) : ∃ k ≤ maxLinks, Site d path k dir name := by
  obtain ⟨k, m, x, hkm, hsite, -⟩ := h.way
  exact ⟨k, by omega, hsite⟩

theorem resolve_eq (h : Opens d path dir name loc data) :
    ∃ x, d.resolve true path = .ok (.taken loc (.file data x)) := by
  obtain ⟨k, m, x, hkm, hsite, hlast⟩ := h.way
  exact ⟨x, resolve_eq_ok_iff.mpr ⟨h.notEmpty, h.short, k + m, hkm, hsite.leads hlast⟩⟩

theorem readFile_eq (h : Opens d path dir name loc data) : d.readFile path = .ok data := by
  obtain ⟨x, hspot⟩ := h.resolve_eq
  exact readFile_eq_ok_iff.mpr ⟨h.noNul, loc, x, hspot⟩

theorem denotes_eq (h : Opens d path dir name loc data) : d.denotes path = some loc := by
  obtain ⟨x, hspot⟩ := h.resolve_eq
  exact denotes_eq_some_iff.mpr ⟨h.noNul, data, x, hspot⟩

theorem get?_loc (h : Opens d path dir name loc data) : ∃ x, d.get? loc = some (.file data x) := by
  obtain ⟨k, m, x, -, -, hlast⟩ := h.way
  exact ⟨x, hlast.get?_place⟩

/-- At the site is the file itself, or a link from which it is reached. -/
theorem entry_cases (h : Opens d path dir name loc data) :
    (loc = child dir name ∧ ∃ x, d.get? (child dir name) = some (.file data x)) ∨
      ∃ target m x, d.get? (child dir name) = some (.link target) ∧
        Leads d m (base dir target) (Path.steps target) (.taken loc (.file data x)) := by
  obtain ⟨k, m, x, -, hsite, hlast⟩ := h.way
  cases hlast with
  | step _ hnext hrest =>
      cases hnext with
      | stay hdot => exact absurd hdot (by simp [hsite.isName.notEmpty, hsite.isName.notHere])
      | up => exact absurd rfl hsite.isName.notUp
      | down =>
          cases hrest with
          | stop hhere => exact Or.inl ⟨rfl, x, hhere⟩
      | link _ hentry =>
          rw [List.append_nil] at hrest
          exact Or.inr ⟨_, _, x, hentry, hrest⟩

theorem entry_ne_directory (h : Opens d path dir name loc data) :
    d.get? (child dir name) ≠ some .directory := by
  rcases h.entry_cases with ⟨-, x, hfile⟩ | ⟨target, m, x, hlink, -⟩
  · simp [hfile]
  · simp [hlink]

/-- A file at the site is the one that the path opens. -/
theorem of_site {x : Bool} (hnul : '\x00' ∉ path.toList) (hpath : path ≠ "")
    (hshort : (Utf8.encodeString path).length < maxPath) (hk : k ≤ maxLinks)
    (hsite : Site d path k dir name) (hfile : d.get? (child dir name) = some (.file data x)) :
    Opens d path dir name (child dir name) data := by
  obtain ⟨first, -, hfirst⟩ := hsite.way
  have hlast : Leads d 0 dir [name] (.taken (child dir name) (.file data x)) :=
    .step hfirst.get?_place (.down hsite.isName hfile (by simp)) (.stop hfile)
  exact ⟨hnul, hpath, hshort, k, 0, x, hk, hsite, hlast⟩

end Opens

/-! ### Disks with no more than another -/

/-- All that is on the first disk is on the second. -/
def Within (c d : Disk) : Prop := ∀ l e, c.get? l = some e → d.get? l = some e

theorem Within.trans {b : Disk} (h : Within b c) (h' : Within c d) : Within b d :=
  fun l e hl => h' l e (h l e hl)

theorem Next.within {step : String} {there : Location} {more : List String}
    (h : Next c here step k there more) (hsub : Within c d) : Next d here step k there more := by
  cases h with
  | stay hname => exact .stay hname
  | up => exact .up
  | down hname hentry hlink => exact .down hname (hsub _ _ hentry) hlink
  | link hname hentry => exact .link hname (hsub _ _ hentry)

theorem Leads.within (h : Leads c n here todo (.taken loc e)) (hsub : Within c d) :
    Leads d n here todo (.taken loc e) := by
  generalize hspot : Spot.taken loc e = spot at h
  induction h with
  | stop hhere => exact .stop (hsub _ _ hhere)
  | free => cases hspot
  | step hhere hnext _ ih => exact .step (hsub _ _ hhere) (hnext.within hsub) (ih hspot)

/-! ### Disks with other files -/

/-- The second disk differs from the first in files only: where it does, the first one has no
directory, and the second has nothing or a file with bytes as `Q` says. -/
structure Keeps (Q : Bytes → Prop) (d d' : Disk) : Prop where
  cwd : d'.cwd = d.cwd
  places : ∀ l, d'.get? l = d.get? l ∨ d.get? l ≠ some .directory ∧
    (d'.get? l = none ∨ ∃ data x, Q data ∧ d'.get? l = some (.file data x))

namespace Keeps

variable {Q Q' : Bytes → Prop}

theorem refl (d : Disk) : Keeps Q d d := ⟨rfl, fun _ => Or.inl rfl⟩

theorem trans {d'' : Disk} (h : Keeps Q d d') (h' : Keeps Q d' d'') : Keeps Q d d'' := by
  refine ⟨h'.cwd.trans h.cwd, fun l => ?_⟩
  rcases h'.places l with hsame | ⟨hdir, hnew⟩
  · rw [hsame]
    exact h.places l
  · refine Or.inr ⟨?_, hnew⟩
    rcases h.places l with hsame | ⟨hdir', -⟩
    · rw [← hsame]
      exact hdir
    · exact hdir'

theorem imp (h : Keeps Q d d') (himp : ∀ data, Q data → Q' data) : Keeps Q' d d' := by
  refine ⟨h.cwd, fun l => (h.places l).imp id fun ⟨hdir, hnew⟩ => ⟨hdir, hnew.imp id ?_⟩⟩
  rintro ⟨data, x, hQ, hfile⟩
  exact ⟨data, x, himp data hQ, hfile⟩

theorem get?_of_ne_file (h : Keeps Q d d') (he : ∀ data x, e ≠ .file data x)
    (hentry : d'.get? loc = some e) : d.get? loc = some e := by
  rcases h.places loc with hsame | ⟨-, hnone | ⟨data, x, -, hfile⟩⟩
  · rw [← hsame, hentry]
  · rw [hnone] at hentry
    cases hentry
  · rw [hfile] at hentry
    exact absurd (Option.some.inj hentry).symm (he data x)

/-- What stands at a place of the second disk stood there before, or is one of the new files. -/
theorem get?_cases (h : Keeps Q d d') (hentry : d'.get? loc = some e) :
    d.get? loc = some e ∨ (∃ data x, Q data ∧ e = .file data x) ∧ d.get? loc ≠ some e := by
  by_cases hsame : d.get? loc = some e
  · exact Or.inl hsame
  refine Or.inr ⟨?_, hsame⟩
  rcases h.places loc with heq | ⟨-, hnone | ⟨data, x, hQ, hfile⟩⟩
  · exact absurd (heq.symm.trans hentry) hsame
  · rw [hnone] at hentry
    cases hentry
  · rw [hfile] at hentry
    exact ⟨data, x, hQ, (Option.some.inj hentry).symm⟩

/-- **A walk on the second disk was one on the first, or it ends at a new file.** -/
theorem leads (h : Keeps Q d d') (hleads : Leads d' n here todo (.taken loc e)) :
    Leads d n here todo (.taken loc e) ∨
      (∃ data x, Q data ∧ e = .file data x) ∧ d.get? loc ≠ some e := by
  generalize hspot : Spot.taken loc e = spot at hleads
  induction hleads with
  | stop hhere =>
      cases hspot
      exact (h.get?_cases hhere).imp .stop id
  | free => cases hspot
  | step hhere hnext hrest ih =>
      have hhere' := h.get?_of_ne_file (by simp) hhere
      cases hnext with
      | stay hname => exact (ih hspot).imp (.step hhere' (.stay hname)) id
      | up => exact (ih hspot).imp (.step hhere' .up) id
      | link hname hentry =>
          have hentry' := h.get?_of_ne_file (by simp) hentry
          exact (ih hspot).imp (.step hhere' (.link hname hentry')) id
      | down hname hentry hlink =>
          rcases h.get?_cases hentry with hentry' | ⟨⟨data, x, hQ, rfl⟩, hnew⟩
          · exact (ih hspot).imp (.step hhere' (.down hname hentry' hlink)) id
          · -- A new file cannot be left, so it is where the walk ends.
            subst hspot
            cases hrest.eq_of_file hentry
            exact Or.inr ⟨⟨data, x, hQ, rfl⟩, hnew⟩

/-- In particular it leads to no directory that it did not lead to before. -/
theorem leads_directory (h : Keeps Q d d') (hleads : Leads d' n here todo (.taken loc .directory)) :
    Leads d n here todo (.taken loc .directory) := by
  rcases h.leads hleads with hleads' | ⟨⟨data, x, -, hfile⟩, -⟩
  · exact hleads'
  · cases hfile

theorem site (h : Keeps Q d d') (hsite : Site d' path k dir name) : Site d path k dir name := by
  obtain ⟨first, hsteps, hfirst⟩ := hsite.way
  rw [h.cwd] at hfirst
  exact ⟨hsite.isName, first, hsteps, h.leads_directory hfirst⟩

theorem plain (h : Keeps Q d d') (hplain : Plain d path) : Plain d' path := by
  intro hshort k hk dir name hsite target hentry
  exact hplain hshort k hk dir name (h.site hsite) target (h.get?_of_ne_file (by simp) hentry)

theorem resolve (h : Keeps Q d d') (hspot : d'.resolve true path = .ok (.taken loc e)) :
    d.resolve true path = .ok (.taken loc e) ∨
      (∃ data x, Q data ∧ e = .file data x) ∧ d.get? loc ≠ some e := by
  obtain ⟨hempty, hshort, n, hn, hleads⟩ := resolve_eq_ok_iff.mp hspot
  rw [h.cwd] at hleads
  refine (h.leads hleads).imp (fun hleads' => ?_) id
  exact resolve_eq_ok_iff.mpr ⟨hempty, hshort, n, hn, hleads'⟩

/-- What a path opens on the second disk it opened on the first, or it is as `Q` says. -/
theorem readFile (h : Keeps Q d d') (hread : d'.readFile path = .ok data) :
    d.readFile path = .ok data ∨ Q data := by
  obtain ⟨hnul, loc, x, hspot⟩ := readFile_eq_ok_iff.mp hread
  rcases h.resolve hspot with hspot' | ⟨⟨data', x', hQ, hfile⟩, -⟩
  · exact Or.inl (readFile_eq_ok_iff.mpr ⟨hnul, loc, x, hspot'⟩)
  · cases hfile
    exact Or.inr hQ

end Keeps

end Disk

end Semicolon
