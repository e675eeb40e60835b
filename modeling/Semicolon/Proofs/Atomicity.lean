/-
A replacement is done or it is not.

The new text is written to the sibling and moved over the file.  If nothing stands at the sibling's
name to begin with, the two steps together come to one change: the new text at the file's name.
If the move fails, the sibling is removed, and then there is no change at all; only if the removal
fails too, the sibling stays behind.  Whatever keeps the sibling from being created keeps the disk
as it is.  If it is created but cannot be filled, nobody removes it, and it stays behind with the
text cut short.

All of this is said about places.  A path may be read through links, and there are two ways in which
it can tell more than its place does.  If the way to the file's directory goes through the file's
own name, which is then a link to a directory, the replacement takes that link away, and the path
leads nowhere.  And if the path is a link to its own sibling, a sibling that stays behind is what it
reads.
-/
import Semicolon.Proofs.Rewrite
import Semicolon.Proofs.Selection

namespace Semicolon

namespace Disk

variable {d d' : Disk} {here dir loc : Location} {name path : String} {first : List String}
  {e : Entry} {data : Bytes} {x : Bool}

open Replacement (sibling siblingName)

/-! ### What stands at a name -/

/-- The steps before the name lead to a directory through fewer than `links` links, and `e` stands
there by the name, at `loc`. -/
def Finds (d : Disk) (links : Nat) (here : Location) (first : List String) (name : String)
    (loc : Location) (e : Entry) : Prop :=
  ∃ n < links, ∃ dir, Leads d n here first (.taken dir .directory) ∧ IsName name ∧
    loc = child dir name ∧ d.get? loc = some e

/-- A walk that does not follow its last name finds what stands there, if it does so from where its
first link leaves off. -/
theorem finds_of_walkTo {jump : Location → List String → Except Fault Spot} {links : Nat}
    (hjump : ∀ {start more}, jump start (more ++ [name]) = .ok (.taken loc e) →
      Finds d links start more name loc e)
    (hempty : name ≠ "") (hhere : name ≠ ".") (hup : name ≠ "..")
    (h : d.walkTo false jump here (first ++ [name]) = .ok (.taken loc e)) :
    Finds d (links + 1) here first name loc e := by
  generalize htodo : first ++ [name] = todo at h
  fun_induction walkTo d false jump here todo generalizing first with
  | case1 | case3 | case6 | case7 | case8 | case12 => cases h
  | case2 => simp at htodo
  | case4 here step rest hdir hdot ih =>
      cases first with
      | nil =>
          obtain ⟨rfl, rfl⟩ := List.cons.inj htodo
          exact absurd hdot (by simp [hempty, hhere])
      | cons s first =>
          obtain ⟨rfl, rfl⟩ := List.cons.inj htodo
          obtain ⟨n, hn, dir, hleads, hfound⟩ := ih rfl h
          exact ⟨0 + n, by omega, dir, .step hdir (.stay (by simpa using hdot)) hleads, hfound⟩
  | case5 here rest hdir _ ih =>
      cases first with
      | nil =>
          obtain ⟨rfl, rfl⟩ := List.cons.inj htodo
          exact absurd rfl hup
      | cons s first =>
          obtain ⟨rfl, rfl⟩ := List.cons.inj htodo
          obtain ⟨n, hn, dir, hleads, hfound⟩ := ih rfl h
          exact ⟨0 + n, by omega, dir, .step hdir .up hleads, hfound⟩
  | case9 here step rest hdir hdot hdots hlong target hentry hlast =>
      obtain rfl : rest = [] := by simpa using hlast
      have hone : first ++ [name] = [] ++ [step] := htodo
      obtain ⟨rfl, hname⟩ := List.append_inj' hone rfl
      obtain rfl : name = step := (List.cons.inj hname).1
      cases h
      exact ⟨0, by omega, here, .stop hdir, isName_of_step hdot hdots hlong, rfl, hentry⟩
  | case10 here step rest hdir hdot hdots hlong target hentry hmore =>
      cases first with
      | nil =>
          obtain ⟨rfl, rfl⟩ := List.cons.inj htodo
          simp at hmore
      | cons s first =>
          rw [List.cons_append] at htodo
          obtain ⟨rfl, rfl⟩ := List.cons.inj htodo
          rw [← List.append_assoc] at h
          obtain ⟨n, hn, dir, hleads, hfound⟩ := hjump h
          exact ⟨1 + n, by omega, dir,
            .step hdir (.link (isName_of_step hdot hdots hlong) hentry) hleads, hfound⟩
  | case11 here step rest hdir hdot hdots hlong e' hlink hentry ih =>
      have hname := isName_of_step hdot hdots hlong
      cases first with
      | nil =>
          obtain ⟨rfl, rfl⟩ := List.cons.inj htodo
          simp only [walkTo, hentry, Except.ok.injEq, Spot.taken.injEq] at h
          obtain ⟨rfl, rfl⟩ := h
          exact ⟨0, by omega, here, .stop hdir, hname, rfl, hentry⟩
      | cons s first =>
          obtain ⟨rfl, rfl⟩ := List.cons.inj htodo
          obtain ⟨n, hn, dir, hleads, hfound⟩ := ih rfl h
          exact ⟨0 + n, by omega, dir, .step hdir (.down hname hentry hlink) hleads, hfound⟩

theorem finds_of_walk {links : Nat} (hempty : name ≠ "") (hhere : name ≠ ".") (hup : name ≠ "..")
    (h : d.walk false links here (first ++ [name]) = .ok (.taken loc e)) :
    Finds d (links + 1) here first name loc e := by
  induction links generalizing here first with
  | zero => exact finds_of_walkTo (by simp) hempty hhere hup h
  | succ links ih => exact finds_of_walkTo ih hempty hhere hup h

/-- What stands at the last name of the path, a link there not followed. -/
def named? (d : Disk) (path : String) : Option Entry :=
  match d.resolve false path with
  | .ok (.taken _ e) => some e
  | _ => none

/-- What stands at the last name of a path is the entry at its site. -/
theorem named?_eq_some_iff (hsteps : Path.steps path = first ++ [name]) (hempty : name ≠ "")
    (hhere : name ≠ ".") (hup : name ≠ "..") : d.named? path = some e ↔
      path ≠ "" ∧ (Utf8.encodeString path).length < maxPath ∧
        ∃ k ≤ maxLinks, ∃ dir, Site d path k dir name ∧ d.get? (child dir name) = some e := by
  have hresolve : d.named? path = some e ↔ ∃ loc, d.resolve false path = .ok (.taken loc e) := by
    unfold named?
    cases d.resolve false path with
    | error fault => simp
    | ok spot => cases spot <;> simp
  rw [hresolve]
  unfold resolve
  by_cases hpath : path = ""
  · simp [hpath]
  by_cases hlong : maxPath ≤ (Utf8.encodeString path).length
  · simp [hpath, hlong, Nat.not_lt.mpr hlong]
  rw [if_neg (by simpa using hpath), if_neg hlong, hsteps]
  constructor
  · rintro ⟨loc, hwalk⟩
    obtain ⟨k, hk, dir, hfirst, hname, rfl, hentry⟩ := finds_of_walk hempty hhere hup hwalk
    exact ⟨hpath, Nat.lt_of_not_le hlong, k, Nat.le_of_lt_succ hk, dir,
      ⟨hname, first, hsteps, hfirst⟩, hentry⟩
  · rintro ⟨-, -, k, hk, dir, hsite, hentry⟩
    obtain ⟨first', hsteps', hfirst⟩ := hsite.way
    obtain ⟨rfl, -⟩ := List.append_inj' (hsteps.symm.trans hsteps') rfl
    exact ⟨_, walk_of_entry hfirst hsite.isName hentry maxLinks hk⟩

/-! ### One more file -/

theorem erase_of_free (hloc : loc ≠ []) (hfree : d.get? loc = none) : d.erase loc = d := by
  rw [get?, if_neg hloc, List.lookup_eq_none_iff] at hfree
  have hkeep : d.entries.filter (fun e => e.1 ≠ loc) = d.entries := by
    rw [List.filter_eq_self]
    intro e he
    have hne : loc ≠ e.1 := by simpa using hfree e he
    simpa using hne.symm
  rw [erase, hkeep]

theorem erase_put (d : Disk) (loc : Location) (e : Entry) :
    (d.put loc e).erase loc = d.erase loc := by
  simp only [put, erase]
  rw [List.filter_cons_of_neg (by simp), List.filter_filter]
  simp

/-- A disk without what stood at a place, and the disk with a file there. -/
theorem keeps_erase_put (hloc : loc ≠ []) :
    Keeps (· = data) (d.erase loc) (d.put loc (.file data x)) := by
  refine ⟨rfl, fun l => ?_⟩
  by_cases hl : l = loc
  · subst hl
    rw [get?_put_self d _ hloc, get?_erase_self d hloc]
    exact Or.inr ⟨by simp, Or.inr ⟨data, x, rfl, rfl⟩⟩
  · rw [get?_put_of_ne d _ hl, get?_erase_of_ne d hl]
    exact Or.inl rfl

theorem within_erase (d : Disk) (loc : Location) (hloc : loc ≠ []) : Within (d.erase loc) d := by
  intro l e hl
  by_cases hll : l = loc
  · rw [hll, get?_erase_self d hloc] at hl
    cases hl
  · rwa [get?_erase_of_ne d hll] at hl

theorem within_put (hloc : loc ≠ []) : Within (d.erase loc) (d.put loc e) := by
  intro l e' hl
  by_cases hll : l = loc
  · rw [hll, get?_erase_self d hloc] at hl
    cases hl
  · rwa [get?_put_of_ne d _ hll, ← get?_erase_of_ne d hll]

theorem keeps_put_of_free (hloc : loc ≠ []) (hfree : d.get? loc = none) :
    Keeps (· = data) d (d.put loc (.file data x)) := by
  have hkeeps : Keeps (· = data) (d.erase loc) (d.put loc (.file data x)) := keeps_erase_put hloc
  rwa [erase_of_free hloc hfree] at hkeeps

theorem within_put_of_free (hloc : loc ≠ []) (hfree : d.get? loc = none) :
    Within d (d.put loc e) := by
  have hwithin := within_put (d := d) (e := e) hloc
  rwa [erase_of_free hloc hfree] at hwithin

/-! ### The path of a file that was put in place -/

/-- The way to the path's last name goes through that name: without what stands there it comes to
no end. -/
def isOnItsOwnWay (d : Disk) (path : String) : Bool :=
  match d.resolveParent path with
  | .error _ => false
  | .ok (dir, name, _) => (d.erase (child dir name)).resolveParent path ≠ d.resolveParent path

theorem Keeps.resolveParent {Q : Bytes → Prop} (hkeeps : Keeps Q d d') (hname : name ≠ "")
    (h : d'.resolveParent path = .ok (dir, name, false)) :
    d.resolveParent path = .ok (dir, name, false) := by
  rw [resolveParent_eq_ok_iff hname, hkeeps.cwd] at h
  obtain ⟨hisName, hpath, hshort, first, rest, hsteps, hrest, hslashed, n, hn, hleads⟩ := h
  exact (resolveParent_eq_ok_iff hname).mpr ⟨hisName, hpath, hshort, first, rest, hsteps, hrest,
    hslashed, n, hn, hkeeps.leads_directory hleads⟩

/-- The sibling has its place in the directory of the path's own place. -/
theorem resolveParent_sibling {dir' : Location} {name' : String} (hname : name ≠ "")
    (hname' : name' ≠ "") (h : d.resolveParent path = .ok (dir, name, false))
    (h' : d.resolveParent (sibling path) = .ok (dir', name', false)) :
    dir' = dir ∧ name' = siblingName name := by
  obtain ⟨-, hpath, first, hsteps, n, -, hfirst⟩ := leads_of_resolveParent h hname
  obtain ⟨-, -, first', hsteps', n', -, hfirst'⟩ := leads_of_resolveParent h' hname'
  rw [Replacement.base_sibling hpath] at hfirst'
  obtain ⟨rfl, hlast⟩ :=
    List.append_inj' (hsteps'.symm.trans (Replacement.steps_sibling hsteps)) rfl
  exact ⟨(Spot.taken.inj (hfirst'.unique hfirst)).1, (List.cons.inj hlast).1⟩

/-- **A file that is put at a path's place is what the path reads, unless the path goes through that
place to get there.** -/
theorem readFile_put_iff (hnul : '\x00' ∉ path.toList) (hname : name ≠ "")
    (hparent : d.resolveParent path = .ok (dir, name, false)) :
    (d.put (child dir name) (.file data x)).readFile path = .ok data ↔
      d.isOnItsOwnWay path = false := by
  have hloc := child_ne_nil dir name
  have hway : d.isOnItsOwnWay path = false ↔
      (d.erase (child dir name)).resolveParent path = .ok (dir, name, false) := by
    simp [isOnItsOwnWay, hparent]
  obtain ⟨-, -, hshort, -⟩ := (resolveParent_eq_ok_iff hname).mp hparent
  obtain ⟨hisName, hpath, first, hsteps, n, hn, hfirst⟩ := leads_of_resolveParent hparent hname
  rw [hway]
  constructor
  · intro hread
    obtain ⟨-, loc, x', hspot⟩ := readFile_eq_ok_iff.mp hread
    obtain ⟨-, -, m, hm, hleads⟩ := resolve_eq_ok_iff.mp hspot
    rw [hsteps] at hleads
    obtain ⟨m₁, m₂, mid, e, rfl, hfirst', hlast⟩ := hleads.split
    obtain rfl : e = .directory :=
      Option.some.inj (hfirst'.get?_place.symm.trans hlast.directory_of_cons)
    -- The walk up to the directory takes no notice of the file, so it goes without it.
    have hwithout := (keeps_erase_put hloc).leads_directory hfirst'
    obtain rfl : mid = dir :=
      (Spot.taken.inj ((hwithout.within (within_erase d _ hloc)).unique hfirst)).1
    refine (resolveParent_eq_ok_iff hname).mpr ⟨hisName, hpath, hshort, first, [], hsteps, ?_, rfl,
      m₁, by omega, hwithout⟩
    simp
  · intro hwithout
    obtain ⟨-, -, first', hsteps', m, hm, hfirst'⟩ := leads_of_resolveParent hwithout hname
    have hsite : Site (d.put (child dir name) (.file data x)) path m dir name :=
      ⟨hisName, first', hsteps', hfirst'.within (within_put hloc)⟩
    exact (Opens.of_site hnul hpath hshort hm hsite (get?_put_self d _ hloc)).readFile_eq

/-- A path finds on the disk with one more file what it found without it, unless it comes upon that
file. -/
theorem entry?_put_of_free (hloc : loc ≠ []) (hfree : d.get? loc = none)
    (hother : (d.put loc (.file data x)).denotes path ≠ some loc) :
    Disk.entry? (d.put loc (.file data x)) path = d.entry? path := by
  have hkeeps : Keeps (· = data) d (d.put loc (.file data x)) := keeps_put_of_free hloc hfree
  have hwithin : Within d (d.put loc (.file data x)) := within_put_of_free hloc hfree
  refine Option.ext fun e => ?_
  rw [entry?_eq_some_iff, entry?_eq_some_iff]
  refine and_congr_right fun hnul => exists_congr fun l => ?_
  constructor
  · intro hspot
    rcases hkeeps.resolve hspot with hspot' | ⟨⟨data', x', rfl, rfl⟩, hnew⟩
    · exact hspot'
    · exfalso
      obtain ⟨-, -, n, -, hleads⟩ := resolve_eq_ok_iff.mp hspot
      have hl : l = loc := by
        by_contra hll
        have hthere := hleads.get?_place
        rw [Spot.place, get?_put_of_ne d _ hll] at hthere
        exact hnew hthere
      subst hl
      exact hother (denotes_eq_some_iff.mpr ⟨hnul, _, _, hspot⟩)
  · intro hspot
    obtain ⟨hempty, hshort, n, hn, hleads⟩ := resolve_eq_ok_iff.mp hspot
    exact resolve_eq_ok_iff.mpr ⟨hempty, hshort, n, hn, hleads.within hwithin⟩

end Disk

namespace Replacement

open Disk

variable {d d₁ d₂ : Disk} {h : Hazards} {path : String} {lines : List Text} {data : Bytes}

/-! ### The steps of a replacement -/

/-- What stands at the sibling's name stands at the sibling's place. -/
theorem named?_sibling_eq_some_iff {name : String} {first : List String} {e : Entry}
    (hsteps : Path.steps path = first ++ [name]) : d.named? (sibling path) = some e ↔
      (Utf8.encodeString (sibling path)).length < maxPath ∧ ∃ k ≤ maxLinks, ∃ dir,
        Site d (sibling path) k dir (siblingName name) ∧
        d.get? (child dir (siblingName name)) = some e := by
  have hpath : sibling path ≠ "" := by simp [sibling]
  rw [named?_eq_some_iff (steps_sibling hsteps) (siblingName_ne_of_length (by decide) name)
    (siblingName_ne_of_length (by decide) name) (siblingName_ne_of_length (by decide) name)]
  exact and_iff_right hpath

/-- A sibling that is written where nothing stood is one more file. -/
theorem put_of_startFile_free (hfree : d.named? (sibling path) = none)
    (hstart : d.startFile h (sibling path) data = .ok d₁) :
    ∃ dir tmp x, tmp ≠ "" ∧ d.resolveParent (sibling path) = .ok (dir, tmp, false) ∧
      d.get? (child dir tmp) = none ∧ d₁ = d.put (child dir tmp) (.file data x) := by
  obtain ⟨-, hwrite⟩ := startFile_eq_ok_iff.mp hstart
  obtain ⟨first, name, hsteps⟩ := Path.exists_steps path
  have hsteps' := steps_sibling hsteps
  have hnone : ∀ k ≤ maxLinks, ∀ dir, Site d (sibling path) k dir (siblingName name) →
      (Utf8.encodeString (sibling path)).length < maxPath →
      d.get? (child dir (siblingName name)) = none := by
    intro k hk dir hsite hshort
    rw [Option.eq_none_iff_forall_ne_some]
    intro e hentry
    have hsome := (named?_sibling_eq_some_iff hsteps).mpr ⟨hshort, k, hk, dir, hsite, hentry⟩
    rw [hfree] at hsome
    cases hsome
  have hplain : Plain d (sibling path) := by
    intro hshort k hk dir name' hsite target hentry
    obtain ⟨first', hlast, -⟩ := hsite.way
    obtain ⟨-, hname⟩ := List.append_inj' (hsteps'.symm.trans hlast) rfl
    obtain rfl : siblingName name = name' := (List.cons.inj hname).1
    rw [hnone k hk dir hsite hshort] at hentry
    cases hentry
  have hempty : siblingName name ≠ "" := siblingName_ne_of_length (by decide) name
  obtain ⟨k, hk, dir, x, hsite, -, rfl⟩ := put_of_writeFile_plain hwrite hplain hsteps' hempty
    (siblingName_ne_of_length (by decide) name) (siblingName_ne_of_length (by decide) name)
  obtain ⟨_, _, -, hspot, -⟩ := put_of_writeFile hwrite
  obtain ⟨hpath, hshort, -⟩ := resolve_eq_ok_iff.mp hspot
  obtain ⟨first', hlast, hfirst⟩ := hsite.way
  refine ⟨dir, siblingName name, x, hempty, ?_, hnone k hk dir hsite hshort, rfl⟩
  exact (resolveParent_eq_ok_iff hempty).mpr
    ⟨hsite.isName, hpath, hshort, first', [], hlast, by simp, rfl, k, hk, hfirst⟩

/-! ### What a replacement comes to -/

/-- The file was replaced: the new text stands at the path's place, and nowhere else has the disk
changed. -/
structure Replaced (d d' : Disk) (path : String) (data : Bytes) : Prop where
  placed : ∃ dir name x, d.resolveParent path = .ok (dir, name, false) ∧
    d' = d.put (child dir name) (.file data x)
  /-- Nothing stands at the sibling's name. -/
  siblingFree : d'.named? (sibling path) = none
  /-- The path reads the new text, unless it went through its own place. -/
  reads : d'.readFile path = .ok data ↔ d.isOnItsOwnWay path = false

/-- The sibling stays behind with this text, where nothing stood, and nowhere else has the disk
changed. -/
structure LeftBehind (d d' : Disk) (path : String) (data : Bytes) : Prop where
  left : ∃ dir tmp x, d.resolveParent (sibling path) = .ok (dir, tmp, false) ∧
    d.get? (child dir tmp) = none ∧ d' = d.put (child dir tmp) (.file data x)
  /-- The path finds what it found, unless it leads to the sibling. -/
  finds : ¬d'.SameFile path (sibling path) → d'.entry? path = d.entry? path

section Written

variable {dir : Location} {tmp : String} {x : Bool} (hempty : tmp ≠ "")
  (htmp : d.resolveParent (sibling path) = .ok (dir, tmp, false))
  (hfree : d.get? (child dir tmp) = none)

include hempty htmp hfree

/-- The sibling and its move together put the new text at the path's place. -/
theorem put_of_replaceFile
    (hmove : (d.put (child dir tmp) (.file data x)).replaceFile h (sibling path) path = .ok d₂) :
    ∃ name, name ≠ "" ∧ tmp = siblingName name ∧ d.resolveParent path = .ok (dir, name, false) ∧
      d₂ = d.put (child dir name) (.file data x) := by
  have hloc := child_ne_nil dir tmp
  have hkeeps : Keeps (· = data) d (d.put (child dir tmp) (.file data x)) :=
    keeps_put_of_free hloc hfree
  obtain ⟨-, -, -, hrename⟩ := replaceFile_eq_ok_iff.mp hmove
  obtain ⟨srcDir, srcName, dstDir, name, e, hsrc, hsrcName, hdst, hname, hentry, -, -, rfl⟩ :=
    put_of_rename hrename
  have hsrc' := hkeeps.resolveParent hsrcName hsrc
  have hdst' := hkeeps.resolveParent hname hdst
  obtain ⟨rfl, rfl⟩ : srcDir = dir ∧ srcName = tmp := by simpa [htmp, eq_comm] using hsrc'
  obtain ⟨rfl, rfl⟩ := resolveParent_sibling hname hsrcName hdst' htmp
  rw [get?_put_self d _ hloc] at hentry
  cases hentry
  rw [erase_put, erase_of_free hloc hfree]
  exact ⟨name, hname, rfl, hdst', rfl⟩

/-- Its removal takes it away again. -/
theorem eq_of_removeFile
    (hremove : (d.put (child dir tmp) (.file data x)).removeFile h (sibling path) = .ok d₂) :
    d₂ = d := by
  have hloc := child_ne_nil dir tmp
  have hkeeps : Keeps (· = data) d (d.put (child dir tmp) (.file data x)) :=
    keeps_put_of_free hloc hfree
  unfold removeFile at hremove
  split at hremove
  · cases hremove
  obtain ⟨dir', name', hparent, hname', rfl⟩ := erase_of_unlink hremove
  have hparent' := hkeeps.resolveParent hname' hparent
  obtain ⟨rfl, rfl⟩ : dir' = dir ∧ name' = tmp := by simpa [htmp, eq_comm] using hparent'
  rw [erase_put, erase_of_free hloc hfree]

theorem replaced_of_replaceFile (hnul : '\x00' ∉ path.toList)
    (hmove : (d.put (child dir tmp) (.file data x)).replaceFile h (sibling path) path = .ok d₂) :
    Replaced d d₂ path data := by
  obtain ⟨name, hname, rfl, hparent, rfl⟩ := put_of_replaceFile hempty htmp hfree hmove
  refine ⟨⟨dir, name, x, hparent, rfl⟩, ?_, readFile_put_iff hnul hname hparent⟩
  obtain ⟨-, -, first, hsteps, -⟩ := leads_of_resolveParent hparent hname
  rw [Option.eq_none_iff_forall_ne_some]
  intro e hsome
  obtain ⟨hshort, k, hk, dir', hsite, hentry⟩ := (named?_sibling_eq_some_iff hsteps).mp hsome
  -- The sibling's directory is the one that it was, and there the sibling's name is free.
  obtain ⟨first', hsteps', hfirst⟩ := hsite.way
  have hloc := child_ne_nil dir name
  have hbefore := ((keeps_erase_put hloc).leads_directory hfirst).within (within_erase d _ hloc)
  have hparent' : d.resolveParent (sibling path) = .ok (dir', siblingName name, false) :=
    (resolveParent_eq_ok_iff hempty).mpr ⟨hsite.isName, by simp [sibling], hshort, first', [],
      hsteps', by simp, rfl, k, hk, hbefore⟩
  obtain rfl : dir = dir' := by simpa [htmp] using hparent'
  rw [get?_put_of_ne d _ (child_ne_sibling dir name).symm, hfree] at hentry
  cases hentry

theorem leftBehind_put (hnul : '\x00' ∉ path.toList) :
    LeftBehind d (d.put (child dir tmp) (.file data x)) path data := by
  refine ⟨⟨dir, tmp, x, htmp, hfree, rfl⟩, fun hother => ?_⟩
  have hloc := child_ne_nil dir tmp
  obtain ⟨-, -, hshort, -⟩ := (resolveParent_eq_ok_iff hempty).mp htmp
  obtain ⟨hisName, hpath, first, hsteps, n, hn, hfirst⟩ := leads_of_resolveParent htmp hempty
  have hsite : Site (d.put (child dir tmp) (.file data x)) (sibling path) n dir tmp :=
    ⟨hisName, first, hsteps, hfirst.within (within_put_of_free hloc hfree)⟩
  have hopen := Opens.of_site (not_mem_sibling hnul) hpath hshort hn hsite (get?_put_self d _ hloc)
  refine entry?_put_of_free hloc hfree fun hself => hother ?_
  exact sameFile_of_denotes hself hopen.denotes_eq

end Written

/-- A path with a NUL is refused before anything is done. -/
theorem apply_of_nul (hnul : '\x00' ∈ path.toList) (d : Disk) (h : Hazards) (lines : List Text) :
    apply d h path lines = .error .embeddedNul := by
  have hnul' : '\x00' ∈ (sibling path).toList := by
    rw [sibling, String.toList_append]
    exact List.mem_append_left _ hnul
  have hstart : ∀ data, d.startFile h (sibling path) data = .error .embeddedNul := by
    intro data
    unfold startFile
    split
    · simp [onPath, hnul']
    · simp [writeFile, onPath, hnul']
  have hcreate : d.createFile h (sibling path) (Source.bytes lines)
      = .error (.embeddedNul, d) := by
    unfold createFile
    split <;> rw [hstart]
    rfl
  simp only [apply, hcreate]

/-- **A replacement is done or it is not.**  Let nothing stand at the sibling's name, or let what
stands there keep the sibling from being created.  Then a replacement comes to an outcome, for every
path that can be asked for.  It succeeds exactly if the sibling is written and moved, and then the
new text at the path's place is the only change.  If it does not succeed there is no change at all,
unless the sibling could be neither moved nor removed, or was created and could not be filled.  Then
the sibling is the only change, with the new text or as much of it as got there. -/
theorem apply_all_or_nothing (d : Disk) (h : Hazards) (path : String) (lines : List Text)
    (hfree : d.named? (sibling path) = none ∨
      ∀ d₁, d.startFile h (sibling path) (Source.bytes lines) ≠ .ok d₁) :
    ('\x00' ∈ path.toList → apply d h path lines = .error .embeddedNul) ∧
    ('\x00' ∉ path.toList → ∃ o, apply d h path lines = .ok o ∧
      (o.replaced = true ↔ ∃ d₁ d₂, d.createFile h (sibling path) (Source.bytes lines) = .ok d₁ ∧
        d₁.replaceFile h (sibling path) path = .ok d₂) ∧
      (o.replaced = true → Replaced d o.disk path (Source.bytes lines)) ∧
      (o.replaced = false → o.disk = d ∨
        ((∃ d₁ e e', d.createFile h (sibling path) (Source.bytes lines) = .ok d₁ ∧
          d₁.replaceFile h (sibling path) path = .error e ∧
          d₁.removeFile h (sibling path) = .error e') ∧
        LeftBehind d o.disk path (Source.bytes lines)) ∨
        ∃ count, h.fillStops = some count ∧
          LeftBehind d o.disk path ((Source.bytes lines).take count))) := by
  refine ⟨fun hnul => apply_of_nul hnul d h lines, fun hnul => ?_⟩
  obtain ⟨o, hrun⟩ := exists_apply hnul d h lines
  refine ⟨o, hrun, ?_⟩
  -- If the sibling can be created at all, nothing stood at its name.
  have hnone : ∀ {data d₁}, d.startFile h (sibling path) data = .ok d₁ →
      d.named? (sibling path) = none := by
    intro data d₁ hstart
    obtain ⟨d₂, hstart'⟩ := exists_startFile hstart (Source.bytes lines)
    exact hfree.resolve_right fun hfails => hfails d₂ hstart'
  rcases apply_cases hrun with ⟨hnot, e, hcreate⟩ | ⟨d₁, hcreate, hswap⟩
  · refine ⟨by simp [hnot, hcreate], by simp [hnot], fun _ => ?_⟩
    rcases createFile_eq_error hcreate with ⟨hdisk, -⟩ | ⟨-, count, hfill, hstart⟩
    · exact Or.inl hdisk
    · obtain ⟨dir, tmp, x, hempty, htmp, htaken, hdisk⟩ :=
        put_of_startFile_free (hnone hstart) hstart
      rw [hdisk]
      exact Or.inr (Or.inr ⟨count, hfill, leftBehind_put hempty htmp htaken hnul⟩)
  obtain ⟨-, hstart⟩ := createFile_eq_ok_iff.mp hcreate
  obtain ⟨dir, tmp, x, hempty, htmp, htaken, rfl⟩ := put_of_startFile_free (hnone hstart) hstart
  rcases swap_cases hswap with ⟨hdone, hmove⟩ | ⟨hnot, e, hmove, hremove | ⟨hleft, e', hremove⟩⟩
  · refine ⟨?_, fun _ => replaced_of_replaceFile hempty htmp htaken hnul hmove, by simp [hdone]⟩
    simp [hdone, hcreate, hmove]
  · refine ⟨?_, by simp [hnot], fun _ => Or.inl (eq_of_removeFile hempty htmp htaken hremove)⟩
    simp [hnot, hcreate, hmove]
  · refine ⟨by simp [hnot, hcreate, hmove], by simp [hnot], fun _ => Or.inr (Or.inl ?_)⟩
    rw [hleft]
    exact ⟨⟨_, e, e', hcreate, hmove, hremove⟩, leftBehind_put hempty htmp htaken hnul⟩

/-- A disk on which `a.js` is a link to another file. -/
def linkedFile : Disk where
  entries := [(["a.js"], .link "b"), (["b"], .file [0x62, 0x0A] false)]

/-- The link is what is replaced, and the file that it led to stays. -/
theorem apply_all_or_nothing_linked :
    linkedFile.named? (sibling "a.js") = none ∧
    ∃ o, apply linkedFile {} "a.js" [Text.ofString "a;"] = .ok o ∧ o.replaced = true ∧
      o.disk.readFile "a.js" = .ok [0x61, 0x3B, 0x0A] ∧
      o.disk.readFile "b" = .ok [0x62, 0x0A] := by
  have hfree : linkedFile.named? (sibling "a.js") = none := by decide +kernel
  obtain ⟨-, hcan⟩ := apply_all_or_nothing linkedFile {} "a.js" [Text.ofString "a;"] (Or.inl hfree)
  obtain ⟨o, hrun, -, hdone, -⟩ := hcan (by decide)
  have hend : (apply linkedFile {} "a.js" [Text.ofString "a;"]).map
      (fun o => (o.replaced, o.disk.readFile "b")) = .ok (true, .ok [0x62, 0x0A]) := by
    decide +kernel
  rw [hrun] at hend
  obtain ⟨hreplaced, hother⟩ := Prod.mk.inj (Except.ok.inj hend)
  have hreads := (hdone hreplaced).reads.mpr (by decide +kernel)
  exact ⟨hfree, o, hrun, hreplaced, hreads, hother⟩

/-- A disk on which `x` is a link to the directory that it is in. -/
def roundLink : Disk where
  entries := [(["x"], .link ".")]

/-- A disk on which `a.js` is a link to its own sibling, which is not there. -/
def ownLink : Disk where
  entries := [(["a.js"], .link "a.js.autofix.tmp")]

/-- A disk with one file. -/
def loneFile : Disk where
  entries := [(["a.js"], .file [0x62, 0x0A] false)]

/-- What a path reads can tell more than its place: a file that was replaced is out of its path's
reach, and a path that read nothing reads the sibling that stayed behind.  And a sibling that could
not be filled stays behind though it could be removed. -/
theorem replaced_out_of_reach :
    (roundLink.named? (sibling "x/x") = none ∧
      (apply roundLink {} "x/x" [Text.ofString "a"]).map
        (fun o => (o.replaced, o.disk.readFile "x/x"))
        = .ok (true, .error (.refused { fault := .notDirectory, path := some "x/x" }))) ∧
    (ownLink.named? (sibling "a.js") = none ∧ ownLink.isThere "a.js" = false ∧
      (apply ownLink { replaceFails := true, unlinkFails := true } "a.js"
        [Text.ofString "a"]).map (fun o => (o.replaced, o.disk.readFile "a.js"))
        = .ok (false, .ok [0x61, 0x0A])) ∧
    loneFile.named? (sibling "a.js") = none ∧
      (apply loneFile { fillStops := some 1 } "a.js" [Text.ofString "a;"]).map
        (fun o => (o.replaced, o.disk.readFile (sibling "a.js"))) = .ok (false, .ok [0x61]) := by
  decide +kernel

end Replacement

end Semicolon
