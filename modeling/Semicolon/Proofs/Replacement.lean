/-
A file that was replaced holds the new text.

The new text is written to the sibling and the sibling's entry is moved over the file.  The
sibling may be a link, and then it is the link that is moved: the text is in the file that the
link points to.  Since the two names stand in one directory, the moved link still points where
it did, unless it went through the names that the move has changed.  So a walk after the move
either comes upon the new text or finds what it would have found before, and a path that still
leads to a file at all leads to the new text.
-/
import Semicolon.Replacement
import Semicolon.Proofs.Access

namespace Semicolon

/-! ### The name of the sibling -/

namespace Path

theorem parts_of_not_mem {s : List Char} (hs : '/' ∉ s) : parts s = [s] := by
  induction s with
  | nil => rfl
  | cons c s ih =>
      rw [List.mem_cons, not_or] at hs
      rw [parts, ih hs.2]
      exact if_neg fun hc => hs.1 hc.symm

/-- What is put behind a text without a slash in it goes to the last part. -/
theorem parts_append (cs : List Char) : ∃ first last, parts cs = first ++ [last] ∧
    ∀ s, '/' ∉ s → parts (cs ++ s) = first ++ [last ++ s] := by
  induction cs with
  | nil => exact ⟨[], [], rfl, fun s hs => parts_of_not_mem hs⟩
  | cons c cs ih =>
      obtain ⟨first, last, hparts, hall⟩ := ih
      by_cases hc : c = '/'
      · refine ⟨[] :: first, last, ?_, fun s hs => ?_⟩
        · rw [parts, hparts]
          cases first <;> simp [hc]
        · rw [List.cons_append, parts, hall s hs]
          cases first <;> simp [hc]
      · cases first with
        | nil =>
            refine ⟨[], c :: last, ?_, fun s hs => ?_⟩
            · rw [parts, hparts]
              simp [hc]
            · rw [List.cons_append, parts, hall s hs]
              simp [hc]
        | cons p ps =>
            refine ⟨(c :: p) :: ps, last, ?_, fun s hs => ?_⟩
            · rw [parts, hparts]
              simp [hc]
            · rw [List.cons_append, parts, hall s hs]
              simp [hc]

theorem steps_append {path name s : String} {first : List String} (hs : '/' ∉ s.toList)
    (h : steps path = first ++ [name]) : steps (path ++ s) = first ++ [name ++ s] := by
  obtain ⟨before, last, hparts, hall⟩ := parts_append path.toList
  rw [steps, hparts, List.map_append, List.map_singleton] at h
  obtain ⟨rfl, hname⟩ := List.append_inj' h rfl
  rw [steps, String.toList_append, hall _ hs, List.map_append, List.map_singleton,
    String.ofList_append, String.ofList_toList, (List.cons.inj hname).1]

end Path

namespace Replacement

/-- The name of the sibling in the directory that both are in. -/
def siblingName (name : String) : String := name ++ ".autofix.tmp"

theorem steps_sibling {path name : String} {first : List String}
    (h : Path.steps path = first ++ [name]) :
    Path.steps (sibling path) = first ++ [siblingName name] :=
  Path.steps_append (by decide) h

theorem base_sibling {path : String} (h : path ≠ "") (here : Location) :
    Disk.base here (sibling path) = Disk.base here path := by
  have hhead : (sibling path).toList.head? = path.toList.head? := by
    rw [sibling, String.toList_append]
    exact List.head?_append_of_ne_nil _ (by simpa using h)
  rw [Disk.base, Disk.base, Path.isAbsolute, Path.isAbsolute, hhead]

end Replacement

/-! ### Walks after a move -/

namespace Disk

/-- The entry `e` of the directory `dir` is a file with this text or a link that leads to one. -/
def Carries (d : Disk) (dir : Location) (e : Entry) (data : Bytes) : Prop :=
  (∃ x, e = .file data x) ∨ ∃ target n loc x, e = .link target ∧
    Leads d n (base dir target) (Path.steps target) (.taken loc (.file data x))

theorem Carries.ne_directory {d : Disk} {dir : Location} {e : Entry} {data : Bytes}
    (h : Carries d dir e data) : e ≠ .directory := by
  rcases h with ⟨x, rfl⟩ | ⟨target, -, -, -, rfl, -⟩
  · simp
  · simp

/-- The entry of a name that leads to a file carries the text of the file. -/
theorem Leads.carries {d : Disk} {n : Nat} {dir loc : Location} {name : String} {e : Entry}
    {data : Bytes} {x : Bool} (h : Leads d n dir [name] (.taken loc (.file data x)))
    (hname : IsName name) (he : d.get? (child dir name) = some e) : Carries d dir e data := by
  cases h with
  | step _ hnext hrest =>
      cases hnext with
      | stay hdot => exact absurd hdot (by simp [hname.notEmpty, hname.notHere])
      | up => exact absurd rfl hname.notUp
      | down =>
          cases hrest with
          | stop hhere => exact Or.inl ⟨x, Option.some.inj (he.symm.trans hhere)⟩
      | link _ hentry =>
          rw [he] at hentry
          rw [List.append_nil] at hrest
          exact Or.inr ⟨_, _, loc, x, Option.some.inj hentry, hrest⟩

section Move

variable {d : Disk} {dir loc : Location} {tmp name : String} {e : Entry} {data : Bytes}

/-- The disk on which the entry `e` of `tmp` has been moved to `name`, in one directory. -/
def moved (d : Disk) (dir : Location) (tmp name : String) (e : Entry) : Disk :=
  (d.erase (child dir tmp)).put (child dir name) e

theorem get?_moved_self : (d.moved dir tmp name e).get? (child dir name) = some e :=
  get?_put_self _ e (child_ne_nil dir name)

theorem get?_of_moved {l : Location} {e' : Entry} (hl : l ≠ child dir name)
    (h : (d.moved dir tmp name e).get? l = some e') : d.get? l = some e' := by
  rw [moved, get?_put_of_ne _ e hl] at h
  by_cases htmp : l = child dir tmp
  · rw [htmp, get?_erase_self d (child_ne_nil dir tmp)] at h
    cases h
  · rwa [get?_erase_of_ne d htmp] at h

theorem directory_of_moved {l : Location} (he : e ≠ .directory)
    (h : (d.moved dir tmp name e).get? l = some .directory) : d.get? l = some .directory := by
  refine get?_of_moved (fun hl => he ?_) h
  rw [hl, get?_moved_self] at h
  exact Option.some.inj h

/-- A step after a move was there before it, or it goes by the name that the entry has got. -/
theorem Next.of_moved {here there : Location} {step : String} {k : Nat} {more : List String}
    (h : Next (d.moved dir tmp name e) here step k there more) :
    Next d here step k there more ∨
      ((∀ target, e ≠ .link target) ∧ there = child dir name ∧ more = []) ∨
      ∃ target, e = .link target ∧ there = base dir target ∧ more = Path.steps target := by
  cases h with
  | stay hname => exact Or.inl (.stay hname)
  | up => exact Or.inl .up
  | down hname hentry hlink =>
      by_cases hplace : child here step = child dir name
      · rw [hplace, get?_moved_self] at hentry
        cases hentry
        exact Or.inr (Or.inl ⟨hlink, hplace, rfl⟩)
      · exact Or.inl (.down hname (get?_of_moved hplace hentry) hlink)
  | @link _ target hname hentry =>
      by_cases hplace : child here step = child dir name
      · rw [hplace, get?_moved_self] at hentry
        obtain ⟨rfl, -⟩ := child_inj.mp hplace
        exact Or.inr (Or.inr ⟨target, Option.some.inj hentry, rfl, rfl⟩)
      · exact Or.inl (.link hname (get?_of_moved hplace hentry))

/-- **After a move, a walk comes upon the new text or goes as it went before.**  Only at the name
itself can the walks part, and from there the new one goes where the old one went from the moved
name: to the new text. -/
theorem Leads.of_moved {n : Nat} {here : Location} {todo : List String} {e' : Entry}
    (h : Leads (d.moved dir tmp name e) n here todo (.taken loc e'))
    (htext : Carries d dir e data) (hend : ∀ target, e' ≠ .link target) :
    (∃ x, e' = .file data x) ∨ ∃ k, Leads d k here todo (.taken loc e') := by
  generalize hspot : Spot.taken loc e' = spot at h
  induction h with
  | free => cases hspot
  | stop hhere =>
      cases hspot
      by_cases hplace : loc = child dir name
      · rw [hplace, get?_moved_self] at hhere
        cases hhere
        rcases htext with hfile | ⟨target, -, -, -, rfl, -⟩
        · exact Or.inl hfile
        · exact absurd rfl (hend target)
      · exact Or.inr ⟨0, .stop (get?_of_moved hplace hhere)⟩
  | step hhere hnext hrest ih =>
      rcases hnext.of_moved with hnext' | ⟨hlink, rfl, rfl⟩ | ⟨target, rfl, rfl, rfl⟩
      · refine (ih hspot).imp id ?_
        rintro ⟨k, hk⟩
        exact ⟨_, .step (directory_of_moved htext.ne_directory hhere) hnext' hk⟩
      · -- The moved entry is no link, so it is the file with the new text.
        rcases htext with ⟨x, rfl⟩ | ⟨target, -, -, -, rfl, -⟩
        · cases hspot.trans (hrest.eq_of_file get?_moved_self)
          exact Or.inl ⟨x, rfl⟩
        · exact absurd rfl (hlink target)
      · -- The moved link led to the new text, which is a file and cannot be left again.
        rcases ih hspot with hnew | ⟨k, hk⟩
        · exact Or.inl hnew
        rcases htext with ⟨x, hfile⟩ | ⟨_, _, _, x, hlink, hold⟩
        · cases hfile
        · cases hlink
          subst hspot
          obtain ⟨_, _, mid, e₁, -, hfirst, hlast⟩ := hk.split
          cases hfirst.unique hold
          cases hlast.eq_of_file hold.get?_place
          exact Or.inl ⟨x, rfl⟩

/-- A moved entry carries the text that it carried before, if it carries any. -/
theorem Carries.of_moved {bs : Bytes} (h : Carries (d.moved dir tmp name e) dir e bs)
    (htext : Carries d dir e data) : bs = data := by
  rcases h with ⟨x, rfl⟩ | ⟨target, n, loc, x, rfl, hleads⟩
  · rcases htext with ⟨x', hfile⟩ | ⟨_, _, _, _, hlink, -⟩
    · cases hfile
      rfl
    · cases hlink
  · rcases hleads.of_moved htext (by simp) with ⟨x', hfile⟩ | ⟨k, hk⟩
    · cases hfile
      rfl
    · rcases htext with ⟨_, hfile⟩ | ⟨_, _, _, _, hlink, hold⟩
      · cases hfile
      · cases hlink
        cases hold.unique hk
        rfl

end Move

end Disk

/-! ### The file after its replacement -/

namespace Replacement

open Disk

/-- The sibling is moved from its name to the name of the file, both in one directory. -/
theorem moved_of_rename {d d' : Disk} {path : String}
    (h : d.rename (sibling path) path = .ok d') :
    ∃ dir name first n e, path ≠ "" ∧ Path.steps path = first ++ [name] ∧
      IsName name ∧ IsName (siblingName name) ∧
      Leads d n (base d.cwd path) first (.taken dir .directory) ∧
      d.get? (child dir (siblingName name)) = some e ∧
      d' = d.moved dir (siblingName name) name e := by
  obtain ⟨srcDir, srcName, dir, name, e, hsrc, hsrcName, hdst, hdstName, hentry, -, -, rfl⟩ :=
    put_of_rename h
  obtain ⟨hname, hpath, first, hsteps, n, -, hfirst⟩ := leads_of_resolveParent hdst hdstName
  obtain ⟨hname', -, first', hsteps', n', -, hfirst'⟩ := leads_of_resolveParent hsrc hsrcName
  rw [steps_sibling hsteps] at hsteps'
  obtain ⟨rfl, hlast⟩ := List.append_inj' hsteps' rfl
  obtain rfl : siblingName name = srcName := (List.cons.inj hlast).1
  rw [base_sibling hpath] at hfirst'
  obtain rfl : dir = srcDir := (Spot.taken.inj (hfirst.unique hfirst')).1
  exact ⟨dir, name, first, n, e, hpath, hsteps, hname, hname', hfirst, hentry, rfl⟩

/-- **A file that was replaced holds the new text**, if it can be read at all. -/
theorem readFile_of_moved {d d₁ d₂ : Disk} {path : String} {data bs : Bytes}
    (hwrite : d.writeFile (sibling path) data = .ok d₁)
    (hmove : d₁.rename (sibling path) path = .ok d₂) (hread : d₂.readFile path = .ok bs) :
    bs = data := by
  obtain ⟨dir, name, first, n, e, hpath, hsteps, hname, hname', hfirst, hentry, rfl⟩ :=
    moved_of_rename hmove
  -- Before the move, the sibling's name led to the new text.
  obtain ⟨-, loc₀, x₀, hres₀⟩ := readFile_eq_ok_iff.mp (readFile_writeFile hwrite)
  obtain ⟨-, -, n₀, -, hleads₀⟩ := resolve_eq_ok_iff.mp hres₀
  rw [base_sibling hpath, steps_sibling hsteps] at hleads₀
  obtain ⟨m₀, hlast₀⟩ := hleads₀.last hfirst
  have htext : Carries d₁ dir e data := hlast₀.carries hname' hentry
  -- After it, the steps before the name lead to the same directory.
  obtain ⟨-, loc, x, hres⟩ := readFile_eq_ok_iff.mp hread
  obtain ⟨-, -, k, -, hleads⟩ := resolve_eq_ok_iff.mp hres
  rw [hsteps] at hleads
  obtain ⟨k₁, k₂, mid, e₁, -, hfirst', hlast⟩ := hleads.split
  obtain rfl : e₁ = .directory :=
    Option.some.inj (hfirst'.get?_place.symm.trans hlast.directory_of_cons)
  have hdir : mid = dir := by
    rcases hfirst'.of_moved htext (by simp) with ⟨x', hfile⟩ | ⟨k', hk'⟩
    · simp at hfile
    · exact (Spot.taken.inj (hk'.unique hfirst)).1
  subst hdir
  -- And there the name has the moved entry.
  exact (hlast.carries hname get?_moved_self).of_moved htext

/-! ### How a replacement goes -/

theorem not_mem_sibling {path : String} (hnul : '\x00' ∉ path.toList) :
    '\x00' ∉ (sibling path).toList := by
  rw [sibling, String.toList_append, List.mem_append, not_or]
  exact ⟨hnul, by decide⟩

/-- What becomes of a sibling that was written: it is moved, or it is removed, or neither can be
done. -/
theorem swap_cases {d₁ : Disk} {h : Hazards} {path : String} {o : Outcome}
    (hrun : swap d₁ h path = .ok o) :
    (o.replaced = true ∧ d₁.replaceFile h (sibling path) path = .ok o.disk) ∨
      o.replaced = false ∧ ∃ e, d₁.replaceFile h (sibling path) path = .error e ∧
        (d₁.removeFile h (sibling path) = .ok o.disk ∨
          o.disk = d₁ ∧ ∃ e', d₁.removeFile h (sibling path) = .error e') := by
  unfold swap at hrun
  split at hrun
  · rename_i d₂ hmove
    cases hrun
    exact Or.inl ⟨rfl, hmove⟩
  · cases hrun
  · rename_i f hmove
    split at hrun
    · rename_i d₂ hremove
      cases hrun
      exact Or.inr ⟨rfl, _, hmove, Or.inl hremove⟩
    · cases hrun
    · rename_i f' hremove
      cases hrun
      exact Or.inr ⟨rfl, _, hmove, Or.inr ⟨rfl, _, hremove⟩⟩

/-- A sibling that is not written, or not to its end, ends a replacement. -/
theorem apply_cases {d : Disk} {h : Hazards} {path : String} {lines : List Text} {o : Outcome}
    (hrun : apply d h path lines = .ok o) :
    (o.replaced = false ∧
      ∃ e, d.createFile h (sibling path) (Source.bytes lines) = .error (e, o.disk)) ∨
      ∃ d₁, d.createFile h (sibling path) (Source.bytes lines) = .ok d₁ ∧
        swap d₁ h path = .ok o := by
  unfold apply at hrun
  split at hrun
  · rename_i d₁ hcreate
    exact Or.inr ⟨d₁, hcreate, hrun⟩
  · cases hrun
  · rename_i f d₁ hcreate
    cases hrun
    exact Or.inl ⟨rfl, _, hcreate⟩

/-- A replacement succeeds exactly if the sibling is written and then moved. -/
theorem apply_replaced_iff {d : Disk} {h : Hazards} {path : String} {lines : List Text}
    {o : Outcome} : apply d h path lines = .ok o ∧ o.replaced = true ↔
      ∃ d₁ d₂, d.createFile h (sibling path) (Source.bytes lines) = .ok d₁ ∧
        d₁.replaceFile h (sibling path) path = .ok d₂ ∧
        o = { disk := d₂, log := [.debug ("Rewrote " ++ path)], replaced := true } := by
  constructor
  · rintro ⟨hrun, hreplaced⟩
    unfold apply at hrun
    split at hrun
    · rename_i d₁ hwrite
      unfold swap at hrun
      split at hrun
      · rename_i d₂ hmove
        exact ⟨d₁, d₂, hwrite, hmove, (Except.ok.inj hrun).symm⟩
      · cases hrun
      · split at hrun
        · cases hrun
          cases hreplaced
        · cases hrun
        · cases hrun
          cases hreplaced
    · cases hrun
    · cases hrun
      cases hreplaced
  · rintro ⟨d₁, d₂, hwrite, hmove, rfl⟩
    exact ⟨by simp only [apply, swap, hwrite, hmove], rfl⟩

/-- A replacement comes to an outcome, good or bad, for every path without a NUL. -/
theorem exists_apply {path : String} (hnul : '\x00' ∉ path.toList) (d : Disk) (h : Hazards)
    (lines : List Text) : ∃ o, apply d h path lines = .ok o := by
  have hnul' := not_mem_sibling hnul
  have hcreate : ∀ d₁, d.createFile h (sibling path) (Source.bytes lines) ≠
      .error (.embeddedNul, d₁) := fun _ => createFile_ne_embeddedNul h hnul'
  unfold apply
  split
  · rename_i d₁ _
    have hmove := replaceFile_ne_embeddedNul (d := d₁) h hnul' hnul
    have hremove := removeFile_ne_embeddedNul (d := d₁) h hnul'
    unfold swap
    split
    · exact ⟨_, rfl⟩
    · contradiction
    · split
      · exact ⟨_, rfl⟩
      · contradiction
      · exact ⟨_, rfl⟩
  · rename_i hnot
    exact absurd hnot (hcreate _)
  · exact ⟨_, rfl⟩

/-- The bytes of a file after its replacement. -/
theorem readFile_of_replaced {d : Disk} {h : Hazards} {path : String} {lines : List Text}
    {o : Outcome} {bs : Bytes} (hrun : apply d h path lines = .ok o) (hdone : o.replaced = true)
    (hread : o.disk.readFile path = .ok bs) : bs = Source.bytes lines := by
  obtain ⟨d₁, d₂, hwrite, hmove, rfl⟩ := apply_replaced_iff.mp ⟨hrun, hdone⟩
  obtain ⟨-, -, -, hrename⟩ := replaceFile_eq_ok_iff.mp hmove
  obtain ⟨-, hstart⟩ := createFile_eq_ok_iff.mp hwrite
  exact readFile_of_moved (startFile_eq_ok_iff.mp hstart).2 hrename hread

end Replacement

end Semicolon
