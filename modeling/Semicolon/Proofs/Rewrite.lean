/-
What a replacement does to the rest of the disk.

If the sibling is no link, a replacement touches two names of one directory, that of the file and
that of the sibling, whatever of it succeeds and whatever fails.  So a walk can notice it only by
going through one of the two.  No walk goes on from the sibling, which is a file or nothing.  One
that goes through the name of the file ends at the very file that was read there, be the name that
of the file itself or of a link to it.  Every other walk leads where it led before.
-/
import Semicolon.Proofs.Opening

namespace Semicolon

namespace Disk

variable {c d d' : Disk} {n k : Nat} {here dir loc : Location} {name path : String}
  {todo : List String} {e : Entry} {data old : Bytes}

open Replacement (sibling siblingName)

/-! ### The sibling's name -/

theorem toList_siblingName (name : String) :
    (siblingName name).toList = name.toList ++ ".autofix.tmp".toList :=
  String.toList_append

theorem siblingName_ne_self (name : String) : siblingName name ≠ name := by
  intro heq
  have hlen := congrArg (fun s : String => s.toList.length) heq
  simp only [toList_siblingName, List.length_append] at hlen
  have hsuffix : ".autofix.tmp".toList.length = 12 := by decide
  omega

theorem siblingName_ne_of_length {s : String} (hs : s.toList.length < 12) (name : String) :
    siblingName name ≠ s := by
  rintro rfl
  rw [toList_siblingName, List.length_append] at hs
  have hsuffix : ".autofix.tmp".toList.length = 12 := by decide
  omega

/-- The name of a source file is not that of a sibling. -/
theorem siblingName_ne_source (name stem : String) :
    siblingName name ≠ stem ++ Discovery.sourceSuffix := by
  intro heq
  have hlast := congrArg (fun s : String => s.toList.getLast?) heq
  simp only [toList_siblingName, String.toList_append] at hlast
  rw [List.getLast?_append_of_ne_nil _ (by decide), List.getLast?_append_of_ne_nil _ (by decide)]
    at hlast
  exact absurd hlast (by decide)

/-! ### The operations at a site -/

theorem site_of_resolveParent (h : d.resolveParent path = .ok (dir, name, false))
    (hname : name ≠ "") : ∃ k, Site d path k dir name := by
  obtain ⟨hisName, -, first, hsteps, k, -, hfirst⟩ := leads_of_resolveParent h hname
  exact ⟨k, hisName, first, hsteps, hfirst⟩

/-- A write to a path at whose site there is no link puts the file there. -/
theorem put_of_writeFile_plain {first : List String} (hwrite : d.writeFile path data = .ok d')
    (hplain : Plain d path) (hsteps : Path.steps path = first ++ [name]) (hempty : name ≠ "")
    (hhere : name ≠ ".") (hup : name ≠ "..") : ∃ k ≤ maxLinks, ∃ dir x, Site d path k dir name ∧
      (∀ e, d.get? (child dir name) = some e → ∃ old x', e = .file old x') ∧
      d' = d.put (child dir name) (.file data x) := by
  obtain ⟨spot, x, -, hspot, -, hold, rfl⟩ := put_of_writeFile hwrite
  obtain ⟨-, hshort, n, hn, hleads⟩ := resolve_eq_ok_iff.mp hspot
  rw [hsteps] at hleads
  obtain ⟨k, m, dir, rfl, hfirst, hlast⟩ := hleads.split_last hempty
  have hk : k ≤ maxLinks := by omega
  have hplace := hlast.get?_place
  have hfound : IsName name ∧ spot.place = child dir name := by
    cases hlast with
    | free _ hname => exact ⟨hname, rfl⟩
    | step _ hnext hrest =>
        cases hnext with
        | stay hdot => exact absurd hdot (by simp [hempty, hhere])
        | up => exact absurd rfl hup
        | down hname =>
            cases hrest with
            | stop => exact ⟨hname, rfl⟩
        | link hname hentry =>
            exact absurd hentry (hplain hshort k hk dir name ⟨hname, first, hsteps, hfirst⟩ _)
  obtain ⟨hname, hchild⟩ := hfound
  rw [hchild] at hplace ⊢
  refine ⟨k, hk, dir, x, ⟨hname, first, hsteps, hfirst⟩, fun e he => ?_, rfl⟩
  exact hold e (by rw [← hplace, he])

/-! ### Two names of one directory -/

/-- The disks differ at most at the name and at the sibling's name in the directory, where the
second one has these bytes or, at the sibling's, nothing.  No directory was at the name, and at the
sibling's there was at most a file. -/
structure Rewrites (d d' : Disk) (dir : Location) (name : String) (data : Bytes) : Prop where
  keeps : Keeps (· = data) d d'
  elsewhere : ∀ l, l ≠ child dir name → l ≠ child dir (siblingName name) → d'.get? l = d.get? l
  atName : d'.get? (child dir name) = d.get? (child dir name) ∨
    ∃ x, d'.get? (child dir name) = some (.file data x)
  sibling : ∀ e, d.get? (child dir (siblingName name)) = some e → ∃ old x, e = .file old x

/-- And the bytes are at the name, and the sibling is gone. -/
structure Replaces (d d' : Disk) (dir : Location) (name : String) (data : Bytes) : Prop
    extends Rewrites d d' dir name data where
  placed : ∃ x, d'.get? (child dir name) = some (.file data x)
  cleared : d'.get? (child dir (siblingName name)) = none
  noMore : d'.entries.length ≤ d.entries.length

section Effects

variable {x : Bool}
  (hsib : ∀ e, d.get? (child dir (siblingName name)) = some e → ∃ old x, e = .file old x)

include hsib

omit hsib in
theorem child_ne_sibling (dir : Location) (name : String) :
    child dir name ≠ child dir (siblingName name) :=
  fun heq => siblingName_ne_self name (child_inj.mp heq).2.symm

theorem sibling_ne_directory : d.get? (child dir (siblingName name)) ≠ some .directory := by
  intro hdir
  obtain ⟨old, x, hfile⟩ := hsib _ hdir
  cases hfile

/-- The sibling was written and is still there. -/
theorem rewrites_put :
    Rewrites d (d.put (child dir (siblingName name)) (.file data x)) dir name data := by
  refine ⟨⟨rfl, fun l => ?_⟩, fun l _ hl => get?_put_of_ne d _ hl,
    Or.inl (get?_put_of_ne d _ (child_ne_sibling dir name)), hsib⟩
  by_cases hl : l = child dir (siblingName name)
  · rw [hl, get?_put_self d _ (child_ne_nil _ _)]
    exact Or.inr ⟨sibling_ne_directory hsib, Or.inr ⟨data, x, rfl, rfl⟩⟩
  · exact Or.inl (get?_put_of_ne d _ hl)

/-- The sibling was written and removed again. -/
theorem rewrites_erase :
    Rewrites d ((d.put (child dir (siblingName name)) (.file data x)).erase
      (child dir (siblingName name))) dir name data := by
  have helse : ∀ l, l ≠ child dir (siblingName name) →
      ((d.put (child dir (siblingName name)) (.file data x)).erase
        (child dir (siblingName name))).get? l = d.get? l := by
    intro l hl
    rw [get?_erase_of_ne _ hl, get?_put_of_ne d _ hl]
  refine ⟨⟨rfl, fun l => ?_⟩, fun l _ hl => helse l hl,
    Or.inl (helse _ (child_ne_sibling dir name)), hsib⟩
  by_cases hl : l = child dir (siblingName name)
  · rw [hl, get?_erase_self _ (child_ne_nil _ _)]
    exact Or.inr ⟨sibling_ne_directory hsib, Or.inl rfl⟩
  · exact Or.inl (helse l hl)

omit hsib in
theorem length_moved {e : Entry} (hentry : d.get? (child dir name) = some e) :
    ((d.put (child dir (siblingName name)) (.file data x)).moved dir (siblingName name) name
      (.file data x)).entries.length ≤ d.entries.length := by
  have hmem : ∃ e ∈ d.entries, ¬decide (e.1 ≠ child dir name) = true := by
    by_contra hnone
    simp only [not_exists, not_and, not_not, decide_eq_true_eq] at hnone
    rw [get?, if_neg (child_ne_nil _ _), List.lookup_eq_none_iff.mpr] at hentry
    · cases hentry
    · intro e he
      simpa using fun hc => hnone e he (Eq.symm hc)
  -- The file's own entry makes room for the new one.
  have hroom := List.length_filter_lt_length_iff_exists.mpr hmem
  have hless : ((d.put (child dir (siblingName name)) (.file data x)).erase
      (child dir (siblingName name))).entries.Sublist d.entries := by
    simp only [erase, put]
    rw [List.filter_cons_of_neg (by simp)]
    exact List.filter_sublist.trans List.filter_sublist
  have hfilter := (hless.filter fun e => decide (e.1 ≠ child dir name)).length_le
  rw [moved, put, List.length_cons]
  exact Nat.lt_of_le_of_lt hfilter hroom

/-- The sibling was written and moved. -/
theorem replaces_moved {e : Entry} (hentry : d.get? (child dir name) = some e)
    (hdir : e ≠ .directory) :
    Replaces d ((d.put (child dir (siblingName name)) (.file data x)).moved dir (siblingName name)
      name (.file data x)) dir name data := by
  have helse : ∀ l, l ≠ child dir name → l ≠ child dir (siblingName name) →
      ((d.put (child dir (siblingName name)) (.file data x)).moved dir (siblingName name) name
        (.file data x)).get? l = d.get? l := by
    intro l hl hl'
    rw [moved, get?_put_of_ne _ _ hl, get?_erase_of_ne _ hl', get?_put_of_ne d _ hl']
  have hgone : ((d.put (child dir (siblingName name)) (.file data x)).moved dir (siblingName name)
      name (.file data x)).get? (child dir (siblingName name)) = none := by
    rw [moved, get?_put_of_ne _ _ (child_ne_sibling dir name).symm,
      get?_erase_self _ (child_ne_nil _ _)]
  refine ⟨⟨⟨rfl, fun l => ?_⟩, helse, Or.inr ⟨x, get?_moved_self⟩, hsib⟩, ⟨x, get?_moved_self⟩,
    hgone, length_moved hentry⟩
  by_cases hl : l = child dir name
  · rw [hl, get?_moved_self]
    refine Or.inr ⟨?_, Or.inr ⟨data, x, rfl, rfl⟩⟩
    rw [hentry]
    simpa using hdir
  by_cases hl' : l = child dir (siblingName name)
  · rw [hl', hgone]
    exact Or.inr ⟨sibling_ne_directory hsib, Or.inl rfl⟩
  · exact Or.inl (helse l hl hl')

end Effects

/-! ### Walks that take no notice -/

/-- The disk without the name and the sibling's name in the directory. -/
def spared (d : Disk) (dir : Location) (name : String) : Disk :=
  (d.erase (child dir name)).erase (child dir (siblingName name))

theorem get?_spared {l : Location} (hl : l ≠ child dir name)
    (hl' : l ≠ child dir (siblingName name)) : (d.spared dir name).get? l = d.get? l := by
  rw [spared, get?_erase_of_ne _ hl', get?_erase_of_ne d hl]

theorem ne_of_get?_spared {l : Location} (h : (d.spared dir name).get? l = some e) :
    l ≠ child dir name ∧ l ≠ child dir (siblingName name) := by
  have hl' : l ≠ child dir (siblingName name) := by
    rintro rfl
    rw [spared, get?_erase_self _ (child_ne_nil _ _)] at h
    cases h
  refine ⟨?_, hl'⟩
  rintro rfl
  rw [spared, get?_erase_of_ne _ hl', get?_erase_self d (child_ne_nil _ _)] at h
  cases h

theorem within_spared (d : Disk) (dir : Location) (name : String) :
    Within (d.spared dir name) d := by
  intro l e h
  obtain ⟨hl, hl'⟩ := ne_of_get?_spared h
  rw [← get?_spared hl hl', h]

namespace Rewrites

variable {loc' : Location}

/-- What is spared is on the disk afterwards. -/
theorem spared_within (hrew : Rewrites d d' dir name data) (hsub : Within c d) :
    Within (c.spared dir name) d' := by
  intro l e h
  obtain ⟨hl, hl'⟩ := ne_of_get?_spared h
  rw [hrew.elsewhere l hl hl']
  exact hsub l e (within_spared c dir name l e h)

/-- **A walk that ends neither at the file nor at the sibling keeps away from both names.**  Here
`c` is any part of the disk on which the walk goes. -/
theorem leads_spared (hrew : Rewrites d d' dir name data)
    (hopen : Opens d path dir name loc old) (hsub : Within c d) (he : ∀ target, e ≠ .link target)
    (h : Leads c n here todo (.taken loc' e)) :
    Leads (c.spared dir name) n here todo (.taken loc' e) ∨ loc' = loc ∨
      loc' = child dir (siblingName name) := by
  -- An entry at the name that is no link is the file that was opened.
  have hatName : ∀ e', (∀ target, e' ≠ .link target) → c.get? (child dir name) = some e' →
      child dir name = loc ∧ ∃ x, e' = .file old x := by
    intro e' hlink hentry
    rcases hopen.entry_cases with ⟨hloc, x, hfile⟩ | ⟨target, m, x, hentry', -⟩
    · exact ⟨hloc.symm, x, Option.some.inj ((hsub _ _ hentry).symm.trans hfile)⟩
    · exact absurd (Option.some.inj ((hsub _ _ hentry).symm.trans hentry')) (hlink target)
  generalize hspot : Spot.taken loc' e = spot at h
  induction h with
  | free => cases hspot
  | stop hhere =>
      cases hspot
      by_cases hl : loc' = child dir name
      · rw [hl] at hhere ⊢
        exact Or.inr (Or.inl (hatName e he hhere).1)
      by_cases hl' : loc' = child dir (siblingName name)
      · exact Or.inr (Or.inr hl')
      · refine Or.inl (.stop ?_)
        rw [get?_spared hl hl', hhere]
  | @step k n here there step more rest spot hhere hnext hrest ih =>
      have hhere' : (c.spared dir name).get? here = some .directory := by
        rw [get?_spared, hhere]
        · rintro rfl
          exact hopen.entry_ne_directory (hsub _ _ hhere)
        · rintro rfl
          obtain ⟨_, _, hfile⟩ := hrew.sibling _ (hsub _ _ hhere)
          cases hfile
      cases hnext with
      | stay hname => exact (ih hspot).imp (.step hhere' (.stay hname)) id
      | up => exact (ih hspot).imp (.step hhere' .up) id
      | @down _ e' hname hentry hlink =>
          subst hspot
          by_cases hl : child here step = child dir name
          · rw [hl] at hentry hrest
            obtain ⟨hloc, x, rfl⟩ := hatName e' hlink hentry
            cases hrest.eq_of_file hentry
            exact Or.inr (Or.inl hloc)
          by_cases hl' : child here step = child dir (siblingName name)
          · rw [hl'] at hentry hrest
            obtain ⟨_, x, rfl⟩ := hrew.sibling _ (hsub _ _ hentry)
            cases hrest.eq_of_file hentry
            exact Or.inr (Or.inr rfl)
          · have hentry' : (c.spared dir name).get? (child here step) = some e' := by
              rw [get?_spared hl hl', hentry]
            exact (ih rfl).imp (.step hhere' (.down hname hentry' hlink)) id
      | @link _ target hname hentry =>
          subst hspot
          by_cases hl : child here step = child dir name
          · -- The link is the one that was followed to the file, and there is no way on from it.
            obtain ⟨rfl, rfl⟩ := child_inj.mp hl
            rcases hopen.entry_cases with ⟨-, x, hfile⟩ | ⟨target', m, x, hentry', hleads⟩
            · exact absurd ((hsub _ _ hentry).symm.trans hfile) (by simp)
            · cases (hsub _ _ hentry).symm.trans hentry'
              obtain ⟨m', hlast⟩ := (hrest.within hsub).last hleads
              cases hlast.eq_of_file hleads.get?_place
              exact Or.inr (Or.inl rfl)
          by_cases hl' : child here step = child dir (siblingName name)
          · rw [hl'] at hentry
            obtain ⟨_, _, hfile⟩ := hrew.sibling _ (hsub _ _ hentry)
            cases hfile
          · have hentry' : (c.spared dir name).get? (child here step) = some (.link target) := by
              rw [get?_spared hl hl', hentry]
            exact (ih rfl).imp (.step hhere' (.link hname hentry')) id

/-- Every directory is still where it was. -/
theorem leads_directory (hrew : Rewrites d d' dir name data)
    (hopen : Opens d path dir name loc old)
    (h : Leads d n here todo (.taken loc' .directory)) :
    Leads d' n here todo (.taken loc' .directory) := by
  have hself : Within d d := fun _ _ hl => hl
  rcases hrew.leads_spared hopen hself (by simp) h with hspared | rfl | rfl
  · exact hspared.within (hrew.spared_within hself)
  · obtain ⟨x, hfile⟩ := hopen.get?_loc
    exact absurd (h.get?_place.symm.trans hfile) (by simp [Spot.entry?])
  · obtain ⟨_, _, hfile⟩ := hrew.sibling _ h.get?_place
    cases hfile

/-- And so is every site. -/
theorem site {path' : String} {dir' : Location} {name' : String}
    (hrew : Rewrites d d' dir name data) (hopen : Opens d path dir name loc old)
    (hsite : Site d path' k dir' name') : Site d' path' k dir' name' := by
  obtain ⟨first, hsteps, hfirst⟩ := hsite.way
  refine ⟨hsite.isName, first, hsteps, ?_⟩
  rw [hrew.keeps.cwd]
  exact hrew.leads_directory hopen hfirst

end Rewrites

/-- A path whose file was replaced opens the new one, right at its site. -/
theorem Replaces.opens (hrep : Replaces d d' dir name data)
    (hopen : Opens d path dir name loc old) : Opens d' path dir name (child dir name) data := by
  obtain ⟨k, hk, hsite⟩ := hopen.site
  obtain ⟨x, hfile⟩ := hrep.placed
  exact .of_site hopen.noNul hopen.notEmpty hopen.short hk
    (hrep.toRewrites.site hopen hsite) hfile

end Disk

/-! ### How a replacement goes -/

namespace Replacement

open Disk

variable {d : Disk} {h : Hazards} {path name : String} {dir loc : Location} {old : Bytes}
  {lines : List Text} {o : Outcome}

/-- Once the sibling is written, whatever becomes of it is at the two names. -/
theorem rewrites_of_swap {data : Bytes} {x : Bool} (hopen : Opens d path dir name loc old)
    (hname : IsName (siblingName name))
    (hsib : ∀ e, d.get? (child dir (siblingName name)) = some e → ∃ old x, e = .file old x)
    (hrun : swap (d.put (child dir (siblingName name)) (.file data x)) h path = .ok o) :
    Rewrites d o.disk dir name data ∧
      (o.replaced = true → Replaces d o.disk dir name data) := by
  obtain ⟨k, hk, hsite⟩ := hopen.site
  have hrew : Rewrites d (d.put (child dir (siblingName name)) (.file data x)) dir name data :=
    rewrites_put hsib
  rcases swap_cases hrun with ⟨-, hmove⟩ | ⟨hnot, -, -, hremove | ⟨hleft, -⟩⟩
  · obtain ⟨-, -, -, hrename⟩ := replaceFile_eq_ok_iff.mp hmove
    obtain ⟨dir', name', first, n, e, -, hsteps, hname', -, hfirst, hmoved, hdisk⟩ :=
      moved_of_rename hrename
    -- The move is at the same site, since the write has changed no directory.
    obtain ⟨rfl, rfl⟩ := hsite.unique (hrew.keeps.site ⟨hname', first, hsteps, hfirst⟩)
    rw [get?_put_self d _ (child_ne_nil _ _)] at hmoved
    cases hmoved
    obtain ⟨e, hentry, hdir⟩ : ∃ e, d.get? (child dir' name') = some e ∧ e ≠ .directory := by
      rcases hopen.entry_cases with ⟨-, x', hfile⟩ | ⟨target, m, x', hlink, -⟩
      · exact ⟨_, hfile, by simp⟩
      · exact ⟨_, hlink, by simp⟩
    have hrep : Replaces d o.disk dir' name' data := by
      rw [hdisk]
      exact replaces_moved hsib hentry hdir
    exact ⟨hrep.toRewrites, fun _ => hrep⟩
  · unfold removeFile at hremove
    split at hremove
    · cases hremove
    obtain ⟨dir', name', hparent, hname', hdisk⟩ := erase_of_unlink hremove
    obtain ⟨k', hsite'⟩ := site_of_resolveParent hparent hname'
    obtain ⟨rfl, rfl⟩ :=
      (hsite.sibling hopen.notEmpty hname).unique (hrew.keeps.site hsite')
    rw [hdisk]
    exact ⟨rewrites_erase hsib, by simp [hnot]⟩
  · rw [hleft]
    exact ⟨hrew, by simp [hnot]⟩

/-- A sibling that is started is at its name, where nothing or a file was. -/
theorem put_of_startFile {d₁ : Disk} {data : Bytes} (hopen : Opens d path dir name loc old)
    (hplain : Plain d (sibling path)) (hstart : d.startFile h (sibling path) data = .ok d₁) :
    ((Utf8.encodeString (sibling path)).length < maxPath ∧ IsName (siblingName name)) ∧
      (∀ e, d.get? (child dir (siblingName name)) = some e → ∃ old x, e = .file old x) ∧
      ∃ x, d₁ = d.put (child dir (siblingName name)) (.file data x) := by
  obtain ⟨k, hk, hsite⟩ := hopen.site
  obtain ⟨first, hsteps, -⟩ := hsite.way
  obtain ⟨-, hwrite⟩ := startFile_eq_ok_iff.mp hstart
  obtain ⟨k', hk', dir', x, hsite', hsib, rfl⟩ :=
    put_of_writeFile_plain hwrite hplain (steps_sibling hsteps)
      (siblingName_ne_of_length (by decide) name) (siblingName_ne_of_length (by decide) name)
      (siblingName_ne_of_length (by decide) name)
  obtain ⟨rfl, -⟩ := hsite'.unique (hsite.sibling hopen.notEmpty hsite'.isName)
  obtain ⟨_, _, -, hspot, -⟩ := put_of_writeFile hwrite
  obtain ⟨-, hshort, -⟩ := resolve_eq_ok_iff.mp hspot
  exact ⟨⟨hshort, hsite'.isName⟩, hsib, x, rfl⟩

/-- **A replacement leaves the disk alone, or changes it at two names**, where it writes the new
text, or less of it if the filling of the sibling fails.  If it succeeds, the new text is at the
file's name and the sibling's is free. -/
theorem rewrites_of_apply (hopen : Opens d path dir name loc old)
    (hplain : Plain d (sibling path)) (hrun : apply d h path lines = .ok o) :
    (o.disk = d ∧ o.replaced = false) ∨
      ((Utf8.encodeString (sibling path)).length < maxPath ∧ IsName (siblingName name)) ∧
        (∃ text, Rewrites d o.disk dir name text ∧
          (h.fillStops = none → text = Source.bytes lines)) ∧
        (o.replaced = true → Replaces d o.disk dir name (Source.bytes lines)) := by
  rcases apply_cases hrun with ⟨hnot, e, hcreate⟩ | ⟨d₁, hcreate, hswap⟩
  · rcases createFile_eq_error hcreate with ⟨hdisk, -⟩ | ⟨-, count, hfill, hstart⟩
    · exact Or.inl ⟨hdisk, hnot⟩
    · obtain ⟨hsibling, hsib, x, hdisk⟩ := put_of_startFile hopen hplain hstart
      rw [hdisk]
      exact Or.inr ⟨hsibling, ⟨_, rewrites_put hsib, by simp [hfill]⟩, by simp [hnot]⟩
  · obtain ⟨-, hstart⟩ := createFile_eq_ok_iff.mp hcreate
    obtain ⟨hsibling, hsib, x, rfl⟩ := put_of_startFile hopen hplain hstart
    obtain ⟨hrew, hrep⟩ := rewrites_of_swap hopen hsibling.2 hsib hswap
    exact Or.inr ⟨hsibling, ⟨_, hrew, fun _ => rfl⟩, hrep⟩

end Replacement

end Semicolon
