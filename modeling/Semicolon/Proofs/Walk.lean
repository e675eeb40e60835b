/-
Where a path leads, as a relation.

`walk` looks up one name after another and counts the links it may still follow.  What it finds
does not depend on that count, only whether it gets there, so a walk that comes to an end is
described by a relation instead: one rule for each kind of step, and the number of links that
were followed.  `walk_eq_ok_iff` is the bridge, and everything else about paths is an induction
over the rules.

A disk is only ever looked at through `get?`, so what a change of the disk does to a walk
follows from the places at which the two disks differ.
-/
import Mathlib.Data.List.Basic
import Semicolon.Disk.Access

namespace Semicolon.Disk

/-! ### The map -/

theorem lookup_filter_ne {entries : List (Location × Entry)} {l loc : Location} (h : l ≠ loc) :
    (entries.filter fun e => e.1 ≠ loc).lookup l = entries.lookup l := by
  induction entries with
  | nil => rfl
  | cons e entries ih =>
      obtain ⟨l', e⟩ := e
      by_cases hloc : l' = loc
      · have hl : (l == l') = false := by simpa [hloc] using h
        rw [List.filter_cons_of_neg (by simp [hloc]), ih, List.lookup_cons, hl]
      · rw [List.filter_cons_of_pos (by simp [hloc]), List.lookup_cons, List.lookup_cons, ih]

@[simp] theorem get?_erase_of_ne {l loc : Location} (d : Disk) (h : l ≠ loc) :
    (d.erase loc).get? l = d.get? l := by
  show (if l = [] then _ else _) = if l = [] then _ else _
  rw [erase, lookup_filter_ne h]

@[simp] theorem get?_erase_self {loc : Location} (d : Disk) (h : loc ≠ []) :
    (d.erase loc).get? loc = none := by
  show (if loc = [] then _ else _) = _
  rw [if_neg h, List.lookup_eq_none_iff]
  intro e he
  have hne := List.of_mem_filter he
  simpa using fun hc => of_decide_eq_true hne (Eq.symm hc)

@[simp] theorem get?_put_self {loc : Location} (d : Disk) (e : Entry) (h : loc ≠ []) :
    (d.put loc e).get? loc = some e := by
  show (if loc = [] then _ else _) = _
  rw [if_neg h, put, List.lookup_cons_self]

@[simp] theorem get?_put_of_ne {l loc : Location} (d : Disk) (e : Entry) (h : l ≠ loc) :
    (d.put loc e).get? l = d.get? l := by
  rw [← get?_erase_of_ne d h]
  show (if l = [] then _ else _) = if l = [] then _ else _
  rw [put, List.lookup_cons, beq_false_of_ne h]

@[simp] theorem child_ne_nil (here : Location) (name : String) : child here name ≠ [] := by
  simp [child]

@[simp] theorem child_inj {here here' : Location} {name name' : String} :
    child here name = child here' name' ↔ here = here' ∧ name = name' := by
  simp [child]

/-! ### The steps of a walk -/

/-- A name that is looked up in a directory: no empty or dot step, and not too long. -/
structure IsName (name : String) : Prop where
  notEmpty : name ≠ ""
  notHere : name ≠ "."
  notUp : name ≠ ".."
  short : (Utf8.encodeString name).length ≤ maxName

/-- The place at which a path starts that is met in the directory `here`. -/
def base (here : Location) (path : String) : Location :=
  if Path.isAbsolute path then [] else here

/-- One step from the directory `here`: it follows `k` links and goes to `there`, from where the
steps `more` come before what is left to do. -/
inductive Next (d : Disk) (here : Location) : String → Nat → Location → List String → Prop where
  | stay {name : String} (hname : name = "" ∨ name = ".") : Next d here name 0 here []
  | up : Next d here ".." 0 here.dropLast []
  | down {name : String} {e : Entry} (hname : IsName name)
      (hentry : d.get? (child here name) = some e) (hlink : ∀ target, e ≠ .link target) :
      Next d here name 0 (child here name) []
  | link {name target : String} (hname : IsName name)
      (hentry : d.get? (child here name) = some (.link target)) :
      Next d here name 1 (base here target) (Path.steps target)

/-- From `here`, the steps lead to the spot through `n` links, links at the end included. -/
inductive Leads (d : Disk) : Nat → Location → List String → Spot → Prop where
  | stop {here : Location} {e : Entry} (hhere : d.get? here = some e) :
      Leads d 0 here [] (.taken here e)
  | free {here : Location} {name : String} {rest : List String}
      (hhere : d.get? here = some .directory) (hname : IsName name)
      (hentry : d.get? (child here name) = none) (hrest : ∀ r ∈ rest, r = "") :
      Leads d 0 here (name :: rest) (.free here name (!rest.isEmpty))
  | step {k n : Nat} {here there : Location} {name : String} {more rest : List String}
      {spot : Spot} (hhere : d.get? here = some .directory) (hnext : Next d here name k there more)
      (hrest : Leads d n there (more ++ rest) spot) : Leads d (k + n) here (name :: rest) spot

variable {d d' : Disk} {n : Nat} {here : Location} {todo rest : List String} {spot : Spot}

theorem isName_of_step {name : String} (hdot : ¬(decide (name = "") || decide (name = ".")) = true)
    (hup : ¬name = "..") (hlong : ¬(Utf8.encodeString name).length > maxName) : IsName name := by
  simp only [Bool.or_eq_true, decide_eq_true_eq, not_or] at hdot
  exact ⟨hdot.1, hdot.2, hup, Nat.le_of_not_lt hlong⟩

/-- Up to its first link a walk goes by the rules, and so it does altogether if the rules lead on
from where a link leaves off. -/
theorem leads_of_walkTo {jump : Location → List String → Except Fault Spot} {links : Nat}
    (hjump : ∀ {start more spot}, jump start more = .ok spot →
      ∃ n < links, Leads d n start more spot)
    (h : d.walkTo true jump here todo = .ok spot) : ∃ n ≤ links, Leads d n here todo spot := by
  fun_induction walkTo d true jump here todo with
  | case1 | case3 | case6 | case8 | case12 => cases h
  | case9 _ _ _ _ _ _ _ _ _ hlast => simp at hlast
  | case2 _ _ hhere =>
      cases h
      exact ⟨0, Nat.zero_le _, .stop hhere⟩
  | case7 _ _ _ hhere hdot hup hlong hentry hrest =>
      cases h
      exact ⟨0, Nat.zero_le _, .free hhere (isName_of_step hdot hup hlong) hentry
        (by simpa using hrest)⟩
  | case4 _ _ _ hhere hname ih =>
      obtain ⟨n, hn, hrest⟩ := ih h
      exact ⟨0 + n, by omega, .step hhere (.stay (by simpa using hname)) hrest⟩
  | case5 _ _ hhere _ ih =>
      obtain ⟨n, hn, hrest⟩ := ih h
      exact ⟨0 + n, by omega, .step hhere .up hrest⟩
  | case10 _ _ _ hhere hdot hup hlong _ hentry _ =>
      obtain ⟨n, hn, hrest⟩ := hjump h
      exact ⟨1 + n, by omega, .step hhere (.link (isName_of_step hdot hup hlong) hentry) hrest⟩
  | case11 _ _ _ hhere hdot hup hlong _ hlink hentry ih =>
      obtain ⟨n, hn, hrest⟩ := ih h
      have hname := isName_of_step hdot hup hlong
      exact ⟨0 + n, by omega, .step hhere (.down hname hentry hlink) hrest⟩

theorem leads_of_walk {links : Nat} (h : d.walk true links here todo = .ok spot) :
    ∃ n ≤ links, Leads d n here todo spot := by
  induction links generalizing here todo spot with
  | zero => exact leads_of_walkTo (by simp) h
  | succ links ih =>
      refine leads_of_walkTo (fun hjump => ?_) h
      obtain ⟨n, hn, hleads⟩ := ih hjump
      exact ⟨n, by omega, hleads⟩

/-- Whatever the number of links that are left, a walk takes its steps in the same way. -/
theorem exists_walkTo (d : Disk) (follow : Bool) (links : Nat) :
    ∃ jump, d.walk follow links = d.walkTo follow jump := by
  cases links with
  | zero => exact ⟨_, rfl⟩
  | succ links => exact ⟨_, rfl⟩

theorem walk_of_leads (h : Leads d n here todo spot) :
    ∀ links ≥ n, d.walk true links here todo = .ok spot := by
  induction h with
  | stop hhere =>
      intro links _
      obtain ⟨jump, hwalk⟩ := exists_walkTo d true links
      rw [hwalk, walkTo, hhere]
  | free hhere hname hentry hrest =>
      intro links _
      obtain ⟨jump, hwalk⟩ := exists_walkTo d true links
      rw [hwalk, walkTo, hhere]
      simpa [hname.notEmpty, hname.notHere, hname.notUp, Nat.not_lt.mpr hname.short, hentry]
        using hrest
  | step hhere hnext _ ih =>
      intro links hn
      obtain ⟨jump, hwalk⟩ := exists_walkTo d true links
      cases hnext with
      | stay hname =>
          have hrest := ih links (by omega)
          rw [hwalk] at hrest ⊢
          rw [walkTo, hhere]
          simpa [hname] using hrest
      | up =>
          have hrest := ih links (by omega)
          rw [hwalk] at hrest ⊢
          rw [walkTo, hhere]
          simpa using hrest
      | @down _ e hname hentry hlink =>
          have hrest := ih links (by omega)
          rw [hwalk] at hrest ⊢
          rw [walkTo, hhere]
          cases e with
          | link target => exact absurd rfl (hlink target)
          | file | directory =>
              simpa [hname.notEmpty, hname.notHere, hname.notUp, Nat.not_lt.mpr hname.short,
                hentry] using hrest
      | link hname hentry =>
          obtain ⟨links, rfl⟩ : ∃ k, links = k + 1 := ⟨links - 1, by omega⟩
          rw [walk, walkTo, hhere]
          simpa [hname.notEmpty, hname.notHere, hname.notUp, Nat.not_lt.mpr hname.short, hentry,
            base] using ih links (by omega)

/-- **A walk comes to an end at a spot exactly if the rules lead there in links enough.** -/
theorem walk_eq_ok_iff {links : Nat} :
    d.walk true links here todo = .ok spot ↔ ∃ n ≤ links, Leads d n here todo spot :=
  ⟨leads_of_walk, fun ⟨_, hn, h⟩ => walk_of_leads h _ hn⟩

/-! ### What the rules say of a whole walk -/

theorem Leads.unique {n' : Nat} {spot' : Spot} (h : Leads d n here todo spot)
    (h' : Leads d n' here todo spot') : spot = spot' := by
  have hwalk := walk_of_leads h (max n n') (Nat.le_max_left n n')
  rw [walk_of_leads h' (max n n') (Nat.le_max_right n n')] at hwalk
  exact (Except.ok.inj hwalk).symm

/-- Only a directory can be left. -/
theorem Leads.directory_of_cons {name : String} (h : Leads d n here (name :: rest) spot) :
    d.get? here = some .directory := by
  cases h with
  | free hhere | step hhere => exact hhere

/-- A walk that starts at a file ends there. -/
theorem Leads.eq_of_file {data : Bytes} {x : Bool} (h : Leads d n here todo spot)
    (hfile : d.get? here = some (.file data x)) : spot = .taken here (.file data x) := by
  cases h with
  | stop hhere =>
      rw [hfile] at hhere
      cases hhere
      rfl
  | free hhere | step hhere =>
      rw [hfile] at hhere
      cases hhere

/-- A walk to an entry passes through the end of every first part of it. -/
theorem Leads.split {loc : Location} {e : Entry} {first : List String}
    (h : Leads d n here (first ++ rest) (.taken loc e)) :
    ∃ n₁ n₂ mid e', n = n₁ + n₂ ∧ Leads d n₁ here first (.taken mid e') ∧
      Leads d n₂ mid rest (.taken loc e) := by
  generalize htodo : first ++ rest = todo at h
  generalize hspot : Spot.taken loc e = spot at h
  induction h generalizing first with
  | stop hhere =>
      obtain ⟨rfl, rfl⟩ := List.append_eq_nil_iff.mp htodo
      exact ⟨0, 0, _, _, rfl, .stop hhere, .stop hhere⟩
  | free => cases hspot
  | @step k n _ _ _ _ _ _ hhere hnext hrest ih =>
      cases first with
      | nil =>
          rw [List.nil_append] at htodo
          rw [htodo]
          exact ⟨0, k + n, _, _, (Nat.zero_add _).symm, .stop hhere, .step hhere hnext hrest⟩
      | cons name first =>
          obtain ⟨rfl, rfl⟩ := List.cons.inj htodo
          obtain ⟨n₁, n₂, mid, e', rfl, hfirst, hlast⟩ := ih (List.append_assoc _ _ _) hspot
          exact ⟨k + n₁, n₂, mid, e', (Nat.add_assoc _ _ _).symm, .step hhere hnext hfirst, hlast⟩

/-- The last step of a walk is taken where the steps before it lead. -/
theorem Leads.last {n' : Nat} {dir loc : Location} {e e' : Entry} {first : List String}
    (h : Leads d n here (first ++ rest) (.taken loc e))
    (hfirst : Leads d n' here first (.taken dir e')) : ∃ m, Leads d m dir rest (.taken loc e) := by
  obtain ⟨n₁, n₂, mid, e₁, -, hfirst', hlast⟩ := h.split
  cases hfirst'.unique hfirst
  exact ⟨n₂, hlast⟩

/-- The place that a spot is at. -/
def Spot.place : Spot → Location
  | .taken loc _ => loc
  | .free dir name _ => child dir name

/-- The entry at a spot. -/
def Spot.entry? : Spot → Option Entry
  | .taken _ e => some e
  | .free _ _ _ => none

/-- Does a slash come after the name of a free spot? -/
def Spot.isSlashed : Spot → Bool
  | .taken _ _ => false
  | .free _ _ slashed => slashed

theorem Leads.get?_place (h : Leads d n here todo spot) : d.get? spot.place = spot.entry? := by
  induction h with
  | stop hhere => exact hhere
  | free _ _ hentry => exact hentry
  | step _ _ _ ih => exact ih

/-! ### Walks on a disk that has grown -/

/-- What the first disk holds is on the second as well, but a file may have other bytes there. -/
structure Grows (d d' : Disk) : Prop where
  directory : ∀ l, d.get? l = some .directory → d'.get? l = some .directory
  link : ∀ l target, d.get? l = some (.link target) → d'.get? l = some (.link target)
  file : ∀ l data x, d.get? l = some (.file data x) → ∃ data' x', d'.get? l = some (.file data' x')

theorem grows_put_file {loc : Location} {data : Bytes} {x : Bool} (hloc : loc ≠ [])
    (hold : ∀ e, d.get? loc = some e → ∃ data' x', e = .file data' x') :
    Grows d (d.put loc (.file data x)) := by
  have hkept : ∀ l e, (∀ data' x', e ≠ .file data' x') → d.get? l = some e →
      (d.put loc (.file data x)).get? l = some e := by
    intro l e hfile hl
    by_cases hll : l = loc
    · subst hll
      obtain ⟨data', x', rfl⟩ := hold e hl
      exact absurd rfl (hfile data' x')
    · rw [get?_put_of_ne d _ hll, hl]
  refine ⟨fun l => hkept l _ (by simp), fun l target => hkept l _ (by simp), ?_⟩
  intro l data' x' hl
  by_cases hll : l = loc
  · rw [hll]
    exact ⟨data, x, get?_put_self d _ hloc⟩
  · exact ⟨data', x', by rw [get?_put_of_ne d _ hll, hl]⟩

theorem Next.grow {name : String} {k : Nat} {there : Location} {more : List String}
    (h : Next d here name k there more) (hgrows : Grows d d') : Next d' here name k there more := by
  cases h with
  | stay hname => exact .stay hname
  | up => exact .up
  | link hname hentry => exact .link hname (hgrows.link _ _ hentry)
  | @down _ e hname hentry hlink =>
      cases e with
      | link target => exact absurd rfl (hlink target)
      | directory => exact .down hname (hgrows.directory _ hentry) (by simp)
      | file data x =>
          obtain ⟨data', x', hentry'⟩ := hgrows.file _ _ _ hentry
          exact .down hname hentry' (by simp)

/-- A path leads on to the place it led to, and finds the file that has been put there. -/
theorem Leads.refile {data : Bytes} {x : Bool} (h : Leads d n here todo spot)
    (hgrows : Grows d d') (hopen : spot.isSlashed = false)
    (hnew : d'.get? spot.place = some (.file data x)) :
    Leads d' n here todo (.taken spot.place (.file data x)) := by
  induction h with
  | stop => exact .stop hnew
  | step hhere hnext _ ih =>
      exact .step (hgrows.directory _ hhere) (hnext.grow hgrows) (ih hopen hnew)
  | @free here name rest hhere hname _ _ =>
      have hrest : rest = [] := by simpa [Spot.isSlashed] using hopen
      subst hrest
      exact .step (hgrows.directory _ hhere) (.down hname hnew (by simp)) (.stop hnew)

end Semicolon.Disk
