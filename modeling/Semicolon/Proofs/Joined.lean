/-
Joined paths.

The program never sees places.  It joins names to a root, and asks the disk about each joined path
anew, from its start.  `denotes_join_iff` says what comes of it: a joined path leads where its last
name leads from where the rest leads.  With `mem_within_iff_denotes` this is all that a walk needs
to know of paths, as far as the disk follows them at all.
-/
import Mathlib.Data.List.Nodup
import Semicolon.Proofs.Selection

namespace Semicolon

/-! ### Joined paths -/

namespace Path

variable {dir name : String}

theorem parts_append_slash (cs s : List Char) : parts (cs ++ '/' :: s) = parts cs ++ parts s := by
  have hcons : ∀ s, ∃ p ps, parts s = p :: ps := by
    intro s
    obtain ⟨first, last, hparts, -⟩ := parts_append s
    cases first with
    | nil => exact ⟨last, [], hparts⟩
    | cons p ps => exact ⟨p, ps ++ [last], hparts⟩
  induction cs with
  | nil =>
      obtain ⟨p, ps, hparts⟩ := hcons s
      show parts ('/' :: s) = [] :: parts s
      rw [parts, hparts]
      rfl
  | cons c cs ih =>
      obtain ⟨p, ps, hparts⟩ := hcons cs
      rw [List.cons_append, parts, ih, parts, hparts]
      by_cases hc : c = '/' <;> simp [hc]

theorem steps_append_slash (dir name : String) :
    steps (dir ++ "/" ++ name) = steps dir ++ steps name := by
  unfold steps
  rw [String.append_assoc, String.toList_append, String.toList_append, ← List.map_append,
    ← parts_append_slash]
  rfl

theorem steps_of_not_mem (hname : '/' ∉ name.toList) : steps name = [name] := by
  rw [steps, parts_of_not_mem hname, List.map_singleton, String.ofList_toList]

/-- The path of a directory without a slash at its end, if it has one. -/
def unslashed (dir : String) : String :=
  if dir.toList.getLast? = some '/' then String.ofList dir.toList.dropLast else dir

theorem unslashed_cases (dir : String) : unslashed dir = dir ∨ dir = unslashed dir ++ "/" := by
  unfold unslashed
  by_cases hslash : dir.toList.getLast? = some '/'
  · right
    rw [if_pos hslash]
    apply String.toList_injective
    rw [String.toList_append, String.toList_ofList]
    exact (List.dropLast_append_getLast? '/' hslash).symm
  · left
    rw [if_neg hslash]

theorem unslashed_append_slash (dir : String) : unslashed (dir ++ "/") = dir := by
  simp [unslashed]

theorem join_eq (hdir : dir ≠ "") (hname : '/' ∉ name.toList) :
    join dir name = unslashed dir ++ "/" ++ name := by
  have habs : isAbsolute name = false := by
    unfold isAbsolute
    rw [decide_eq_false_iff_not]
    exact fun hhead => hname (List.mem_of_head? hhead)
  unfold join unslashed
  rw [habs]
  by_cases hslash : dir.toList.getLast? = some '/'
  · have hcut := List.dropLast_append_getLast? '/' hslash
    rw [if_neg (by simp), if_pos (by simp [hslash]), if_pos hslash]
    apply String.toList_injective
    simp only [String.toList_append, String.toList_ofList]
    rw [← hcut]
    simp
  · rw [if_neg (by simp), if_neg (by simp [hslash, hdir]), if_neg hslash]

theorem steps_join (hdir : dir ≠ "") (hname : '/' ∉ name.toList) :
    steps (join dir name) = steps (unslashed dir) ++ [name] := by
  rw [join_eq hdir hname, steps_append_slash, steps_of_not_mem hname]

theorem unslashed_join (hdir : dir ≠ "") (hname : '/' ∉ name.toList) (hne : name ≠ "") :
    unslashed (join dir name) = join dir name := by
  unfold unslashed
  refine if_neg fun hlast => hname ?_
  rw [join_eq hdir hname, String.toList_append,
    List.getLast?_append_of_ne_nil _ (by simpa using hne)] at hlast
  exact List.mem_of_getLast? hlast

/-- A joined path goes on where its directory ends. -/
theorem exists_join (hdir : dir ≠ "") (hname : '/' ∉ name.toList) :
    ∃ s, join dir name = dir ++ s := by
  rcases unslashed_cases dir with heq | heq
  · exact ⟨"/" ++ name, by rw [join_eq hdir hname, heq, String.append_assoc]⟩
  · exact ⟨name, by rw [join_eq hdir hname, ← heq]⟩

end Path

namespace Disk

variable {d : Disk} {n : Nat} {here there loc : Location} {e : Entry} {spot : Spot}
  {dir name path : String}

/-! ### Names of entries -/

/-- A name that an entry can have: one that is looked up, and that a path can hold. -/
structure Nameable (name : String) : Prop extends IsName name where
  noSlash : '/' ∉ name.toList
  noNul : '\x00' ∉ name.toList

/-- What every file system promises: one entry at a place, and names for all of them. -/
structure Proper (d : Disk) : Prop where
  distinct : (d.entries.map Prod.fst).Nodup
  nameable : ∀ entry ∈ d.entries, ∀ name ∈ entry.1, Nameable name

instance (name : String) : Decidable (Nameable name) :=
  decidable_of_iff
    ((name ≠ "" ∧ name ≠ "." ∧ name ≠ ".." ∧ (Utf8.encodeString name).length ≤ maxName) ∧
      '/' ∉ name.toList ∧ '\x00' ∉ name.toList)
    ⟨fun ⟨⟨hempty, hhere, hup, hshort⟩, hslash, hnul⟩ =>
        ⟨⟨hempty, hhere, hup, hshort⟩, hslash, hnul⟩,
      fun h => ⟨⟨h.notEmpty, h.notHere, h.notUp, h.short⟩, h.noSlash, h.noNul⟩⟩

instance (d : Disk) : Decidable d.Proper :=
  decidable_of_iff
    ((d.entries.map Prod.fst).Nodup ∧ ∀ entry ∈ d.entries, ∀ name ∈ entry.1, Nameable name)
    ⟨fun h => ⟨h.1, h.2⟩, fun h => ⟨h.distinct, h.nameable⟩⟩

theorem mem_entries_of_get? (hsome : (d.get? (child here name)).isSome) :
    ∃ e, (child here name, e) ∈ d.entries := by
  rw [get?, if_neg (child_ne_nil here name), List.lookup_isSome_iff] at hsome
  obtain ⟨entry, hmem, hloc⟩ := hsome
  rw [beq_iff_eq] at hloc
  exact ⟨entry.2, by rwa [hloc]⟩

theorem Proper.nameable_of_mem_names (hd : d.Proper) (hname : name ∈ d.names here) :
    Nameable name := by
  obtain ⟨e, hmem⟩ := mem_entries_of_get? (mem_names_iff.mp hname)
  exact hd.nameable _ hmem name (by simp [child])

theorem Proper.get?_of_mem (hd : d.Proper) (hmem : (loc, e) ∈ d.entries) (hloc : loc ≠ []) :
    d.get? loc = some e := by
  obtain ⟨before, after, hentries⟩ := List.append_of_mem hmem
  have hdistinct := hd.distinct
  rw [hentries, List.map_append, List.nodup_append'] at hdistinct
  rw [get?, if_neg hloc, List.lookup_eq_some_iff]
  refine ⟨before, after, hentries, fun entry hentry => ?_⟩
  -- Otherwise there would be two entries at the place.
  rw [bne_iff_ne]
  rintro rfl
  exact hdistinct.2.2 (List.mem_map_of_mem hentry) (by simp)

theorem Proper.nodup_names (hd : d.Proper) (here : Location) : (d.names here).Nodup := by
  have hnames : d.names here = (d.entries.map Prod.fst).filterMap
      fun l => if l.dropLast = here then l.getLast? else none := by
    rw [List.filterMap_map]
    rfl
  rw [hnames]
  refine List.Nodup.filterMap ?_ hd.distinct
  intro l l' name hl hl'
  -- A place is told by its directory and its last name.
  split at hl
  · rename_i hdrop
    split at hl'
    · rename_i hdrop'
      rw [← List.dropLast_append_getLast? name hl, ← List.dropLast_append_getLast? name hl', hdrop,
        hdrop']
    · cases hl'
  · cases hl

/-! ### Where joined paths lead -/

/-- From the working directory, the path leads to the spot through `n` links. -/
def Denotes (d : Disk) (n : Nat) (path : String) (spot : Spot) : Prop :=
  path ≠ "" ∧ Leads d n (base d.cwd path) (Path.steps path) spot

theorem resolve_eq_ok_iff_denotes : d.resolve true path = .ok spot ↔
    (Utf8.encodeString path).length < maxPath ∧ ∃ n ≤ maxLinks, Denotes d n path spot := by
  rw [resolve_eq_ok_iff]
  constructor
  · rintro ⟨hpath, hshort, n, hn, hleads⟩
    exact ⟨hshort, n, hn, hpath, hleads⟩
  · rintro ⟨hshort, n, hn, hpath, hleads⟩
    exact ⟨hpath, hshort, n, hn, hleads⟩

theorem Denotes.resolve_eq (h : Denotes d n path spot) (hn : n ≤ maxLinks)
    (hshort : (Utf8.encodeString path).length < maxPath) : d.resolve true path = .ok spot :=
  resolve_eq_ok_iff_denotes.mpr ⟨hshort, n, hn, h⟩

theorem Denotes.unique {m : Nat} {spot' : Spot} (h : Denotes d n path spot)
    (h' : Denotes d m path spot') : spot = spot' := h.2.unique h'.2

/-- A slash at the end of the path of a directory changes nothing. -/
theorem leads_unslashed_iff :
    Leads d n here (Path.steps (Path.unslashed dir)) (.taken loc .directory) ↔
      Leads d n here (Path.steps dir) (.taken loc .directory) := by
  rcases Path.unslashed_cases dir with heq | heq
  · rw [heq]
  have hsteps : Path.steps dir = Path.steps (Path.unslashed dir) ++ [""] := by
    have happend := Path.steps_append_slash (Path.unslashed dir) ""
    rw [String.append_empty, ← heq] at happend
    exact happend
  rw [hsteps]
  constructor
  · intro h
    exact h.append (.step (k := 0) (n := 0) h.get?_place (.stay (.inl rfl)) (.stop h.get?_place))
  · intro h
    obtain ⟨n₁, n₂, mid, e, rfl, hfirst, hlast⟩ := h.split
    generalize hempty : "" = name at hlast
    cases hlast with
    | step hhere hnext hrest =>
        cases hnext with
        | stay =>
            cases hrest
            cases hhere.symm.trans hfirst.get?_place
            exact hfirst
        | up => simp at hempty
        | down hname => exact absurd hempty.symm hname.notEmpty
        | link hname => exact absurd hempty.symm hname.notEmpty

theorem base_join (hdir : dir ≠ "") (hname : '/' ∉ name.toList) (here : Location) :
    base here (Path.join dir name) = base here dir := by
  obtain ⟨s, hjoin⟩ := Path.exists_join hdir hname
  have hhead : (dir ++ s).toList.head? = dir.toList.head? := by
    rw [String.toList_append]
    exact List.head?_append_of_ne_nil _ (by simpa using hdir)
  rw [hjoin, base, base, Path.isAbsolute, Path.isAbsolute, hhead]

theorem join_ne_empty (hdir : dir ≠ "") (hname : '/' ∉ name.toList) : Path.join dir name ≠ "" := by
  obtain ⟨s, hjoin⟩ := Path.exists_join hdir hname
  rw [hjoin]
  simp [hdir]

/-- **A joined path leads where its name leads from where its directory leads.** -/
theorem denotes_join_iff (hdir : dir ≠ "") (hname : Nameable name) :
    Denotes d n (Path.join dir name) spot ↔ ∃ k m loc, n = k + m ∧
      Denotes d k dir (.taken loc .directory) ∧ Leads d m loc [name] spot := by
  unfold Denotes
  rw [base_join hdir hname.noSlash, Path.steps_join hdir hname.noSlash]
  constructor
  · rintro ⟨-, hleads⟩
    obtain ⟨k, m, loc, hn, hfirst, hlast⟩ := hleads.split_last hname.notEmpty
    exact ⟨k, m, loc, hn, ⟨hdir, leads_unslashed_iff.mp hfirst⟩, hlast⟩
  · rintro ⟨k, m, loc, rfl, ⟨-, hfirst⟩, hlast⟩
    exact ⟨join_ne_empty hdir hname.noSlash, (leads_unslashed_iff.mpr hfirst).append hlast⟩

theorem Denotes.join {m : Nat} (h : Denotes d n dir (.taken loc .directory)) (hname : Nameable name)
    (hlast : Leads d m loc [name] spot) : Denotes d (n + m) (Path.join dir name) spot :=
  (denotes_join_iff h.1 hname).mpr ⟨n, m, loc, rfl, h, hlast⟩

theorem Denotes.of_join {m : Nat} (h : Denotes d m dir (.taken loc .directory))
    (hname : Nameable name) (hjoin : Denotes d n (Path.join dir name) spot) :
    ∃ k m, n = k + m ∧ Denotes d k dir (.taken loc .directory) ∧ Leads d m loc [name] spot := by
  obtain ⟨k, m, loc', hn, hfirst, hlast⟩ := (denotes_join_iff h.1 hname).mp hjoin
  cases hfirst.unique h
  exact ⟨k, m, hn, hfirst, hlast⟩

/-- A name is an entry of the directory, or it goes through a link. -/
theorem Leads.name_cases (h : Leads d n here [name] (.taken there e)) (hname : Nameable name) :
    n = 0 ∧ there = child here name ∨ 0 < n := by
  cases h with
  | step hhere hnext hrest =>
      cases hnext with
      | stay hstay => exact absurd hstay (not_or.mpr ⟨hname.notEmpty, hname.notHere⟩)
      | up => exact absurd rfl hname.notUp
      | down =>
          cases hrest
          exact .inl ⟨rfl, rfl⟩
      | link =>
          right
          omega

theorem length_encode_join (hdir : dir ≠ "") (hname : '/' ∉ name.toList) :
    (Utf8.encodeString dir).length ≤ (Utf8.encodeString (Path.join dir name)).length := by
  obtain ⟨s, hjoin⟩ := Path.exists_join hdir hname
  rw [hjoin, Utf8.encodeString, Utf8.encodeString, String.toList_append, List.flatMap_append,
    List.length_append]
  omega

theorem length_encode_join_le (hdir : dir ≠ "") (hname : '/' ∉ name.toList) :
    (Utf8.encodeString (Path.join dir name)).length ≤
      (Utf8.encodeString dir).length + 1 + (Utf8.encodeString name).length := by
  have hslash : (Utf8.encodeString "/").length = 1 := by decide
  have happend : ∀ s t : String, (Utf8.encodeString (s ++ t)).length =
      (Utf8.encodeString s).length + (Utf8.encodeString t).length := by
    intro s t
    simp [Utf8.encodeString]
  have hstem :
      (Utf8.encodeString (Path.unslashed dir)).length ≤ (Utf8.encodeString dir).length := by
    rcases Path.unslashed_cases dir with heq | heq
    · rw [heq]
    · have hlength := congrArg (fun s => (Utf8.encodeString s).length) heq
      simp only [happend] at hlength
      omega
  rw [Path.join_eq hdir hname, happend, happend]
  omega

theorem noNul_join (hdir : dir ≠ "") (hname : Nameable name) (hnul : '\x00' ∉ dir.toList) :
    '\x00' ∉ (Path.join dir name).toList := by
  rw [Path.join_eq hdir hname.noSlash]
  have hstem : '\x00' ∉ (Path.unslashed dir).toList := by
    rcases Path.unslashed_cases dir with heq | heq
    · rwa [heq]
    · rw [heq] at hnul
      simpa using hnul
  simpa [hname.noNul] using hstem

/-- A path to a directory goes on to each entry of it. -/
theorem Leads.mem_names (h : Leads d n here [name] (.taken there e)) (hname : Nameable name) :
    name ∈ d.names here := by
  rw [mem_names_iff]
  cases h with
  | step _ hnext _ =>
      cases hnext with
      | stay hstay => exact absurd hstay (not_or.mpr ⟨hname.notEmpty, hname.notHere⟩)
      | up => exact absurd rfl hname.notUp
      | down _ hentry => simp [hentry]
      | link _ hentry => simp [hentry]

theorem isDirectory_iff_denotes : d.isDirectory path = true ↔ '\x00' ∉ path.toList ∧
    (Utf8.encodeString path).length < maxPath ∧
      ∃ loc, ∃ n ≤ maxLinks, Denotes d n path (.taken loc .directory) := by
  rw [isDirectory_iff]
  refine and_congr_right fun _ => ?_
  simp only [resolve_eq_ok_iff_denotes, exists_and_left]

end Disk

namespace Discovery

variable {d : Disk} {k : Nat} {here : Location} {names : List String} {dir name path : String}

open Disk (Denotes Nameable Proper)

/-! ### Many names -/

/-- The path of an entry, from the names that lead to it. -/
def joined (root : String) (names : List String) : String := names.foldl Path.join root

theorem joined_cons (root name : String) (names : List String) :
    joined root (name :: names) = joined (Path.join root name) names := rfl

theorem joined_append_singleton (root name : String) (names : List String) :
    joined root (names ++ [name]) = Path.join (joined root names) name := by
  simp [joined]

theorem steps_joined (hdir : dir ≠ "") (hname : Nameable name)
    (hnames : ∀ name ∈ names, Nameable name) :
    Path.steps (joined dir (name :: names)) = Path.steps (Path.unslashed dir) ++ name :: names := by
  induction names generalizing dir name with
  | nil => exact Path.steps_join hdir hname.noSlash
  | cons name' names ih =>
      rw [List.forall_mem_cons] at hnames
      rw [joined_cons, ih (Disk.join_ne_empty hdir hname.noSlash) hnames.1 hnames.2,
        Path.unslashed_join hdir hname.noSlash hname.notEmpty, Path.steps_join hdir hname.noSlash,
        List.append_assoc, List.singleton_append]

theorem length_encode_joined (hdir : dir ≠ "") (hnames : ∀ name ∈ names, Nameable name) :
    (Utf8.encodeString dir).length ≤ (Utf8.encodeString (joined dir names)).length := by
  induction names generalizing dir with
  | nil => exact Nat.le_refl _
  | cons name names ih =>
      rw [List.forall_mem_cons] at hnames
      exact Nat.le_trans (Disk.length_encode_join hdir hnames.1.noSlash)
        (ih (Disk.join_ne_empty hdir hnames.1.noSlash) hnames.2)

/-- The suffix of a path is that of its last name, since there is no slash in it. -/
theorem isSource_join (hdir : dir ≠ "") (hname : '/' ∉ name.toList) :
    isSource (Path.join dir name) = isSource name := by
  have htail : '/' :: name.toList <:+ (Path.unslashed dir ++ "/" ++ name).toList :=
    ⟨(Path.unslashed dir).toList, by simp⟩
  have hend : name.toList <:+ '/' :: name.toList := List.suffix_cons '/' name.toList
  rw [Path.join_eq hdir hname]
  unfold isSource Path.hasSuffix
  rw [Bool.eq_iff_iff, List.isSuffixOf_iff_suffix, List.isSuffixOf_iff_suffix]
  constructor
  · intro hsuffix
    rcases Nat.lt_or_ge name.toList.length sourceSuffix.toList.length with hlt | hle
    · have hslash := List.suffix_of_suffix_length_le htail hsuffix hlt
      exact absurd (hslash.subset List.mem_cons_self) (by decide)
    · exact List.suffix_of_suffix_length_le hsuffix (hend.trans htail) hle
  · exact fun hsuffix => hsuffix.trans (hend.trans htail)

/-! ### What is in a directory -/

theorem exists_name_of_mem_within (hd : d.Proper) (h : path ∈ within d dir) :
    ∃ k loc name, Denotes d k dir (.taken loc .directory) ∧ name ∈ d.names loc ∧ Nameable name ∧
      path = Path.join dir name := by
  obtain ⟨-, loc, hspot, name, hsome, rfl⟩ := mem_within_iff.mp h
  obtain ⟨-, k, -, hdenotes⟩ := Disk.resolve_eq_ok_iff_denotes.mp hspot
  have hmem : name ∈ d.names loc := Disk.mem_names_iff.mpr hsome
  exact ⟨k, loc, name, hdenotes, hmem, hd.nameable_of_mem_names hmem, rfl⟩

theorem join_mem_within (hdir : d.isDirectory dir = true)
    (hdenotes : Denotes d k dir (.taken here .directory)) (hmem : name ∈ d.names here) :
    Path.join dir name ∈ within d dir := by
  obtain ⟨hnul, loc, hspot⟩ := Disk.isDirectory_iff.mp hdir
  obtain ⟨-, _, -, hdenotes'⟩ := Disk.resolve_eq_ok_iff_denotes.mp hspot
  cases hdenotes.unique hdenotes'
  exact mem_within_iff.mpr ⟨hnul, _, hspot, name, Disk.mem_names_iff.mp hmem, rfl⟩

/-- A directory is in the directory that its path goes through. -/
theorem mem_within_of_isDirectory (hdir : dir ≠ "") (hname : Nameable name)
    (h : d.isDirectory (Path.join dir name) = true) :
    d.isDirectory dir = true ∧ Path.join dir name ∈ within d dir := by
  obtain ⟨hnul, hshort, there, n, hn, hdenotes⟩ := Disk.isDirectory_iff_denotes.mp h
  obtain ⟨k, m, loc, rfl, hfirst, hlast⟩ := (Disk.denotes_join_iff hdir hname).mp hdenotes
  have hlong := Disk.length_encode_join hdir hname.noSlash
  obtain ⟨s, hjoin⟩ := Path.exists_join hdir hname.noSlash
  rw [hjoin, String.toList_append, List.mem_append, not_or] at hnul
  have hbefore : d.isDirectory dir = true :=
    Disk.isDirectory_iff_denotes.mpr ⟨hnul.1, by omega, loc, k, by omega, hfirst⟩
  exact ⟨hbefore, join_mem_within hbefore hfirst (hlast.mem_names hname)⟩

/-- Every path that the path of a directory goes through is that of a directory. -/
theorem isDirectory_of_joined (hdir : dir ≠ "") (hnames : ∀ name ∈ names, Nameable name)
    (h : d.isDirectory (joined dir names) = true) : d.isDirectory dir = true := by
  induction names generalizing dir with
  | nil => exact h
  | cons name names ih =>
      rw [List.forall_mem_cons] at hnames
      have hjoin := ih (Disk.join_ne_empty hdir hnames.1.noSlash) hnames.2 h
      exact (mem_within_of_isDirectory hdir hnames.1 hjoin).1

end Discovery

end Semicolon
