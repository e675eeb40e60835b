/-
What lies below a directory.

A walk below a root is given as a relation of its own, apart from paths: from the place of a
directory, names lead down through directories and links to directories to a source file, and each
of them is looked up where the one before it led.  `Holds` is that relation, and it knows no limit
on the length of a path, on the number of links or on the number of directories.

The program asks about joined paths instead, one level after another.  So the two agree as far as
the disk follows a path and as the walk goes down, and then the list of files is exact:
`sources_exact`.  `sources_misses` has a file whose path is too long, a root that is no path, and a
file in too many directories.
-/
import Mathlib.Data.List.Nodup
import Semicolon.Proofs.Joined

namespace Semicolon.Discovery

variable {d : Disk} {k n depth limit : Nat} {here loc : Location} {names files : List String}
  {dir name path root : String} {walker : Walker}

open Disk (Leads Denotes Nameable Proper child)

/-! ### The files below a place -/

/-- From the directory at `here`, the names lead to a source file through `n` links.  All but the
last are directories or links to directories, and the last is a regular file, or a link that
leads to one, whose own name has the suffix. -/
inductive Holds (d : Disk) : Nat → Location → List String → Prop where
  | file {n : Nat} {here loc : Location} {name : String} {data : Bytes} {x : Bool}
      (hname : name ∈ d.names here) (hsource : isSource name = true)
      (hfile : Leads d n here [name] (.taken loc (.file data x))) : Holds d n here [name]
  | inside {k n : Nat} {here there : Location} {name : String} {names : List String}
      (hname : name ∈ d.names here) (hdir : Leads d k here [name] (.taken there .directory))
      (hrest : Holds d n there names) : Holds d (k + n) here (name :: names)

theorem Holds.ne_nil (h : Holds d n here names) : names ≠ [] := by
  cases h with
  | file | inside => simp

theorem Holds.nameable (h : Holds d n here names) (hd : d.Proper) :
    ∀ name ∈ names, Nameable name := by
  induction h with
  | file hname => simpa using hd.nameable_of_mem_names hname
  | inside hname _ _ ih =>
      rw [List.forall_mem_cons]
      exact ⟨hd.nameable_of_mem_names hname, ih⟩

/-- The number of entries that are further down than a place, on the same branch. -/
def beneath (d : Disk) (here : Location) : Nat :=
  d.entries.countP fun entry => here ≠ entry.1 ∧ here <+: entry.1

theorem beneath_le (d : Disk) (here : Location) : beneath d here ≤ d.entries.length :=
  List.countP_le_length

/-- Going down, there is less beneath. -/
theorem beneath_child_lt (hsome : (d.get? (child here name)).isSome) :
    beneath d (child here name) < beneath d here := by
  have hprefix : here <+: child here name := List.prefix_append here [name]
  have hne : here ≠ child here name := by simp [child]
  obtain ⟨e, hmem⟩ := Disk.mem_entries_of_get? hsome
  unfold beneath
  rw [List.countP_eq_length_filter, List.countP_eq_length_filter]
  have hfilter : d.entries.filter (fun entry => child here name ≠ entry.1 ∧
        child here name <+: entry.1) =
      (d.entries.filter fun entry => here ≠ entry.1 ∧ here <+: entry.1).filter
        fun entry => child here name ≠ entry.1 ∧ child here name <+: entry.1 := by
    rw [List.filter_filter]
    refine List.filter_congr fun entry _ => ?_
    rw [Bool.eq_iff_iff, Bool.and_eq_true, decide_eq_true_eq, decide_eq_true_eq]
    refine ⟨fun h => ⟨h, ?_, hprefix.trans h.2⟩, fun h => h.1⟩
    intro heq
    have hlong := h.2.length_le
    rw [← heq] at hlong
    simp only [child, List.length_append, List.length_singleton] at hlong
    omega
  rw [hfilter, List.length_filter_lt_length_iff_exists]
  exact ⟨_, List.mem_filter.mpr ⟨hmem, by simp [hne, hprefix]⟩, by simp⟩

/-- Between two links, names go down the tree, one entry a name. -/
theorem Holds.length_le (h : Holds d n here names) (hd : d.Proper) :
    names.length ≤ beneath d here + n * (d.entries.length + 1) := by
  have hlinks : ∀ {k}, 0 < k → d.entries.length + 1 ≤ k * (d.entries.length + 1) := fun hk =>
    Nat.le_mul_of_pos_left _ hk
  induction h with
  | file hname _ hfile =>
      rw [List.length_singleton]
      rcases hfile.name_cases (hd.nameable_of_mem_names hname) with ⟨rfl, -⟩ | hn
      · have hlt := beneath_child_lt (Disk.mem_names_iff.mp hname)
        omega
      · have hle := hlinks hn
        omega
  | @inside k n here there name names hname hdir _ ih =>
      rw [List.length_cons, Nat.add_mul]
      rcases hdir.name_cases (hd.nameable_of_mem_names hname) with ⟨rfl, rfl⟩ | hk
      · have hlt := beneath_child_lt (Disk.mem_names_iff.mp hname)
        omega
      · have hle := hlinks hk
        have hall := beneath_le d there
        omega

theorem Holds.length_le_depthBound (h : Holds d n here names) (hd : d.Proper)
    (hn : n ≤ Disk.maxLinks) : names.length ≤ depthBound d := by
  have hlength := h.length_le hd
  have hall := beneath_le d here
  have hmul : n * (d.entries.length + 1) ≤ Disk.maxLinks * (d.entries.length + 1) :=
    Nat.mul_le_mul_right _ hn
  unfold depthBound
  rw [Nat.add_mul]
  omega

/-! ### The paths of the files below a root -/

/-- The path is that of a source file below the root, and the disk can follow it: it is short
enough, and it does not go through too many links. -/
def Lies (d : Disk) (root path : String) : Prop :=
  ∃ k n loc names, Denotes d k root (.taken loc .directory) ∧ Holds d n loc names ∧
    path = joined root names ∧ k + n ≤ Disk.maxLinks ∧
    (Utf8.encodeString path).length < Disk.maxPath

/-- Each level of the walk adds a name, and the links of the joined path are those of the directory
and those of the name. -/
theorem lies_of_mem_below (hd : d.Proper) (h : path ∈ below d depth dir) : Lies d dir path := by
  induction depth generalizing dir with
  | zero => cases h
  | succ depth ih =>
      rcases mem_below_succ_iff.mp h with ⟨hwithin, hfile⟩ | ⟨q, hwithin, -, hbelow⟩
      · obtain ⟨_, loc, name, hdenotes, hmem, hname, rfl⟩ := exists_name_of_mem_within hd hwithin
        obtain ⟨hsource, hisFile⟩ := isSourceFile_iff.mp hfile
        obtain ⟨data, hread⟩ := Disk.isFile_iff.mp hisFile
        obtain ⟨-, there, x, hspot⟩ := Disk.readFile_eq_ok_iff.mp hread
        obtain ⟨hshort, _, hlinks, hdenotes'⟩ := Disk.resolve_eq_ok_iff_denotes.mp hspot
        obtain ⟨k, m, rfl, hfirst, hlast⟩ := hdenotes.of_join hname hdenotes'
        rw [isSource_join hdenotes.1 hname.noSlash] at hsource
        exact ⟨k, m, loc, [name], hfirst, .file hmem hsource hlast, rfl, hlinks, hshort⟩
      · obtain ⟨_, loc, name, hdenotes, hmem, hname, rfl⟩ := exists_name_of_mem_within hd hwithin
        obtain ⟨_, n, there, names, hdenotes', hholds, rfl, hlinks, hshort⟩ := ih hbelow
        obtain ⟨k, m, rfl, hfirst, hlast⟩ := hdenotes.of_join hname hdenotes'
        exact ⟨k, m + n, loc, name :: names, hfirst, .inside hmem hlast hholds, rfl, by omega,
          hshort⟩

theorem mem_below_of_holds (h : Holds d n here names) (hd : d.Proper)
    (hdenotes : Denotes d k dir (.taken here .directory)) (hnul : '\x00' ∉ dir.toList)
    (hlinks : k + n ≤ Disk.maxLinks)
    (hshort : (Utf8.encodeString (joined dir names)).length < Disk.maxPath)
    (hdepth : names.length ≤ depth) : joined dir names ∈ below d depth dir := by
  induction h generalizing k dir depth with
  | @file n here loc name data x hmem hsource hfile =>
      obtain ⟨depth, rfl⟩ : ∃ m, depth = m + 1 := ⟨depth - 1, by simp at hdepth; omega⟩
      have hname := hd.nameable_of_mem_names hmem
      have hlong := Disk.length_encode_join hdenotes.1 hname.noSlash
      have hdir : d.isDirectory dir = true := Disk.isDirectory_iff_denotes.mpr
        ⟨hnul, Nat.lt_of_le_of_lt hlong hshort, here, k, by omega, hdenotes⟩
      have hdenotes' := hdenotes.join hname hfile
      have hisFile : d.isFile (Path.join dir name) = true :=
        Disk.isFile_iff.mpr ⟨data, Disk.readFile_eq_ok_iff.mpr
          ⟨Disk.noNul_join hdenotes.1 hname hnul, loc, x, hdenotes'.resolve_eq hlinks hshort⟩⟩
      refine mem_below_succ_iff.mpr (.inl ⟨join_mem_within hdir hdenotes hmem, ?_⟩)
      exact isSourceFile_iff.mpr ⟨(isSource_join hdenotes.1 hname.noSlash).trans hsource, hisFile⟩
  | @inside m n here there name names hmem hlast hrest ih =>
      obtain ⟨depth, rfl⟩ : ∃ m, depth = m + 1 := ⟨depth - 1, by simp at hdepth; omega⟩
      have hname := hd.nameable_of_mem_names hmem
      have hlong := Disk.length_encode_join hdenotes.1 hname.noSlash
      have hshort' := Nat.lt_of_le_of_lt (length_encode_joined
        (Disk.join_ne_empty hdenotes.1 hname.noSlash) (hrest.nameable hd)) hshort
      have hdir : d.isDirectory dir = true := Disk.isDirectory_iff_denotes.mpr
        ⟨hnul, Nat.lt_of_le_of_lt hlong hshort', here, k, by omega, hdenotes⟩
      have hdenotes' := hdenotes.join hname hlast
      have hnul' := Disk.noNul_join hdenotes.1 hname hnul
      have hisDirectory : d.isDirectory (Path.join dir name) = true :=
        Disk.isDirectory_iff_denotes.mpr ⟨hnul', hshort', there, k + m, by omega, hdenotes'⟩
      refine mem_below_succ_iff.mpr (.inr ⟨_, join_mem_within hdir hdenotes hmem, hisDirectory, ?_⟩)
      exact ih hdenotes' hnul' (by omega) hshort (by simpa using hdepth)

theorem mem_below_iff_lies (hd : d.Proper) (hnul : '\x00' ∉ root.toList) :
    path ∈ below d (depthBound d) root ↔ Lies d root path := by
  constructor
  · exact lies_of_mem_below hd
  · rintro ⟨k, n, loc, names, hdenotes, hholds, rfl, hlinks, hshort⟩
    exact mem_below_of_holds hholds hd hdenotes hnul hlinks hshort
      (hholds.length_le_depthBound hd (by omega))

/-! ### Each of them once -/

theorem nodup_within (hd : d.Proper) (dir : String) : (within d dir).Nodup := by
  unfold within
  cases hlist : d.list dir with
  | error e => exact List.nodup_nil
  | ok names =>
      obtain ⟨-, loc, hspot, rfl⟩ := Disk.list_eq_ok_iff.mp hlist
      obtain ⟨-, _, -, hdenotes⟩ := Disk.resolve_eq_ok_iff_denotes.mp hspot
      refine (hd.nodup_names loc).map_on fun name hname name' hname' heq => ?_
      have hsteps := congrArg Path.steps heq
      rw [Path.steps_join hdenotes.1 (hd.nameable_of_mem_names hname).noSlash,
        Path.steps_join hdenotes.1 (hd.nameable_of_mem_names hname').noSlash,
        List.append_cancel_left_eq] at hsteps
      exact (List.cons.inj hsteps).1

/-- The steps to a file go through the directory that it is below, and on from there. -/
theorem exists_steps_of_mem_below (hd : d.Proper) (hdir : dir ≠ "") (hname : Nameable name)
    (h : path ∈ below d depth (Path.join dir name)) : ∃ names, names ≠ [] ∧
      Path.steps path = Path.steps (Path.unslashed dir) ++ name :: names := by
  obtain ⟨_, _, _, names, -, hholds, rfl, -⟩ := lies_of_mem_below hd h
  exact ⟨names, hholds.ne_nil, steps_joined hdir hname (hholds.nameable hd)⟩

/-- Below two directories of one directory, the steps differ at their names. -/
theorem disjoint_below {q q' : String} (hd : d.Proper) (hq : q ∈ within d dir)
    (hq' : q' ∈ within d dir) (hne : q ≠ q') :
    List.Disjoint (below d depth q) (below d depth q') := by
  intro path hpath hpath'
  obtain ⟨_, _, name, hdenotes, -, hname, rfl⟩ := exists_name_of_mem_within hd hq
  obtain ⟨_, _, name', -, -, hname', rfl⟩ := exists_name_of_mem_within hd hq'
  obtain ⟨names, -, hsteps⟩ := exists_steps_of_mem_below hd hdenotes.1 hname hpath
  obtain ⟨names', -, hsteps'⟩ := exists_steps_of_mem_below hd hdenotes.1 hname' hpath'
  rw [hsteps, List.append_cancel_left_eq] at hsteps'
  rw [(List.cons.inj hsteps').1] at hne
  exact hne rfl

/-- What is in a directory itself has no step after its name. -/
theorem not_mem_below_of_mem_within {q : String} (hd : d.Proper) (hpath : path ∈ within d dir)
    (hq : q ∈ within d dir) : path ∉ below d depth q := by
  intro hbelow
  obtain ⟨_, _, name, hdenotes, -, hname, rfl⟩ := exists_name_of_mem_within hd hpath
  obtain ⟨_, _, name', -, -, hname', rfl⟩ := exists_name_of_mem_within hd hq
  obtain ⟨names, hne, hsteps⟩ := exists_steps_of_mem_below hd hdenotes.1 hname' hbelow
  rw [Path.steps_join hdenotes.1 hname.noSlash, List.append_cancel_left_eq] at hsteps
  exact hne (List.cons.inj hsteps).2.symm

theorem nodup_below (hd : d.Proper) (depth : Nat) (dir : String) : (below d depth dir).Nodup := by
  induction depth generalizing dir with
  | zero => exact List.nodup_nil
  | succ depth ih =>
      have hwithin := nodup_within hd dir
      have hdeeper : (((within d dir).filter d.isDirectory).flatMap (below d depth)).Nodup := by
        refine List.nodup_flatMap.mpr ⟨fun q _ => ih q, (hwithin.filter _).imp_of_mem ?_⟩
        intro q q' hq hq' hne
        exact disjoint_below hd (List.mem_filter.mp hq).1 (List.mem_filter.mp hq').1 hne
      refine List.nodup_append'.mpr ⟨hwithin.filter _, hdeeper, fun path hown hbelow => ?_⟩
      obtain ⟨q, hq, hpath⟩ := List.mem_flatMap.mp hbelow
      exact not_mem_below_of_mem_within hd (List.mem_filter.mp hown).1 (List.mem_filter.mp hq).1
        hpath

/-! ### How deep the directories lie -/

/-- Below a directory there is one that these names lead to.  Since no step is a dot, each of them
is in the one before it. -/
structure Nested (d : Disk) (root : String) (names : List String) : Prop where
  top : d.isDirectory root = true
  nameable : ∀ name ∈ names, Nameable name
  bottom : d.isDirectory (joined root names) = true

theorem ne_empty_of_isDirectory (h : d.isDirectory dir = true) : dir ≠ "" := by
  obtain ⟨-, -, _, _, -, hdenotes⟩ := Disk.isDirectory_iff_denotes.mp h
  exact hdenotes.1

theorem Nested.tail (h : Nested d dir (name :: names)) :
    Path.join dir name ∈ within d dir ∧ Nested d (Path.join dir name) names := by
  have hdir := ne_empty_of_isDirectory h.top
  obtain ⟨hname, hnames⟩ := List.forall_mem_cons.mp h.nameable
  have hjoin : d.isDirectory (Path.join dir name) = true :=
    isDirectory_of_joined (Disk.join_ne_empty hdir hname.noSlash) hnames h.bottom
  exact ⟨(mem_within_of_isDirectory hdir hname hjoin).2, hjoin, hnames, h.bottom⟩

theorem Nested.exists_cons (hd : d.Proper) (hwithin : path ∈ within d dir)
    (h : Nested d path names) : ∃ name, Nested d dir (name :: names) := by
  obtain ⟨_, _, name, hdenotes, -, hname, rfl⟩ := exists_name_of_mem_within hd hwithin
  have htop := (mem_within_of_isDirectory hdenotes.1 hname h.top).1
  exact ⟨name, htop, List.forall_mem_cons.mpr ⟨hname, h.nameable⟩, h.bottom⟩

/-- The first of more names than a limit leads to a directory, and the others on from there. -/
theorem exists_nested_iff (hd : d.Proper) :
    (∃ names, Nested d root names ∧ limit < names.length) ↔
      ∃ q ∈ within d root, ∃ names, Nested d q names ∧ limit ≤ names.length := by
  constructor
  · rintro ⟨names, hnested, hlong⟩
    cases names with
    | nil => cases hlong
    | cons name names =>
        obtain ⟨hwithin, htail⟩ := hnested.tail
        exact ⟨_, hwithin, names, htail, Nat.le_of_lt_succ hlong⟩
  · rintro ⟨q, hwithin, names, hnested, hlong⟩
    obtain ⟨name, hcons⟩ := hnested.exists_cons hd hwithin
    exact ⟨name :: names, hcons, Nat.lt_succ_of_le hlong⟩

/-- **Directories nest beyond a limit exactly if more names than that lead to one.** -/
theorem nests_iff (hd : d.Proper) :
    nests d limit root = true ↔ ∃ names, Nested d root names ∧ limit < names.length := by
  induction limit generalizing root with
  | zero =>
      rw [exists_nested_iff hd, nests, List.any_eq_true]
      refine exists_congr fun q => and_congr_right fun _ => ⟨fun hdir => ?_, fun hnested => ?_⟩
      · exact ⟨[], ⟨hdir, by simp, hdir⟩, Nat.zero_le _⟩
      · obtain ⟨names, hnested, -⟩ := hnested
        exact hnested.top
  | succ limit ih =>
      rw [exists_nested_iff hd, nests, List.any_eq_true]
      constructor
      · rintro ⟨q, hq, hnests⟩
        exact ⟨q, (List.mem_filter.mp hq).1, ih.mp hnests⟩
      · rintro ⟨q, hwithin, names, hnested, hlong⟩
        exact ⟨q, List.mem_filter.mpr ⟨hwithin, hnested.top⟩, ih.mpr ⟨names, hnested, hlong⟩⟩

/-- The walk can go down as far as there are directories. -/
def Shallow (walker : Walker) (d : Disk) (root : String) : Prop :=
  ∀ limit, walker.limit = some limit → ∀ names, Nested d root names → names.length ≤ limit

theorem shallow_iff (hd : d.Proper) : Shallow walker d root ↔
    ∀ limit, walker.limit = some limit → nests d limit root = false := by
  unfold Shallow
  refine forall_congr' fun limit => imp_congr_right fun _ => ?_
  rw [Bool.eq_false_iff, ne_eq, nests_iff hd]
  simp

/-! ### The lists as a whole -/

/-- A list of the files below a root: each of them once and nothing else, so that there is none if
the root is missing or no directory. -/
structure Lists (d : Disk) (root : String) (files : List String) : Prop where
  once : files.Nodup
  mem_iff : ∀ path, path ∈ files ↔ Lies d root path
  empty : d.isDirectory root = false → files = []

theorem lists_of_sources (hd : d.Proper) (h : sources walker d root = .ok files) :
    Lists d root files := by
  obtain ⟨hnul, -, rfl⟩ := sources_eq_ok_iff.mp h
  refine ⟨?_, fun path => (mem_sources_iff h).trans (mem_below_iff_lies hd hnul), fun hno => ?_⟩
  · exact (walker.perm _).nodup_iff.mpr (nodup_below hd _ _)
  · rw [List.eq_nil_iff_forall_not_mem]
    intro path hpath
    obtain ⟨k, n, loc, names, hdenotes, hholds, rfl, hlinks, hshort⟩ :=
      (mem_below_iff_lies hd hnul).mp ((mem_sources_iff h).mp hpath)
    have hlong := length_encode_joined hdenotes.1 (hholds.nameable hd)
    rw [Disk.isDirectory_iff_denotes.mpr ⟨hnul, by omega, loc, k, by omega, hdenotes⟩] at hno
    cases hno

/-- The filter leaves a list of source files as it is, and has nothing to say about it. -/
theorem keep_eq_self (h : ∀ path ∈ files, isSourceFile d path = true) :
    keep d files = (files, []) := by
  induction files with
  | nil => rfl
  | cons path files ih =>
      rw [List.forall_mem_cons, isSourceFile_iff] at h
      rw [keep, ih h.2]
      simp [h.1]

/-- **The files below a root are listed exactly, however the walk orders them, if it can go down as
far as there are directories; otherwise it is given up.  The filter keeps that list and any list of
staged files as it is.** -/
theorem sources_exact (walker : Walker) (hd : d.Proper) (hnul : '\x00' ∉ root.toList) :
    (Shallow walker d root → ∃ files, sources walker d root = .ok files ∧ Lists d root files ∧
      keep d files = (files, [])) ∧
    (¬Shallow walker d root → sources walker d root = .error .tooDeep) ∧
    ∀ git s, staged d git = .ok s → keep d s.files = (s.files, []) := by
  refine ⟨fun hshallow => ?_, fun hdeep => ?_, fun git s hs => ?_⟩
  · have hfiles : sources walker d root = .ok (walker.order (below d (depthBound d) root)) :=
      sources_eq_ok_iff.mpr ⟨hnul, (shallow_iff hd).mp hshallow, rfl⟩
    refine ⟨_, hfiles, lists_of_sources hd hfiles, keep_eq_self fun path hpath => ?_⟩
    exact isSourceFile_of_mem_below ((mem_sources_iff hfiles).mp hpath)
  · unfold Shallow at hdeep
    push Not at hdeep
    obtain ⟨limit, hlimit, names, hnested, hlong⟩ := hdeep
    exact sources_eq_tooDeep hnul hlimit ((nests_iff hd).mpr ⟨names, hnested, hlong⟩)
  · obtain ⟨names, -, hfiles⟩ := exists_staged_iff.mp ⟨s, hs, rfl⟩
    rw [← hfiles]
    exact keep_eq_self fun path hpath => (List.mem_filter.mp hpath).2

/-- A tree with a link to a directory, a link to a file, a link to nothing and a directory with the
suffix of a source file. -/
def tree : Disk where
  entries := [
    (["r"], .directory),
    (["r", "a.js"], .file [] false),
    (["r", "d.js"], .directory),
    (["r", "d.js", "b.js"], .link "../a.js"),
    (["r", "gone.js"], .link "nowhere"),
    (["r", "l"], .link "../s"),
    (["s"], .directory),
    (["s", "c.js"], .file [] false)]

/-- One level of directories can be walked if the limit is one, and not if it is none. -/
theorem sources_exact_tree :
    sources { limit := some 1 } tree "r/" = .ok ["r/a.js", "r/d.js/b.js", "r/l/c.js"] ∧
    (∃ files, sources { limit := some 1 } tree "r/" = .ok files ∧ Lists tree "r/" files ∧
      keep tree files = (files, [])) ∧
    sources { limit := some 0 } tree "r/" = .error .tooDeep ∧
    ∀ git s, staged tree git = .ok s → keep tree s.files = (s.files, []) := by
  have hproper : tree.Proper := by decide
  have hshallow : Shallow { limit := some 1 } tree "r/" := by
    refine (shallow_iff hproper).mpr fun limit hlimit => ?_
    cases hlimit
    decide +kernel
  have hdeep : ¬Shallow { limit := some 0 } tree "r/" := fun h =>
    absurd ((shallow_iff hproper).mp h 0 rfl) (by decide +kernel)
  have hone := sources_exact { limit := some 1 } hproper (by decide : '\x00' ∉ "r/".toList)
  have hnone := sources_exact { limit := some 0 } hproper (by decide : '\x00' ∉ "r/".toList)
  exact ⟨by decide +kernel, hone.1 hshallow, hnone.2.1 hdeep, hone.2.2⟩

/-- One file in one directory. -/
def shallow : Disk where
  entries := [(["r"], .directory), (["r", "x.js"], .file [] false)]

/-- The path `r` with slashes behind it, which change nothing. -/
def slashed (n : Nat) : String := "r" ++ String.ofList (List.replicate n '/')

theorem length_encode_slashed (n : Nat) (s : String) :
    (Utf8.encodeString (slashed n ++ s)).length = n + 1 + (Utf8.encodeString s).length := by
  have hslash : Utf8.encodeChar '/' = [47] := by decide
  have hr : Utf8.encodeString "r" = [114] := by decide
  unfold Utf8.encodeString at hr ⊢
  simp only [slashed, String.toList_append, String.toList_ofList, List.flatMap_append, hr,
    List.length_append]
  rw [List.length_flatMap, List.map_replicate, hslash, List.sum_replicate_nat]
  simp
  omega

theorem slashed_succ (n : Nat) : slashed (n + 1) = slashed n ++ "/" := by
  apply String.toList_injective
  simp [slashed, List.replicate_succ']

theorem denotes_slashed (n : Nat) : Denotes shallow 0 (slashed n) (.taken ["r"] .directory) := by
  refine ⟨by simp [slashed], ?_⟩
  have hbase : ∀ path, Disk.base shallow.cwd path = [] := by
    intro path
    unfold Disk.base
    split <;> rfl
  induction n with
  | zero =>
      have hname : Disk.IsName "r" := (by decide : Nameable "r").toIsName
      exact .step (k := 0) rfl (.down hname rfl (by simp)) (.stop rfl)
  | succ n ih =>
      have hsteps := Path.steps_append_slash (slashed n) ""
      rw [String.append_empty, ← slashed_succ] at hsteps
      rw [hbase] at ih ⊢
      rw [hsteps]
      exact ih.append (.step (k := 0) (n := 0) rfl (.stay (.inl rfl)) (.stop rfl))

theorem joined_slashed (n : Nat) : joined (slashed (n + 1)) ["x.js"] = slashed n ++ "/x.js" := by
  show Path.join (slashed (n + 1)) "x.js" = _
  rw [Path.join_eq (denotes_slashed _).1 (by decide), slashed_succ, Path.unslashed_append_slash,
    String.append_assoc]
  rfl
/-- Directories in one another, `n` of them, and a file in the innermost. -/
def tower (n : Nat) : Disk where
  entries := (List.range n).map (fun i => (List.replicate (i + 1) "d", .directory)) ++
    [(List.replicate n "d" ++ ["x.js"], .file [] false)]

theorem proper_tower (n : Nat) : (tower n).Proper := by
  have hd : Nameable "d" := by decide
  have hx : Nameable "x.js" := by decide
  constructor
  · have hkeys : (tower n).entries.map Prod.fst =
        (List.range n).map (fun i => List.replicate (i + 1) "d") ++
          [List.replicate n "d" ++ ["x.js"]] := by
      simp [tower]
    rw [hkeys, List.nodup_append']
    refine ⟨List.nodup_range.map fun i j heq => ?_, List.nodup_singleton _, ?_⟩
    · have hlength := congrArg List.length heq
      simpa using hlength
    · intro loc hlevel hlast
      rw [List.mem_singleton.mp hlast] at hlevel
      obtain ⟨i, -, heq⟩ := List.mem_map.mp hlevel
      have hmem : "x.js" ∈ List.replicate (i + 1) "d" := by rw [heq]; simp
      exact absurd (List.eq_of_mem_replicate hmem) (by decide)
  · intro entry hentry name hname
    rcases List.mem_append.mp hentry with hlevel | hlast
    · obtain ⟨i, -, rfl⟩ := List.mem_map.mp hlevel
      rwa [List.eq_of_mem_replicate hname]
    · rw [List.mem_singleton.mp hlast] at hname
      rcases List.mem_append.mp hname with hlevel | hfile
      · rwa [List.eq_of_mem_replicate hlevel]
      · rwa [List.mem_singleton.mp hfile]

theorem linkCount_tower (n : Nat) : linkCount (tower n) = 0 := by
  simp [linkCount, tower, List.countP_map, Function.comp_def]

theorem get?_tower (h : k ≤ n) : (tower n).get? (List.replicate k "d") = some .directory := by
  cases k with
  | zero => rfl
  | succ k =>
      refine (proper_tower n).get?_of_mem ?_ (by simp)
      exact List.mem_append_left _ (List.mem_map.mpr ⟨k, List.mem_range.mpr h, rfl⟩)

theorem get?_tower_file (n : Nat) :
    (tower n).get? (List.replicate n "d" ++ ["x.js"]) = some (.file [] false) :=
  (proper_tower n).get?_of_mem (by simp [tower]) (by simp)

theorem leads_tower (h : k < n) : Leads (tower n) 0 (List.replicate k "d") ["d"]
    (.taken (List.replicate (k + 1) "d") .directory) := by
  have hname : Disk.IsName "d" := (by decide : Nameable "d").toIsName
  have hchild : child (List.replicate k "d") "d" = List.replicate (k + 1) "d" :=
    List.replicate_succ'.symm
  have hentry : (tower n).get? (child (List.replicate k "d") "d") = some .directory := by
    rw [hchild, get?_tower h]
  have hleads := Leads.step (k := 0) (get?_tower (by omega)) (.down hname hentry (by simp))
    (.stop hentry)
  rwa [hchild] at hleads

theorem holds_tower (h : k + depth = n) : Holds (tower n) 0 (List.replicate k "d")
    (List.replicate depth "d" ++ ["x.js"]) := by
  induction depth generalizing k with
  | zero =>
      obtain rfl : k = n := h
      have hname : Disk.IsName "x.js" := (by decide : Nameable "x.js").toIsName
      have hentry := get?_tower_file k
      refine .file (Disk.mem_names_iff.mpr (by simp [child, hentry])) (by decide)
        (.step (k := 0) (get?_tower (Nat.le_refl k)) (.down hname hentry (by simp)) (.stop hentry))
  | succ depth ih =>
      have hleads := leads_tower (k := k) (n := n) (by omega)
      exact .inside (k := 0) (hleads.mem_names (by decide)) hleads (ih (by omega))

/-- The path of a directory of the tower, with two characters for each level. -/
theorem denotes_tower (h : k < n) :
    Denotes (tower n) 0 (joined "d" (List.replicate k "d"))
      (.taken (List.replicate (k + 1) "d") .directory) ∧
    '\x00' ∉ (joined "d" (List.replicate k "d")).toList ∧
    (Utf8.encodeString (joined "d" (List.replicate k "d"))).length ≤ 2 * k + 1 := by
  have hd : Nameable "d" := by decide
  induction k with
  | zero =>
      refine ⟨⟨by decide, ?_⟩, by decide, by decide⟩
      exact leads_tower h
  | succ k ih =>
      obtain ⟨hdenotes, hnul, hshort⟩ := ih (by omega)
      have hjoined : joined "d" (List.replicate (k + 1) "d") =
          Path.join (joined "d" (List.replicate k "d")) "d" := by
        rw [List.replicate_succ', joined_append_singleton]
      have hlength := Disk.length_encode_join_le hdenotes.1 hd.noSlash
      rw [hjoined]
      have hone : (Utf8.encodeString "d").length = 1 := by decide
      exact ⟨hdenotes.join hd (leads_tower h), Disk.noNul_join hdenotes.1 hd hnul, by omega⟩

theorem nested_tower (h : k < n) (hshort : 2 * k + 1 < Disk.maxPath) :
    Nested (tower n) "d" (List.replicate k "d") := by
  have hisDirectory : ∀ i ≤ k,
      (tower n).isDirectory (joined "d" (List.replicate i "d")) = true := by
    intro i hi
    obtain ⟨hdenotes, hnul, hlength⟩ := denotes_tower (k := i) (n := n) (by omega)
    exact Disk.isDirectory_iff_denotes.mpr ⟨hnul, by omega, _, 0, by decide, hdenotes⟩
  refine ⟨hisDirectory 0 (Nat.zero_le k), fun name hname => ?_, hisDirectory k (Nat.le_refl k)⟩
  rw [List.eq_of_mem_replicate hname]
  decide

theorem lies_tower (hshort : 2 * n + 6 < Disk.maxPath) :
    Lies (tower (n + 1)) "d" (joined "d" (List.replicate n "d" ++ ["x.js"])) := by
  obtain ⟨hdenotes, -, hlength⟩ := denotes_tower (Nat.lt_succ_self n)
  have hroot := (denotes_tower (k := 0) (n := n + 1) (by omega)).1
  have hlast := Disk.length_encode_join_le hdenotes.1 (by decide : '/' ∉ "x.js".toList)
  have hfour : (Utf8.encodeString "x.js").length = 4 := by decide
  refine ⟨0, 0, _, _, hroot, holds_tower (by omega), rfl, by decide, ?_⟩
  rw [joined_append_singleton]
  omega

theorem sources_tower (hdeep : limit < n) (hshort : 2 * n + 1 < Disk.maxPath) :
    sources { limit := some limit } (tower (n + 1)) "d" = .error .tooDeep := by
  refine sources_eq_tooDeep (by decide) rfl ((nests_iff (proper_tower _)).mpr ?_)
  exact ⟨_, nested_tower (Nat.lt_succ_self n) hshort, by rwa [List.length_replicate]⟩

/-- **Not every file below a root is listed.**  In none of these trees is there a link.  In the
first, the path of the file is too long, though its root is that of a directory.  A root that no
path can hold is an error.  In the last, the file is in more directories than the walk goes down. -/
theorem sources_misses :
    (shallow.Proper ∧ linkCount shallow = 0 ∧ '\x00' ∉ (slashed 4092).toList ∧
      Denotes shallow 0 (slashed 4092) (.taken ["r"] .directory) ∧
      shallow.isDirectory (slashed 4092) = true ∧ Holds shallow 0 ["r"] ["x.js"] ∧
      ∃ files, sources {} shallow (slashed 4092) = .ok files ∧
        joined (slashed 4092) ["x.js"] ∉ files) ∧
    sources {} shallow "\x00" = .error (.disk .embeddedNul) ∧
    ((tower 1200).Proper ∧ linkCount (tower 1200) = 0 ∧
      Lies (tower 1200) "d" (joined "d" (List.replicate 1199 "d" ++ ["x.js"])) ∧
      sources { limit := some 1000 } (tower 1200) "d" = .error .tooDeep) := by
  have hproper : shallow.Proper := by decide
  have hnul : '\x00' ∉ (slashed 4092).toList := by
    simp [slashed, -List.reduceReplicate]
  have hwalk : ∀ root : String, '\x00' ∉ root.toList →
      ∃ files, sources {} shallow root = .ok files := fun root hroot =>
    ⟨_, sources_eq_ok_iff.mpr ⟨hroot, by simp, rfl⟩⟩
  obtain ⟨files, hfiles⟩ := hwalk _ hnul
  refine ⟨⟨hproper, by decide, hnul, denotes_slashed _, ?_, ?_, files, hfiles, ?_⟩, by decide,
    proper_tower _, linkCount_tower _, lies_tower (by decide),
    sources_tower (by decide) (by decide)⟩
  · have hlength := length_encode_slashed 4092 ""
    rw [String.append_empty] at hlength
    refine Disk.isDirectory_iff.mpr ⟨hnul, ["r"], (denotes_slashed _).resolve_eq (Nat.zero_le _) ?_⟩
    rw [hlength]
    decide
  · have hname : Disk.IsName "x.js" := (by decide : Nameable "x.js").toIsName
    exact .file (by decide) (by decide) (.step (k := 0) rfl (.down hname rfl (by simp)) (.stop rfl))
  · intro hmem
    obtain ⟨_, _, _, _, -, -, -, -, hshort⟩ :=
      ((lists_of_sources hproper hfiles).mem_iff _).mp hmem
    rw [joined_slashed 4091, length_encode_slashed] at hshort
    exact absurd hshort (by decide)

end Semicolon.Discovery
