/-
Which files are chosen, and what a choice takes from the disk.

Files are chosen by name, by what is staged, or by a walk below a directory, and of each of them it
is asked whether it is a regular file.  On a disk that has got other files in place of some, and
none where there was nothing, every way of choosing finds only what it found before, except for
paths that opened no file then.  The policy of a run depends on the disk through the bytes of the
options file alone.
-/
import Semicolon.Config
import Semicolon.Proofs.Opening

namespace Semicolon

namespace Disk

variable {d d' : Disk} {path : String} {Q : Bytes → Prop} {loc : Location} {e : Entry}

/-! ### Files and directories -/

theorem entry?_eq_some_iff : d.entry? path = some e ↔
    '\x00' ∉ path.toList ∧ ∃ loc, d.resolve true path = .ok (.taken loc e) := by
  unfold entry?
  by_cases hnul : '\x00' ∈ path.toList
  · simp [hnul]
  cases hspot : d.resolve true path with
  | error fault => simp [hnul]
  | ok spot => cases spot <;> simp [hnul]

theorem isFile_iff : d.isFile path = true ↔ ∃ data, d.readFile path = .ok data := by
  have hentry : d.isFile path = true ↔ ∃ data x, d.entry? path = some (.file data x) := by
    unfold isFile
    cases d.entry? path with
    | none => simp
    | some e => cases e <;> simp
  rw [hentry]
  constructor
  · rintro ⟨data, x, he⟩
    obtain ⟨hnul, loc, hspot⟩ := entry?_eq_some_iff.mp he
    exact ⟨data, readFile_eq_ok_iff.mpr ⟨hnul, loc, x, hspot⟩⟩
  · rintro ⟨data, hread⟩
    obtain ⟨hnul, loc, x, hspot⟩ := readFile_eq_ok_iff.mp hread
    exact ⟨data, x, entry?_eq_some_iff.mpr ⟨hnul, loc, hspot⟩⟩

theorem isDirectory_iff : d.isDirectory path = true ↔
    '\x00' ∉ path.toList ∧ ∃ loc, d.resolve true path = .ok (.taken loc .directory) := by
  rw [isDirectory, decide_eq_true_eq, entry?_eq_some_iff]

theorem Keeps.resolve_directory (h : Keeps Q d d')
    (hspot : d'.resolve true path = .ok (.taken loc .directory)) :
    d.resolve true path = .ok (.taken loc .directory) := by
  rcases h.resolve hspot with hspot' | ⟨⟨data, x, -, hfile⟩, -⟩
  · exact hspot'
  · cases hfile

theorem Keeps.isDirectory (h : Keeps Q d d') (hdir : d'.isDirectory path = true) :
    d.isDirectory path = true := by
  obtain ⟨hnul, loc, hspot⟩ := isDirectory_iff.mp hdir
  exact isDirectory_iff.mpr ⟨hnul, loc, h.resolve_directory hspot⟩

/-! ### Disks with no more entries -/

/-- The second disk has no more entries than the first, and none at a place that was free. -/
structure NoMore (d d' : Disk) : Prop where
  count : d'.entries.length ≤ d.entries.length
  taken : ∀ l, (d'.get? l).isSome → (d.get? l).isSome

theorem NoMore.refl (d : Disk) : NoMore d d := ⟨Nat.le_refl _, fun _ hl => hl⟩

theorem NoMore.trans {d'' : Disk} (h : NoMore d d') (h' : NoMore d' d'') : NoMore d d'' :=
  ⟨Nat.le_trans h'.count h.count, fun l hl => h.taken l (h'.taken l hl)⟩

/-- A name is in a directory exactly if there is something at its place. -/
theorem mem_names_iff {name : String} : name ∈ d.names loc ↔ (d.get? (child loc name)).isSome := by
  have hname : ∀ l : Location, l.dropLast = loc ∧ l.getLast? = some name ↔ l = child loc name := by
    intro l
    constructor
    · rintro ⟨rfl, hlast⟩
      exact (List.dropLast_append_getLast? name hlast).symm
    · rintro rfl
      simp [child]
  rw [get?, if_neg (child_ne_nil loc name), List.lookup_isSome_iff, names, List.mem_filterMap]
  refine exists_congr fun entry => and_congr_right fun _ => ?_
  rw [beq_iff_eq, eq_comm (a := child loc name), ← hname entry.1]
  split
  · rename_i hdrop
    simp [hdrop]
  · rename_i hdrop
    simp [hdrop]

theorem list_eq_ok_iff {names : List String} : d.list path = .ok names ↔
    '\x00' ∉ path.toList ∧ ∃ loc, d.resolve true path = .ok (.taken loc .directory) ∧
      names = d.names loc := by
  rw [list, onPath_eq_ok_iff]
  refine and_congr_right fun _ => ?_
  cases d.resolve true path with
  | error fault => simp
  | ok spot =>
      cases spot with
      | free dir name slashed => simp
      | taken loc e => cases e <;> simp [eq_comm]

end Disk

namespace Discovery

variable {d d' : Disk} {Q : Bytes → Prop} {path dir root : String} {n m : Nat} {walker : Walker}
  {git : Staging} {named files : List String} {want : Bool}

open Disk (Keeps NoMore)

theorem isSourceFile_iff :
    isSourceFile d path = true ↔ isSource path = true ∧ d.isFile path = true :=
  Bool.and_eq_true_iff

/-! ### Below a directory -/

theorem mem_within_iff : path ∈ within d dir ↔
    '\x00' ∉ dir.toList ∧ ∃ loc, d.resolve true dir = .ok (.taken loc .directory) ∧
      ∃ name, (d.get? (Disk.child loc name)).isSome ∧ path = Path.join dir name := by
  have hlist : path ∈ within d dir ↔ ∃ names, d.list dir = .ok names ∧
      ∃ name ∈ names, path = Path.join dir name := by
    unfold within
    cases d.list dir with
    | error e => simp
    | ok names => simp [eq_comm]
  rw [hlist]
  constructor
  · rintro ⟨names, hnames, name, hmem, hpath⟩
    obtain ⟨hnul, loc, hspot, rfl⟩ := Disk.list_eq_ok_iff.mp hnames
    exact ⟨hnul, loc, hspot, name, Disk.mem_names_iff.mp hmem, hpath⟩
  · rintro ⟨hnul, loc, hspot, name, hmem, hpath⟩
    exact ⟨d.names loc, Disk.list_eq_ok_iff.mpr ⟨hnul, loc, hspot, rfl⟩, name,
      Disk.mem_names_iff.mpr hmem, hpath⟩

/-- What is in a directory afterwards was in it before. -/
theorem mem_within_of_keeps (hkeeps : Keeps Q d d') (hless : NoMore d d')
    (h : path ∈ within d' dir) : path ∈ within d dir := by
  obtain ⟨hnul, loc, hspot, name, hmem, hpath⟩ := mem_within_iff.mp h
  exact mem_within_iff.mpr
    ⟨hnul, loc, hkeeps.resolve_directory hspot, name, hless.taken _ hmem, hpath⟩

/-- What is below a directory is one of its source files, or below one of its directories. -/
theorem mem_below_succ_iff : path ∈ below d (n + 1) dir ↔
    path ∈ within d dir ∧ isSourceFile d path = true ∨
      ∃ q ∈ within d dir, d.isDirectory q = true ∧ path ∈ below d n q := by
  simp [below, and_assoc]

theorem mem_below_mono (hnm : n ≤ m) (h : path ∈ below d n dir) : path ∈ below d m dir := by
  induction n generalizing m dir with
  | zero => cases h
  | succ n ih =>
      obtain ⟨m, rfl⟩ : ∃ k, m = k + 1 := ⟨m - 1, by omega⟩
      rw [mem_below_succ_iff] at h ⊢
      rcases h with hfile | ⟨q, hq, hdir, hbelow⟩
      · exact Or.inl hfile
      · exact Or.inr ⟨q, hq, hdir, ih (by omega) hbelow⟩

theorem isSourceFile_of_mem_below (h : path ∈ below d n dir) : isSourceFile d path = true := by
  induction n generalizing dir with
  | zero => cases h
  | succ n ih =>
      rcases mem_below_succ_iff.mp h with ⟨-, hfile⟩ | ⟨q, -, -, hbelow⟩
      · exact hfile
      · exact ih hbelow

/-- A file that is below a directory afterwards was below it before, if it was a file. -/
theorem mem_below_of_keeps (hkeeps : Keeps Q d d') (hless : NoMore d d')
    (hfile : d.isFile path = true) (h : path ∈ below d' n dir) : path ∈ below d n dir := by
  induction n generalizing dir with
  | zero => cases h
  | succ n ih =>
      rw [mem_below_succ_iff] at h ⊢
      rcases h with ⟨hmem, hafter⟩ | ⟨q, hq, hdir, hbelow⟩
      · have hsource := (isSourceFile_iff.mp hafter).1
        exact Or.inl ⟨mem_within_of_keeps hkeeps hless hmem, isSourceFile_iff.mpr ⟨hsource, hfile⟩⟩
      · exact Or.inr ⟨q, mem_within_of_keeps hkeeps hless hq, hkeeps.isDirectory hdir, ih hbelow⟩

/-- Directories lie no deeper within one another than they did. -/
theorem nests_of_keeps (hkeeps : Keeps Q d d') (hless : NoMore d d') (h : nests d' n dir = true) :
    nests d n dir = true := by
  induction n generalizing dir with
  | zero =>
      simp only [nests, List.any_eq_true] at h ⊢
      obtain ⟨q, hq, hdir⟩ := h
      exact ⟨q, mem_within_of_keeps hkeeps hless hq, hkeeps.isDirectory hdir⟩
  | succ n ih =>
      simp only [nests, List.any_eq_true, List.mem_filter] at h ⊢
      obtain ⟨q, ⟨hq, hdir⟩, hnests⟩ := h
      exact ⟨q, ⟨mem_within_of_keeps hkeeps hless hq, hkeeps.isDirectory hdir⟩, ih hnests⟩

theorem depthBound_le (hless : NoMore d d') : depthBound d' ≤ depthBound d := by
  have hcount := hless.count
  unfold depthBound
  exact Nat.succ_le_succ (Nat.mul_le_mul_left _ (by omega))

theorem sources_eq_ok_iff : sources walker d root = .ok files ↔ '\x00' ∉ root.toList ∧
    (∀ limit, walker.limit = some limit → nests d limit root = false) ∧
      walker.order (below d (depthBound d) root) = files := by
  unfold sources
  by_cases hnul : '\x00' ∈ root.toList
  · simp [hnul]
  cases hlimit : walker.limit with
  | none => simp [hnul]
  | some limit => cases hnests : nests d limit root <;> simp [hnul, hnests]

theorem sources_eq_tooDeep {limit : Nat} (hnul : '\x00' ∉ root.toList)
    (hlimit : walker.limit = some limit) (hdeep : nests d limit root = true) :
    sources walker d root = .error .tooDeep := by
  simp [sources, hnul, hlimit, hdeep]

theorem mem_sources_iff (h : sources walker d root = .ok files) :
    path ∈ files ↔ path ∈ below d (depthBound d) root := by
  obtain ⟨-, -, rfl⟩ := sources_eq_ok_iff.mp h
  exact (walker.perm _).mem_iff

/-- A root that can be walked can be walked again. -/
theorem exists_sources_again {walker' : Walker} (hlimit : walker'.limit = walker.limit)
    (hkeeps : Keeps Q d d') (hless : NoMore d d') (h : sources walker d root = .ok files) :
    ∃ files', sources walker' d' root = .ok files' := by
  obtain ⟨hnul, hshallow, -⟩ := sources_eq_ok_iff.mp h
  refine ⟨_, sources_eq_ok_iff.mpr ⟨hnul, fun limit hlim => ?_, rfl⟩⟩
  rw [hlimit] at hlim
  rw [Bool.eq_false_iff]
  intro hnests
  have hbefore := nests_of_keeps hkeeps hless hnests
  rw [hshallow limit hlim] at hbefore
  cases hbefore

/-! ### Staged files -/

/-- The names that version control gives, whether or not they are source files that exist. -/
def stagedNames (git : Staging) : Except Error (List String) :=
  match git.worktree with
  | .unstarted _ => .ok []
  | .undecodable u => .error (.undecodable u)
  | .given status _ =>
    if status ≠ 0 then .ok []
    else
      match git.staged with
      | .unstarted _ => .ok []
      | .undecodable u => .error (.undecodable u)
      | .given _ text => .ok ((answerLines text.toList).map String.ofList)

/-- **The staged files are the source files among the names that version control gives.** -/
theorem exists_staged_iff : (∃ s, staged d git = .ok s ∧ s.files = files) ↔
    ∃ names, stagedNames git = .ok names ∧ names.filter (isSourceFile d) = files := by
  unfold staged stagedNames
  cases git.worktree with
  | unstarted f => simp
  | undecodable u => simp
  | given status text =>
      by_cases hstatus : status ≠ 0
      · simp [hstatus]
      · simp only [hstatus, if_false]
        cases git.staged <;> simp

/-- The staged files, if they are wanted. -/
def wanted (d : Disk) (git : Staging) (want : Bool) : Except Error (List String) :=
  if want then (stagedNames git).map fun names => names.filter (isSourceFile d) else .ok []

theorem exists_askStaged_iff :
    (∃ s, askStaged d git want = .ok s ∧ s.files = files) ↔ wanted d git want = .ok files := by
  unfold askStaged wanted
  cases want with
  | false => simp
  | true =>
      have hfiles := @exists_staged_iff d git files
      cases hstaged : staged d git with
      | error e =>
          simp only [hstaged, reduceCtorEq, false_and, exists_false, false_iff, not_exists,
            not_and] at hfiles
          cases hnames : stagedNames git with
          | error e' => simp [Except.map]
          | ok names => simpa [Except.map] using hfiles names hnames
      | ok s =>
          simp only [hstaged, Except.ok.injEq, exists_eq_left'] at hfiles
          cases hnames : stagedNames git with
          | error e' => simpa [Except.map, hnames] using hfiles
          | ok names => simpa [Except.map, hnames] using hfiles

/-- The disk has a say only in which of the names are source files. -/
theorem exists_wanted (h : wanted d git want = .ok files) :
    ∃ names : List String, ∀ d', wanted d' git want = .ok (names.filter (isSourceFile d')) := by
  unfold wanted at h ⊢
  cases want with
  | false => exact ⟨[], fun _ => rfl⟩
  | true =>
      cases hnames : stagedNames git with
      | error e =>
          rw [hnames] at h
          cases h
      | ok names => exact ⟨names, fun _ => rfl⟩

/-! ### Choice -/

theorem mem_keep_iff {files : List String} : path ∈ (keep d files).1 ↔
    path ∈ files ∧ isSource path = true ∧ d.isFile path = true := by
  induction files with
  | nil => simp [keep]
  | cons q files ih =>
      have hkeep : (keep d (q :: files)).1 =
          if isSource q = true ∧ d.isFile q = true then q :: (keep d files).1
          else (keep d files).1 := by
        rw [keep]
        cases isSource q <;> cases d.isFile q <;> rfl
      rw [hkeep, List.mem_cons]
      by_cases hq : isSource q = true ∧ d.isFile q = true
      · rw [if_pos hq, List.mem_cons, ih]
        constructor
        · rintro (rfl | ⟨hmem, hrest⟩)
          · exact ⟨Or.inl rfl, hq⟩
          · exact ⟨Or.inr hmem, hrest⟩
        · rintro ⟨rfl | hmem, hrest⟩
          · exact Or.inl rfl
          · exact Or.inr ⟨hmem, hrest⟩
      · rw [if_neg hq, ih]
        constructor
        · rintro ⟨hmem, hrest⟩
          exact ⟨Or.inr hmem, hrest⟩
        · rintro ⟨rfl | hmem, hrest⟩
          · exact absurd hrest hq
          · exact ⟨hmem, hrest⟩

theorem isSource_of_mem_keep {files : List String} (h : path ∈ (keep d files).1) :
    isSource path = true := (mem_keep_iff.mp h).2.1

/-- A path that was kept can be asked for. -/
theorem noNul_of_mem_keep {files : List String} (h : path ∈ (keep d files).1) :
    '\x00' ∉ path.toList := by
  obtain ⟨data, hread⟩ := Disk.isFile_iff.mp (mem_keep_iff.mp h).2.2
  exact (Disk.readFile_eq_ok_iff.mp hread).1

/-- The files that are chosen: those named, else those staged, else those below the root. -/
def chosen (walker : Walker) (d : Disk) (git : Staging) (named : List String) (want : Bool)
    (root : String) : Except Error (List String) :=
  if named ≠ [] then .ok named
  else
    match wanted d git want with
    | .error e => .error e
    | .ok [] => sources walker d root
    | .ok files => .ok files

/-- If none are named, the files are those that are staged, or those below the root. -/
theorem chosen_nil_eq_ok_iff : chosen walker d git [] want root = .ok files ↔
    (wanted d git want = .ok files ∧ files ≠ []) ∨
      (wanted d git want = .ok [] ∧ sources walker d root = .ok files) := by
  unfold chosen
  cases hwanted : wanted d git want with
  | error e => simp
  | ok staged =>
      cases staged with
      | nil => simp +contextual [eq_comm]
      | cons path rest =>
          simp only [ne_eq, not_true_eq_false, if_false, Except.ok.injEq, reduceCtorEq, false_and,
            or_false]
          constructor
          · rintro rfl
            exact ⟨rfl, by simp⟩
          · exact And.left

theorem exists_choose_iff :
    (∃ choice, choose walker d git named want root = .ok choice ∧ choice.files = files) ↔
      chosen walker d git named want root = .ok files := by
  unfold choose chosen
  cases named with
  | cons name named => simp
  | nil =>
      have hask := @exists_askStaged_iff d git
      cases hasked : askStaged d git want with
      | error e =>
          cases hwanted : wanted d git want with
          | error e' => simp
          | ok staged =>
              obtain ⟨s, hs, -⟩ := hask.mpr hwanted
              cases hasked.symm.trans hs
      | ok asked =>
          rw [hask.mp ⟨asked, hasked, rfl⟩]
          cases hfiles : asked.files with
          | cons path rest => simp [hfiles]
          | nil => cases sources walker d root <;> simp [hfiles]

end Discovery

/-! ### The options file -/

namespace Config

variable {d d' : Disk} {path : String} {p : Policy}

theorem load_congr (hnul : '\x00' ∉ path.toList)
    (hsame : ∀ data, d.readFile path = .ok data ↔ d'.readFile path = .ok data) :
    (load d path).2 = (load d' path).2 := by
  unfold load
  cases hread : d.readFile path with
  | ok data =>
      rw [(hsame data).mp hread]
  | error e =>
      cases hread' : d'.readFile path with
      | ok data => exact absurd ((hsame data).mpr hread') (by simp [hread])
      | error e' =>
          cases e with
          | embeddedNul => exact absurd hread (Disk.onPath_ne_embeddedNul hnul)
          | refused f =>
              cases e' with
              | embeddedNul => exact absurd hread' (Disk.onPath_ne_embeddedNul hnul)
              | refused f' => rfl

/-- The policy is the same on disks that have the same bytes in the options file. -/
theorem policy_congr {option : Option String} {allow : Bool}
    (hsame : ∀ c, option = some c → ∀ data, d.readFile c = .ok data ↔ d'.readFile c = .ok data)
    (hok : (build d option allow).2 = .ok p) : (build d' option allow).2 = .ok p := by
  unfold build at hok ⊢
  cases hoption : option.filter (fun c => !c.isEmpty) with
  | none =>
      simp only [hoption] at hok ⊢
      exact hok
  | some c =>
      have hc : option = some c := (Option.filter_eq_some_iff.mp hoption).1
      simp only [hoption] at hok ⊢
      by_cases hnul : '\x00' ∈ c.toList
      · -- Then the first disk would have refused to read the file.
        have hread : d.readFile c = .error .embeddedNul := by
          simp [Disk.readFile, Disk.onPath, hnul]
        simp only [load, hread] at hok
        cases hok
      · rw [← load_congr hnul (hsame c hc)]
        exact hok

end Config

end Semicolon
