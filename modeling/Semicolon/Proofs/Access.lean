/-
What the operations on a disk did, if they did not fail.

One lemma for each operation says what a success means: where the path leads, what stood there,
and which change of the map gives the disk afterwards.  Nothing past this file opens an
operation.
-/
import Mathlib.Data.List.DropRight
import Semicolon.Proofs.Walk

namespace Semicolon.Disk

variable {d d' : Disk} {path : String} {data : Bytes} {spot : Spot}

theorem onPath_eq_ok_iff {α : Type} {act : Except Fault α} {a : α} :
    onPath path act = .ok a ↔ '\x00' ∉ path.toList ∧ act = .ok a := by
  unfold onPath
  by_cases hnul : '\x00' ∈ path.toList
  · simp [hnul]
  · cases act with
    | error fault => simp [hnul]
    | ok b => simp [hnul]

theorem onPath_ne_embeddedNul {α : Type} {act : Except Fault α} (hnul : '\x00' ∉ path.toList) :
    onPath path act ≠ .error .embeddedNul := by
  unfold onPath
  cases act with
  | error fault => simp [hnul]
  | ok b => simp [hnul]

theorem resolve_eq_ok_iff : d.resolve true path = .ok spot ↔
    path ≠ "" ∧ (Utf8.encodeString path).length < maxPath ∧
      ∃ n ≤ maxLinks, Leads d n (base d.cwd path) (Path.steps path) spot := by
  rw [← walk_eq_ok_iff]
  unfold resolve base
  by_cases hempty : path = ""
  · simp [hempty]
  by_cases hlong : maxPath ≤ (Utf8.encodeString path).length
  · simp [hempty, hlong, Nat.not_lt.mpr hlong]
  · simp [hempty, hlong, Nat.lt_of_not_le hlong]

/-! ### Reading and writing -/

theorem readFile_eq_ok_iff : d.readFile path = .ok data ↔
    '\x00' ∉ path.toList ∧ ∃ loc x, d.resolve true path = .ok (.taken loc (.file data x)) := by
  rw [readFile, onPath_eq_ok_iff]
  refine and_congr_right fun _ => ?_
  cases d.resolve true path with
  | error fault => simp
  | ok spot =>
      cases spot with
      | free dir name slashed => simp
      | taken loc e => cases e <;> simp

/-- A write puts a file at the place its path leads to, where a file or nothing was. -/
theorem put_of_writeFile (h : d.writeFile path data = .ok d') : ∃ spot x,
    '\x00' ∉ path.toList ∧ d.resolve true path = .ok spot ∧ spot.isSlashed = false ∧
      (∀ e, spot.entry? = some e → ∃ old x', e = .file old x') ∧
      d' = d.put spot.place (.file data x) := by
  rw [writeFile, onPath_eq_ok_iff] at h
  obtain ⟨hnul, h⟩ := h
  split at h
  · simp at h
  split at h
  · simp at h
  cases hspot : d.resolve true path with
  | error fault => simp [hspot] at h
  | ok spot =>
      rw [hspot] at h
      match spot, h with
      | .taken loc (.file old x), h =>
          exact ⟨.taken loc (.file old x), x, hnul, rfl, rfl,
            fun e he => ⟨old, x, (Option.some.inj he).symm⟩, (Except.ok.inj h).symm⟩
      | .free dir name false, h =>
          exact ⟨.free dir name false, false, hnul, rfl, rfl, by simp [Spot.entry?],
            (Except.ok.inj h).symm⟩

theorem place_ne_nil (h : d.resolve true path = .ok spot)
    (hold : ∀ e, spot.entry? = some e → ∃ old x, e = .file old x) : spot.place ≠ [] := by
  obtain ⟨-, -, n, -, hleads⟩ := resolve_eq_ok_iff.mp h
  have hentry := hleads.get?_place
  intro hnil
  rw [hnil] at hentry
  obtain ⟨old, x, hfile⟩ := hold .directory hentry.symm
  cases hfile

/-- **What was written is read back.** -/
theorem readFile_writeFile (h : d.writeFile path data = .ok d') : d'.readFile path = .ok data := by
  obtain ⟨spot, x, hnul, hspot, hopen, hold, rfl⟩ := put_of_writeFile h
  have hplace : spot.place ≠ [] := place_ne_nil hspot hold
  obtain ⟨hempty, hshort, n, hn, hleads⟩ := resolve_eq_ok_iff.mp hspot
  have hgrows : Grows d (d.put spot.place (.file data x)) := by
    refine grows_put_file hplace fun e he => hold e ?_
    rw [← hleads.get?_place, he]
  refine readFile_eq_ok_iff.mpr ⟨hnul, spot.place, x, ?_⟩
  refine resolve_eq_ok_iff.mpr ⟨hempty, hshort, n, hn, ?_⟩
  exact hleads.refile hgrows hopen (get?_put_self d _ hplace)

/-- Whether a file can be written is not up to its bytes. -/
theorem exists_writeFile (h : d.writeFile path data = .ok d') (data' : Bytes) :
    ∃ d'', d.writeFile path data' = .ok d'' := by
  simp only [writeFile, onPath_eq_ok_iff] at h ⊢
  obtain ⟨hnul, h⟩ := h
  cases hparent : d.resolveParent path with
  | error f => simp [hparent] at h
  | ok parent =>
      simp only [hparent] at h ⊢
      split at h
      · cases h
      rename_i hname
      cases hspot : d.resolve true path with
      | error f => simp [hspot] at h
      | ok spot =>
          simp only [hspot] at h ⊢
          rw [if_neg hname]
          split at h
          · cases h
          · exact ⟨_, hnul, rfl⟩
          · cases h
          · cases h
          · exact ⟨_, hnul, rfl⟩

theorem startFile_eq_ok_iff {h : Hazards} : d.startFile h path data = .ok d' ↔
    h.createFails = false ∧ d.writeFile path data = .ok d' := by
  unfold startFile
  by_cases hfails : h.createFails = true
  · simp [hfails, onPath_eq_ok_iff]
  · simp [hfails]

theorem exists_startFile {h : Hazards} (hstart : d.startFile h path data = .ok d')
    (data' : Bytes) : ∃ d'', d.startFile h path data' = .ok d'' := by
  obtain ⟨hfails, hwrite⟩ := startFile_eq_ok_iff.mp hstart
  obtain ⟨d'', hwrite'⟩ := exists_writeFile hwrite data'
  exact ⟨d'', startFile_eq_ok_iff.mpr ⟨hfails, hwrite'⟩⟩

theorem startFile_ne_embeddedNul (h : Hazards) (hnul : '\x00' ∉ path.toList) :
    d.startFile h path data ≠ .error .embeddedNul := by
  unfold startFile
  by_cases hfails : h.createFails = true
  · rw [if_pos hfails]
    exact onPath_ne_embeddedNul hnul
  · rw [if_neg hfails]
    exact onPath_ne_embeddedNul hnul

theorem createFile_eq_ok_iff {h : Hazards} : d.createFile h path data = .ok d' ↔
    h.fillStops = none ∧ d.startFile h path data = .ok d' := by
  unfold createFile
  cases hfill : h.fillStops with
  | none => cases d.startFile h path data <;> simp [Except.mapError]
  | some count =>
      simp only
      split <;> simp

/-- **A file that was not created, or not filled.**  Either the disk is as it was, or there is a
file with the bytes that got there. -/
theorem createFile_eq_error {h : Hazards} {e : DiskError}
    (hcreate : d.createFile h path data = .error (e, d')) :
    d' = d ∧ (∃ reached, d.startFile h path reached = .error e) ∨
      e ≠ .embeddedNul ∧ ∃ count, h.fillStops = some count ∧
        d.startFile h path (data.take count) = .ok d' := by
  unfold createFile at hcreate
  split at hcreate
  · cases hstart : d.startFile h path data with
    | ok d₁ =>
        rw [hstart] at hcreate
        cases hcreate
    | error e₁ =>
        rw [hstart] at hcreate
        cases hcreate
        exact Or.inl ⟨rfl, _, hstart⟩
  · rename_i count hfill
    split at hcreate
    · rename_i hstart
      cases hcreate
      exact Or.inl ⟨rfl, _, hstart⟩
    · rename_i hstart
      cases hcreate
      exact Or.inr ⟨by simp, count, hfill, hstart⟩

theorem createFile_ne_embeddedNul (h : Hazards) (hnul : '\x00' ∉ path.toList) :
    d.createFile h path data ≠ .error (.embeddedNul, d') := by
  intro hcreate
  rcases createFile_eq_error hcreate with ⟨-, reached, hstart⟩ | ⟨hother, -⟩
  · exact startFile_ne_embeddedNul h hnul hstart
  · exact hother rfl

/-! ### The last name of a path -/

/-- The empty steps behind a name are dropped, and nothing else is. -/
theorem dropEmpty_append (first : List String) {name : String} {rest : List String}
    (hname : name ≠ "") (hrest : ∀ r ∈ rest, r = "") :
    ((first ++ name :: rest).reverse.dropWhile (· = "")).reverse = first ++ [name] := by
  have hrest' : ∀ r ∈ rest.reverse, decide (r = "") = true := by
    simpa using hrest
  rw [List.reverse_append, List.reverse_cons, List.append_assoc,
    List.dropWhile_append_of_pos hrest', List.singleton_append,
    List.dropWhile_cons_of_neg (by simpa using hname), List.reverse_cons, List.reverse_reverse]

/-- What is last once the empty steps are dropped has only such steps behind it. -/
theorem exists_lastName {steps : List String} {name : String} (hname : name ≠ "")
    (h : (steps.reverse.dropWhile (· = "")).reverse.getLast?.getD "" = name) :
    ∃ first rest, steps = first ++ name :: rest ∧ ∀ r ∈ rest, r = "" := by
  have hparts : steps.rdropWhile (· = "") ++ steps.rtakeWhile (· = "") = steps :=
    List.rdropWhile_append_rtakeWhile
  have hsome : steps.rdropWhile (· = "") ≠ [] := by
    intro hnil
    rw [List.rdropWhile] at hnil
    rw [hnil] at h
    exact hname h.symm
  obtain ⟨first, last, hnamed⟩ := (List.eq_nil_or_concat _).resolve_left hsome
  rw [List.concat_eq_append] at hnamed
  rw [hnamed, List.append_assoc, List.singleton_append] at hparts
  rw [List.rdropWhile] at hnamed
  rw [hnamed, List.getLast?_concat, Option.getD_some] at h
  subst h
  exact ⟨first, _, hparts.symm, fun r hr => by simpa using List.mem_rtakeWhile_imp hr⟩

/-- A path ends in a slash exactly if an empty step is behind its last name. -/
theorem slashed_append (first : List String) {name : String} {rest : List String}
    (hname : name ≠ "") (hrest : ∀ r ∈ rest, r = "") :
    decide ((first ++ name :: rest).getLast? = some "") = !rest.isEmpty := by
  rcases List.eq_nil_or_concat rest with rfl | ⟨init, last, rfl⟩
  · simpa using hname
  · have hlast : last = "" := hrest last (by simp)
    simp [List.getLast?_cons, hlast]

/-- **The parent of a path that ends in a name is where the steps before the name lead**, whether
or not slashes come after it. -/
theorem resolveParent_eq_ok_iff {dir : Location} {name : String} {slashed : Bool}
    (hname : name ≠ "") : d.resolveParent path = .ok (dir, name, slashed) ↔
      IsName name ∧ path ≠ "" ∧ (Utf8.encodeString path).length < maxPath ∧
        ∃ first rest, Path.steps path = first ++ name :: rest ∧ (∀ r ∈ rest, r = "") ∧
          slashed = !rest.isEmpty ∧
          ∃ n ≤ maxLinks, Leads d n (base d.cwd path) first (.taken dir .directory) := by
  constructor
  · intro h
    simp only [resolveParent] at h
    split at h
    · simp at h
    rename_i hempty
    split at h
    · simp at h
    rename_i hshort
    split at h
    · simp at h
    · rename_i hwalk
      split at h
      · exact absurd (congrArg (·.2.1) (Except.ok.inj h)).symm hname
      rename_i hdots
      split at h
      · simp at h
      rename_i hlong
      simp only [Bool.or_eq_true, decide_eq_true_eq, not_or] at hdots
      simp only [Except.ok.injEq, Prod.mk.injEq] at h
      obtain ⟨rfl, hlast, hslashed⟩ := h
      rw [hlast] at hdots hlong
      obtain ⟨first, rest, hsteps, hrest⟩ := exists_lastName hname hlast
      rw [hsteps] at hwalk hslashed ⊢
      rw [dropEmpty_append first hname hrest, List.dropLast_concat] at hwalk
      rw [slashed_append first hname hrest] at hslashed
      obtain ⟨n, hn, hleads⟩ := leads_of_walk hwalk
      refine ⟨⟨hdots.1.1, hdots.1.2, hdots.2, Nat.le_of_not_lt hlong⟩, by simpa using hempty,
        Nat.lt_of_not_le hshort, first, rest, rfl, hrest, hslashed.symm, n, hn, hleads⟩
    · simp at h
    · simp at h
  · rintro ⟨hisName, hempty, hshort, first, rest, hsteps, hrest, rfl, n, hn, hleads⟩
    have hwalk := walk_of_leads hleads maxLinks hn
    simp only [resolveParent, hsteps, dropEmpty_append first hname hrest, List.getLast?_concat,
      List.dropLast_concat, Option.getD_some]
    rw [if_neg (by simpa using hempty), if_neg (Nat.not_le.mpr hshort)]
    rw [base] at hwalk
    rw [hwalk]
    simp only [hisName.notEmpty, hisName.notHere, hisName.notUp, Nat.not_lt.mpr hisName.short]
    rw [slashed_append first hname hrest]
    rfl

theorem leads_of_resolveParent {dir : Location} {name : String}
    (h : d.resolveParent path = .ok (dir, name, false)) (hname : name ≠ "") :
    IsName name ∧ path ≠ "" ∧ ∃ first, Path.steps path = first ++ [name] ∧
      ∃ n ≤ maxLinks, Leads d n (base d.cwd path) first (.taken dir .directory) := by
  obtain ⟨hisName, hpath, -, first, rest, hsteps, -, hslashed, hleads⟩ :=
    (resolveParent_eq_ok_iff hname).mp h
  obtain rfl : rest = [] := by simpa using hslashed
  exact ⟨hisName, hpath, first, hsteps, hleads⟩

/-! ### Moving -/

/-- A move takes an entry that is no directory from its place to one where no directory is. -/
theorem put_of_rename {src dst : String} (h : d.rename src dst = .ok d') :
    ∃ srcDir srcName dstDir dstName e,
      d.resolveParent src = .ok (srcDir, srcName, false) ∧ srcName ≠ "" ∧
      d.resolveParent dst = .ok (dstDir, dstName, false) ∧ dstName ≠ "" ∧
      d.get? (child srcDir srcName) = some e ∧ e ≠ .directory ∧
      d.get? (child dstDir dstName) ≠ some .directory ∧
      d' = (d.erase (child srcDir srcName)).put (child dstDir dstName) e := by
  unfold rename at h
  split at h
  · simp at h
  · simp at h
  · rename_i srcDir srcName srcSlashed dstDir dstName dstSlashed hsrc hdst
    split at h
    · simp at h
    rename_i hnames
    simp only [Bool.or_eq_true, decide_eq_true_eq, not_or] at hnames
    split at h
    · simp at h
    · simp at h
    · rename_i e hdir hentry
      split at h
      · simp at h
      rename_i hslashed
      simp only [Bool.or_eq_true, not_or, Bool.not_eq_true] at hslashed
      obtain ⟨rfl, rfl⟩ := hslashed
      split at h
      · simp at h
      rename_i hfree
      exact ⟨srcDir, srcName, dstDir, dstName, e, hsrc, hnames.1, hdst, hnames.2, hentry,
        hdir, hfree, (Except.ok.inj h).symm⟩

/-- A removal takes away an entry that is no directory. -/
theorem erase_of_unlink (h : d.unlink path = .ok d') : ∃ dir name,
    d.resolveParent path = .ok (dir, name, false) ∧ name ≠ "" ∧ d' = d.erase (child dir name) := by
  rw [unlink, onPath_eq_ok_iff] at h
  obtain ⟨-, h⟩ := h
  split at h
  · simp at h
  rename_i dir name slashed hparent
  split at h
  · simp at h
  rename_i hname
  split at h
  · simp at h
  · simp at h
  · split at h
    · simp at h
    rename_i hslashed
    obtain rfl : slashed = false := by simpa using hslashed
    exact ⟨dir, name, hparent, hname, (Except.ok.inj h).symm⟩

theorem replaceFile_eq_ok_iff {h : Hazards} {src dst : String} :
    d.replaceFile h src dst = .ok d' ↔ h.replaceFails = false ∧ '\x00' ∉ src.toList ∧
      '\x00' ∉ dst.toList ∧ d.rename src dst = .ok d' := by
  unfold replaceFile
  by_cases hfails : h.replaceFails = true
  · simp [hfails]
  by_cases hnul : '\x00' ∈ src.toList ∨ '\x00' ∈ dst.toList
  · rcases hnul with hnul | hnul <;> simp [hfails, hnul]
  · rw [not_or] at hnul
    cases d.rename src dst with
    | error fault => simp [hfails, hnul]
    | ok d₁ => simp [hfails, hnul]

theorem replaceFile_ne_embeddedNul {src dst : String} (h : Hazards) (hsrc : '\x00' ∉ src.toList)
    (hdst : '\x00' ∉ dst.toList) : d.replaceFile h src dst ≠ .error .embeddedNul := by
  unfold replaceFile
  by_cases hfails : h.replaceFails = true
  · simp [hfails]
  · cases d.rename src dst with
    | error fault => simp [hfails, hsrc, hdst]
    | ok d₁ => simp [hfails, hsrc, hdst]

theorem removeFile_ne_embeddedNul (h : Hazards) (hnul : '\x00' ∉ path.toList) :
    d.removeFile h path ≠ .error .embeddedNul := by
  unfold removeFile
  by_cases hfails : h.unlinkFails = true
  · simp [hfails]
  · rw [if_neg hfails]
    exact onPath_ne_embeddedNul hnul

end Semicolon.Disk
