/-
What an options file can do to a run.

A file that cannot be opened, one that is malformed and one that holds something other than a
mapping are warned about, and the run goes on without them.  A value of the wrong kind at the
known key is an error that the run reports.  What else goes wrong escapes: bytes that are not
UTF-8, scalars that their own kind rejects, and integers that a message would have to show and
cannot.

A run asks a file for its keys and for one value.  What is said here is said of the value of the
whole file, so that it does not matter how little of it a run looks at; that the two agree is what
the theory of documents is for.
-/
import Semicolon.Config
import Semicolon.Proofs.Access
import Semicolon.Proofs.Yaml.Document

namespace Semicolon.Config

open Yaml (Document Problem Value)

variable {d : Disk} {path : String} {allow : Bool} {doc : Document} {e : Error}

/-! ### What a file holds -/

/-- The file can be read, and holds this text. -/
def Holds (d : Disk) (path : String) (text : List Char) : Prop :=
  ∃ data, d.readFile path = .ok data ∧ Utf8.decodeStrict data = .ok text

/-- What the text of the file comes to as a whole. -/
def Loads (d : Disk) (path : String) (result : Except Problem Value) : Prop :=
  ∃ text, Holds d path text ∧ Yaml.load (unified text) = result

/-- The text of the file is read as a document. -/
def Reads (d : Disk) (path : String) (doc : Document) : Prop :=
  ∃ text, Holds d path text ∧ Document.read (unified text) = .ok doc

/-- The value at the known key, as it is read and shown on its own. -/
def KeyGives (d : Disk) (path : String) (v : Value) : Prop :=
  ∃ doc es n, Reads d path doc ∧ doc.entries? = some (.ok es) ∧
    Value.atText? es returnKey = some n ∧ doc.valueOf n = .ok v

/-- The file is warned about, and does not count otherwise. -/
inductive SetAside (d : Disk) (path : String) : String → Prop where
  | unopened {f : Failure} (h : d.readFile path = .error (.refused f)) :
      SetAside d path ("Could not open config '" ++ path ++ "': " ++ f.message)
  | malformed (h : Loads d path (.error .malformed)) :
      SetAside d path ("Could not parse config '" ++ path ++ "': " ++ Problem.malformed.message)
  | noMapping {v : Value} (h : Loads d path (.ok v)) (hnull : v ≠ .null)
      (hmap : ∀ m, v ≠ .map m) :
      SetAside d path ("Ignoring config '" ++ path ++ "': expected a mapping, got " ++ v.kindName)

/-- The file has a value at the known key that is neither true nor false. -/
def Refused (d : Disk) (path : String) : Prop :=
  ∃ m v, Loads d path (.ok (.map m)) ∧ Value.atText? m returnKey = some v ∧ ∀ b, v ≠ .boolean b

/-- The file says whether a `return` needs a semicolon; without the key, it does. -/
inductive Asks (d : Disk) (path : String) : Bool → Prop where
  | empty (h : Loads d path (.ok .null)) : Asks d path true
  | noKey {m : List (Value × Value)} (h : Loads d path (.ok (.map m)))
      (hkey : Value.atText? m returnKey = none) : Asks d path true
  | key {m : List (Value × Value)} {b : Bool} (h : Loads d path (.ok (.map m)))
      (hkey : Value.atText? m returnKey = some (.boolean b)) : Asks d path b

/-- Reading the file fails in a way that nothing provides for. -/
inductive Escapes (d : Disk) (path : String) : Error → Prop where
  | nul (h : '\x00' ∈ path.toList) : Escapes d path (.disk .embeddedNul)
  | undecodable {data : Bytes} {u : Utf8.Undecodable} (h : d.readFile path = .ok data)
      (hdecode : Utf8.decodeStrict data = .error u) : Escapes d path (.undecodable u)
  | problem {p : Problem} (h : Loads d path (.error p)) (hp : p ≠ .malformed) :
      Escapes d path (.yaml p)
  | longKey {m : List (Value × Value)} {k v : Value} (h : Loads d path (.ok (.map m)))
      (hmem : (k, v) ∈ m) (hunknown : k.sameKey (.ofText returnKey) = false)
      (hlong : k.isShowable = false) : Escapes d path (.yaml .tooLong)
  | longValue {v : Value} (h : KeyGives d path v) (hv : ∀ b, v ≠ .boolean b)
      (hlong : v.isShowable = false) : Escapes d path (.yaml .tooLong)

theorem Reads.eq {doc' : Document} (h : Reads d path doc) (h' : Reads d path doc') :
    doc = doc' := by
  obtain ⟨text, ⟨data, hdata, htext⟩, hdoc⟩ := h
  obtain ⟨text', ⟨data', hdata', htext'⟩, hdoc'⟩ := h'
  cases hdata.symm.trans hdata'
  cases htext.symm.trans htext'
  exact Except.ok.inj (hdoc.symm.trans hdoc')

theorem Reads.loads (h : Reads d path doc) : Loads d path (doc.valueOf doc.root) := by
  obtain ⟨text, htext, hdoc⟩ := h
  exact ⟨text, htext, Yaml.load_of_read hdoc⟩

theorem Reads.exists_sound (h : Reads d path doc) : ∃ all, doc.Sound all := by
  obtain ⟨text, -, hdoc⟩ := h
  exact Document.exists_sound hdoc

/-! ### Reading the keys -/

/-- The key is known, or a warning can show it. -/
def Namable (k : Value) : Prop := k.sameKey (.ofText returnKey) = true ∨ k.isShowable = true

theorem unknownKeys_of_namable {es : List (Value × Yaml.Node)} (h : ∀ e ∈ es, Namable e.1) :
    (unknownKeys path es).2 = .ok () := by
  induction es with
  | nil => rfl
  | cons e es ih =>
      obtain ⟨hhead, htail⟩ := List.forall_mem_cons.mp h
      unfold unknownKeys
      split
      · exact ih htail
      · rename_i hunknown
        rw [if_neg (by simp [hhead.resolve_left hunknown])]
        exact ih htail

theorem unknownKeys_of_not_namable {es : List (Value × Yaml.Node)}
    (h : ¬ ∀ e ∈ es, Namable e.1) : (unknownKeys path es).2 = .error (.yaml .tooLong) := by
  induction es with
  | nil => exact absurd (fun e he => absurd he List.not_mem_nil) h
  | cons e es ih =>
      rw [List.forall_mem_cons, not_and_or] at h
      unfold unknownKeys
      split
      · rename_i hknown
        exact ih (h.resolve_left fun hnot => hnot (Or.inl hknown))
      split
      · rfl
      · rename_i hshowable
        exact ih (h.resolve_left fun hnot => hnot (Or.inr (by simpa using hshowable)))

/-! ### What the file asks for, before the command line is heard -/

/-- The policy of the file alone. -/
def asked (d : Disk) (path : String) : Except Error Policy :=
  (load d path).2.bind fun entries => (entries.map (policyOf path)).getD (.ok {})

theorem build_eq (hpath : path ≠ "") : build d (some path) allow
    = ((load d path).1, (asked d path).map fun policy => ⟨policy.requireReturn && !allow⟩) := by
  have hsome : (some path).filter (fun p => !p.isEmpty) = some path := by simp [hpath]
  unfold build
  rw [hsome]
  cases allow <;> simp [asked]

theorem build_none : build d none allow = ([], .ok ⟨!allow⟩) := by
  cases allow <;> rfl

theorem load_of_reads (h : Reads d path doc) : load d path = fromDocument path doc := by
  obtain ⟨text, ⟨data, hdata, htext⟩, hdoc⟩ := h
  simp only [load, hdata, htext, hdoc]

theorem load_of_malformed (h : Loads d path (.error .malformed)) : load d path
    = ([.warning ("Could not parse config '" ++ path ++ "': " ++ Problem.malformed.message)],
      .ok none) := by
  obtain ⟨text, ⟨data, hdata, htext⟩, hload⟩ := h
  simp only [load, hdata, htext, Yaml.load_eq_error_iff.mp hload]

theorem load_of_problem {p : Problem} (h : Loads d path (.error p)) (hp : p ≠ .malformed) :
    load d path = ([], .error (.yaml p)) := by
  obtain ⟨text, ⟨data, hdata, htext⟩, hload⟩ := h
  simp only [load, hdata, htext, Yaml.load_eq_error_iff.mp hload]

/-- A file with a value is read as a document that has this value. -/
theorem exists_reads_of_loads {v : Value} (h : Loads d path (.ok v)) :
    ∃ doc, Reads d path doc ∧ doc.valueOf doc.root = .ok v := by
  obtain ⟨text, htext, hload⟩ := h
  obtain ⟨doc, hdoc, hv⟩ := Yaml.bind_eq_ok.mp hload
  exact ⟨doc, ⟨text, htext, hdoc⟩, hv⟩

theorem load_of_setAside {w : String} (h : SetAside d path w) :
    load d path = ([.warning w], .ok none) := by
  cases h with
  | unopened h =>
      unfold load
      rw [h]
  | malformed h => exact load_of_malformed h
  | noMapping h hnull hmap =>
      obtain ⟨doc, hdoc, hv⟩ := exists_reads_of_loads h
      obtain ⟨all, hsound⟩ := hdoc.exists_sound
      rw [load_of_reads hdoc, fromDocument, hsound.entries_of_not_map hv hmap,
        hsound.kindName_eq hv]
      exact if_neg fun hkind => hnull (Value.kindName_eq_null_iff.mp hkind)

/-- A mapping is asked for its keys, and then for the value at the known one. -/
theorem asked_of_map {m : List (Value × Value)} (h : Loads d path (.ok (.map m))) :
    ∃ doc es, Reads d path doc ∧ doc.entries? = some (.ok es) ∧ Value.Matched doc.Gives es m ∧
      asked d path = (unknownKeys path es).2.bind fun _ => policyOf path ⟨doc, es⟩ := by
  obtain ⟨doc, hdoc, hv⟩ := exists_reads_of_loads h
  obtain ⟨all, hsound⟩ := hdoc.exists_sound
  obtain ⟨es, hes, hmatched⟩ := hsound.entries_of_map hv
  refine ⟨doc, es, hdoc, hes, hmatched, ?_⟩
  rw [asked, load_of_reads hdoc, fromDocument, hes]
  cases hkeys : (unknownKeys path es).2 <;> simp [hkeys, Except.map, Except.bind]

/-- The value at the known key is the only one that is looked at. -/
theorem policyOf_of_key {es : List (Value × Yaml.Node)} {n : Yaml.Node} {v : Value}
    (hkey : Value.atText? es returnKey = some n) (hv : doc.valueOf n = .ok v)
    (hboolean : ∀ b, v ≠ .boolean b) : policyOf path ⟨doc, es⟩
      = .error (if v.isShowable then .notBoolean path v.shown else .yaml .tooLong) := by
  simp only [policyOf, hkey, hv]

theorem namable_of_not_escapes {m : List (Value × Value)} (h : Loads d path (.ok (.map m)))
    (hescape : ∀ e, ¬ Escapes d path e) : ∀ f ∈ m, Namable f.1 := by
  intro f hf
  by_contra hnot
  rw [Namable, not_or, Bool.not_eq_true, Bool.not_eq_true] at hnot
  exact hescape _ (.longKey h hf hnot.1 hnot.2)

theorem asked_of_namable {m : List (Value × Value)} (h : Loads d path (.ok (.map m)))
    (hkeys : ∀ f ∈ m, Namable f.1) :
    ∃ doc es, Reads d path doc ∧ doc.entries? = some (.ok es) ∧ Value.Matched doc.Gives es m ∧
      asked d path = policyOf path ⟨doc, es⟩ := by
  obtain ⟨doc, es, hdoc, hes, hmatched, hasked⟩ := asked_of_map h
  refine ⟨doc, es, hdoc, hes, hmatched, ?_⟩
  rw [hasked, unknownKeys_of_namable (hmatched.forall_keys.mpr hkeys)]
  rfl

/-! ### The four ways a file can turn out -/

theorem asked_of_setAside {w : String} (h : SetAside d path w) : asked d path = .ok {} := by
  rw [asked, load_of_setAside h]
  rfl

/-- The file is a mapping if a value is asked for at its known key. -/
theorem KeyGives.exists_map {v : Value} (h : KeyGives d path v) :
    ∃ m, Loads d path (.ok (.map m)) := by
  obtain ⟨doc, es, n, hdoc, hes, -⟩ := h
  obtain ⟨all, hsound⟩ := hdoc.exists_sound
  obtain ⟨w, hw⟩ := hsound.exists_valueOf (Document.Sound.inside_root doc) hsound.seen
  by_contra hnot
  have hmap : ∀ m, w ≠ .map m := by
    rintro m rfl
    exact hnot ⟨m, hw ▸ hdoc.loads⟩
  cases hes.symm.trans (hsound.entries_of_not_map hw hmap)

theorem asked_of_escapes (h : Escapes d path e) : asked d path = .error e := by
  cases h with
  | nul h =>
      have hread : d.readFile path = .error .embeddedNul := by simp [Disk.readFile, Disk.onPath, h]
      simp only [asked, load, hread]
      rfl
  | undecodable h hdecode =>
      simp only [asked, load, h, hdecode]
      rfl
  | problem h hp =>
      rw [asked, load_of_problem h hp]
      rfl
  | @longKey m k v h hmem hunknown hlong =>
      obtain ⟨doc, es, -, -, hmatched, hasked⟩ := asked_of_map h
      have hnot : ¬ ∀ e ∈ es, Namable e.1 := by
        rw [hmatched.forall_keys]
        intro hall
        have := hall _ hmem
        simp [Namable, hunknown, hlong] at this
      rw [hasked, unknownKeys_of_not_namable hnot]
      rfl
  | @longValue v h hv hlong =>
      obtain ⟨m, hm⟩ := h.exists_map
      obtain ⟨doc, es, n, hdoc, hes, hkey, hn⟩ := h
      obtain ⟨doc', es', hdoc', hes', -, hasked⟩ := asked_of_map hm
      cases hdoc.eq hdoc'
      cases hes.symm.trans hes'
      rw [hasked]
      by_cases hkeys : ∀ e ∈ es, Namable e.1
      · rw [unknownKeys_of_namable hkeys]
        show policyOf path ⟨doc, es⟩ = _
        rw [policyOf_of_key hkey hn hv, hlong]
        rfl
      · rw [unknownKeys_of_not_namable hkeys]
        rfl

theorem asked_of_refused (hescape : ∀ e, ¬ Escapes d path e) (h : Refused d path) :
    ∃ shown, asked d path = .error (.notBoolean path shown) := by
  obtain ⟨m, v, hm, hkey, hv⟩ := h
  obtain ⟨doc, es, hdoc, hes, hmatched, hasked⟩ :=
    asked_of_namable hm (namable_of_not_escapes hm hescape)
  obtain ⟨n, hn, v', hv', hsame⟩ := hmatched.exists_atText hkey
  have hboolean : ∀ b, v' ≠ .boolean b := fun b hb => hv b ((hsame b).mp hb)
  have hshowable : v'.isShowable = true := by
    by_contra hnot
    rw [Bool.not_eq_true] at hnot
    exact hescape _ (.longValue ⟨doc, es, n, hdoc, hes, hn, hv'⟩ hboolean hnot)
  refine ⟨v'.shown, ?_⟩
  rw [hasked, policyOf_of_key hn hv' hboolean, hshowable]
  rfl

theorem asked_of_asks (hescape : ∀ e, ¬ Escapes d path e) {b : Bool} (h : Asks d path b) :
    asked d path = .ok ⟨b⟩ := by
  cases h with
  | empty h =>
      obtain ⟨doc, hdoc, hv⟩ := exists_reads_of_loads h
      obtain ⟨all, hsound⟩ := hdoc.exists_sound
      rw [asked, load_of_reads hdoc, fromDocument, hsound.entries_of_not_map hv nofun,
        hsound.kindName_eq hv]
      rfl
  | noKey h hkey =>
      obtain ⟨doc, es, -, -, hmatched, hasked⟩ :=
        asked_of_namable h (namable_of_not_escapes h hescape)
      rw [hasked, policyOf, hmatched.atText_eq_none hkey]
  | key h hkey =>
      obtain ⟨doc, es, -, -, hmatched, hasked⟩ :=
        asked_of_namable h (namable_of_not_escapes h hescape)
      obtain ⟨n, hn, v', hv', hsame⟩ := hmatched.exists_atText hkey
      rw [(hsame b).mpr rfl] at hv'
      simp only [hasked, policyOf, hn, hv']

/-- There is no other way. -/
theorem reading_cases (d : Disk) (path : String) : (∃ e, Escapes d path e) ∨
    (∃ w, SetAside d path w) ∨ Refused d path ∨ ∃ b, Asks d path b := by
  cases hread : d.readFile path with
  | error failure =>
      cases failure with
      | refused f => exact Or.inr (Or.inl ⟨_, .unopened hread⟩)
      | embeddedNul =>
          refine Or.inl ⟨_, .nul ?_⟩
          by_contra hnul
          exact Disk.onPath_ne_embeddedNul hnul hread
  | ok data =>
      cases hdecode : Utf8.decodeStrict data with
      | error u => exact Or.inl ⟨_, .undecodable hread hdecode⟩
      | ok text =>
          cases hload : Yaml.load (unified text) with
          | error p =>
              have hloads : Loads d path (.error p) := ⟨text, ⟨data, hread, hdecode⟩, hload⟩
              by_cases hp : p = .malformed
              · subst hp
                exact Or.inr (Or.inl ⟨_, .malformed hloads⟩)
              · exact Or.inl ⟨_, .problem hloads hp⟩
          | ok v =>
              have hloads : Loads d path (.ok v) := ⟨text, ⟨data, hread, hdecode⟩, hload⟩
              cases v with
              | null => exact Or.inr (Or.inr (Or.inr ⟨_, .empty hloads⟩))
              | map m =>
                  refine Or.inr (Or.inr ?_)
                  cases hkey : Value.atText? m returnKey with
                  | none => exact Or.inr ⟨_, .noKey hloads hkey⟩
                  | some v =>
                      by_cases hboolean : ∃ b, v = .boolean b
                      · obtain ⟨b, rfl⟩ := hboolean
                        exact Or.inr ⟨b, .key hloads hkey⟩
                      · exact Or.inl ⟨m, v, hloads, hkey, fun b hb => hboolean ⟨b, hb⟩⟩
              | _ => exact Or.inr (Or.inl ⟨_, .noMapping hloads nofun nofun⟩)

/-! ### The policy of a run -/

theorem Escapes.ne_notBoolean (h : Escapes d path e) (shown : String) :
    e ≠ .notBoolean path shown := by
  cases h <;> exact nofun

theorem build_eq_error_iff (hpath : path ≠ "") :
    (build d (some path) allow).2 = .error e ↔ asked d path = .error e := by
  rw [build_eq hpath]
  cases asked d path <;> simp [Except.map]

/-- If nothing escapes, an error is one that the file is refused for. -/
theorem refused_of_error (hescape : ∀ e, ¬ Escapes d path e) (h : asked d path = .error e) :
    Refused d path ∧ ∃ shown, e = .notBoolean path shown := by
  rcases reading_cases d path with ⟨e', he'⟩ | ⟨w, hw⟩ | hrefused | ⟨b, hb⟩
  · exact absurd he' (hescape e')
  · cases h.symm.trans (asked_of_setAside hw)
  · obtain ⟨shown, hshown⟩ := asked_of_refused hescape hrefused
    exact ⟨hrefused, shown, Except.error.inj (h.symm.trans hshown)⟩
  · cases h.symm.trans (asked_of_asks hescape hb)

/-- **What an options file does to a run, whatever it holds.**  It is set aside with a warning, and
the run goes on as if there were none; or it is refused for a value at the known key that is
neither true nor false; or it says what it asks for; or an error escapes, and `Escapes` lists all of
those.  Only an error that escapes keeps a file from being refused for its value. -/
theorem file_outcome (d : Disk) {path : String} (hpath : path ≠ "") (allow : Bool) :
    ((∃ e, Escapes d path e) ∨ (∃ w, SetAside d path w) ∨ Refused d path ∨ ∃ b, Asks d path b) ∧
    (∀ w, SetAside d path w →
      build d (some path) allow = ([.warning w], (build d none allow).2)) ∧
    (∀ e, ((build d (some path) allow).2 = .error e ∧ ∀ shown, e ≠ .notBoolean path shown) ↔
      Escapes d path e) ∧
    ((∃ shown, (build d (some path) allow).2 = .error (.notBoolean path shown)) ↔
      Refused d path ∧ ∀ e, ¬ Escapes d path e) ∧
    (∀ b, Asks d path b → (∀ e, ¬ Escapes d path e) →
      (build d (some path) allow).2 = .ok ⟨b && !allow⟩) := by
  refine ⟨reading_cases d path, fun w hw => ?_, fun e => ?_, ?_, fun b hb hescape => ?_⟩
  · rw [build_eq hpath, load_of_setAside hw, asked_of_setAside hw, build_none]
    rfl
  · rw [build_eq_error_iff hpath]
    refine ⟨fun ⟨herror, hother⟩ => ?_, fun h => ⟨asked_of_escapes h, h.ne_notBoolean⟩⟩
    by_contra hnot
    have hescape : ∀ e', ¬ Escapes d path e' := by
      intro e' he'
      cases herror.symm.trans (asked_of_escapes he')
      exact hnot he'
    obtain ⟨-, shown, hshown⟩ := refused_of_error hescape herror
    exact hother shown hshown
  · simp only [build_eq_error_iff hpath]
    refine ⟨fun ⟨shown, herror⟩ => ?_, fun ⟨hrefused, hescape⟩ => asked_of_refused hescape hrefused⟩
    have hescape : ∀ e, ¬ Escapes d path e := by
      intro e he
      cases herror.symm.trans (asked_of_escapes he)
      exact he.ne_notBoolean shown rfl
    exact ⟨(refused_of_error hescape herror).1, hescape⟩
  · rw [build_eq hpath, asked_of_asks hescape hb]
    rfl

/-- A disk with one options file. -/
def holding (data : Bytes) : Disk where
  entries := [(["lint.yaml"], .file data false)]

/-- A file with a number at the known key is refused, also if the command line allows a bare
`return`. -/
theorem file_outcome_number :
    "lint.yaml" ≠ "" ∧
    (build (holding (Utf8.encodeString "require_return_terminator: 3\n")) (some "lint.yaml") true).2
      = .error (.notBoolean "lint.yaml" "3") ∧
    Refused (holding (Utf8.encodeString "require_return_terminator: 3\n")) "lint.yaml" := by
  have hpath : "lint.yaml" ≠ "" := by decide
  have hbuild : (build (holding (Utf8.encodeString "require_return_terminator: 3\n"))
      (some "lint.yaml") true).2 = .error (.notBoolean "lint.yaml" "3") := by
    decide +kernel
  obtain ⟨-, -, -, hrefused, -⟩ := file_outcome (holding _) hpath true
  exact ⟨hpath, hbuild, (hrefused.mp ⟨"3", hbuild⟩).1⟩

/-- A stray byte, and a day that its month does not have, end the run; neither is warned about. -/
theorem file_outcome_unguarded :
    build (holding [0xF8]) (some "lint.yaml") false
      = ([], .error (.undecodable
          { byte := 0xF8, position := 0, length := 1, defect := .invalidStart })) ∧
    build (holding (Utf8.encodeString "x: 2024-02-30\n")) (some "lint.yaml") false
      = ([], .error (.yaml (.badDate .day))) := by
  decide +kernel

end Semicolon.Config
