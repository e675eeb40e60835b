/-
The YAML report says what was found, and nothing else.

Loaded again, a report is a mapping of three fields: whether files were mended, how many findings
there are, and the findings in their order, each with its file as a string and its line as an
integer.  A path may be anything, also what would be a number, a date or a piece of YAML.

The report is followed through all stages of loading: from its text to the tokens, item by item;
from the tokens to nodes; and from the nodes to the value.
-/
import Semicolon.Proofs.Yaml.Layout
import Semicolon.Proofs.Yaml.Numeral
import Semicolon.Proofs.Yaml.Outline
import Semicolon.Report

namespace Semicolon.Report

open Yaml Yaml.Stream

/-! ### The tokens of a report -/

/-- A word without marks. -/
def plainWord (w : String) : Token := .scalar (Letter.ofText w) true

/-- The tokens of one item: the hyphen, and a block with two fields. -/
def itemTokens (f : Finding) : List Token :=
  [.blockEntry, .blockMappingStart, .key, plainWord "file", .value,
    .scalar (Letter.ofText f.file) (Print.canBePlain f.file.toList), .key, plainWord "line", .value,
    plainWord (toString f.line), .blockEnd]

variable {s : Stream} {rest : List Char} {out : List Token}

/-- The scan is at the start of a line in the list of findings.  Once the item before has ended,
only the outermost block is open. -/
structure AtItem (s : Stream) (rest : List Char) (out : List Token) : Prop where
  ready : ∃ indent outer out, Ready s.skipBlanks rest 0 true indent outer out
  unwound : Ready (s.skipBlanks.unwind 0) rest 0 true 0 [-1] out

/-- Nothing more, or another item. -/
def Continues (rest : List Char) : Prop := rest = [] ∨ ∃ r, rest = '-' :: ' ' :: r

theorem Continues.begins (h : Continues rest) : Begins rest := by
  rcases h with rfl | ⟨r, rfl⟩
  · simp [Begins]
  · intro a ha
    cases ha
    decide

theorem Continues.noMark (h : Continues rest) : Cursor.NoMark rest := by
  rcases h with rfl | ⟨r, rfl⟩
  · simp [Cursor.NoMark]
  · simp [Cursor.NoMark]

theorem item_append (f : Finding) (rest : List Char) :
    item f ++ rest = '-' :: ' ' :: ("file".toList ++ ':' :: ' ' :: (Print.string 4 8 f.file ++
      '\n' :: (List.replicate 2 ' ' ++ ("line".toList ++ ':' :: ' ' ::
        ((toString f.line).toList ++ '\n' :: rest))))) := by
  unfold item
  generalize Print.string 4 8 f.file = path
  generalize (toString f.line).toList = line
  simp

/-- **One item of the list.** -/
theorem moves_item {f : Finding} (hrest : Continues rest) (h : AtItem s (item f ++ rest) out) :
    ∃ s', Moves 7 s s' ∧ AtItem s' rest (out ++ itemTokens f) := by
  have hfile : KeyWord "file".toList := by decide
  have hline : KeyWord "line".toList := by decide
  obtain ⟨⟨indent, outer, out₀, hs⟩, hat⟩ := h
  rw [item_append] at hs hat
  obtain ⟨s₁, hmove₁, h₁⟩ := moves_entry hs hat hfile.begins
  obtain ⟨s₂, hmove₂, h₂⟩ := moves_key hfile rfl h₁ (by decide)
  obtain ⟨s₃, hmove₃, h₃⟩ := moves_string (by decide) (by decide) (by decide) (by decide)
    hline.begins (hline.noMark 2) h₂ (by decide)
  obtain ⟨s₄, hmove₄, h₄⟩ := moves_key hline rfl h₃ (by decide)
  obtain ⟨s₅, hmove₅, h₅⟩ := moves_word (k := 0) (Print.bare_toString f.line)
    (Print.noSpace_toString f.line) (by decide) hrest.begins hrest.noMark h₄ (by decide)
  have hmoves := hmove₁.trans (hmove₂.trans (hmove₃.trans (hmove₄.trans hmove₅)))
  refine ⟨s₅, hmoves, ⟨_, _, _, h₅⟩, ?_⟩
  -- The block of this item only ends when the scan looks at the line after it.
  have hend := h₅.unwind_one 0 (by decide) (by decide)
  simp only [List.append_assoc] at hend
  exact hend

theorem continues_items (findings : List Finding) : Continues (findings.flatMap item) := by
  cases findings with
  | nil => exact .inl rfl
  | cons f findings => exact .inr ⟨_, by rw [List.flatMap_cons, item_append]⟩

/-- **All items of the list**, one after the other. -/
theorem moves_items {findings : List Finding} (h : AtItem s (findings.flatMap item) out) :
    ∃ s', Moves (7 * findings.length) s s' ∧
      AtItem s' [] (out ++ findings.flatMap itemTokens) := by
  induction findings generalizing s out with
  | nil => exact ⟨s, fun _ => rfl, by simpa using h⟩
  | cons f findings ih =>
      rw [List.flatMap_cons] at h
      obtain ⟨s₁, hmove₁, h₁⟩ := moves_item (continues_items findings) h
      obtain ⟨s₂, hmove₂, h₂⟩ := ih h₁
      refine ⟨s₂, ?_, by rwa [List.flatMap_cons, ← List.append_assoc]⟩
      rw [List.length_cons, Nat.mul_add, Nat.add_comm]
      exact hmove₁.trans hmove₂

/-- The truth value of the first field, as it is written. -/
def fixMode (mode : Lint.Mode) : String := if mode = .fix then "true" else "false"

/-- The tokens before the list of findings. -/
def headTokens (mode : Lint.Mode) (count : Nat) : List Token :=
  [.blockMappingStart, .key, plainWord "fix_mode", .value, plainWord (fixMode mode),
    .key, plainWord "violation_count", .value, plainWord (toString count),
    .key, plainWord "violations", .value]

theorem bare_fixMode (mode : Lint.Mode) : Print.Bare (fixMode mode).toList := by
  cases mode with
  | fix => exact ⟨⟨'t', "rue".toList, by decide, by decide, by decide⟩,
      ⟨by decide, by decide⟩, by decide, by decide, by simp [fixMode, Print.isSimple]⟩
  | check => exact ⟨⟨'f', "alse".toList, by decide, by decide, by decide⟩,
      ⟨by decide, by decide⟩, by decide, by decide, by simp [fixMode, Print.isSimple]⟩

theorem noSpace_fixMode (mode : Lint.Mode) : ' ' ∉ (fixMode mode).toList := by
  cases mode <;> decide

theorem yaml_eq (mode : Lint.Mode) {findings : List Finding} (h : findings ≠ []) :
    yaml mode findings = "fix_mode".toList ++ ':' :: ' ' :: ((fixMode mode).toList ++
      '\n' :: ("violation_count".toList ++ ':' :: ' ' :: ((toString findings.length).toList ++
        '\n' :: ("violations".toList ++ ':' :: '\n' :: findings.flatMap item)))) := by
  have hlist : findings.isEmpty = false := by simpa using h
  unfold yaml
  rw [hlist]
  generalize (toString findings.length).toList = count
  generalize findings.flatMap item = items
  show _ ++ (fixMode mode).toList ++ _ ++ _ ++ _ ++ _ = _
  generalize (fixMode mode).toList = fix
  simp

/-- **The text before the list of findings.** -/
theorem moves_head (mode : Lint.Mode) {findings : List Finding} (h : findings ≠ []) :
    ∃ s, Moves 8 { place := { rest := yaml mode findings } } s ∧
      AtItem s (findings.flatMap item) (headTokens mode findings.length) := by
  have hfix : KeyWord "fix_mode".toList := by decide
  have hcount : KeyWord "violation_count".toList := by decide
  have hviolations : KeyWord "violations".toList := by decide
  have hstart : Ready { place := { rest := yaml mode findings } } (yaml mode findings) 0 true (-1)
      [] [] := ⟨rfl, rfl, rfl, rfl, rfl, rfl, rfl, by simp, rfl⟩
  rw [yaml_eq mode h] at hstart ⊢
  have hstart := hstart.skip_none hfix.begins
  obtain ⟨s₁, hmove₁, h₁⟩ := moves_key hfix rfl hstart (by decide)
  obtain ⟨s₂, hmove₂, h₂⟩ := moves_word (k := 0) (bare_fixMode mode) (noSpace_fixMode mode)
    (by decide) hcount.begins (hcount.noMark 0) h₁ (by decide)
  obtain ⟨s₃, hmove₃, h₃⟩ := moves_key hcount rfl h₂ (by decide)
  obtain ⟨s₄, hmove₄, h₄⟩ := moves_word (k := 0) (Print.bare_toString findings.length)
    (Print.noSpace_toString findings.length)
    (by decide) hviolations.begins (hviolations.noMark 0) h₃ (by decide)
  obtain ⟨s₅, hmove₅, h₅⟩ := moves_key hviolations rfl h₄ (by decide)
  have hlist := Ready.skip_line (k := 0) h₅ (continues_items findings).begins
  have hmoves := hmove₁.trans (hmove₂.trans (hmove₃.trans (hmove₄.trans hmove₅)))
  refine ⟨s₅, hmoves, ⟨_, _, _, hlist⟩, ?_⟩
  rw [unwind_of_le hlist.flow (by rw [hlist.indent]; decide)]
  exact hlist

/-- A report is visible ASCII and line feeds. -/
theorem isSimple_yaml (mode : Lint.Mode) (findings : List Finding) :
    ∀ a ∈ yaml mode findings, Print.isSimple a = true := by
  have hitem : ∀ f, ∀ a ∈ item f, Print.isSimple a = true := by
    intro f
    unfold item
    simp only [List.forall_mem_append]
    exact ⟨⟨⟨⟨List.all_eq_true.mp (by decide), Print.isSimple_string 4 8 f.file⟩,
      List.all_eq_true.mp (by decide)⟩,
      fun a ha => ((Print.bare_toString f.line).simple a ha).1⟩, List.all_eq_true.mp (by decide)⟩
  unfold yaml
  simp only [List.forall_mem_append]
  refine ⟨⟨⟨⟨⟨List.all_eq_true.mp (by decide), ?_⟩, List.all_eq_true.mp (by decide)⟩, ?_⟩,
    List.all_eq_true.mp (by decide)⟩, ?_⟩
  · exact fun a ha => ((bare_fixMode mode).simple a ha).1
  · exact fun a ha => ((Print.bare_toString findings.length).simple a ha).1
  · split
    · exact List.all_eq_true.mp (by decide)
    · rw [List.forall_mem_cons]
      refine ⟨by decide, fun a ha => ?_⟩
      obtain ⟨f, -, ha⟩ := List.mem_flatMap.mp ha
      exact hitem f a ha

/-- There is more text than there are tokens. -/
theorem length_items (findings : List Finding) :
    7 * findings.length ≤ (findings.flatMap item).length := by
  induction findings with
  | nil => exact Nat.le_refl _
  | cons f findings ih =>
      rw [List.flatMap_cons, item_append]
      simp only [List.length_cons, List.length_append, String.reduceToList]
      omega

/-- **The tokens of a report** with findings in it. -/
theorem tokens_yaml (mode : Lint.Mode) {findings : List Finding} (h : findings ≠ []) :
    tokens (yaml mode findings) =
      headTokens mode findings.length ++ findings.flatMap itemTokens ++ [.blockEnd] := by
  refine tokens_of_run (fun a ha => Print.isStreamChar_of_isSimple (isSimple_yaml mode _ a ha)) ?_
  obtain ⟨s₁, hmove₁, h₁⟩ := moves_head mode h
  obtain ⟨s₂, hmove₂, ⟨_, _, _, hready⟩, hunwound⟩ := moves_items h₁
  have hfuel : ∃ k, (yaml mode findings).length + 1 = k + 1 + (8 + 7 * findings.length) := by
    refine ⟨(yaml mode findings).length - (8 + 7 * findings.length), ?_⟩
    have hitems := length_items findings
    rw [yaml_eq mode h]
    simp only [List.length_cons, List.length_append, String.reduceToList]
    omega
  obtain ⟨k, hk⟩ := hfuel
  rw [hk, (hmove₁.trans hmove₂) (k + 1)]
  exact run_end hready hunwound (by decide) k

/-! ### The nodes of a report -/

open Node

/-- A string is one, whichever way it was written. -/
theorem ofScalar_string (w : String) :
    ofScalar (Letter.ofText w) (Print.canBePlain w.toList) = word w := by
  cases hplain : Print.canBePlain w.toList with
  | true =>
      have hkind := Print.kind_of_canBePlain hplain
      rw [String.ofList_toList] at hkind
      rw [ofScalar_plain, hkind]
      rfl
  | false => rfl

/-- An integer as a node. -/
def integerNode (n : Int) : Node := .scalar none .integer (Letter.ofText (toString n))

theorem ofScalar_integer (n : Int) :
    ofScalar (Letter.ofText (toString n)) true = integerNode n := by
  rw [ofScalar_plain, Scalar.kind_toString]
  rfl

/-- One item as a node. -/
def itemNode (id : Nat) (f : Finding) : Node :=
  .mapping id none .mapping [(word "file", word f.file), (word "line", integerNode f.line)]

/-- The items as nodes, numbered from `id` on. -/
def itemNodes : (id : Nat) → List Finding → List Node
  | _, [] => []
  | id, f :: findings => itemNode id f :: itemNodes (id + 1) findings

variable {handles : Handles} {room fuel count : Nat} {known : List String} {ts : List Token}

theorem node_item (f : Finding) :
    node handles true false (room + 1) (fuel + 7) ⟨(itemTokens f).tail ++ ts, known, count⟩ =
      .ok (itemNode count f, ⟨ts, known, count + 1⟩) := by
  have hfile : ofScalar (Letter.ofText "file") true = word "file" := rfl
  have hline : ofScalar (Letter.ofText "line") true = word "line" := rfl
  have hnode : node handles true false (room + 1) (fuel + 7)
      ⟨(itemTokens f).tail ++ ts, known, count⟩ = _ :=
    node_blockMapping (blockEntries_field rfl node_scalar
      (blockEntries_field rfl node_scalar blockEntries_end))
  rw [hnode, hfile, hline, ofScalar_string, ofScalar_integer]
  rfl

theorem indentlessItems_items (findings : List Finding) (hfuel : findings.length + 8 ≤ fuel) :
    indentlessItems handles (room + 1) fuel
      ⟨findings.flatMap itemTokens ++ .blockEnd :: ts, known, count⟩ =
        .ok (itemNodes count findings, ⟨.blockEnd :: ts, known, count + findings.length⟩) := by
  induction findings generalizing fuel count with
  | nil =>
      obtain ⟨fuel, rfl⟩ : ∃ k, fuel = k + 1 := ⟨fuel - 1, by omega⟩
      rfl
  | cons f findings ih =>
      rw [List.length_cons] at hfuel
      obtain ⟨fuel, rfl⟩ : ∃ k, fuel = k + 8 := ⟨fuel - 8, by omega⟩
      rw [List.flatMap_cons, List.append_assoc]
      rw [List.length_cons, Nat.add_comm findings.length, ← Nat.add_assoc]
      exact indentlessItems_item rfl (node_item f) (ih (by omega))

/-- The root of a report whose list of findings is the node `n`. -/
def rootNode (mode : Lint.Mode) (count : Nat) (n : Node) : Node :=
  .mapping 0 none .mapping
    [(word "fix_mode", .scalar none .boolean (Letter.ofText (fixMode mode))),
      (word "violation_count", integerNode count), (word "violations", n)]

/-- The fields before the list of findings, whatever the list is. -/
theorem document_head (mode : Lint.Mode) (count : Nat) {length : Nat} {n : Node}
    (hts : endsBlockPart ts.head? = false)
    (hn : ∀ fuel, 5 * ts.length ≤ fuel →
      node defaultHandles true true 489 fuel ⟨ts, [], 1⟩ = .ok (n, ⟨[.blockEnd], [], count⟩)) :
    document (headTokens mode length ++ ts) = .ok (some (rootNode mode length n)) := by
  have hfix : ofScalar (Letter.ofText "fix_mode") true = word "fix_mode" := rfl
  have hcount : ofScalar (Letter.ofText "violation_count") true = word "violation_count" := rfl
  have hlist : ofScalar (Letter.ofText "violations") true = word "violations" := rfl
  have hmode : Scalar.kind (fixMode mode) = .boolean := by cases mode <;> decide
  have hnode : node defaultHandles true false maxDepth (5 * ts.length + 65)
      ⟨headTokens mode length ++ ts, [], 0⟩ = _ :=
    node_blockMapping (blockEntries_field rfl node_scalar
      (blockEntries_field rfl node_scalar
        (blockEntries_field hts (hn _ (by omega)) blockEntries_end)))
  have hlength : ofScalar (Letter.ofText (toString length)) true = integerNode length :=
    ofScalar_integer length
  rw [hfix, hcount, hlist, ofScalar_plain, hmode, hlength] at hnode
  have hroot : root (headTokens mode length ++ ts) = .ok (rootNode mode length n, []) := by
    have hfuel : 5 * (headTokens mode length ++ ts).length + 5 = 5 * ts.length + 65 := by
      rw [List.length_append]
      show 5 * (12 + ts.length) + 5 = _
      omega
    have hexplicit : isExplicit (headTokens mode length ++ ts) = false := rfl
    unfold root
    simp only [hfuel, hexplicit, Bool.false_eq_true, if_false, hnode]
    rfl
  have hsome : (headTokens mode length ++ ts).isEmpty = false := rfl
  unfold document
  simp only [hsome, Bool.false_eq_true, if_false, hroot]
  rfl

/-- The list of findings as a node. -/
def listNode (findings : List Finding) : Node :=
  .sequence 1 none .sequence (itemNodes 2 findings)

/-- **The nodes of a report.**  An empty list is written in brackets, and any other as a block. -/
theorem parse_yaml (mode : Lint.Mode) (findings : List Finding) :
    parse (yaml mode findings) =
      .ok (some (rootNode mode findings.length (listNode findings))) := by
  unfold parse
  cases findings with
  | nil =>
      have htokens : tokens (yaml mode []) =
          headTokens mode 0 ++ [.flowSequenceStart, .flowSequenceEnd, .blockEnd] := by
        cases mode <;> decide +kernel
      rw [htokens]
      refine document_head mode 2 rfl fun fuel hfuel => ?_
      obtain ⟨fuel, rfl⟩ : ∃ k, fuel = k + 3 := ⟨fuel - 3, by simp at hfuel; omega⟩
      rfl
  | cons f findings =>
      rw [tokens_yaml mode (by simp), List.append_assoc]
      refine document_head mode (2 + (f :: findings).length) rfl fun fuel hfuel => ?_
      have hlength : ((f :: findings).flatMap itemTokens).length = 11 * (f :: findings).length := by
        rw [List.length_flatMap]
        simp [itemTokens]
        omega
      rw [List.length_append, hlength] at hfuel
      simp only [List.length_cons, List.length_nil] at hfuel
      -- An item has eleven tokens and takes eight rounds, so there is always fuel left.
      obtain ⟨fuel, rfl⟩ : ∃ k, fuel = k + 2 := ⟨fuel - 2, by omega⟩
      exact node_indentless (indentlessItems_items (f :: findings) (by
        rw [List.length_cons]
        omega))

/-! ### The value of a report -/

/-- A finding as a value. -/
def findingValue (f : Finding) : Value :=
  .map [(.ofText "file", .ofText f.file), (.ofText "line", .integer f.line)]

/-- What a report says, as a value. -/
def reported (mode : Lint.Mode) (findings : List Finding) : Value :=
  .map [(.ofText "fix_mode", .boolean (mode = .fix)),
    (.ofText "violation_count", .integer findings.length),
    (.ofText "violations", .list (findings.map findingValue))]

theorem spells_integer {n : Int} (h : (Value.integer n).isShowable = true) :
    Spells (integerNode n) (.integer n) := by
  rw [Value.isShowable, decide_eq_true_eq] at h
  refine .scalar ?_
  show (Read.integer _).map Value.integer = _
  rw [Read.integer_toString h]
  rfl

theorem spells_fixMode (mode : Lint.Mode) :
    Spells (.scalar none .boolean (Letter.ofText (fixMode mode))) (.boolean (mode = .fix)) := by
  have hread : Read.boolean (Letter.ofText (fixMode mode)) = .ok (mode = .fix) := by
    cases mode <;> decide +kernel
  refine .scalar ?_
  show (Read.boolean _).map Value.boolean = _
  rw [hread]
  rfl

theorem spells_item {f : Finding} (h : (Value.integer f.line).isShowable = true) (id : Nat) :
    Spells (itemNode id f) (findingValue f) := by
  have hfields : SpellsEntries [(word "file", word f.file), (word "line", integerNode f.line)]
      [("file", .ofText f.file), ("line", .integer f.line)] :=
    .cons (spells_word f.file) (.cons (spells_integer h) .nil)
  exact .mapping hfields (by simp)

theorem spells_items {findings : List Finding}
    (h : ∀ f ∈ findings, (Value.integer f.line).isShowable = true) (id : Nat) :
    SpellsItems (itemNodes id findings) (findings.map findingValue) := by
  induction findings generalizing id with
  | nil => exact .nil
  | cons f findings ih =>
      rw [List.forall_mem_cons] at h
      exact .cons (spells_item h.1 id) (ih h.2 (id + 1))

theorem spells_root (mode : Lint.Mode) {findings : List Finding}
    (hlength : (Value.integer findings.length).isShowable = true)
    (hlines : ∀ f ∈ findings, (Value.integer f.line).isShowable = true) :
    Spells (rootNode mode findings.length (listNode findings)) (reported mode findings) := by
  have hfields : SpellsEntries
      [(word "fix_mode", .scalar none .boolean (Letter.ofText (fixMode mode))),
        (word "violation_count", integerNode findings.length),
        (word "violations", listNode findings)]
      [("fix_mode", .boolean (mode = .fix)), ("violation_count", .integer findings.length),
        ("violations", .list (findings.map findingValue))] :=
    .cons (spells_fixMode mode) (.cons (spells_integer hlength)
      (.cons (.sequence (spells_items hlines 2)) .nil))
  exact .mapping hfields (by simp)

theorem areShowable_findings {findings : List Finding}
    (h : Value.areShowable (findings.map findingValue) = true) :
    ∀ f ∈ findings, (Value.integer f.line).isShowable = true := by
  induction findings with
  | nil => simp
  | cons f findings ih =>
      rw [List.map_cons, Value.areShowable, Bool.and_eq_true, findingValue] at h
      simp only [Value.isShowable, Value.arePairsShowable, Bool.and_eq_true] at h
      rw [List.forall_mem_cons]
      exact ⟨h.1.2.1.2, ih h.2⟩

/-- A report can be shown if the numbers in it can. -/
theorem showable_of_reported {mode : Lint.Mode} {findings : List Finding}
    (h : (reported mode findings).isShowable = true) :
    (Value.integer findings.length).isShowable = true ∧
      ∀ f ∈ findings, (Value.integer f.line).isShowable = true := by
  simp only [reported, Value.isShowable, Value.arePairsShowable, Bool.and_eq_true] at h
  exact ⟨h.2.1.2, areShowable_findings h.2.2.1.2⟩

/-- **A report loads back as what was found**, whatever the paths are.  Numbers with more than
`maxDigits` digits are left out: they cannot be turned into text, nor back. -/
theorem load_yaml (mode : Lint.Mode) (findings : List Finding)
    (h : (reported mode findings).isShowable = true) :
    load (yaml mode findings) = .ok (reported mode findings) := by
  obtain ⟨hlength, hlines⟩ := showable_of_reported h
  exact load_of_spells (parse_yaml mode findings) (spells_root mode hlength hlines)

/-- Paths that mean something else in YAML, that need marks or escapes, or that are folded. -/
def oddFindings : List Finding :=
  [⟨"yes", 1⟩, ⟨"010", 2⟩, ⟨"2024-01-31", 3⟩, ⟨"~", 4⟩, ⟨"", 5⟩, ⟨"- a: b #c", 6⟩,
    ⟨"it's\n\n'so'", 7⟩, ⟨" \u00e9\t\u2028😀\x00\\\" ", 8⟩,
    ⟨"a folder with a name that goes on until its line is longer than the report is wide/a.js", 9⟩]

theorem load_yaml_oddFindings : (reported .fix oddFindings).isShowable = true ∧
    load (yaml .fix oddFindings) = .ok (reported .fix oddFindings) :=
  ⟨by decide +kernel, load_yaml .fix oddFindings (by decide +kernel)⟩

end Semicolon.Report
