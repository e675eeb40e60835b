/-
Documents that are what they look like.

Blocks of tokens are read one field and one entry at a time; the lemmas here say so for each kind of
block that a layout has.

A node without anchors, aliases and merge keys stands for one value, which can be read off it piece
by piece: a scalar for what its text spells, a sequence for a list, and a mapping with distinct
words as keys for the entries that it has.  `Spells` is that reading.  Loading agrees with it.

Loading goes through a document twice, first for problems and then for its value.  Neither pass can
fail here: every scalar has been read already, the rounds suffice because no node is larger than the
document, and a collection is never met inside itself because no two bear the same number.
-/
import Mathlib.Data.List.Induction
import Semicolon.Proofs.Yaml.Document

namespace Semicolon.Yaml

namespace Node

/-! ### From blocks of tokens to nodes -/

section Blocks

variable {handles : Handles} {block indentless plain : Bool} {room fuel count : Nat}
  {known : List String} {text : List Letter} {ts rest : List Token} {n : Node} {f f' : Feed}
  {entries : List (Node × Node)} {items : List Node}

/-- A scalar as a node. -/
def ofScalar (text : List Letter) (plain : Bool) : Node :=
  .scalar none (scalarTag none plain text) text

theorem text?_ofText (w : String) : Letter.text? (Letter.ofText w) = some w := by
  have hchars : ∀ cs : List Char, (cs.map Letter.char).mapM Letter.char? = some cs := by
    intro cs
    induction cs with
    | nil => rfl
    | cons a cs ih => simp [Letter.char?, ih]
  rw [Letter.text?, Letter.ofText, hchars, Option.map_some, String.ofList_toList]

/-- A word without marks is of the kind that its spelling asks for. -/
theorem ofScalar_plain (w : String) :
    ofScalar (Letter.ofText w) true = .scalar none (Scalar.kind w) (Letter.ofText w) := by
  show Node.scalar none (spelledTag _) _ = _
  rw [spelledTag, text?_ofText]
  rfl

theorem node_scalar : node handles block indentless room (fuel + 2)
    ⟨.scalar text plain :: rest, known, count⟩ = .ok (ofScalar text plain, ⟨rest, known, count⟩) :=
  rfl

/-- A mapping is numbered before what is in it. -/
theorem node_blockMapping
    (h : blockEntries handles room fuel ⟨ts, known, count + 1⟩ = .ok (entries, f)) :
    node handles true indentless (room + 1) (fuel + 2)
      ⟨.blockMappingStart :: ts, known, count⟩ = .ok (.mapping count none .mapping entries, f) := by
  show (blockEntries handles room fuel ⟨ts, known, count + 1⟩ >>= fun r =>
    Except.ok (Node.mapping count none .mapping r.1, r.2)) = _
  rw [h]
  rfl

/-- One field of a mapping, and the fields after it. -/
theorem blockEntries_field (hts : endsBlockPart ts.head? = false)
    (h : node handles true true room (fuel + 1) ⟨ts, known, count⟩ = .ok (n, f))
    (hrest : blockEntries handles room (fuel + 2) f = .ok (entries, f')) :
    blockEntries handles room (fuel + 3)
      ⟨.key :: .scalar text plain :: .value :: ts, known, count⟩ =
        .ok ((ofScalar text plain, n) :: entries, f') := by
  have hvalue : blockValue handles room (fuel + 2) ⟨.value :: ts, known, count⟩ = .ok (n, f) := by
    rw [blockValue]
    dsimp only
    rw [hts]
    exact h
  rw [blockEntries]
  simp only [List.head?_cons, endsBlockPart, Bool.false_eq_true, if_false]
  rw [node_scalar]
  show (blockValue handles room (fuel + 2) ⟨.value :: ts, known, count⟩ >>= fun r => _) = _
  rw [hvalue]
  show (blockEntries handles room (fuel + 2) f >>= fun r => _) = _
  rw [hrest]
  rfl

theorem blockEntries_end : blockEntries handles room (fuel + 1) ⟨.blockEnd :: rest, known, count⟩ =
    .ok ([], ⟨rest, known, count⟩) :=
  rfl

/-- A sequence that is not indented is numbered before what is in it too. -/
theorem node_indentless
    (h : indentlessItems handles room fuel ⟨.blockEntry :: ts, known, count + 1⟩ = .ok (items, f)) :
    node handles true true (room + 1) (fuel + 2) ⟨.blockEntry :: ts, known, count⟩ =
      .ok (.sequence count none .sequence items, f) := by
  show (indentlessItems handles room fuel ⟨.blockEntry :: ts, known, count + 1⟩ >>= fun r =>
    Except.ok (Node.sequence count none .sequence r.1, r.2)) = _
  rw [h]
  rfl

theorem indentlessItems_item (hts : endsBlockItem true ts.head? = false)
    (h : node handles true false room fuel ⟨ts, known, count⟩ = .ok (n, f))
    (hrest : indentlessItems handles room fuel f = .ok (items, f')) :
    indentlessItems handles room (fuel + 1) ⟨.blockEntry :: ts, known, count⟩ =
      .ok (n :: items, f') := by
  rw [indentlessItems]
  simp only [hts, Bool.false_eq_true, if_false]
  rw [h]
  show (indentlessItems handles room fuel f >>= fun r => _) = _
  rw [hrest]
  rfl

end Blocks

/-! ### From nodes to values -/

/-- A word as a node. -/
def word (w : String) : Node := .scalar none .string (Letter.ofText w)

mutual

/-- The node stands for the value. -/
inductive Spells : Node → Value → Prop where
  | scalar {tag : Tag} {text : List Letter} {v : Value} (h : Read.scalar tag text = .ok v) :
      Spells (.scalar none tag text) v
  | sequence {id : Nat} {items : List Node} {vs : List Value} (h : SpellsItems items vs) :
      Spells (.sequence id none .sequence items) (.list vs)
  | mapping {id : Nat} {entries : List (Node × Node)} {fields : List (String × Value)}
      (h : SpellsEntries entries fields) (hkeys : (fields.map Prod.fst).Nodup) :
      Spells (.mapping id none .mapping entries)
        (.map (fields.map fun f => (Value.ofText f.1, f.2)))

/-- Each node stands for the value at its place. -/
inductive SpellsItems : List Node → List Value → Prop where
  | nil : SpellsItems [] []
  | cons {n : Node} {v : Value} {items : List Node} {vs : List Value} (h : Spells n v)
      (hs : SpellsItems items vs) : SpellsItems (n :: items) (v :: vs)

/-- Each key is a word, and the node next to it stands for the value of that field. -/
inductive SpellsEntries : List (Node × Node) → List (String × Value) → Prop where
  | nil : SpellsEntries [] []
  | cons {w : String} {n : Node} {v : Value} {entries : List (Node × Node)}
      {fields : List (String × Value)} (h : Spells n v) (hs : SpellsEntries entries fields) :
      SpellsEntries ((word w, n) :: entries) ((w, v) :: fields)

end

theorem spells_word (w : String) : Spells (word w) (.ofText w) := .scalar rfl

mutual

theorem Spells.no_anchor : ∀ {n : Node} {v : Value}, Spells n v →
    ∀ m ∈ n.all, m.anchor? = none
  | _, _, .scalar _ => by simp [all, anchor?]
  | _, _, .sequence h => by
      rw [all, List.forall_mem_cons]
      exact ⟨rfl, h.no_anchor⟩
  | _, _, .mapping h _ => by
      rw [all, List.forall_mem_cons]
      exact ⟨rfl, h.no_anchor⟩

theorem SpellsItems.no_anchor : ∀ {items : List Node} {vs : List Value}, SpellsItems items vs →
    ∀ m ∈ allItems items, m.anchor? = none
  | _, _, .nil => by simp [allItems]
  | _, _, .cons h hs => by
      rw [allItems, List.forall_mem_append]
      exact ⟨h.no_anchor, hs.no_anchor⟩

theorem SpellsEntries.no_anchor : ∀ {entries : List (Node × Node)} {fields : List (String × Value)},
    SpellsEntries entries fields → ∀ m ∈ allEntries entries, m.anchor? = none
  | _, _, .nil => by simp [allEntries]
  | _, _, .cons h hs => by
      rw [allEntries, List.forall_mem_append, List.forall_mem_append]
      exact ⟨⟨by simp [word, all, anchor?], h.no_anchor⟩, hs.no_anchor⟩

end

/-- There is no anchor, so nothing has a name. -/
theorem Spells.names_eq_nil {root : Node} {v : Value} (h : Spells root v) : Names.of root = [] := by
  unfold Names.of
  rw [List.filterMap_eq_nil_iff]
  intro n hn
  rw [h.no_anchor n hn]
  rfl

/-! ### Parts of a node -/

variable {n : Node} {v : Value} {items : List Node} {vs : List Value}
  {entries : List (Node × Node)} {fields : List (String × Value)}

theorem SpellsItems.exists_spells (h : SpellsItems items vs) :
    ∀ m ∈ items, ∃ v, Spells m v := by
  induction items generalizing vs with
  | nil => simp
  | cons n items ih =>
      cases h with
      | cons h hs =>
          rw [List.forall_mem_cons]
          exact ⟨⟨_, h⟩, ih hs⟩

theorem SpellsEntries.exists_spells (h : SpellsEntries entries fields) :
    ∀ e ∈ entries, (∃ w, e.1 = word w) ∧ ∃ v, Spells e.2 v := by
  induction entries generalizing fields with
  | nil => simp
  | cons e entries ih =>
      cases h with
      | cons h hs =>
          rw [List.forall_mem_cons]
          exact ⟨⟨⟨_, rfl⟩, ⟨_, h⟩⟩, ih hs⟩

theorem length_all_pos (n : Node) : 0 < n.all.length := List.length_pos_of_mem (mem_all_self n)

theorem length_le_allItems {m : Node} (hm : m ∈ items) :
    m.all.length ≤ (allItems items).length := by
  induction items with
  | nil => cases hm
  | cons n items ih =>
      rw [allItems, List.length_append]
      rcases List.mem_cons.mp hm with rfl | hm
      · omega
      · exact Nat.le_trans (ih hm) (by omega)

theorem length_lt_allEntries {e : Node × Node} (he : e ∈ entries) :
    e.2.all.length < (allEntries entries).length := by
  induction entries with
  | nil => cases he
  | cons e' entries ih =>
      have hpos := length_all_pos e'.1
      rw [allEntries, List.length_append, List.length_append]
      rcases List.mem_cons.mp he with rfl | he
      · omega
      · have hlt := ih he
        omega

theorem length_entries_le (entries : List (Node × Node)) :
    entries.length ≤ (allEntries entries).length := by
  induction entries with
  | nil => exact Nat.le_refl _
  | cons e entries ih =>
      have hpos := length_all_pos e.1
      rw [allEntries, List.length_append, List.length_append, List.length_cons]
      omega

end Node

namespace Load

open Node

variable {rounds depth id : Nat} {within : List Nat} {n : Node} {v : Value} {items : List Node}
  {vs : List Value} {entries : List (Node × Node)} {fields : List (String × Value)}

/-! ### The first problem -/

/-- A scalar that can be read. -/
theorem scalarOf_eq {tag : Tag} {text : List Letter} (h : Read.scalar tag text = .ok v)
    (hrounds : 0 < rounds) :
    tag.shape? = none ∧ scalarOf [] rounds (.scalar none tag text) = .ok v := by
  obtain ⟨r, rfl⟩ : ∃ r, rounds = r + 1 := ⟨rounds - 1, by omega⟩
  cases tag
  case merge | default | sequence | mapping | set | orderedPairs | pairs | other => cases h
  all_goals exact ⟨rfl, h⟩

theorem visit_spells (h : Spells n v) (hrounds : 0 < rounds) :
    ∃ later, visit [] rounds n = .ok later ∧ ∀ m ∈ later, m = n ∧ m.tag.shape?.isSome = true := by
  cases h with
  | scalar h =>
      obtain ⟨hshape, hread⟩ := scalarOf_eq h hrounds
      refine ⟨[], ?_, by simp⟩
      unfold visit
      simp [Names.deref, bind, Except.bind, Node.tag, hshape, hread]
  | sequence h => exact ⟨_, rfl, by simp [Node.tag, Tag.shape?]⟩
  | mapping h hkeys => exact ⟨_, rfl, by simp [Node.tag, Tag.shape?]⟩

/-- Words as keys are no merge keys. -/
theorem flattened_words (h : ∀ e ∈ entries, ∃ w, e.1 = word w) {fuel : Nat}
    (hfuel : entries.length < fuel) : flattened [] fuel within entries = .ok ([], entries) := by
  induction entries generalizing fuel with
  | nil =>
      obtain ⟨fuel, rfl⟩ : ∃ k, fuel = k + 1 := ⟨fuel - 1, by omega⟩
      rfl
  | cons e entries ih =>
      obtain ⟨fuel, rfl⟩ : ∃ k, fuel = k + 1 := ⟨fuel - 1, by omega⟩
      rw [List.forall_mem_cons] at h
      obtain ⟨⟨w, hw⟩, h⟩ := h
      obtain ⟨key, n⟩ := e
      cases hw
      rw [flattened, ih h (by simpa using hfuel)]
      rfl

theorem entriesOf_words (h : ∀ e ∈ entries, ∃ w, e.1 = word w) (hrounds : entries.length < rounds) :
    entriesOf [] rounds id entries = .ok entries := by
  unfold entriesOf
  rw [flattened_words h hrounds]
  rfl

/-- A key that is a word holds no problem, so only the value next to it counts. -/
theorem visitEntry_word (w : String) (hrounds : 0 < rounds) :
    visitEntry [] rounds (word w, n) = visit [] rounds n := by
  obtain ⟨r, rfl⟩ : ∃ r, rounds = r + 1 := ⟨rounds - 1, by omega⟩
  rfl

/-- A node to be filled: a collection of the document that stands for a value. -/
structure Fillable (rounds : Nat) (n : Node) : Prop where
  shape : n.tag.shape?.isSome = true
  spells : ∃ v, Spells n v
  small : n.all.length < rounds

/-- What is found in a collection is fillable again. -/
theorem flatten_visits {α : Type} {xs : List α} {f : α → Except Problem (List Node)}
    (part : α → Node) (hf : ∀ x ∈ xs, f x = visit [] rounds (part x))
    (hpart : ∀ x ∈ xs, (∃ v, Spells (part x) v) ∧ (part x).all.length < rounds) :
    ∃ later, (xs.mapM f).map List.flatten = .ok later ∧ ∀ m ∈ later, Fillable rounds m := by
  have hvisit : ∀ x ∈ xs, ∃ later, f x = .ok later ∧ ∀ m ∈ later, Fillable rounds m := by
    intro x hx
    obtain ⟨⟨v, hv⟩, hsmall⟩ := hpart x hx
    obtain ⟨later, hlater, hall⟩ := visit_spells hv (Nat.zero_lt_of_lt hsmall)
    refine ⟨later, by rw [hf x hx, hlater], fun m hm => ?_⟩
    obtain ⟨rfl, hshape⟩ := hall m hm
    exact ⟨hshape, ⟨v, hv⟩, hsmall⟩
  obtain ⟨later, hlater⟩ := exists_map_mapM (g := List.flatten) fun x hx =>
    (hvisit x hx).imp fun _ h => h.1
  refine ⟨later, hlater, fun m hm => ?_⟩
  obtain ⟨x, hx, part, hpart, hm⟩ := (flatten_eq_ok hlater).2 m hm
  obtain ⟨later', hlater', hall⟩ := hvisit x hx
  rw [hlater'] at hpart
  cases hpart
  exact hall m hm

theorem Fillable.fill (h : Fillable rounds n) :
    ∃ later, fill [] rounds n = .ok later ∧ ∀ m ∈ later, Fillable rounds m := by
  obtain ⟨hshape, ⟨v, hv⟩, hsmall⟩ := h
  cases hv with
  | scalar h =>
      rw [Node.tag, (scalarOf_eq h (Nat.zero_lt_of_lt hsmall)).1] at hshape
      cases hshape
  | @sequence id items vs h =>
      rw [all, List.length_cons] at hsmall
      refine flatten_visits (fun n => n) (fun _ _ => rfl) fun m hm =>
        ⟨h.exists_spells m hm, ?_⟩
      have hle := length_le_allItems hm
      omega
  | @mapping id entries fields h hkeys =>
      rw [all, List.length_cons] at hsmall
      have hlength := length_entries_le entries
      have hentries : entriesOf [] rounds id entries = .ok entries :=
        entriesOf_words (fun e he => (h.exists_spells e he).1) (by omega)
      have hvisit : ∀ e ∈ entries, visitEntry [] rounds e = visit [] rounds e.2 := by
        intro e he
        obtain ⟨⟨w, hw⟩, -⟩ := h.exists_spells e he
        obtain ⟨key, n⟩ := e
        cases hw
        exact visitEntry_word w (by omega)
      obtain ⟨later, hlater, hall⟩ := flatten_visits Prod.snd hvisit fun e he =>
        ⟨(h.exists_spells e he).2, by
          have hlt := length_lt_allEntries he
          omega⟩
      refine ⟨later, ?_, hall⟩
      show (entriesOf [] rounds id entries >>= fun entries =>
        (entries.mapM (visitEntry [] rounds)).map List.flatten) = .ok later
      rw [hentries]
      exact hlater

/-- Nothing that waits holds a problem, on whatever level it is found. -/
theorem fillAll_fillable {left : Nat} {done : List Nat} {waiting : List Node}
    (h : ∀ n ∈ waiting, Fillable rounds n) : fillAll [] rounds left done waiting = .ok () := by
  induction left generalizing done waiting with
  | zero => rfl
  | succ left ih =>
      rw [fillAll]
      split
      · rfl
      · rename_i n rest heq
        have hsub : ∀ m ∈ n :: rest, m ∈ waiting := fun m hm =>
          (List.dropWhile_sublist _).subset (by rw [heq]; exact hm)
        obtain ⟨later, hfill, hlater⟩ := (h n (hsub n (by simp))).fill
        rw [hfill]
        refine ih fun m hm => ?_
        rcases List.mem_append.mp hm with hm | hm
        · exact h m (hsub m (by simp [hm]))
        · exact hlater m hm

/-! ### The value -/

/-- The numbers of the collections in a node are new, and no two of them are the same. -/
structure Apart (within : List Nat) (ns : List Node) : Prop where
  fresh : ∀ id ∈ within, id ∉ ns.filterMap id?
  distinct : (ns.filterMap id?).Nodup

theorem Apart.left {l m : List Node} (h : Apart within (l ++ m)) : Apart within l := by
  obtain ⟨hfresh, hdistinct⟩ := h
  rw [List.filterMap_append] at hfresh hdistinct
  exact ⟨fun id hid hmem => hfresh id hid (List.mem_append_left _ hmem),
    (List.nodup_append.mp hdistinct).1⟩

theorem Apart.right {l m : List Node} (h : Apart within (l ++ m)) : Apart within m := by
  obtain ⟨hfresh, hdistinct⟩ := h
  rw [List.filterMap_append] at hfresh hdistinct
  exact ⟨fun id hid hmem => hfresh id hid (List.mem_append_right _ hmem),
    (List.nodup_append.mp hdistinct).2.1⟩

/-- Inside a collection its own number is taken. -/
theorem Apart.inside {ns : List Node} (hid : n.id? = some id) (h : Apart within (n :: ns)) :
    within.contains id = false ∧ Apart (id :: within) ns := by
  obtain ⟨hfresh, hdistinct⟩ := h
  rw [List.filterMap_cons_some hid] at hfresh hdistinct
  rw [List.nodup_cons] at hdistinct
  refine ⟨?_, ?_, hdistinct.2⟩
  · rw [List.contains_eq_mem, decide_eq_false_iff_not]
    exact fun hmem => hfresh id hmem List.mem_cons_self
  · rw [List.forall_mem_cons]
    exact ⟨hdistinct.1, fun other hother hmem => hfresh other hother (List.mem_cons_of_mem _ hmem)⟩

theorem sameKey_ofText {w w' : String} (h : w ≠ w') :
    (Value.ofText w).sameKey (.ofText w') = false := by
  have hletters : Letter.ofText w ≠ Letter.ofText w' := by
    intro heq
    have hinj : Function.Injective Letter.char := fun a b hab => Letter.char.inj hab
    exact h (String.toList_injective (List.map_injective_iff.mpr hinj heq))
  exact decide_eq_false hletters

/-- A new word comes last. -/
theorem insert_new {w : String} (h : w ∉ fields.map Prod.fst) :
    Value.insert (fields.map fun f => (Value.ofText f.1, f.2)) (.ofText w) v =
      (fields ++ [(w, v)]).map fun f => (Value.ofText f.1, f.2) := by
  induction fields with
  | nil => rfl
  | cons f fields ih =>
      rw [List.map_cons, List.mem_cons, not_or] at h
      rw [List.map_cons, Value.insert, if_neg (by simp [sameKey_ofText (Ne.symm h.1)]), ih h.2]
      rfl

/-- Distinct words stay as they are. -/
theorem entriesOf_distinct (h : (fields.map Prod.fst).Nodup) :
    Value.entriesOf (fields.map fun f => (Value.ofText f.1, f.2)) =
      fields.map fun f => (Value.ofText f.1, f.2) := by
  induction fields using List.reverseRecOn with
  | nil => rfl
  | append_singleton fields f ih =>
      rw [List.map_append, List.nodup_append] at h
      obtain ⟨hfields, -, hnew⟩ := h
      have hlast : f.1 ∉ fields.map Prod.fst := fun hmem => hnew _ hmem f.1 (by simp) rfl
      have hbefore := ih hfields
      unfold Value.entriesOf at hbefore ⊢
      rw [List.map_append, List.foldl_append, hbefore]
      exact (insert_new hlast).trans (List.map_append ..)

theorem value_scalar {tag : Tag} {text : List Letter} (h : Read.scalar tag text = .ok v)
    (hrounds : 0 < rounds) (hdepth : 0 < depth) :
    value [] rounds depth within (.scalar none tag text) = .ok v := by
  obtain ⟨hshape, hread⟩ := scalarOf_eq h hrounds
  obtain ⟨depth, rfl⟩ : ∃ k, depth = k + 1 := ⟨depth - 1, by omega⟩
  rw [value_of_scalar (m := .scalar none tag text) rfl hshape, hread]

mutual

theorem value_spells : ∀ {n : Node} {v : Value}, Spells n v → ∀ {depth : Nat} {within : List Nat},
    n.all.length ≤ depth → n.all.length < rounds → Apart within n.all →
      value [] rounds depth within n = .ok v
  | _, _, .scalar h, depth, within => fun hdepth hrounds _ =>
      value_scalar h (Nat.zero_lt_of_lt hrounds) (Nat.lt_of_lt_of_le (length_all_pos _) hdepth)
  | _, _, .sequence h, depth, within => by
      intro hdepth hrounds hapart
      rw [all, List.length_cons] at hdepth hrounds
      rw [all] at hapart
      obtain ⟨hnew, hinside⟩ := hapart.inside rfl
      obtain ⟨depth, rfl⟩ : ∃ k, depth = k + 1 := ⟨depth - 1, by omega⟩
      rw [value_of_collection rfl rfl rfl, hnew]
      show ((List.mapM (value [] rounds depth _) _).map Value.list) = _
      rw [mapM_spells h (by omega) (by omega) hinside]
      rfl
  | .mapping id _ _ entries, _, .mapping h hkeys, depth, within => by
      intro hdepth hrounds hapart
      rw [all, List.length_cons] at hdepth hrounds
      rw [all] at hapart
      obtain ⟨hnew, hinside⟩ := hapart.inside rfl
      obtain ⟨depth, rfl⟩ : ∃ k, depth = k + 1 := ⟨depth - 1, by omega⟩
      rw [value_of_collection rfl rfl rfl, hnew]
      have hlength := length_entries_le entries
      show (entriesOf [] rounds id entries >>= fun entries => _) = _
      rw [entriesOf_words (fun e he => (h.exists_spells e he).1) (by omega)]
      show (List.mapM _ entries >>= fun written =>
        Except.ok (Value.map (Value.entriesOf written))) = _
      rw [mapM_fields h (by omega) (by omega) hinside]
      -- No key comes twice, so that no entry takes the place of another.
      show Except.ok (Value.map (Value.entriesOf _)) = _
      rw [entriesOf_distinct hkeys]

theorem mapM_spells : ∀ {items : List Node} {vs : List Value}, SpellsItems items vs →
    ∀ {depth : Nat} {within : List Nat}, (allItems items).length ≤ depth →
      (allItems items).length < rounds → Apart within (allItems items) →
        items.mapM (value [] rounds depth within) = .ok vs
  | _, _, .nil, depth, within => fun _ _ _ => rfl
  | _, _, .cons h hs, depth, within => by
      intro hdepth hrounds hapart
      rw [allItems, List.length_append] at hdepth hrounds
      rw [allItems] at hapart
      rw [List.mapM_cons, value_spells h (by omega) (by omega) hapart.left,
        mapM_spells hs (by omega) (by omega) hapart.right]
      rfl

theorem mapM_fields : ∀ {entries : List (Node × Node)} {fields : List (String × Value)},
    SpellsEntries entries fields → ∀ {depth : Nat} {within : List Nat},
      (allEntries entries).length ≤ depth → (allEntries entries).length < rounds →
        Apart within (allEntries entries) →
          (entries.mapM fun e => do
            let key ← value [] rounds depth within e.1
            let v ← value [] rounds depth within e.2
            Except.ok (key, v)) = .ok (fields.map fun f => (Value.ofText f.1, f.2))
  | _, _, .nil, depth, within => fun _ _ _ => rfl
  | _, _, .cons (w := w) h hs, depth, within => by
      intro hdepth hrounds hapart
      rw [allEntries, List.length_append, List.length_append] at hdepth hrounds
      rw [allEntries, List.append_assoc] at hapart
      have hpos := length_all_pos (word w)
      have hkey : value [] rounds depth within (word w) = .ok (.ofText w) :=
        value_scalar rfl (by omega) (by omega)
      rw [List.mapM_cons, hkey,
        value_spells h (by omega) (by omega) hapart.right.left,
        mapM_fields hs (by omega) (by omega) hapart.right.right]
      rfl

end

end Load

section

open Node Load

/-- **A document that spells a value loads as that value.** -/
theorem load_of_spells {text : List Char} {root : Node} {v : Value}
    (hparse : parse text = .ok (some root)) (h : Spells root v) : load text = .ok v := by
  have hsmall : root.all.length < rounds root.all.length := by
    have hlt := Document.lt_rounds root.all.length
    omega
  have hnames := h.names_eq_nil
  obtain ⟨later, hvisit, hlater⟩ := visit_spells h (Nat.zero_lt_of_lt hsmall)
  have hfill : fillAll [] (rounds root.all.length) (rounds root.all.length) [] later = .ok () := by
    refine fillAll_fillable fun n hn => ?_
    obtain ⟨rfl, hshape⟩ := hlater n hn
    exact ⟨hshape, ⟨v, h⟩, hsmall⟩
  have hread : Document.read text =
      .ok { root, names := [], rounds := rounds root.all.length } := by
    unfold Document.read
    rw [hparse]
    simp only [bind, Except.bind, Option.getD_some, hnames, hvisit, hfill]
  rw [load_of_read hread]
  exact value_spells h (Nat.le_of_lt hsmall) hsmall ⟨by simp, distinct_of_parse hparse⟩

end

end Semicolon.Yaml
