/-
A document and its value.

A document that has been read says what it holds in two ways.  Its value is the whole of it,
written out; but the keys of the root, the kind of the root and the value of any one node can be
asked for alone.  The answers agree: every node that can be reached has a value, the keys are
those of the value, and a node of the root is a truth value exactly if what stands at its key is.
The two need not be the same value.  A node that is asked for alone and that contains the root
shows the root once, and within the value of the root it does not.
-/
import Semicolon.Proofs.Yaml.Filling

namespace Semicolon.Yaml

/-! ### Entries that match -/

namespace Value

variable {α β : Type} {R : α → β → Prop} {es : List (Value × α)} {fs : List (Value × β)}

/-- The same keys in the same order, and related values. -/
def Matched (R : α → β → Prop) : List (Value × α) → List (Value × β) → Prop :=
  List.Forall₂ fun e f => e.1 = f.1 ∧ R e.2 f.2

theorem Matched.insert (h : Matched R es fs) {a : α} {b : β} (hab : R a b) (key : Value) :
    Matched R (insert es key a) (insert fs key b) := by
  induction h with
  | nil => exact .cons ⟨rfl, hab⟩ .nil
  | @cons e f es fs hhead htail ih =>
      obtain ⟨k, x⟩ := e
      obtain ⟨k', y⟩ := f
      obtain ⟨rfl, hxy⟩ := hhead
      rw [Value.insert, Value.insert]
      split
      · exact .cons ⟨rfl, hab⟩ htail
      · exact .cons ⟨rfl, hxy⟩ ih

theorem Matched.entriesOf (h : Matched R es fs) : Matched R (entriesOf es) (entriesOf fs) := by
  suffices hfold : ∀ {ds : List (Value × α)} {gs : List (Value × β)}, Matched R ds gs →
      Matched R (es.foldl (fun entries e => Value.insert entries e.1 e.2) ds)
        (fs.foldl (fun entries e => Value.insert entries e.1 e.2) gs) from hfold .nil
  induction h with
  | nil => exact fun hstart => hstart
  | cons hhead _ ih =>
      intro ds gs hstart
      rw [List.foldl_cons, List.foldl_cons, hhead.1]
      exact ih (hstart.insert hhead.2 _)

theorem Matched.rel_atText (h : Matched R es fs) (key : String) :
    Option.Rel R (atText? es key) (atText? fs key) := by
  induction h with
  | nil => exact .none
  | @cons e f es fs hhead _ ih =>
      unfold atText? at ih ⊢
      rw [List.find?_cons, List.find?_cons, hhead.1]
      split
      · exact .some hhead.2
      · exact ih

theorem Matched.exists_atText (h : Matched R es fs) {key : String} {b : β}
    (hb : atText? fs key = some b) : ∃ a, atText? es key = some a ∧ R a b := by
  have hrel := h.rel_atText key
  rw [hb] at hrel
  generalize atText? es key = a? at hrel
  cases hrel with
  | some hab => exact ⟨_, rfl, hab⟩

theorem Matched.atText_eq_none (h : Matched R es fs) {key : String}
    (hnone : atText? fs key = none) : atText? es key = none := by
  have hrel := h.rel_atText key
  rw [hnone] at hrel
  generalize atText? es key = a? at hrel
  cases hrel with
  | none => rfl

theorem Matched.forall_keys (h : Matched R es fs) {P : Value → Prop} :
    (∀ e ∈ es, P e.1) ↔ ∀ f ∈ fs, P f.1 := by
  induction h with
  | nil => simp
  | cons hhead _ ih => rw [List.forall_mem_cons, List.forall_mem_cons, hhead.1, ih]

end Value

/-! ### The kind of a value -/

/-- The shape of a value that is a collection. -/
def Value.shape? : Value → Option Shape
  | .list _ | .pairs _ => some .list
  | .map _ => some .map
  | .set _ => some .set
  | .again shape => some shape
  | _ => none

theorem Value.kindName_of_shape {v : Value} {shape : Shape} (h : v.shape? = some shape) :
    v.kindName = (Value.again shape).kindName := by
  cases v <;> cases h <;> rfl

theorem Value.kindName_eq_null_iff {v : Value} :
    v.kindName = Value.null.kindName ↔ v = .null := by
  cases v with
  | null => simp
  | again shape => cases shape <;> simp [kindName]
  | _ => simp [kindName]

namespace Read

theorem mapError_eq_ok {ε ε' α : Type} {x : Except ε α} {f : ε → ε'} {a : α} :
    x.mapError f = .ok a ↔ x = .ok a := by
  cases x <;> simp [Except.mapError]

theorem shape_of_float {text : List Letter} {v : Value} (h : float text = .ok v) :
    v.shape? = none := by
  simp only [float] at h
  split at h
  · cases h
  split at h
  · cases h
    rfl
  split at h
  · cases h
    rfl
  split at h
  · obtain ⟨parts, -, h⟩ := bind_eq_ok.mp h
    obtain ⟨x, -, hout⟩ := bind_eq_ok.mp h
    cases hout
    rfl
  · obtain ⟨x, -, rfl⟩ := map_eq_ok.mp h
    rfl

theorem shape_of_timestamp {text : List Letter} {v : Value} (h : timestamp text = .ok v) :
    v.shape? = none := by
  simp only [timestamp] at h
  split at h
  · cases h
  replace h := mapError_eq_ok.mp h
  split at h
  · obtain ⟨d, -, rfl⟩ := map_eq_ok.mp h
    rfl
  · split at h
    all_goals
      obtain ⟨offset, -, h⟩ := bind_eq_ok.mp h
      obtain ⟨d, -, h⟩ := bind_eq_ok.mp h
      obtain ⟨t, -, rfl⟩ := map_eq_ok.mp h
      rfl

theorem shape_of_scalar {tag : Tag} {text : List Letter} {v : Value}
    (h : scalar tag text = .ok v) : v.shape? = none := by
  unfold scalar at h
  split at h
  · cases h
    rfl
  · obtain ⟨b, -, rfl⟩ := map_eq_ok.mp h
    rfl
  · obtain ⟨i, -, rfl⟩ := map_eq_ok.mp h
    rfl
  · exact shape_of_float h
  · obtain ⟨bs, -, rfl⟩ := map_eq_ok.mp h
    rfl
  · exact shape_of_timestamp h
  · cases h
    rfl
  · cases h

end Read

namespace Load

open Node

variable {names : Names} {rounds depth depth' : Nat} {within within' : List Nat} {n m : Node}
  {v v' : Value}

theorem shape_of_scalarOf (h : scalarOf names rounds n = .ok v) : v.shape? = none := by
  unfold scalarOf at h
  split at h
  all_goals first
    | cases h
    | skip
  obtain ⟨text, -, h⟩ := bind_eq_ok.mp h
  exact Read.shape_of_scalar h

theorem shape_of_contents {inner : Node → Except Problem Value}
    (h : contents names rounds inner n = .ok v) : v.shape? = n.tag.shape? := by
  unfold contents at h
  split at h
  all_goals rename_i htag
  · obtain ⟨items, -, rfl⟩ := map_eq_ok.mp h
    rw [htag]
    rfl
  · obtain ⟨entries, -, h⟩ := bind_eq_ok.mp h
    obtain ⟨written, -, hout⟩ := bind_eq_ok.mp h
    cases hout
    rw [htag]
    rfl
  · obtain ⟨entries, -, h⟩ := bind_eq_ok.mp h
    obtain ⟨written, -, hout⟩ := bind_eq_ok.mp h
    cases hout
    rw [htag]
    rfl
  · obtain ⟨items, -, rfl⟩ := map_eq_ok.mp h
    rw [htag]
    rfl
  · obtain ⟨items, -, rfl⟩ := map_eq_ok.mp h
    rw [htag]
    rfl
  · cases h

/-- A value has the shape of the kind of its node. -/
theorem shape_of_value (hderef : names.deref n = .ok m)
    (h : value names rounds depth within n = .ok v) : v.shape? = m.tag.shape? := by
  cases depth with
  | zero => cases h
  | succ depth =>
      cases hshape : m.tag.shape? with
      | none =>
          rw [value_of_scalar hderef hshape] at h
          exact shape_of_scalarOf h
      | some shape =>
          cases hid : m.id? with
          | none => simp [value, hderef, hshape, hid, bind, Except.bind] at h
          | some id =>
              rw [value_of_collection hderef hshape hid] at h
              split at h
              · cases h
                rfl
              · exact (shape_of_contents h).trans hshape

theorem Children.of_mapping {ks : List Node} (h : Children names rounds n ks)
    (htag : n.tag = .mapping) :
    ∃ id anchor entries merged, n = .mapping id anchor .mapping entries ∧
      entriesOf names rounds id entries = .ok merged ∧
      (∀ e ∈ merged, visit names rounds e.1 = .ok []) ∧ ks = merged.map Prod.snd := by
  cases h with
  | list => cases htag
  | map _ hmerged hkeys =>
      cases htag
      exact ⟨_, _, _, _, rfl, hmerged, hkeys, rfl⟩
  | pairs hpairs _ =>
      cases htag
      rcases hpairs with hpairs | hpairs
      · cases hpairs
      · cases hpairs

/-- Whether a node is a truth value, and which, does not depend on what lies around it. -/
theorem boolean_value_iff (h : value names rounds depth within n = .ok v)
    (h' : value names rounds depth' within' n = .ok v') (b : Bool) :
    v = .boolean b ↔ v' = .boolean b := by
  match depth, depth', h, h' with
  | depth + 1, depth' + 1, h, h' =>
    obtain ⟨m, hderef, -⟩ := bind_eq_ok.mp h
    cases hshape : m.tag.shape? with
    | none =>
        rw [value_of_scalar hderef hshape] at h h'
        rw [Except.ok.inj (h.symm.trans h')]
    | some shape =>
        have hv := (shape_of_value hderef h).trans hshape
        have hv' := (shape_of_value hderef h').trans hshape
        constructor
        · rintro rfl
          cases hv
        · rintro rfl
          cases hv'

end Load

/-! ### Documents -/

theorem Tag.eq_mapping_of_shape {tag : Tag} (h : tag.shape? = some .map) : tag = .mapping := by
  cases tag with
  | mapping => rfl
  | _ => cases h

theorem deref_root {root m : Node} (h : (Names.of root).deref root = .ok m) : m = root := by
  match root, h with
  | .alias _, h => cases h
  | .scalar _ _ _, h | .sequence _ _ _ _, h | .mapping _ _ _ _, h =>
      exact (Except.ok.inj h).symm

namespace Document

open Node Load

/-- What is known of a document once it has been read: the numbers of all its collections that can
be reached are in a list, and its root has been looked at. -/
structure Sound (doc : Document) (all : List Nat) : Prop where
  names : doc.names = Names.of doc.root
  rounds : doc.root.all.length + 1 < doc.rounds
  distinct : Distinct doc.root
  completes : ∃ waiting, Completes doc.root doc.rounds [] waiting all
  seen : Seen doc.names doc.rounds all doc.root

theorem lt_rounds (count : Nat) : count + 1 < Load.rounds count :=
  calc count + 1 < count + 2 := Nat.lt_succ_self _
    _ ≤ (count + 2) * (count + 2) := Nat.le_mul_of_pos_right _ (Nat.succ_pos _)

theorem exists_sound {text : List Char} {doc : Document} (h : read text = .ok doc) :
    ∃ all, doc.Sound all := by
  obtain ⟨root?, hparse, h⟩ := bind_eq_ok.mp h
  obtain ⟨waiting, hvisit, h⟩ := bind_eq_ok.mp h
  obtain ⟨_, hfill, hout⟩ := bind_eq_ok.mp h
  cases hout
  have hdistinct : Distinct (root?.getD Node.empty) := by
    cases root? with
    | none => exact List.nodup_nil
    | some root => exact distinct_of_parse hparse
  generalize root?.getD Node.empty = root at hvisit hfill hdistinct ⊢
  have hrounds := lt_rounds root.all.length
  have hinside : ∀ m ∈ waiting, Inside root m := by
    intro m hm
    obtain ⟨k, hderef, ⟨-, rfl⟩ | ⟨-, rfl, -⟩⟩ := visit_cases hvisit
    · rw [List.mem_singleton.mp hm]
      exact (Inside.of_mem (mem_all_self root)).deref hderef
    · cases hm
  have hleft : (idsBeyond root []).length < Load.rounds root.all.length :=
    Nat.lt_of_le_of_lt (length_idsBeyond_le root []) (Nat.lt_of_succ_lt hrounds)
  obtain ⟨all, hall⟩ := exists_completes hinside hleft hfill
  exact ⟨all, rfl, hrounds, hdistinct, ⟨waiting, hall⟩, waiting, hvisit, hall.waits⟩

/-- The node has a value, which is a truth value exactly if the given value is the same one. -/
def Gives (doc : Document) (n : Node) (v : Value) : Prop :=
  ∃ v', doc.valueOf n = .ok v' ∧ ∀ b, v' = .boolean b ↔ v = .boolean b

namespace Sound

variable {doc : Document} {all : List Nat} {n : Node} {v : Value}

theorem inside_root (doc : Document) : Inside doc.root doc.root :=
  Inside.of_mem (mem_all_self doc.root)

/-- Any depth beyond the number of the nodes is enough for a node that has been looked at. -/
theorem exists_value_of_seen (h : doc.Sound all) (hn : Inside doc.root n)
    (hseen : Seen doc.names doc.rounds all n) {depth : Nat} (hdepth : doc.root.all.length < depth)
    (within : List Nat) : ∃ v, value doc.names doc.rounds depth within n = .ok v := by
  obtain ⟨waiting, hall⟩ := h.completes
  rw [h.names] at hseen ⊢
  exact exists_value hall h.distinct hn hseen
    (Nat.lt_of_le_of_lt (length_idsBeyond_le doc.root within) hdepth)

theorem exists_valueOf (h : doc.Sound all) (hn : Inside doc.root n)
    (hseen : Seen doc.names doc.rounds all n) : ∃ v, doc.valueOf n = .ok v :=
  h.exists_value_of_seen hn hseen (Nat.lt_of_succ_lt h.rounds) []

theorem deref_root (h : doc.Sound all) : doc.names.deref doc.root = .ok doc.root := by
  obtain ⟨later, hvisit, -⟩ := h.seen
  obtain ⟨m, hderef, -⟩ := visit_cases hvisit
  have hroot : m = doc.root := Yaml.deref_root (h.names ▸ hderef)
  rw [hderef, hroot]

theorem shape_root (h : doc.Sound all) (hv : doc.valueOf doc.root = .ok v) :
    v.shape? = doc.root.tag.shape? :=
  shape_of_value h.deref_root hv

theorem kindName_eq (h : doc.Sound all) (hv : doc.valueOf doc.root = .ok v) :
    doc.kindName = .ok v.kindName := by
  have hshape := h.shape_root hv
  unfold kindName
  split
  · rename_i shape htag
    rw [Value.kindName_of_shape (hshape.trans htag)]
  · rw [hv]
    rfl

/-- What a root that is a mapping holds, entry by entry: the key is a scalar, and the value has
been looked at. -/
theorem entries_of_root (h : doc.Sound all) (htag : doc.root.tag = .mapping) :
    ∃ id anchor entries merged, doc.root = .mapping id anchor .mapping entries ∧
      entriesOf doc.names doc.rounds id entries = .ok merged ∧
      ∀ e ∈ merged, visit doc.names doc.rounds e.1 = .ok [] ∧ Inside doc.root e.2 ∧
        Seen doc.names doc.rounds all e.2 := by
  obtain ⟨waiting, hall⟩ := h.completes
  obtain ⟨later, hvisit, hlater⟩ := h.seen
  have hfilled : Filled doc.root doc.rounds all doc.root := by
    obtain ⟨m, hderef, ⟨-, rfl⟩ | ⟨hshape, -⟩⟩ := visit_cases hvisit
    all_goals cases h.deref_root.symm.trans hderef
    · exact hall.filled_of_inside h.distinct (inside_root doc) (hlater _ List.mem_cons_self)
    · rw [htag] at hshape
      cases hshape
  obtain ⟨ks, hchildren, hks⟩ := hfilled
  have hinside := hchildren.inside (inside_root doc)
  rw [← h.names] at hchildren hks
  obtain ⟨id, anchor, entries, merged, hroot, hmerged, hkeys, rfl⟩ := hchildren.of_mapping htag
  refine ⟨id, anchor, entries, merged, hroot, hmerged, fun e he => ?_⟩
  have hvalue : e.2 ∈ merged.map Prod.snd := List.mem_map_of_mem he
  exact ⟨hkeys e he, hinside _ hvalue, hks _ hvalue⟩

/-- What a node comes to within the document is what it gives on its own. -/
theorem exists_gives (h : doc.Sound all) (hn : Inside doc.root n)
    (hseen : Seen doc.names doc.rounds all n) {depth : Nat} (hdepth : doc.root.all.length < depth)
    (within : List Nat) :
    ∃ v, value doc.names doc.rounds depth within n = .ok v ∧ doc.Gives n v := by
  obtain ⟨v, hv⟩ := h.exists_value_of_seen hn hseen hdepth within
  obtain ⟨v', hv'⟩ := h.exists_valueOf hn hseen
  exact ⟨v, hv, v', hv', boolean_value_iff hv' hv⟩

/-- The value of a root that is a collection, with one level of it opened. -/
theorem contents_of_root (h : doc.Sound all) {id : Nat} {shape : Shape}
    (hid : doc.root.id? = some id) (hshape : doc.root.tag.shape? = some shape) :
    ∃ depth, doc.root.all.length < depth ∧ doc.valueOf doc.root
      = contents doc.names doc.rounds (value doc.names doc.rounds depth [id]) doc.root := by
  obtain ⟨depth, hdepth⟩ := Nat.exists_eq_add_one.mpr (Nat.zero_lt_of_lt h.rounds)
  refine ⟨depth, Nat.lt_of_succ_lt_succ (Nat.lt_of_lt_of_eq h.rounds hdepth), ?_⟩
  calc doc.valueOf doc.root
      = value doc.names doc.rounds (depth + 1) [] doc.root := by rw [valueOf, ← hdepth]
    _ = contents doc.names doc.rounds (value doc.names doc.rounds depth [id]) doc.root :=
        value_of_collection h.deref_root hshape hid

/-- **The keys of a mapping can be had without its values,** and each value on its own. -/
theorem entries_of_map (h : doc.Sound all) {m : List (Value × Value)}
    (hv : doc.valueOf doc.root = .ok (.map m)) :
    ∃ es, doc.entries? = some (.ok es) ∧ Value.Matched doc.Gives es m := by
  have hshape : doc.root.tag.shape? = some .map := (h.shape_root hv).symm
  obtain ⟨id, anchor, entries, merged, hroot, hmerged, hentries⟩ :=
    h.entries_of_root (Tag.eq_mapping_of_shape hshape)
  obtain ⟨depth, hdepth, hcontents⟩ := h.contents_of_root (congrArg id? hroot) hshape
  obtain ⟨named, written, hnamed, hwritten, hmatched⟩ : ∃ named written,
      (merged.mapM fun e => do .ok (← doc.valueOf e.1, e.2)) = .ok named ∧
      (merged.mapM fun e => do
        .ok (← value doc.names doc.rounds depth [id] e.1,
          ← value doc.names doc.rounds depth [id] e.2)) = .ok written ∧
      Value.Matched doc.Gives named written := by
    refine exists_mapM₂ fun e he => ?_
    obtain ⟨hkey, hinside, hseen⟩ := hentries e he
    obtain ⟨k, hk⟩ := exists_value_of_key hkey
    obtain ⟨v, hv, hgives⟩ := h.exists_gives hinside hseen hdepth [id]
    have hinner := hk (Nat.zero_lt_of_lt hdepth) [id]
    have hown := hk (Nat.zero_lt_of_lt h.rounds) []
    exact ⟨(k, e.2), (k, v), bind_eq_ok.mpr ⟨k, hown, rfl⟩,
      bind_eq_ok.mpr ⟨k, hinner, bind_eq_ok.mpr ⟨v, hv, rfl⟩⟩, rfl, hgives⟩
  have hm : doc.valueOf doc.root = .ok (.map (Value.entriesOf written)) := by
    rw [hcontents, hroot]
    exact bind_eq_ok.mpr ⟨merged, hmerged, bind_eq_ok.mpr ⟨written, hwritten, rfl⟩⟩
  cases hv.symm.trans hm
  refine ⟨Value.entriesOf named, ?_, hmatched.entriesOf⟩
  unfold entries?
  rw [hroot]
  exact congrArg some (bind_eq_ok.mpr ⟨merged, hmerged, bind_eq_ok.mpr ⟨named, hnamed, rfl⟩⟩)

theorem entries_of_not_map (h : doc.Sound all) (hv : doc.valueOf doc.root = .ok v)
    (hmap : ∀ m, v ≠ .map m) : doc.entries? = none := by
  unfold entries?
  split
  · rename_i id anchor entries hroot
    have hshape : doc.root.tag.shape? = some .map := by
      rw [hroot]
      rfl
    obtain ⟨depth, -, hcontents⟩ := h.contents_of_root (congrArg id? hroot) hshape
    rw [hcontents, hroot] at hv
    obtain ⟨merged, -, hv⟩ := bind_eq_ok.mp hv
    obtain ⟨written, -, hout⟩ := bind_eq_ok.mp hv
    exact absurd (Except.ok.inj hout).symm (hmap _)
  · rfl

end Sound

end Document

/-! ### The value of a stream -/

variable {text : List Char} {p : Problem}

theorem load_of_read {doc : Document} (h : Document.read text = .ok doc) :
    load text = doc.valueOf doc.root := by
  rw [load, h]
  rfl

/-- **A document that is read has a value,** so that it has no value only if it cannot be read. -/
theorem load_eq_error_iff : load text = .error p ↔ Document.read text = .error p := by
  cases h : Document.read text with
  | error q =>
      have hload : load text = .error q := by
        rw [load, h]
        rfl
      rw [hload, Except.error.injEq, Except.error.injEq]
  | ok doc =>
      obtain ⟨all, hsound⟩ := Document.exists_sound h
      obtain ⟨v, hv⟩ := hsound.exists_valueOf (Document.Sound.inside_root doc) hsound.seen
      rw [load_of_read h, hv]
      exact ⟨nofun, nofun⟩

end Semicolon.Yaml
