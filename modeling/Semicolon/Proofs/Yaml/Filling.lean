/-
The first pass finds every problem.

A document is gone through twice.  The first pass fills collections, each of them once, and looks
at what lies directly in them; the second works out values, and goes into a collection again for
every place that it is reached from.  A document is accepted after the first pass alone, so
nothing may be left for the second one to stumble over.

The first pass leaves behind a set of numbers that is closed: a collection with a number in the
set can be filled, and the collections in it have numbers in the set.  Numbers do for collections
because no two collections of a document share one.  The second pass can then not fail at any
node that the first has seen, and it comes to an end, because it does not enter a collection
within itself.
-/
import Mathlib.Data.List.Forall2
import Mathlib.Data.List.TakeWhile
import Semicolon.Proofs.Yaml.Numbering

namespace Semicolon.Yaml

/-! ### Lists of results -/

section

variable {ε α β : Type}

theorem mapM_eq_ok_iff {f : α → Except ε β} {xs : List α} {ys : List β} :
    xs.mapM f = .ok ys ↔ List.Forall₂ (fun x y => f x = .ok y) xs ys := by
  induction xs generalizing ys with
  | nil =>
      rw [List.mapM_nil, List.forall₂_nil_left_iff]
      exact ⟨fun h => (Except.ok.inj h).symm, fun h => by rw [h]; rfl⟩
  | cons x xs ih =>
      rw [List.mapM_cons, bind_eq_ok]
      constructor
      · rintro ⟨y, hy, h⟩
        obtain ⟨zs, hzs, hout⟩ := bind_eq_ok.mp h
        cases hout
        exact .cons hy (ih.mp hzs)
      · rintro (_ | ⟨hy, hys⟩)
        exact ⟨_, hy, bind_eq_ok.mpr ⟨_, ih.mpr hys, rfl⟩⟩

theorem exists_mapM {f : α → Except ε β} {xs : List α} (h : ∀ x ∈ xs, ∃ y, f x = .ok y) :
    ∃ ys, xs.mapM f = .ok ys := by
  induction xs with
  | nil => exact ⟨[], rfl⟩
  | cons x xs ih =>
      obtain ⟨y, hy⟩ := h x List.mem_cons_self
      obtain ⟨ys, hys⟩ := ih fun x hx => h x (List.mem_cons_of_mem _ hx)
      exact ⟨y :: ys, mapM_eq_ok_iff.mpr (.cons hy (mapM_eq_ok_iff.mp hys))⟩

theorem exists_map_mapM {γ : Type} {f : α → Except ε β} {g : List β → γ} {xs : List α}
    (h : ∀ x ∈ xs, ∃ y, f x = .ok y) : ∃ z, (xs.mapM f).map g = .ok z := by
  obtain ⟨ys, hys⟩ := exists_mapM h
  exact ⟨g ys, map_eq_ok.mpr ⟨ys, hys, rfl⟩⟩

theorem exists_of_mapM {f : α → Except ε β} {xs : List α} {ys : List β}
    (h : xs.mapM f = .ok ys) {x : α} (hx : x ∈ xs) : ∃ y ∈ ys, f x = .ok y := by
  rw [mapM_eq_ok_iff] at h
  induction h with
  | nil => cases hx
  | cons hy _ ih =>
      rcases List.mem_cons.mp hx with rfl | hx
      · exact ⟨_, List.mem_cons_self, hy⟩
      · obtain ⟨y, hmem, hy⟩ := ih hx
        exact ⟨y, List.mem_cons_of_mem _ hmem, hy⟩

theorem mem_of_mapM {f : α → Except ε β} {xs : List α} {ys : List β}
    (h : xs.mapM f = .ok ys) {y : β} (hy : y ∈ ys) : ∃ x ∈ xs, f x = .ok y := by
  rw [mapM_eq_ok_iff] at h
  induction h with
  | nil => cases hy
  | cons hx _ ih =>
      rcases List.mem_cons.mp hy with rfl | hy
      · exact ⟨_, List.mem_cons_self, hx⟩
      · obtain ⟨x, hmem, hx⟩ := ih hy
        exact ⟨x, List.mem_cons_of_mem _ hmem, hx⟩

/-- Two functions that have related results on each element have related results on a list. -/
theorem exists_mapM₂ {γ : Type} {f : α → Except ε β} {g : α → Except ε γ} {R : β → γ → Prop}
    {xs : List α} (h : ∀ x ∈ xs, ∃ y z, f x = .ok y ∧ g x = .ok z ∧ R y z) :
    ∃ ys zs, xs.mapM f = .ok ys ∧ xs.mapM g = .ok zs ∧ List.Forall₂ R ys zs := by
  simp only [mapM_eq_ok_iff]
  induction xs with
  | nil => exact ⟨[], [], .nil, .nil, .nil⟩
  | cons x xs ih =>
      obtain ⟨y, z, hy, hz, hyz⟩ := h x List.mem_cons_self
      obtain ⟨ys, zs, hys, hzs, hrel⟩ := ih fun x hx => h x (List.mem_cons_of_mem _ hx)
      exact ⟨y :: ys, z :: zs, .cons hy hys, .cons hz hzs, .cons hyz hrel⟩

/-- Lists that are put together hold the list of each element, and nothing else. -/
theorem flatten_eq_ok {f : α → Except ε (List β)} {xs : List α} {l : List β}
    (h : (xs.mapM f).map List.flatten = .ok l) :
    (∀ x ∈ xs, ∃ part, f x = .ok part ∧ part ⊆ l) ∧
      ∀ y ∈ l, ∃ x ∈ xs, ∃ part, f x = .ok part ∧ y ∈ part := by
  obtain ⟨parts, hparts, rfl⟩ := map_eq_ok.mp h
  constructor
  · intro x hx
    obtain ⟨part, hpart, hok⟩ := exists_of_mapM hparts hx
    exact ⟨part, hok, fun y hy => List.mem_flatten.mpr ⟨part, hpart, hy⟩⟩
  · intro y hy
    obtain ⟨part, hpart, hy⟩ := List.mem_flatten.mp hy
    obtain ⟨x, hx, hok⟩ := mem_of_mapM hparts hpart
    exact ⟨x, hx, part, hok, hy⟩

end

/-! ### Nodes inside nodes -/

namespace Node

theorem mem_all_self (n : Node) : n ∈ n.all := by
  cases n <;> simp [all]

mutual

theorem all_subset_all : ∀ (n : Node) {m : Node}, m ∈ n.all → m.all ⊆ n.all
  | .alias name, m, h => by
      rw [all, List.mem_singleton] at h
      rw [h]
      exact List.Subset.refl _
  | .scalar anchor tag text, m, h => by
      rw [all, List.mem_singleton] at h
      rw [h]
      exact List.Subset.refl _
  | .sequence id anchor tag items, m, h => by
      rw [all, List.mem_cons] at h
      rcases h with rfl | h
      · exact List.Subset.refl _
      · exact List.subset_cons_of_subset _ (all_subset_allItems items h)
  | .mapping id anchor tag entries, m, h => by
      rw [all, List.mem_cons] at h
      rcases h with rfl | h
      · exact List.Subset.refl _
      · exact List.subset_cons_of_subset _ (all_subset_allEntries entries h)

theorem all_subset_allItems : ∀ (items : List Node) {m : Node},
    m ∈ allItems items → m.all ⊆ allItems items
  | [], m, h => by cases h
  | n :: rest, m, h => by
      rw [allItems, List.mem_append] at h
      rcases h with h | h
      · exact List.subset_append_of_subset_left _ (all_subset_all n h)
      · exact List.subset_append_of_subset_right _ (all_subset_allItems rest h)

theorem all_subset_allEntries : ∀ (entries : List (Node × Node)) {m : Node},
    m ∈ allEntries entries → m.all ⊆ allEntries entries
  | [], m, h => by cases h
  | (k, v) :: rest, m, h => by
      rw [allEntries, List.append_assoc, List.mem_append, List.mem_append] at h
      rw [allEntries, List.append_assoc]
      rcases h with h | h | h
      · exact List.subset_append_of_subset_left _ (all_subset_all k h)
      · exact List.subset_append_of_subset_right _
          (List.subset_append_of_subset_left _ (all_subset_all v h))
      · exact List.subset_append_of_subset_right _
          (List.subset_append_of_subset_right _ (all_subset_allEntries rest h))

end

theorem mem_allItems {items : List Node} {n : Node} (h : n ∈ items) : n ∈ allItems items := by
  induction items with
  | nil => cases h
  | cons m rest ih =>
      rw [allItems, List.mem_append]
      rcases List.mem_cons.mp h with rfl | h
      · exact Or.inl (mem_all_self n)
      · exact Or.inr (ih h)

theorem mem_allEntries {entries : List (Node × Node)} {e : Node × Node} (h : e ∈ entries) :
    e.1 ∈ allEntries entries ∧ e.2 ∈ allEntries entries := by
  induction entries with
  | nil => cases h
  | cons f rest ih =>
      rw [allEntries, List.append_assoc]
      simp only [List.mem_append]
      rcases List.mem_cons.mp h with rfl | h
      · exact ⟨Or.inl (mem_all_self _), Or.inr (Or.inl (mem_all_self _))⟩
      · exact ⟨Or.inr (Or.inr (ih h).1), Or.inr (Or.inr (ih h).2)⟩

/-- The node is a collection of the document, or no collection. -/
def Inside (root n : Node) : Prop := n.id?.isSome = true → n ∈ root.all

/-- The keys and values are. -/
def EntriesInside (root : Node) (entries : List (Node × Node)) : Prop :=
  ∀ e ∈ entries, Inside root e.1 ∧ Inside root e.2

namespace Inside

variable {root n m : Node} {id : Nat} {anchor : Option String} {tag : Tag}

theorem of_mem (h : n ∈ root.all) : Inside root n := fun _ => h

theorem item {items : List Node} (h : Inside root (.sequence id anchor tag items))
    (hn : n ∈ items) : Inside root n :=
  of_mem (all_subset_all root (h rfl) (List.mem_cons_of_mem _ (mem_allItems hn)))

theorem entries {entries : List (Node × Node)} (h : Inside root (.mapping id anchor tag entries)) :
    EntriesInside root entries := by
  intro e he
  have hsubset := all_subset_all root (h rfl)
  obtain ⟨hkey, hvalue⟩ := mem_allEntries he
  exact ⟨of_mem (hsubset (List.mem_cons_of_mem _ hkey)),
    of_mem (hsubset (List.mem_cons_of_mem _ hvalue))⟩

/-- An alias stands for a node of the document, and any other node for itself. -/
theorem deref (h : Inside root n) (hm : (Names.of root).deref n = .ok m) : Inside root m := by
  unfold Names.deref at hm
  split at hm
  · split at hm
    · rename_i hlookup
      cases hm
      obtain ⟨l, r, hnames, -⟩ := List.lookup_eq_some_iff.mp hlookup
      have hmem := hnames ▸ List.mem_append_right l List.mem_cons_self
      obtain ⟨k, hk, hanchor⟩ := List.mem_filterMap.mp hmem
      obtain ⟨a, -, heq⟩ := Option.map_eq_some_iff.mp hanchor
      cases heq
      exact of_mem hk
    · cases hm
  · cases hm
    exact h

theorem plainKey (h : Inside root n) : Inside root (Load.plainKey n) := by
  unfold Load.plainKey
  split
  · intro hid
    cases hid
  · exact h

end Inside

namespace EntriesInside

variable {root : Node} {l m : List (Node × Node)} {e : Node × Node}

theorem nil : EntriesInside root [] := fun _ he => absurd he List.not_mem_nil

theorem append (hl : EntriesInside root l) (hm : EntriesInside root m) :
    EntriesInside root (l ++ m) := fun e he =>
  (List.mem_append.mp he).elim (hl e) (hm e)

theorem cons (hkey : Inside root e.1) (hvalue : Inside root e.2) (hl : EntriesInside root l) :
    EntriesInside root (e :: l) := by
  intro f hf
  rcases List.mem_cons.mp hf with rfl | hf
  · exact ⟨hkey, hvalue⟩
  · exact hl f hf

theorem tail (h : EntriesInside root (e :: l)) : EntriesInside root l := fun f hf =>
  h f (List.mem_cons_of_mem _ hf)

end EntriesInside

end Node

namespace Load

open Node

/-! ### Merging stays inside the document -/

section

variable {root n : Node} {rounds fuel : Nat}

theorem entriesInside_unmerged {entries own : List (Node × Node)}
    (hentries : EntriesInside root entries) (h : unmerged (Names.of root) entries = .ok own) :
    EntriesInside root own := by
  induction entries generalizing own with
  | nil =>
      cases h
      exact .nil
  | cons e rest ih =>
      obtain ⟨key, -, h⟩ := bind_eq_ok.mp h
      obtain ⟨others, hothers, hout⟩ := bind_eq_ok.mp h
      cases hout
      obtain ⟨hkey, hvalue⟩ := hentries e List.mem_cons_self
      split
      · exact ih hentries.tail hothers
      · exact (ih hentries.tail hothers).cons hkey hvalue

/-- What each of the merging functions keeps, as long as it has fuel. -/
structure MergesInside (root : Node) (fuel : Nat) : Prop where
  flattened : ∀ {within entries merged own}, EntriesInside root entries →
    flattened (Names.of root) fuel within entries = .ok (merged, own) →
      EntriesInside root merged ∧ EntriesInside root own
  mergedMapping : ∀ {within n entries}, Inside root n →
    mergedMapping (Names.of root) fuel within n = .ok entries → EntriesInside root entries
  mergedFrom : ∀ {within n entries}, Inside root n →
    mergedFrom (Names.of root) fuel within n = .ok entries → EntriesInside root entries

theorem flattened_inside (ih : MergesInside root fuel) {within : List Nat}
    {entries merged own : List (Node × Node)} (hentries : EntriesInside root entries)
    (h : flattened (Names.of root) (fuel + 1) within entries = .ok (merged, own)) :
    EntriesInside root merged ∧ EntriesInside root own := by
  cases entries with
  | nil =>
      cases h
      exact ⟨.nil, .nil⟩
  | cons e rest =>
      obtain ⟨hkey, hvalue⟩ := hentries e List.mem_cons_self
      rw [flattened] at h
      obtain ⟨key, hderef, h⟩ := bind_eq_ok.mp h
      split at h
      · obtain ⟨source, hsource, h⟩ := bind_eq_ok.mp h
        obtain ⟨first, hfirst, h⟩ := bind_eq_ok.mp h
        obtain ⟨⟨others, rest'⟩, hothers, hout⟩ := bind_eq_ok.mp h
        cases hout
        obtain ⟨hmerged, hown⟩ := ih.flattened hentries.tail hothers
        exact ⟨(ih.mergedFrom (hvalue.deref hsource) hfirst).append hmerged, hown⟩
      · obtain ⟨⟨others, rest'⟩, hothers, hout⟩ := bind_eq_ok.mp h
        cases hout
        obtain ⟨hmerged, hown⟩ := ih.flattened hentries.tail hothers
        exact ⟨hmerged, hown.cons (hkey.deref hderef).plainKey hvalue⟩

theorem mergedMapping_inside (ih : MergesInside root fuel) {within : List Nat} {n : Node}
    {entries : List (Node × Node)} (hn : Inside root n)
    (h : mergedMapping (Names.of root) (fuel + 1) within n = .ok entries) :
    EntriesInside root entries := by
  match n, hn, h with
  | .mapping id anchor tag written, hn, h =>
      rw [mergedMapping] at h
      obtain ⟨own, hown, h⟩ := bind_eq_ok.mp h
      obtain ⟨⟨merged, rest⟩, hflat, hout⟩ := bind_eq_ok.mp h
      cases hout
      have hinside : EntriesInside root own := by
        split at hown
        · exact entriesInside_unmerged hn.entries hown
        · cases hown
          exact hn.entries
      obtain ⟨hmerged, hrest⟩ := ih.flattened hinside hflat
      exact hmerged.append hrest
  | .alias _, _, h | .scalar _ _ _, _, h | .sequence _ _ _ _, _, h => cases h

theorem mergedFrom_inside (ih : MergesInside root fuel) {within : List Nat} {n : Node}
    {entries : List (Node × Node)} (hn : Inside root n)
    (h : mergedFrom (Names.of root) (fuel + 1) within n = .ok entries) :
    EntriesInside root entries := by
  match n, hn, h with
  | .sequence id anchor tag items, hn, h =>
      rw [mergedFrom] at h
      obtain ⟨parts, hparts, hout⟩ := bind_eq_ok.mp h
      cases hout
      intro e he
      obtain ⟨part, hpart, he⟩ := List.mem_flatten.mp he
      obtain ⟨item, hitem, hpart⟩ := mem_of_mapM hparts (List.mem_reverse.mp hpart)
      obtain ⟨source, hsource, hmerged⟩ := bind_eq_ok.mp hpart
      exact ih.mergedMapping ((hn.item hitem).deref hsource) hmerged e he
  | .alias _, hn, h | .scalar _ _ _, hn, h | .mapping _ _ _ _, hn, h =>
      exact ih.mergedMapping hn h

theorem mergesInside (root : Node) (fuel : Nat) : MergesInside root fuel := by
  induction fuel with
  | zero => constructor <;> intros <;> rename_i h <;> cases h
  | succ fuel ih => exact ⟨flattened_inside ih, mergedMapping_inside ih, mergedFrom_inside ih⟩

theorem entriesInside_entriesOf {id : Nat} {entries merged : List (Node × Node)}
    (hentries : EntriesInside root entries)
    (h : entriesOf (Names.of root) rounds id entries = .ok merged) : EntriesInside root merged := by
  obtain ⟨⟨others, own⟩, hflat, hout⟩ := bind_eq_ok.mp h
  cases hout
  obtain ⟨hothers, hown⟩ := (mergesInside root rounds).flattened hentries hflat
  exact hothers.append hown

end

/-! ### What has been looked at -/

section

variable {names : Names} {rounds : Nat} {n : Node} {done done' : List Nat}

/-- The node has been looked at: it is a scalar with a value, or a collection whose number is in
the list. -/
def Seen (names : Names) (rounds : Nat) (done : List Nat) (n : Node) : Prop :=
  ∃ later, visit names rounds n = .ok later ∧ ∀ m ∈ later, isFilled done m = true

/-- The node is a collection that fits its kind, and these are the nodes directly in it.  The keys
of a mapping are not among them; they are scalars, and have been looked at. -/
inductive Children (names : Names) (rounds : Nat) : Node → List Node → Prop where
  | list {id : Nat} {anchor : Option String} {items : List Node} :
      Children names rounds (.sequence id anchor .sequence items) items
  | map {id : Nat} {anchor : Option String} {tag : Tag} {entries merged : List (Node × Node)}
      (htag : tag = .mapping ∨ tag = .set)
      (hmerged : entriesOf names rounds id entries = .ok merged)
      (hkeys : ∀ e ∈ merged, visit names rounds e.1 = .ok []) :
      Children names rounds (.mapping id anchor tag entries) (merged.map Prod.snd)
  | pairs {id : Nat} {anchor : Option String} {tag : Tag} {items : List Node}
      {entries : List (Node × Node)} (htag : tag = .orderedPairs ∨ tag = .pairs)
      (hentries : items.mapM (singleEntry names) = .ok entries) :
      Children names rounds (.sequence id anchor tag items)
        (entries.flatMap fun e => [e.1, e.2])

/-- Every one of the nodes is looked at, and the collections that wait then are those among
them. -/
structure Visits (names : Names) (rounds : Nat) (ks later : List Node) : Prop where
  each : ∀ k ∈ ks, ∃ part, visit names rounds k = .ok part ∧ part ⊆ later
  only : ∀ m ∈ later, ∃ k ∈ ks, ∃ part, visit names rounds k = .ok part ∧ m ∈ part

theorem isFilled_iff : isFilled done n = true ↔ ∃ id ∈ done, n.id? = some id := by
  rw [isFilled, Option.any_eq_true]
  constructor
  · rintro ⟨id, hid, hmem⟩
    exact ⟨id, by simpa using hmem, hid⟩
  · rintro ⟨id, hmem, hid⟩
    exact ⟨id, hid, by simpa using hmem⟩

theorem isFilled_mono (hsub : done ⊆ done') (h : isFilled done n = true) :
    isFilled done' n = true := by
  obtain ⟨id, hmem, hid⟩ := isFilled_iff.mp h
  exact isFilled_iff.mpr ⟨id, hsub hmem, hid⟩

/-- A node that is looked at is a collection, which then waits, or a scalar with a value. -/
theorem visit_cases {later : List Node} (h : visit names rounds n = .ok later) :
    ∃ m, names.deref n = .ok m ∧
      ((m.tag.shape?.isSome = true ∧ later = [m]) ∨
        (m.tag.shape? = none ∧ later = [] ∧ ∃ v, scalarOf names rounds m = .ok v)) := by
  obtain ⟨m, hderef, h⟩ := bind_eq_ok.mp h
  refine ⟨m, hderef, ?_⟩
  split at h
  · rename_i hshape
    cases h
    exact Or.inl ⟨hshape, rfl⟩
  · rename_i hshape
    obtain ⟨v, hv, hout⟩ := bind_eq_ok.mp h
    cases hout
    exact Or.inr ⟨by simpa using hshape, rfl, v, hv⟩

theorem visitEntry_eq_ok {e : Node × Node} {later : List Node}
    (h : visitEntry names rounds e = .ok later) :
    visit names rounds e.1 = .ok [] ∧ visit names rounds e.2 = .ok later := by
  obtain ⟨first, hfirst, h⟩ := bind_eq_ok.mp h
  split at h
  · rename_i hnone
    rw [List.isEmpty_iff.mp hnone] at hfirst
    exact ⟨hfirst, h⟩
  · cases h

theorem visitPair_eq_ok {later : List Node} (h : visitPair names rounds n = .ok later) :
    ∃ e first second, singleEntry names n = .ok e ∧ visit names rounds e.1 = .ok first ∧
      visit names rounds e.2 = .ok second ∧ later = first ++ second := by
  obtain ⟨e, hentry, h⟩ := bind_eq_ok.mp h
  obtain ⟨first, hfirst, h⟩ := bind_eq_ok.mp h
  obtain ⟨second, hsecond, hout⟩ := bind_eq_ok.mp h
  cases hout
  exact ⟨e, first, second, hentry, hfirst, hsecond, rfl⟩

theorem children_of_entries {id : Nat} {anchor : Option String} {tag : Tag} {later : List Node}
    {entries : List (Node × Node)} (htag : tag = .mapping ∨ tag = .set)
    (h : (entriesOf names rounds id entries >>= fun merged =>
      (merged.mapM (visitEntry names rounds)).map List.flatten) = .ok later) :
    ∃ ks, Children names rounds (.mapping id anchor tag entries) ks ∧
      Visits names rounds ks later := by
  obtain ⟨merged, hmerged, h⟩ := bind_eq_ok.mp h
  obtain ⟨hparts, hlater⟩ := flatten_eq_ok h
  refine ⟨merged.map Prod.snd, .map htag hmerged fun e he => ?_, fun k hk => ?_, fun m hm => ?_⟩
  · obtain ⟨part, hpart, -⟩ := hparts e he
    exact (visitEntry_eq_ok hpart).1
  · obtain ⟨e, he, rfl⟩ := List.mem_map.mp hk
    obtain ⟨part, hpart, hsub⟩ := hparts e he
    exact ⟨part, (visitEntry_eq_ok hpart).2, hsub⟩
  · obtain ⟨e, he, part, hpart, hm⟩ := hlater m hm
    exact ⟨e.2, List.mem_map_of_mem he, part, (visitEntry_eq_ok hpart).2, hm⟩

theorem mem_parts {entries : List (Node × Node)} {e : Node × Node} (he : e ∈ entries) :
    e.1 ∈ entries.flatMap (fun e => [e.1, e.2]) ∧ e.2 ∈ entries.flatMap (fun e => [e.1, e.2]) :=
  ⟨List.mem_flatMap.mpr ⟨e, he, List.mem_pair.mpr (Or.inl rfl)⟩,
    List.mem_flatMap.mpr ⟨e, he, List.mem_pair.mpr (Or.inr rfl)⟩⟩

theorem children_of_pairs {id : Nat} {anchor : Option String} {tag : Tag} {items later : List Node}
    (htag : tag = .orderedPairs ∨ tag = .pairs)
    (h : (items.mapM (visitPair names rounds)).map List.flatten = .ok later) :
    ∃ ks, Children names rounds (.sequence id anchor tag items) ks ∧
      Visits names rounds ks later := by
  obtain ⟨hparts, hlater⟩ := flatten_eq_ok h
  obtain ⟨entries, hentries⟩ : ∃ entries, items.mapM (singleEntry names) = .ok entries := by
    refine exists_mapM fun item hitem => ?_
    obtain ⟨part, hpart, -⟩ := hparts item hitem
    obtain ⟨e, -, -, hentry, -⟩ := visitPair_eq_ok hpart
    exact ⟨e, hentry⟩
  refine ⟨_, .pairs htag hentries, fun k hk => ?_, fun m hm => ?_⟩
  · obtain ⟨e, he, hk⟩ := List.mem_flatMap.mp hk
    obtain ⟨item, hitem, hentry⟩ := mem_of_mapM hentries he
    obtain ⟨part, hpart, hsub⟩ := hparts item hitem
    obtain ⟨e', first, second, hentry', hfirst, hsecond, rfl⟩ := visitPair_eq_ok hpart
    cases hentry.symm.trans hentry'
    rcases List.mem_pair.mp hk with rfl | rfl
    · exact ⟨first, hfirst, fun m hm => hsub (List.mem_append_left _ hm)⟩
    · exact ⟨second, hsecond, fun m hm => hsub (List.mem_append_right _ hm)⟩
  · obtain ⟨item, hitem, part, hpart, hm⟩ := hlater m hm
    obtain ⟨e, first, second, hentry, hfirst, hsecond, rfl⟩ := visitPair_eq_ok hpart
    obtain ⟨e', he', hentry'⟩ := exists_of_mapM hentries hitem
    cases hentry.symm.trans hentry'
    rcases List.mem_append.mp hm with hm | hm
    · exact ⟨e.1, (mem_parts he').1, first, hfirst, hm⟩
    · exact ⟨e.2, (mem_parts he').2, second, hsecond, hm⟩

/-- Filling a collection looks at everything in it, and at nothing else. -/
theorem children_of_fill {later : List Node} (h : fill names rounds n = .ok later) :
    ∃ ks, Children names rounds n ks ∧ Visits names rounds ks later := by
  unfold fill at h
  split at h
  · rename_i htag
    obtain rfl := htag
    obtain ⟨hparts, hlater⟩ := flatten_eq_ok h
    exact ⟨_, .list, hparts, hlater⟩
  · rename_i htag
    exact children_of_entries (Or.inl htag) h
  · rename_i htag
    exact children_of_entries (Or.inr htag) h
  · rename_i htag
    exact children_of_pairs (Or.inl htag) h
  · rename_i htag
    exact children_of_pairs (Or.inr htag) h
  · cases h

namespace Children

theorem exists_id {ks : List Node} (h : Children names rounds n ks) : ∃ id, n.id? = some id := by
  cases h with
  | list | map _ _ _ | pairs _ _ => exact ⟨_, rfl⟩

/-- If what lies in a collection has values, so has the collection. -/
theorem exists_contents {ks : List Node} {inner : Node → Except Problem Value}
    (h : Children names rounds n ks) (hinner : ∀ k ∈ ks, ∃ v, inner k = .ok v)
    (hscalar : ∀ k, visit names rounds k = .ok [] → ∃ v, inner k = .ok v) :
    ∃ v, contents names rounds inner n = .ok v := by
  cases h with
  | list => exact exists_map_mapM hinner
  | @map _ _ _ _ merged htag hmerged hkeys =>
      have hvalues : ∀ e ∈ merged, ∃ v, inner e.2 = .ok v :=
        fun e he => hinner e.2 (List.mem_map_of_mem he)
      rcases htag with rfl | rfl
      · obtain ⟨written, hwritten⟩ := exists_mapM
          (f := fun e : Node × Node => do .ok (← inner e.1, ← inner e.2)) fun e he => by
            obtain ⟨k, hk⟩ := hscalar e.1 (hkeys e he)
            obtain ⟨v, hv⟩ := hvalues e he
            exact ⟨(k, v), bind_eq_ok.mpr ⟨k, hk, bind_eq_ok.mpr ⟨v, hv, rfl⟩⟩⟩
        exact ⟨_, bind_eq_ok.mpr ⟨_, hmerged, bind_eq_ok.mpr ⟨written, hwritten, rfl⟩⟩⟩
      · obtain ⟨written, hwritten⟩ := exists_mapM
          (f := fun e : Node × Node => do .ok (← inner e.1, Value.null)) fun e he => by
            obtain ⟨k, hk⟩ := hscalar e.1 (hkeys e he)
            exact ⟨(k, .null), bind_eq_ok.mpr ⟨k, hk, rfl⟩⟩
        exact ⟨_, bind_eq_ok.mpr ⟨_, hmerged, bind_eq_ok.mpr ⟨written, hwritten, rfl⟩⟩⟩
  | pairs htag hentries =>
      rcases htag with rfl | rfl
      all_goals
        refine exists_map_mapM fun item hitem => ?_
        obtain ⟨e, he, hentry⟩ := exists_of_mapM hentries hitem
        obtain ⟨x, hx⟩ := hinner e.1 (mem_parts he).1
        obtain ⟨y, hy⟩ := hinner e.2 (mem_parts he).2
        exact ⟨(x, y), bind_eq_ok.mpr ⟨e, hentry,
          bind_eq_ok.mpr ⟨x, hx, bind_eq_ok.mpr ⟨y, hy, rfl⟩⟩⟩⟩

/-- What lies in a collection of a document lies in the document. -/
theorem inside {root n : Node} {ks : List Node} (h : Children (Names.of root) rounds n ks)
    (hn : Inside root n) : ∀ k ∈ ks, Inside root k := by
  cases h with
  | list => exact fun k hk => hn.item hk
  | map htag hmerged hkeys =>
      intro k hk
      obtain ⟨e, he, rfl⟩ := List.mem_map.mp hk
      exact (entriesInside_entriesOf hn.entries hmerged e he).2
  | pairs htag hentries =>
      intro k hk
      obtain ⟨e, he, hk⟩ := List.mem_flatMap.mp hk
      obtain ⟨item, hitem, hentry⟩ := mem_of_mapM hentries he
      obtain ⟨mapping, hmapping, hout⟩ := bind_eq_ok.mp hentry
      have hinside := (hn.item hitem).deref hmapping
      split at hout
      · cases hout
        obtain ⟨hkey, hvalue⟩ := hinside.entries e List.mem_cons_self
        rcases List.mem_pair.mp hk with rfl | rfl
        · exact hkey
        · exact hvalue
      · cases hout

end Children

end

/-! ### The first pass -/

section

variable {root n : Node} {rounds id : Nat} {done all : List Nat} {later rest : List Node}

/-- The numbers of the collections of a document that are not in the list. -/
def idsBeyond (root : Node) (done : List Nat) : List Nat :=
  (root.all.filterMap id?).filter fun id => !done.contains id

theorem length_idsBeyond_le (root : Node) (done : List Nat) :
    (idsBeyond root done).length ≤ root.all.length :=
  Nat.le_trans (List.length_filter_le _ _) (List.length_filterMap_le _ _)

theorem length_idsBeyond_cons (hn : n ∈ root.all) (hid : n.id? = some id) (hnew : id ∉ done) :
    (idsBeyond root (id :: done)).length < (idsBeyond root done).length := by
  have hcons : idsBeyond root (id :: done) = (idsBeyond root done).filter fun i => i ≠ id := by
    rw [idsBeyond, idsBeyond, List.filter_filter]
    exact List.filter_congr fun i _ => by simp
  rw [hcons, List.length_filter_lt_length_iff_exists]
  refine ⟨id, List.mem_filter.mpr ⟨List.mem_filterMap.mpr ⟨n, hn, hid⟩, by simpa using hnew⟩, ?_⟩
  simp

theorem inside_of_visits {ks : List Node} (hks : ∀ k ∈ ks, Inside root k)
    (h : Visits (Names.of root) rounds ks later) : ∀ m ∈ later, Inside root m := by
  intro m hm
  obtain ⟨k, hk, part, hpart, hm⟩ := h.only m hm
  obtain ⟨k', hderef, ⟨-, rfl⟩ | ⟨-, rfl, -⟩⟩ := visit_cases hpart
  · rw [List.mem_singleton.mp hm]
    exact (hks k hk).deref hderef
  · cases hm

theorem seen_of_visits {names : Names} {ks : List Node} (h : Visits names rounds ks later)
    (hlater : ∀ m ∈ later, isFilled all m = true) : ∀ k ∈ ks, Seen names rounds all k := by
  intro k hk
  obtain ⟨part, hpart, hsub⟩ := h.each k hk
  exact ⟨part, hpart, fun m hm => hlater m (hsub hm)⟩

/-- The collection has been filled, and what lies in it has been looked at. -/
def Filled (root : Node) (rounds : Nat) (all : List Nat) (n : Node) : Prop :=
  ∃ ks, Children (Names.of root) rounds n ks ∧ ∀ k ∈ ks, Seen (Names.of root) rounds all k

/-- What the first pass comes to, if it starts with `done` filled and `waiting` to be filled:
`all` are filled in the end, and what they hold is seen. -/
structure Completes (root : Node) (rounds : Nat) (done : List Nat) (waiting : List Node)
    (all : List Nat) : Prop where
  sub : done ⊆ all
  waits : ∀ n ∈ waiting, isFilled all n = true
  filled : ∀ id ∈ all, id ∉ done → ∃ n ∈ root.all, n.id? = some id ∧ Filled root rounds all n

/-- One more collection is filled. -/
theorem Completes.step {front : List Node} {ks : List Node}
    (h : Completes root rounds (id :: done) (rest ++ later) all)
    (hfront : ∀ m ∈ front, isFilled done m = true) (hn : n ∈ root.all) (hid : n.id? = some id)
    (hchildren : Children (Names.of root) rounds n ks)
    (hvisits : Visits (Names.of root) rounds ks later) :
    Completes root rounds done (front ++ n :: rest) all where
  sub := fun i hi => h.sub (List.mem_cons_of_mem _ hi)
  waits := by
    intro m hm
    rcases List.mem_append.mp hm with hm | hm
    · exact isFilled_mono (fun i hi => h.sub (List.mem_cons_of_mem _ hi)) (hfront m hm)
    rcases List.mem_cons.mp hm with rfl | hm
    · exact isFilled_iff.mpr ⟨id, h.sub List.mem_cons_self, hid⟩
    · exact h.waits m (List.mem_append_left _ hm)
  filled := by
    intro i hi hnew
    by_cases heq : i = id
    · rw [heq]
      refine ⟨n, hn, hid, ks, hchildren, seen_of_visits hvisits fun m hm => ?_⟩
      exact h.waits m (List.mem_append_right _ hm)
    · exact h.filled i hi fun hmem => (List.mem_cons.mp hmem).elim heq hnew

/-- **A first pass without a problem has filled everything that waited, and everything in there.**
The rounds do not run out, because each of them fills a collection that was not filled. -/
theorem exists_completes {left : Nat} {done : List Nat} {waiting : List Node}
    (hinside : ∀ n ∈ waiting, Inside root n) (hleft : (idsBeyond root done).length < left)
    (h : fillAll (Names.of root) rounds left done waiting = .ok ()) :
    ∃ all, Completes root rounds done waiting all := by
  induction left generalizing done waiting with
  | zero => exact absurd hleft (Nat.not_lt_zero _)
  | succ left ih =>
      rw [fillAll] at h
      have hcut := List.takeWhile_append_dropWhile (p := isFilled done) (l := waiting)
      have hfront : ∀ n ∈ waiting.takeWhile (isFilled done), isFilled done n = true :=
        fun n hn => List.mem_takeWhile_imp hn
      have hfirst := List.head?_dropWhile_not (isFilled done) waiting
      split at h
      · rename_i hnone
        rw [hnone, List.append_nil] at hcut
        rw [hcut] at hfront
        exact ⟨done, List.Subset.refl _, hfront, fun id hid hnew => absurd hid hnew⟩
      · rename_i n rest hrest
        rw [hrest] at hcut hfirst
        obtain ⟨later, hfill, hmore⟩ := bind_eq_ok.mp h
        obtain ⟨ks, hchildren, hvisits⟩ := children_of_fill hfill
        obtain ⟨id, hid⟩ := hchildren.exists_id
        have hwaits : n ∈ waiting ∧ rest ⊆ waiting := by
          rw [← hcut]
          exact ⟨by simp, fun m hm => by simp [hm]⟩
        have hn : Inside root n := hinside n hwaits.1
        have hmem : n ∈ root.all := hn (by rw [hid]; rfl)
        have hnew : id ∉ done := by
          intro hold
          have hfilled : isFilled done n = true := isFilled_iff.mpr ⟨id, hold, hid⟩
          simp [hfilled] at hfirst
        have hshorter := length_idsBeyond_cons hmem hid hnew
        have hinside' : ∀ m ∈ rest ++ later, Inside root m := by
          intro m hm
          rcases List.mem_append.mp hm with hm | hm
          · exact hinside m (hwaits.2 hm)
          · exact inside_of_visits (hchildren.inside hn) hvisits m hm
        rw [hid] at hmore
        have hleft' := Nat.lt_of_lt_of_le hshorter (Nat.le_of_lt_succ hleft)
        obtain ⟨all, hall⟩ := ih hinside' hleft' hmore
        exact ⟨all, hcut ▸ hall.step hfront hmem hid hchildren hvisits⟩

/-- A collection whose number is in the list of a completed pass has been filled. -/
theorem Completes.filled_of_inside {waiting : List Node} (h : Completes root rounds [] waiting all)
    (hdistinct : Distinct root) (hn : Inside root n) (hfilled : isFilled all n = true) :
    Filled root rounds all n := by
  obtain ⟨id, hmem, hid⟩ := isFilled_iff.mp hfilled
  obtain ⟨m, hm, hid', hfill⟩ := h.filled id hmem List.not_mem_nil
  rw [hdistinct.eq_of_id (hn (by rw [hid]; rfl)) hm hid hid']
  exact hfill

end

/-! ### The second pass -/

section

variable {names : Names} {root n m : Node} {rounds depth id : Nat} {within all : List Nat}

theorem value_of_scalar (hderef : names.deref n = .ok m) (hshape : m.tag.shape? = none) :
    value names rounds (depth + 1) within n = scalarOf names rounds m := by
  simp only [value, hderef, hshape, bind, Except.bind]

theorem value_of_collection {shape : Shape} (hderef : names.deref n = .ok m)
    (hshape : m.tag.shape? = some shape) (hid : m.id? = some id) :
    value names rounds (depth + 1) within n
      = if within.contains id then .ok (.again shape)
        else contents names rounds (value names rounds depth (id :: within)) m := by
  simp only [value, hderef, hshape, hid, bind, Except.bind]

/-- A node at which nothing waits is a scalar, and has the same value everywhere. -/
theorem exists_value_of_key (h : visit names rounds n = .ok []) :
    ∃ v, ∀ {depth}, 0 < depth → ∀ within, value names rounds depth within n = .ok v := by
  obtain ⟨m, hderef, ⟨-, hnone⟩ | ⟨hshape, -, v, hv⟩⟩ := visit_cases h
  · cases hnone
  · refine ⟨v, fun {depth} hdepth within => ?_⟩
    obtain ⟨d, rfl⟩ := Nat.exists_eq_add_one.mpr hdepth
    exact (value_of_scalar hderef hshape).trans hv

/-- **The second pass has no problem with a node that the first has seen.**  It does not run out
of depth either, because it goes into a collection only if none of those around it is the same. -/
theorem exists_value {waiting : List Node} (hall : Completes root rounds [] waiting all)
    (hdistinct : Distinct root) (hn : Inside root n) (hseen : Seen (Names.of root) rounds all n)
    (hdepth : (idsBeyond root within).length < depth) :
    ∃ v, value (Names.of root) rounds depth within n = .ok v := by
  induction depth generalizing within n with
  | zero => exact absurd hdepth (Nat.not_lt_zero _)
  | succ depth ih =>
      obtain ⟨later, hvisit, hlater⟩ := hseen
      obtain ⟨m, hderef, ⟨hshape, rfl⟩ | ⟨hshape, -, v, hv⟩⟩ := visit_cases hvisit
      · obtain ⟨shape, hshape⟩ := Option.isSome_iff_exists.mp hshape
        have hm : Inside root m := hn.deref hderef
        have hfilled := hlater m List.mem_cons_self
        obtain ⟨id, -, hid⟩ := isFilled_iff.mp hfilled
        obtain ⟨ks, hchildren, hks⟩ := hall.filled_of_inside hdistinct hm hfilled
        rw [value_of_collection hderef hshape hid]
        split
        · exact ⟨.again shape, rfl⟩
        · rename_i hwithin
          have hshorter : (idsBeyond root (id :: within)).length < depth := by
            have := length_idsBeyond_cons (hm (by rw [hid]; rfl)) hid (by simpa using hwithin)
            omega
          refine hchildren.exists_contents (fun k hk => ?_) fun k hk => ?_
          · exact ih (hchildren.inside hm k hk) (hks k hk) hshorter
          · obtain ⟨v, hv⟩ := exists_value_of_key hk
            exact ⟨v, hv (Nat.zero_lt_of_lt hshorter) _⟩
      · exact ⟨v, (value_of_scalar hderef hshape).trans hv⟩

end

end Load

end Semicolon.Yaml
