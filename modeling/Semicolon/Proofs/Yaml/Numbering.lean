/-
Collections are told apart by their numbers.

A collection gets its number when its first token is seen, and the count goes up by one.  What is
read from one point of a document to another therefore bears the numbers between the two counts,
each once, in the order in which the collections start.  That is what each of the reading
functions keeps, and it follows that two collections of one document with the same number are the
same collection.
-/
import Mathlib.Data.List.Nodup
import Semicolon.Yaml.Load

namespace Semicolon.Yaml

/-! ### Results that are no errors -/

theorem bind_eq_ok {ε α β : Type} {x : Except ε α} {f : α → Except ε β} {b : β} :
    (x >>= f) = .ok b ↔ ∃ a, x = .ok a ∧ f a = .ok b := by
  cases x with
  | error e => simp [bind, Except.bind]
  | ok a => simp [bind, Except.bind]

theorem map_eq_ok {ε α β : Type} {x : Except ε α} {f : α → β} {b : β} :
    x.map f = .ok b ↔ ∃ a, x = .ok a ∧ f a = b := by
  cases x with
  | error e => simp [Except.map]
  | ok a => simp [Except.map]

namespace Node

/-! ### Numbers in order -/

/-- The collections among the nodes bear the numbers from `lo` up to `hi`, in this order. -/
structure Numbered (lo hi : Nat) (ns : List Node) : Prop where
  le : lo ≤ hi
  ids : ns.filterMap id? = List.range' lo (hi - lo)

namespace Numbered

variable {a b c : Nat} {n : Node} {l m : List Node}

theorem of_no_id (h : l.filterMap id? = []) : Numbered a a l where
  le := Nat.le_refl a
  ids := by rw [h, Nat.sub_self]; rfl

theorem append (hl : Numbered a b l) (hm : Numbered b c m) : Numbered a c (l ++ m) where
  le := Nat.le_trans hl.le hm.le
  ids := by
    have hle := hl.le
    have hle' := hm.le
    rw [List.filterMap_append, hl.ids, hm.ids, show c - a = (b - a) + (c - b) by omega,
      ← List.range'_append_1, show a + (b - a) = b by omega]

theorem cons (hn : n.id? = some a) (hl : Numbered (a + 1) b l) : Numbered a b (n :: l) where
  le := by
    have hle := hl.le
    omega
  ids := by
    have hle := hl.le
    rw [List.filterMap_cons_some hn, hl.ids, show b - a = (b - (a + 1)) + 1 by omega,
      List.range'_succ]

end Numbered

theorem numbered_empty (a : Nat) : Numbered a a Node.empty.all := .of_no_id rfl

/-- What each of the reading functions keeps, as long as it has fuel. -/
structure ReadsNumbered (handles : Handles) (fuel : Nat) : Prop where
  node : ∀ {block indentless room f n f'},
    node handles block indentless room fuel f = .ok (n, f') → Numbered f.count f'.count n.all
  written : ∀ {block indentless room anchor tag f n f'},
    written handles block indentless room anchor tag fuel f = .ok (n, f') →
      Numbered f.count f'.count n.all
  blockItems : ∀ {room f items f'},
    blockItems handles room fuel f = .ok (items, f') → Numbered f.count f'.count (allItems items)
  indentlessItems : ∀ {room f items f'},
    indentlessItems handles room fuel f = .ok (items, f') →
      Numbered f.count f'.count (allItems items)
  blockValue : ∀ {room f n f'},
    blockValue handles room fuel f = .ok (n, f') → Numbered f.count f'.count n.all
  blockEntries : ∀ {room f entries f'},
    blockEntries handles room fuel f = .ok (entries, f') →
      Numbered f.count f'.count (allEntries entries)
  flowValue : ∀ {close room f n f'},
    flowValue handles close room fuel f = .ok (n, f') → Numbered f.count f'.count n.all
  flowKey : ∀ {close room f n f'},
    flowKey handles close room fuel f = .ok (n, f') → Numbered f.count f'.count n.all
  flowItems : ∀ {first room f items f'},
    flowItems handles first room fuel f = .ok (items, f') →
      Numbered f.count f'.count (allItems items)
  flowEntries : ∀ {first room f entries f'},
    flowEntries handles first room fuel f = .ok (entries, f') →
      Numbered f.count f'.count (allEntries entries)

section

variable {handles : Handles} {fuel : Nat} (ih : ReadsNumbered handles fuel)

include ih

theorem node_numbered {block indentless : Bool} {room : Nat} {f f' : Feed} {n : Node}
    (h : node handles block indentless room (fuel + 1) f = .ok (n, f')) :
    Numbered f.count f'.count n.all := by
  rw [node] at h
  split at h
  · split at h
    · cases h
      exact .of_no_id rfl
    · cases h
  · obtain ⟨⟨anchor, tag, ts⟩, -, hwritten⟩ := bind_eq_ok.mp h
    have hnode := ih.written hwritten
    exact hnode

theorem written_numbered {block indentless : Bool} {room : Nat} {anchor tag : Option String}
    {f f' : Feed} {n : Node}
    (h : written handles block indentless room anchor tag (fuel + 1) f = .ok (n, f')) :
    Numbered f.count f'.count n.all := by
  unfold written at h
  dsimp only at h
  split at h
  · obtain ⟨known, -, hout⟩ := bind_eq_ok.mp h
    cases hout
    exact .of_no_id rfl
  · obtain ⟨known, -, h⟩ := bind_eq_ok.mp h
    obtain ⟨within, -, h⟩ := bind_eq_ok.mp h
    obtain ⟨⟨items, g⟩, hitems, hout⟩ := bind_eq_ok.mp h
    cases hout
    exact (ih.flowItems hitems).cons rfl
  · obtain ⟨known, -, h⟩ := bind_eq_ok.mp h
    obtain ⟨within, -, h⟩ := bind_eq_ok.mp h
    obtain ⟨⟨entries, g⟩, hentries, hout⟩ := bind_eq_ok.mp h
    cases hout
    exact (ih.flowEntries hentries).cons rfl
  · obtain ⟨known, -, h⟩ := bind_eq_ok.mp h
    obtain ⟨within, -, h⟩ := bind_eq_ok.mp h
    obtain ⟨⟨items, g⟩, hitems, hout⟩ := bind_eq_ok.mp h
    cases hout
    exact (ih.blockItems hitems).cons rfl
  · obtain ⟨known, -, h⟩ := bind_eq_ok.mp h
    obtain ⟨within, -, h⟩ := bind_eq_ok.mp h
    obtain ⟨⟨entries, g⟩, hentries, hout⟩ := bind_eq_ok.mp h
    cases hout
    exact (ih.blockEntries hentries).cons rfl
  · obtain ⟨known, -, h⟩ := bind_eq_ok.mp h
    obtain ⟨within, -, h⟩ := bind_eq_ok.mp h
    obtain ⟨⟨items, g⟩, hitems, hout⟩ := bind_eq_ok.mp h
    cases hout
    exact (ih.indentlessItems hitems).cons rfl
  · cases h
  · split at h
    · obtain ⟨known, -, hout⟩ := bind_eq_ok.mp h
      cases hout
      exact .of_no_id rfl
    · cases h

/-- A node that may be left out. -/
theorem numbered_of_optional {isEmpty block indentless : Bool} {room : Nat} {f f' : Feed} {n : Node}
    (h : (if isEmpty then .ok (Node.empty, f) else node handles block indentless room fuel f)
      = .ok (n, f')) : Numbered f.count f'.count n.all := by
  split at h
  · cases h
    exact numbered_empty _
  · exact ih.node h

theorem blockItems_numbered {room : Nat} {f f' : Feed} {items : List Node}
    (h : blockItems handles room (fuel + 1) f = .ok (items, f')) :
    Numbered f.count f'.count (allItems items) := by
  rw [blockItems] at h
  split at h
  · obtain ⟨⟨item, g⟩, hitem, h⟩ := bind_eq_ok.mp h
    obtain ⟨⟨rest, g'⟩, hrest, hout⟩ := bind_eq_ok.mp h
    cases hout
    have hfirst := numbered_of_optional ih hitem
    exact hfirst.append (ih.blockItems hrest)
  · cases h
    exact .of_no_id rfl
  · cases h

theorem indentlessItems_numbered {room : Nat} {f f' : Feed} {items : List Node}
    (h : indentlessItems handles room (fuel + 1) f = .ok (items, f')) :
    Numbered f.count f'.count (allItems items) := by
  rw [indentlessItems] at h
  split at h
  · obtain ⟨⟨item, g⟩, hitem, h⟩ := bind_eq_ok.mp h
    obtain ⟨⟨rest, g'⟩, hrest, hout⟩ := bind_eq_ok.mp h
    cases hout
    have hfirst := numbered_of_optional ih hitem
    exact hfirst.append (ih.indentlessItems hrest)
  · cases h
    exact .of_no_id rfl

theorem blockValue_numbered {room : Nat} {f f' : Feed} {n : Node}
    (h : blockValue handles room (fuel + 1) f = .ok (n, f')) :
    Numbered f.count f'.count n.all := by
  rw [blockValue] at h
  split at h
  · have hvalue := numbered_of_optional ih h
    exact hvalue
  · cases h
    exact numbered_empty _

theorem blockEntries_numbered {room : Nat} {f f' : Feed} {entries : List (Node × Node)}
    (h : blockEntries handles room (fuel + 1) f = .ok (entries, f')) :
    Numbered f.count f'.count (allEntries entries) := by
  rw [blockEntries] at h
  split at h
  · obtain ⟨⟨key, g⟩, hkey, h⟩ := bind_eq_ok.mp h
    obtain ⟨⟨value, g'⟩, hvalue, h⟩ := bind_eq_ok.mp h
    obtain ⟨⟨rest, g''⟩, hrest, hout⟩ := bind_eq_ok.mp h
    cases hout
    have hfirst := numbered_of_optional ih hkey
    exact (hfirst.append (ih.blockValue hvalue)).append (ih.blockEntries hrest)
  · cases h
    exact .of_no_id rfl
  · cases h

theorem flowValue_numbered {close : Token} {room : Nat} {f f' : Feed} {n : Node}
    (h : flowValue handles close room (fuel + 1) f = .ok (n, f')) :
    Numbered f.count f'.count n.all := by
  rw [flowValue] at h
  split at h
  · have hvalue := numbered_of_optional ih h
    exact hvalue
  · cases h
    exact numbered_empty _

theorem flowKey_numbered {close : Token} {room : Nat} {f f' : Feed} {n : Node}
    (h : flowKey handles close room (fuel + 1) f = .ok (n, f')) :
    Numbered f.count f'.count n.all := by
  rw [flowKey] at h
  exact numbered_of_optional ih h

omit ih in
theorem count_of_comma {first : Bool} {f g : Feed}
    (h : (if first then .ok f else comma f) = .ok g) : g.count = f.count := by
  unfold comma at h
  split at h
  · cases h
    rfl
  · split at h
    · cases h
      rfl
    · cases h

theorem flowItems_numbered {first : Bool} {room : Nat} {f f' : Feed} {items : List Node}
    (h : flowItems handles first room (fuel + 1) f = .ok (items, f')) :
    Numbered f.count f'.count (allItems items) := by
  rw [flowItems] at h
  split at h
  · cases h
    exact .of_no_id rfl
  · obtain ⟨g, hcomma, h⟩ := bind_eq_ok.mp h
    rw [← count_of_comma hcomma]
    split at h
    · cases h
      exact .of_no_id rfl
    · obtain ⟨within, -, h⟩ := bind_eq_ok.mp h
      obtain ⟨⟨key, f₁⟩, hkey, h⟩ := bind_eq_ok.mp h
      obtain ⟨⟨value, f₂⟩, hvalue, h⟩ := bind_eq_ok.mp h
      obtain ⟨⟨rest, f₃⟩, hrest, hout⟩ := bind_eq_ok.mp h
      cases hout
      have hentry := (ih.flowKey hkey).append (ih.flowValue hvalue)
      have hitem := (hentry.append (.of_no_id rfl : Numbered _ _ (allEntries []))).cons
        (n := .mapping g.count none .mapping [(key, value)]) rfl
      exact hitem.append (ih.flowItems hrest)
    · obtain ⟨⟨item, f₁⟩, hitem, h⟩ := bind_eq_ok.mp h
      obtain ⟨⟨rest, f₂⟩, hrest, hout⟩ := bind_eq_ok.mp h
      cases hout
      exact (ih.node hitem).append (ih.flowItems hrest)

theorem flowEntries_numbered {first : Bool} {room : Nat} {f f' : Feed}
    {entries : List (Node × Node)}
    (h : flowEntries handles first room (fuel + 1) f = .ok (entries, f')) :
    Numbered f.count f'.count (allEntries entries) := by
  rw [flowEntries] at h
  split at h
  · cases h
    exact .of_no_id rfl
  · obtain ⟨g, hcomma, h⟩ := bind_eq_ok.mp h
    rw [← count_of_comma hcomma]
    split at h
    · cases h
      exact .of_no_id rfl
    · obtain ⟨⟨key, f₁⟩, hkey, h⟩ := bind_eq_ok.mp h
      obtain ⟨⟨value, f₂⟩, hvalue, h⟩ := bind_eq_ok.mp h
      obtain ⟨⟨rest, f₃⟩, hrest, hout⟩ := bind_eq_ok.mp h
      cases hout
      have hfirst := ih.flowKey hkey
      exact (hfirst.append (ih.flowValue hvalue)).append (ih.flowEntries hrest)
    · obtain ⟨⟨key, f₁⟩, hkey, h⟩ := bind_eq_ok.mp h
      obtain ⟨⟨rest, f₂⟩, hrest, hout⟩ := bind_eq_ok.mp h
      cases hout
      exact ((ih.node hkey).append (numbered_empty _)).append (ih.flowEntries hrest)

end

theorem readsNumbered (handles : Handles) (fuel : Nat) : ReadsNumbered handles fuel := by
  induction fuel with
  | zero => constructor <;> intros <;> rename_i h <;> cases h
  | succ fuel ih =>
      exact ⟨node_numbered ih, written_numbered ih, blockItems_numbered ih,
        indentlessItems_numbered ih, blockValue_numbered ih, blockEntries_numbered ih,
        flowValue_numbered ih, flowKey_numbered ih, flowItems_numbered ih, flowEntries_numbered ih⟩

/-! ### Documents -/

theorem root_numbered {ts rest : List Token} {n : Node} (h : root ts = .ok (n, rest)) :
    ∃ count, Numbered 0 count n.all := by
  unfold root at h
  dsimp only at h
  split at h
  · obtain ⟨⟨handles, ts'⟩, -, h⟩ := bind_eq_ok.mp h
    dsimp only at h
    split at h
    · split at h
      · cases h
        exact ⟨0, numbered_empty 0⟩
      · obtain ⟨⟨m, f⟩, hnode, hout⟩ := map_eq_ok.mp h
        cases hout
        exact ⟨_, (readsNumbered _ _).node hnode⟩
    · cases h
  · obtain ⟨⟨m, f⟩, hnode, hout⟩ := map_eq_ok.mp h
    cases hout
    exact ⟨_, (readsNumbered _ _).node hnode⟩

/-- Every collection of a document has a number of its own. -/
def Distinct (root : Node) : Prop := (root.all.filterMap id?).Nodup

theorem distinct_of_parse {text : List Char} {root : Node} (h : parse text = .ok (some root)) :
    Distinct root := by
  unfold parse document at h
  split at h
  · cases h
  · obtain ⟨⟨n, rest⟩, hroot, h⟩ := bind_eq_ok.mp h
    dsimp only at h
    split at h
    · cases h
      obtain ⟨count, hnumbered⟩ := root_numbered hroot
      rw [Distinct, hnumbered.ids]
      exact List.nodup_range'
    · obtain ⟨_, -, hout⟩ := bind_eq_ok.mp h
      cases hout

/-- **Collections of one document with the same number are the same.** -/
theorem Distinct.eq_of_id {root n m : Node} {id : Nat} (h : Distinct root) (hn : n ∈ root.all)
    (hm : m ∈ root.all) (hid : n.id? = some id) (hid' : m.id? = some id) : n = m := by
  unfold Distinct at h
  generalize root.all = ns at h hn hm
  induction ns with
  | nil => cases hn
  | cons k ns ih =>
      -- A collection further on with the number of the first one would bear it a second time.
      have hlater : k.id? = some id → ∀ m ∈ ns, m.id? ≠ some id := by
        intro hk m hm hid'
        rw [List.filterMap_cons_some hk, List.nodup_cons] at h
        exact h.1 (List.mem_filterMap.mpr ⟨m, hm, hid'⟩)
      have htail : (ns.filterMap id?).Nodup :=
        h.sublist ((List.sublist_cons_self k ns).filterMap id?)
      rcases List.mem_cons.mp hn with rfl | hn'
      · rcases List.mem_cons.mp hm with rfl | hm'
        · rfl
        · exact absurd hid' (hlater hid m hm')
      · rcases List.mem_cons.mp hm with rfl | hm'
        · exact absurd hid (hlater hid' n hn')
        · exact ih htail hn' hm'

end Node

end Semicolon.Yaml
