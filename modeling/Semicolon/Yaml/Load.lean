/-
From the tree of nodes to a value.

Collections are filled level by level, from the outside in: of two problems in one document the
one on the outer level counts, and on one level the earlier one.  So a first pass goes through
the document breadth first and looks for a problem; the value is then read off the tree.

A mapping with the key `<<` takes over the entries of the mapping, or of the list of mappings,
that stands there; its own entries win, and earlier mappings of a list win over later ones.

A document is read once for its problems and then holds nodes, of which any can be asked for its
value.  A node that aliases name many times is written out once for each of them in the value,
so only the values that are needed are worked out.
-/
import Semicolon.Yaml.Node
import Semicolon.Yaml.Read
import Semicolon.Yaml.SetOrder

namespace Semicolon.Yaml

namespace Node

/-! ### The nodes of a document -/

mutual

/-- A node and all nodes inside it. -/
def all : Node → List Node
  | .alias name => [.alias name]
  | .scalar anchor tag text => [.scalar anchor tag text]
  | .sequence id anchor tag items => .sequence id anchor tag items :: allItems items
  | .mapping id anchor tag entries => .mapping id anchor tag entries :: allEntries entries

/-- All nodes inside a list of nodes. -/
def allItems : List Node → List Node
  | [] => []
  | n :: rest => n.all ++ allItems rest

/-- All nodes inside a list of entries. -/
def allEntries : List (Node × Node) → List Node
  | [] => []
  | (k, v) :: rest => k.all ++ v.all ++ allEntries rest

end

/-- The anchor of a node. -/
def anchor? : Node → Option String
  | .alias _ => none
  | .scalar anchor _ _ | .sequence _ anchor _ _ | .mapping _ anchor _ _ => anchor

/-- The kind of a node. -/
def tag : Node → Tag
  | .alias _ => .other ""
  | .scalar _ tag _ | .sequence _ _ tag _ | .mapping _ _ tag _ => tag

/-- The number of a collection. -/
def id? : Node → Option Nat
  | .sequence id _ _ _ | .mapping id _ _ _ => some id
  | _ => none

end Node

/-- The nodes that bear anchors. -/
abbrev Names := List (String × Node)

/-- The anchored nodes of a document. -/
def Names.of (root : Node) : Names :=
  root.all.filterMap fun n => n.anchor?.map fun a => (a, n)

namespace Names

/-- The node that a node or an alias stands for. -/
def deref (names : Names) : Node → Except Problem Node
  | .alias name =>
    match names.lookup name with
    | some n => .ok n
    | none => .error .malformed
  | n => .ok n

end Names

/-- The shape of the collections of a kind. -/
def Tag.shape? : Tag → Option Shape
  | .sequence | .orderedPairs | .pairs => some .list
  | .mapping => some .map
  | .set => some .set
  | _ => none

namespace Load

/-! ### Merging -/

/-- The key as a string, if it is the sign for a default. -/
def plainKey : Node → Node
  | .scalar anchor .default text => .scalar anchor .string text
  | n => n

/-- The entries whose keys are no merge keys. -/
def unmerged (names : Names) : List (Node × Node) → Except Problem (List (Node × Node))
  | [] => .ok []
  | e :: rest => do
    let key ← names.deref e.1
    let others ← unmerged names rest
    .ok (if key.tag = .merge then others else e :: others)

mutual

/-- The entries of a mapping with merged entries in front.  `within` are the mappings that are
being merged already; one of those adds only what it has itself. -/
def flattened (names : Names) :
    (fuel : Nat) → (within : List Nat) → List (Node × Node) →
      Except Problem (List (Node × Node) × List (Node × Node))
  | 0, _, _ => .error .malformed
  | _ + 1, _, [] => .ok ([], [])
  | fuel + 1, within, (k, v) :: rest => do
    let key ← names.deref k
    if key.tag = .merge then
      let merged ← mergedFrom names fuel within (← names.deref v)
      let (others, own) ← flattened names fuel within rest
      .ok (merged ++ others, own)
    else
      let (others, own) ← flattened names fuel within rest
      .ok (others, (plainKey key, v) :: own)
termination_by structural fuel => fuel

/-- The entries that a mapping adds to another one. -/
def mergedMapping (names : Names) :
    (fuel : Nat) → (within : List Nat) → Node → Except Problem (List (Node × Node))
  | fuel + 1, within, .mapping id _ _ entries => do
    let entries ← (if within.contains id then unmerged names entries else .ok entries)
    let (merged, own) ← flattened names fuel (id :: within) entries
    .ok (merged ++ own)
  | _, _, _ => .error .malformed
termination_by structural fuel => fuel

/-- The entries that the value of a merge key adds. -/
def mergedFrom (names : Names) :
    (fuel : Nat) → (within : List Nat) → Node → Except Problem (List (Node × Node))
  | 0, _, _ => .error .malformed
  | fuel + 1, within, .sequence _ _ _ items => do
    let parts ← items.mapM fun item => do mergedMapping names fuel within (← names.deref item)
    .ok parts.reverse.flatten
  | fuel + 1, within, n => mergedMapping names fuel within n
termination_by structural fuel => fuel

end

/-- The entries of a mapping, merged ones first. -/
def entriesOf (names : Names) (rounds id : Nat) (entries : List (Node × Node)) :
    Except Problem (List (Node × Node)) := do
  let (merged, own) ← flattened names rounds [id] entries
  .ok (merged ++ own)

/-! ### Scalars -/

/-- The text of a node that is read as a scalar.  A mapping has the text of its default, if it has
one; a chain of defaults that comes back to its start has no end. -/
def textOf (names : Names) : (fuel : Nat) → Node → Except Problem (List Letter)
  | 0, _ => .error .tooDeep
  | _ + 1, .scalar _ _ text => .ok text
  | fuel + 1, .mapping _ _ _ entries => do
    let keys ← entries.mapM fun e => names.deref e.1
    match (keys.zip entries).find? fun e => e.1.tag = .default with
    | some (_, _, v) => textOf names fuel (← names.deref v)
    | none => .error .malformed
  | _ + 1, _ => .error .malformed

/-- The value of a node whose kind is no collection. -/
def scalarOf (names : Names) (rounds : Nat) (n : Node) : Except Problem Value :=
  match n.tag with
  | .merge | .default | .other _ => .error .malformed
  | tag => do Read.scalar tag (← textOf names rounds n)

/-! ### The first problem -/

/-- The single entry of an item in a list of pairs. -/
def singleEntry (names : Names) (item : Node) : Except Problem (Node × Node) := do
  match ← names.deref item with
  | .mapping _ _ _ [entry] => .ok entry
  | _ => .error .malformed

/-- Looks at one node in a collection: a scalar is read at once, and a collection is given back to
be filled later. -/
def visit (names : Names) (rounds : Nat) (n : Node) : Except Problem (List Node) := do
  let n ← names.deref n
  if n.tag.shape?.isSome then .ok [n]
  else
    let _ ← scalarOf names rounds n
    .ok []

/-- Looks at a key, which must not be a collection, and then at its value. -/
def visitEntry (names : Names) (rounds : Nat) (e : Node × Node) : Except Problem (List Node) := do
  let later ← visit names rounds e.1
  if later.isEmpty then visit names rounds e.2 else .error .malformed

/-- Looks at a pair, whose key may be anything. -/
def visitPair (names : Names) (rounds : Nat) (item : Node) : Except Problem (List Node) := do
  let (k, v) ← singleEntry names item
  let first ← visit names rounds k
  let second ← visit names rounds v
  .ok (first ++ second)

/-- Fills a collection: looks at everything directly in it, and gives the collections in it. -/
def fill (names : Names) (rounds : Nat) (n : Node) : Except Problem (List Node) :=
  match n.tag, n with
  | .sequence, .sequence _ _ _ items => (items.mapM (visit names rounds)).map List.flatten
  | .mapping, .mapping id _ _ entries | .set, .mapping id _ _ entries => do
    let entries ← entriesOf names rounds id entries
    (entries.mapM (visitEntry names rounds)).map List.flatten
  | .orderedPairs, .sequence _ _ _ items | .pairs, .sequence _ _ _ items =>
    (items.mapM (visitPair names rounds)).map List.flatten
  | _, _ => .error .malformed

/-- Has the collection been filled? -/
def isFilled (done : List Nat) (n : Node) : Bool := n.id?.any done.contains

/-- Fills the collections that wait, in order, each of them once; `left` is at least the number of
those that are not filled. -/
def fillAll (names : Names) (rounds : Nat) :
    (left : Nat) → (done : List Nat) → (waiting : List Node) → Except Problem Unit
  | 0, _, _ => .ok ()
  | left + 1, done, waiting =>
    match waiting.dropWhile (isFilled done) with
    | [] => .ok ()
    | n :: waiting => do
      let later ← fill names rounds n
      fillAll names rounds left (n.id?.toList ++ done) (waiting ++ later)

/-! ### The value -/

/-- The value of a collection, where `inner` gives the values of the nodes in it. -/
def contents (names : Names) (rounds : Nat) (inner : Node → Except Problem Value) (n : Node) :
    Except Problem Value :=
  match n.tag, n with
  | .sequence, .sequence _ _ _ items => (items.mapM inner).map .list
  | .mapping, .mapping id _ _ entries => do
    let entries ← entriesOf names rounds id entries
    let written ← entries.mapM fun e => do .ok (← inner e.1, ← inner e.2)
    .ok (.map (Value.entriesOf written))
  | .set, .mapping id _ _ entries => do
    let entries ← entriesOf names rounds id entries
    let written ← entries.mapM fun e => do .ok (← inner e.1, Value.null)
    .ok (.set (SetOrder.arranged ((Value.entriesOf written).map Prod.fst)))
  | .orderedPairs, .sequence _ _ _ items | .pairs, .sequence _ _ _ items =>
    (items.mapM fun item => do
      let (k, v) ← singleEntry names item
      .ok (← inner k, ← inner v)).map .pairs
  | _, _ => .error .malformed

/-- The value of a node.  `within` are the collections around it, and `depth` is more than the
number of the others. -/
def value (names : Names) (rounds : Nat) :
    (depth : Nat) → (within : List Nat) → Node → Except Problem Value
  | 0, _, _ => .error .malformed
  | depth + 1, within, n => do
    let n ← names.deref n
    match n.tag.shape?, n.id? with
    | none, _ => scalarOf names rounds n
    | some _, none => .error .malformed
    | some shape, some id =>
      if within.contains id then .ok (.again shape)
      else contents names rounds (value names rounds depth (id :: within)) n

/-- How many rounds suffice for a document of `count` nodes, whatever is done in rounds: merging
goes through each mapping's entries at most once for each mapping around it. -/
def rounds (count : Nat) : Nat := (count + 2) * (count + 2)

end Load

/-- A document without problems. -/
structure Document where
  root : Node
  names : Names
  /-- How many rounds suffice for any of its nodes. -/
  rounds : Nat

namespace Document

/-- The only document in a stream; an empty stream holds nothing. -/
def read (text : List Char) : Except Problem Document := do
  let root := (← parse text).getD Node.empty
  let names := Names.of root
  let rounds := Load.rounds root.all.length
  let waiting ← Load.visit names rounds root
  Load.fillAll names rounds rounds [] waiting
  .ok { root, names, rounds }

/-- The value of a node. -/
def valueOf (doc : Document) (n : Node) : Except Problem Value :=
  Load.value doc.names doc.rounds doc.rounds [] n

/-- The entries of the root, if it is a mapping: each key with the node of its value. -/
def entries? (doc : Document) : Option (Except Problem (List (Value × Node))) :=
  match doc.root with
  | .mapping id _ .mapping entries => some do
    let entries ← Load.entriesOf doc.names doc.rounds id entries
    let written ← entries.mapM fun e => do .ok (← doc.valueOf e.1, e.2)
    .ok (Value.entriesOf written)
  | _ => none

/-- The name of the kind of the root. -/
def kindName (doc : Document) : Except Problem String :=
  match doc.root.tag.shape? with
  | some shape => .ok (Value.again shape).kindName
  | none => (doc.valueOf doc.root).map Value.kindName

end Document

/-- The value of the only document in a stream. -/
def load (text : List Char) : Except Problem Value := do
  let doc ← Document.read text
  doc.valueOf doc.root

end Semicolon.Yaml
