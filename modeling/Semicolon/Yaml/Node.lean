/-
From tokens to the tree of nodes.

A node is a scalar, a sequence or a mapping, each with its kind, or an alias of a node that
bears an anchor.  An anchor belongs to one node only, and an alias comes after the start of the
node that it names; it may stand inside that node.  Collections are numbered, so that the same
one can be recognised wherever it is reached from, and only so many may lie within one another.

Tokens are looked at from left to right, so of two problems the earlier one counts; where the
scan ended in a fault, that is the problem as soon as the fault is reached.
-/
import Semicolon.Yaml.Stream

namespace Semicolon.Yaml

/-- A node of a document. -/
inductive Node where
  | alias (name : String)
  | scalar (anchor : Option String) (tag : Tag) (text : List Letter)
  | sequence (id : Nat) (anchor : Option String) (tag : Tag) (items : List Node)
  | mapping (id : Nat) (anchor : Option String) (tag : Tag) (entries : List (Node × Node))
  deriving Inhabited

/-- The tokens that are left, the anchors that have been seen, and the number of collections so
far. -/
structure Feed where
  rest : List Token
  known : List String := []
  count : Nat := 0

/-- The problem with a token that cannot stand where it does. -/
def problemAt : List Token → Problem
  | .fault p :: _ => p
  | _ => .malformed

namespace Node

/-- The node that stands where nothing is written. -/
def empty : Node := .scalar none .null []

/-! ### Properties of a node -/

/-- What the handles of tags stand for. -/
abbrev Handles := List (String × String)

/-- The handles that need no directive. -/
def defaultHandles : Handles := [("!", "!"), ("!!", standardTags)]

/-- The full form of a tag. -/
def fullTag (handles : Handles) (handle : Option String) (suffix : String) :
    Except Problem String :=
  match handle with
  | none => .ok suffix
  | some h =>
    match handles.lookup h with
    | some root => .ok (root ++ suffix)
    | none => .error .malformed

/-- The anchor and the full tag in front of a node, in any order, and the tokens after them. -/
def properties (handles : Handles) (ts : List Token) :
    Except Problem (Option String × Option String × List Token) :=
  match ts with
  | .anchor a :: .tag h suffix :: rest =>
    (fullTag handles h suffix).map fun t => (some a, some t, rest)
  | .anchor a :: rest => .ok (some a, none, rest)
  | .tag h suffix :: .anchor a :: rest =>
    (fullTag handles h suffix).map fun t => (some a, some t, rest)
  | .tag _ _ :: .fault p :: _ => .error p
  | .tag h suffix :: rest => (fullTag handles h suffix).map fun t => (none, some t, rest)
  | rest => .ok (none, none, rest)

/-- The anchors with one more, which must be new. -/
def declare (known : List String) : Option String → Except Problem (List String)
  | none => .ok known
  | some name => if known.contains name then .error .malformed else .ok (name :: known)

/-- The kind that a tag names.  No tag, or a lone exclamation mark, leaves it to the default. -/
def tagOr (tag : Option String) (otherwise : Tag) : Tag :=
  match tag with
  | none => otherwise
  | some "!" => otherwise
  | some uri => Tag.ofUri uri

/-- The kind that the spelling of a scalar asks for. -/
def spelledTag (text : List Letter) : Tag := ((Letter.text? text).map Scalar.kind).getD .string

/-- The kind of a scalar.  Its spelling decides if it has no tag and no quotation marks, and also
if its tag is a lone exclamation mark. -/
def scalarTag (tag : Option String) (plain : Bool) (text : List Letter) : Tag :=
  match tag with
  | none => if plain then spelledTag text else .string
  | some "!" => spelledTag text
  | some uri => Tag.ofUri uri

/-! ### Nodes

Every call either takes a token or goes on to a call that does, in a chain of bounded length, so
a small multiple of the number of tokens is fuel enough.  `room` is how many collections may
still lie within one another. -/

/-- The room inside a collection. -/
def inside : (room : Nat) → Except Problem Nat
  | 0 => .error .tooDeep
  | room + 1 => .ok room

/-- Is an entry of a block left empty before this token? -/
def endsBlockItem (indentless : Bool) : Option Token → Bool
  | some .blockEntry | some .blockEnd => true
  | some .key | some .value => indentless
  | _ => false

/-- Is the key or value of a block mapping left empty before this token? -/
def endsBlockPart : Option Token → Bool
  | some .key | some .value | some .blockEnd => true
  | _ => false

/-- The feed after a comma, which has to be there. -/
def comma (f : Feed) : Except Problem Feed :=
  match f.rest with
  | .flowEntry :: rest => .ok { f with rest }
  | ts => .error (problemAt ts)

mutual

/-- A node.  `block` allows block collections, and `indentless` allows a sequence of entries that
is not indented further than the key it belongs to. -/
def node (handles : Handles) (block indentless : Bool) (room : Nat) :
    (fuel : Nat) → Feed → Except Problem (Node × Feed)
  | 0, _ => .error .malformed
  | fuel + 1, f =>
    match f.rest with
    | .alias name :: rest =>
      if f.known.contains name then .ok (.alias name, { f with rest }) else .error .malformed
    | ts => do
      let (anchor, tag, ts) ← properties handles ts
      written handles block indentless room anchor tag fuel { f with rest := ts }
termination_by structural fuel => fuel

/-- A node after its properties. -/
def written (handles : Handles) (block indentless : Bool) (room : Nat)
    (anchor tag : Option String) : (fuel : Nat) → Feed → Except Problem (Node × Feed)
  | 0, _ => .error .malformed
  | fuel + 1, f =>
    let id := f.count
    let count := f.count + 1
    match f.rest, block, indentless with
    | .scalar text plain :: rest, _, _ => do
      let known ← declare f.known anchor
      .ok (.scalar anchor (scalarTag tag plain text) text, { f with rest, known })
    | .flowSequenceStart :: rest, _, _ => do
      let known ← declare f.known anchor
      let (items, f) ← flowItems handles true (← inside room) fuel { rest, known, count }
      .ok (.sequence id anchor (tagOr tag .sequence) items, f)
    | .flowMappingStart :: rest, _, _ => do
      let known ← declare f.known anchor
      let (entries, f) ← flowEntries handles true (← inside room) fuel { rest, known, count }
      .ok (.mapping id anchor (tagOr tag .mapping) entries, f)
    | .blockSequenceStart :: rest, true, _ => do
      let known ← declare f.known anchor
      let (items, f) ← blockItems handles (← inside room) fuel { rest, known, count }
      .ok (.sequence id anchor (tagOr tag .sequence) items, f)
    | .blockMappingStart :: rest, true, _ => do
      let known ← declare f.known anchor
      let (entries, f) ← blockEntries handles (← inside room) fuel { rest, known, count }
      .ok (.mapping id anchor (tagOr tag .mapping) entries, f)
    | .blockEntry :: _, _, true => do
      let known ← declare f.known anchor
      let (items, f) ← indentlessItems handles (← inside room) fuel { f with known, count }
      .ok (.sequence id anchor (tagOr tag .sequence) items, f)
    | .fault p :: _, _, _ => .error p
    | _, _, _ => do
      if anchor.isSome || tag.isSome then
        let known ← declare f.known anchor
        .ok (.scalar anchor (scalarTag tag true []) [], { f with known })
      else .error .malformed
termination_by structural fuel => fuel

/-- The entries of a block sequence. -/
def blockItems (handles : Handles) (room : Nat) :
    (fuel : Nat) → Feed → Except Problem (List Node × Feed)
  | 0, _ => .error .malformed
  | fuel + 1, f =>
    match f.rest with
    | .blockEntry :: rest => do
      let f := { f with rest }
      let (item, f) ←
        (if endsBlockItem false rest.head? then .ok (Node.empty, f)
        else node handles true false room fuel f)
      let (items, f) ← blockItems handles room fuel f
      .ok (item :: items, f)
    | .blockEnd :: rest => .ok ([], { f with rest })
    | ts => .error (problemAt ts)
termination_by structural fuel => fuel

/-- The entries of a sequence that is not indented; it ends before any other token. -/
def indentlessItems (handles : Handles) (room : Nat) :
    (fuel : Nat) → Feed → Except Problem (List Node × Feed)
  | 0, _ => .error .malformed
  | fuel + 1, f =>
    match f.rest with
    | .blockEntry :: rest => do
      let f := { f with rest }
      let (item, f) ←
        (if endsBlockItem true rest.head? then .ok (Node.empty, f)
        else node handles true false room fuel f)
      let (items, f) ← indentlessItems handles room fuel f
      .ok (item :: items, f)
    | _ => .ok ([], f)
termination_by structural fuel => fuel

/-- The value of a block mapping's entry; none may be written. -/
def blockValue (handles : Handles) (room : Nat) :
    (fuel : Nat) → Feed → Except Problem (Node × Feed)
  | 0, _ => .error .malformed
  | fuel + 1, f =>
    match f.rest with
    | .value :: rest =>
      let f := { f with rest }
      if endsBlockPart rest.head? then .ok (Node.empty, f) else node handles true true room fuel f
    | _ => .ok (Node.empty, f)
termination_by structural fuel => fuel

/-- The entries of a block mapping. -/
def blockEntries (handles : Handles) (room : Nat) :
    (fuel : Nat) → Feed → Except Problem (List (Node × Node) × Feed)
  | 0, _ => .error .malformed
  | fuel + 1, f =>
    match f.rest with
    | .key :: rest => do
      let f := { f with rest }
      let (key, f) ←
        (if endsBlockPart rest.head? then .ok (Node.empty, f)
        else node handles true true room fuel f)
      let (value, f) ← blockValue handles room fuel f
      let (entries, f) ← blockEntries handles room fuel f
      .ok ((key, value) :: entries, f)
    | .blockEnd :: rest => .ok ([], { f with rest })
    | ts => .error (problemAt ts)
termination_by structural fuel => fuel

/-- The value of an entry between brackets that `close` ends; none may be written. -/
def flowValue (handles : Handles) (close : Token) (room : Nat) :
    (fuel : Nat) → Feed → Except Problem (Node × Feed)
  | 0, _ => .error .malformed
  | fuel + 1, f =>
    match f.rest with
    | .value :: rest =>
      let f := { f with rest }
      if rest.head? = some .flowEntry || rest.head? = some close then .ok (Node.empty, f)
      else node handles false false room fuel f
    | _ => .ok (Node.empty, f)
termination_by structural fuel => fuel

/-- The key of an entry between brackets that `close` ends, after its mark. -/
def flowKey (handles : Handles) (close : Token) (room : Nat) :
    (fuel : Nat) → Feed → Except Problem (Node × Feed)
  | 0, _ => .error .malformed
  | fuel + 1, f =>
    let next := f.rest.head?
    if next = some .value || next = some .flowEntry || next = some close then .ok (Node.empty, f)
    else node handles false false room fuel f
termination_by structural fuel => fuel

/-- The items of a sequence in brackets.  An item with a key is a mapping of one entry. -/
def flowItems (handles : Handles) (first : Bool) (room : Nat) :
    (fuel : Nat) → Feed → Except Problem (List Node × Feed)
  | 0, _ => .error .malformed
  | fuel + 1, f =>
    match f.rest with
    | .flowSequenceEnd :: rest => .ok ([], { f with rest })
    | _ => do
      let f ← (if first then .ok f else comma f)
      match f.rest with
      | .flowSequenceEnd :: rest => .ok ([], { f with rest })
      | .key :: rest =>
        let id := f.count
        let within ← inside room
        let (key, f) ←
          flowKey handles .flowSequenceEnd within fuel { f with rest, count := f.count + 1 }
        let (value, f) ← flowValue handles .flowSequenceEnd within fuel f
        let (items, f) ← flowItems handles false room fuel f
        .ok (.mapping id none .mapping [(key, value)] :: items, f)
      | _ =>
        let (item, f) ← node handles false false room fuel f
        let (items, f) ← flowItems handles false room fuel f
        .ok (item :: items, f)
termination_by structural fuel => fuel

/-- The entries of a mapping in brackets.  An entry without a key mark has no value. -/
def flowEntries (handles : Handles) (first : Bool) (room : Nat) :
    (fuel : Nat) → Feed → Except Problem (List (Node × Node) × Feed)
  | 0, _ => .error .malformed
  | fuel + 1, f =>
    match f.rest with
    | .flowMappingEnd :: rest => .ok ([], { f with rest })
    | _ => do
      let f ← (if first then .ok f else comma f)
      match f.rest with
      | .flowMappingEnd :: rest => .ok ([], { f with rest })
      | .key :: rest =>
        let (key, f) ← flowKey handles .flowMappingEnd room fuel { f with rest }
        let (value, f) ← flowValue handles .flowMappingEnd room fuel f
        let (entries, f) ← flowEntries handles false room fuel f
        .ok ((key, value) :: entries, f)
      | _ =>
        let (key, f) ← node handles false false room fuel f
        let (entries, f) ← flowEntries handles false room fuel f
        .ok ((key, Node.empty) :: entries, f)
termination_by structural fuel => fuel

end

/-! ### Documents -/

/-- The handles that directives declare, with the default ones, and the tokens after them.  One
version may be named, which has to be of the first kind, and no handle twice. -/
def directives (versioned : Bool) (handles : Handles) :
    List Token → Except Problem (Handles × List Token)
  | .directive (.version major) :: rest =>
    if versioned || major ≠ 1 then .error .malformed else directives true handles rest
  | .directive (.handle name root) :: rest =>
    if (handles.lookup name).isSome then .error .malformed
    else directives versioned ((name, root) :: handles) rest
  | .directive .reserved :: rest => directives versioned handles rest
  | ts => .ok (handles ++ defaultHandles, ts)

/-- Does the document end before this token without any content? -/
def endsDocument : Option Token → Bool
  | none | some (.directive _) | some .documentStart | some .documentEnd => true
  | _ => false

/-- Do the tokens start with a directive or with the mark of a document? -/
def isExplicit : List Token → Bool
  | .directive _ :: _ | .documentStart :: _ => true
  | _ => false

/-- The root of the first document, and the tokens after it. -/
def root (ts : List Token) : Except Problem (Node × List Token) := do
  let fuel := 5 * ts.length + 5
  if isExplicit ts then
    let (handles, rest) ← directives false [] ts
    match rest with
    | .documentStart :: rest =>
      if endsDocument rest.head? then .ok (Node.empty, rest)
      else (node handles true false maxDepth fuel { rest }).map fun (n, f) => (n, f.rest)
    | ts => .error (problemAt ts)
  else (node defaultHandles true false maxDepth fuel { rest := ts }).map fun (n, f) => (n, f.rest)

/-- The only document of a stream, or `none` if the stream is empty.  A second one is a problem as
soon as its directives have been passed. -/
def document (ts : List Token) : Except Problem (Option Node) := do
  if ts.isEmpty then .ok none
  else
    let (n, rest) ← root ts
    match rest.dropWhile (· = .documentEnd) with
    | [] => .ok (some n)
    | ts =>
      let (_, ts) ← directives false [] ts
      .error (problemAt ts)

end Node

/-- The only document of a stream of characters. -/
def parse (text : List Char) : Except Problem (Option Node) := Node.document (tokens text)

end Semicolon.Yaml
