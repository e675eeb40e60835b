/-
The values that a document can hold.

A collection may contain itself, by an alias inside the node that the alias names.  Such a place
holds `again` with the kind of the enclosing collection, so a value is always a finite tree.

Mappings keep the order in which their keys first appear.  A key that comes again, also in
another spelling that is equal to it, keeps its first spelling and takes the last value.  The
values may be of any type here, because most of them are never looked at.
-/
import Semicolon.Number.Shortest
import Semicolon.Yaml.Problem

namespace Semicolon.Yaml

/-- The kinds of collection. -/
inductive Shape where
  | list
  | map
  | set
  deriving DecidableEq, Repr

/-- A value. -/
inductive Value where
  | null
  | boolean (b : Bool)
  | integer (n : Int)
  | float (x : Float)
  /-- The number that `.nan` spells, which is one and the same everywhere. -/
  | nan
  | string (s : List Letter)
  | bytes (bs : Bytes)
  | date (d : Calendar.Date)
  | moment (t : Calendar.Moment)
  | list (items : List Value)
  | pairs (items : List (Value × Value))
  | map (entries : List (Value × Value))
  | set (items : List Value)
  | again (shape : Shape)
  deriving Inhabited

namespace Value

/-- A text as a value. -/
def ofText (s : String) : Value := .string (Letter.ofText s)

/-! ### Equality of keys -/

/-- The integer that a float is equal to, if there is one. -/
def integerOfFloat? (x : Float) : Option Int :=
  if x.isNaN || x.isInf then none
  else
    let bits := x.toBits.toNat
    let b := Shortest.Binary.ofBits (bits % Nat.pow 2 63)
    let whole : Option Nat :=
      if b.exponent ≥ 0 then some (b.mantissa * Nat.pow 2 b.exponent.toNat)
      else
        let unit := Nat.pow 2 (-b.exponent).toNat
        if b.mantissa % unit = 0 then some (b.mantissa / unit) else none
    whole.map fun n => if bits ≥ Nat.pow 2 63 then -(n : Int) else (n : Int)

/-- The integer that a number or truth value is equal to, if there is one. -/
def integer? : Value → Option Int
  | .boolean b => some (if b then 1 else 0)
  | .integer n => some n
  | .float x => integerOfFloat? x
  | _ => none

/-- Are two keys the same?  Numbers are compared by value, whatever their kind, and a truth value
counts as zero or one. -/
def sameKey (a b : Value) : Bool :=
  match a.integer?, b.integer? with
  | some m, some n => m = n
  | none, none =>
    match a, b with
    | .null, .null => true
    | .float x, .float y => x == y
    | .nan, .nan => true
    | .string s, .string t => s = t
    | .bytes s, .bytes t => s = t
    | .date s, .date t => s = t
    | .moment s, .moment t => s.same t
    | _, _ => false
  | _, _ => false

/-- The entries with one more; a key that is already there keeps its place and its spelling. -/
def insert {α : Type} (entries : List (Value × α)) (key : Value) (value : α) :
    List (Value × α) :=
  match entries with
  | [] => [(key, value)]
  | (k, v) :: rest =>
    if k.sameKey key then (k, value) :: rest else (k, v) :: insert rest key value

/-- The entries of a mapping that is written with the given pairs. -/
def entriesOf {α : Type} (written : List (Value × α)) : List (Value × α) :=
  written.foldl (fun entries e => insert entries e.1 e.2) []

/-- What stands at a text as key. -/
def atText? {α : Type} (entries : List (Value × α)) (key : String) : Option α :=
  (entries.find? fun e => e.1.sameKey (.ofText key)).map Prod.snd

/-! ### Text -/

/-- The name of the kind of a value. -/
def kindName : Value → String
  | .null => "NoneType"
  | .boolean _ => "bool"
  | .integer _ => "int"
  | .float _ | .nan => "float"
  | .string _ => "str"
  | .bytes _ => "bytes"
  | .date _ => "date"
  | .moment _ => "datetime"
  | .list _ | .pairs _ | .again .list => "list"
  | .map _ | .again .map => "dict"
  | .set _ | .again .set => "set"

mutual

/-- Has the value no integer in it with too many digits to be shown? -/
def isShowable : Value → Bool
  | .integer n => n.natAbs < Nat.pow 10 maxDigits
  | .list items | .set items => areShowable items
  | .pairs items | .map items => arePairsShowable items
  | _ => true

/-- Are all values showable? -/
def areShowable : List Value → Bool
  | [] => true
  | v :: rest => v.isShowable && areShowable rest

/-- Are both parts of all pairs showable? -/
def arePairsShowable : List (Value × Value) → Bool
  | [] => true
  | (k, v) :: rest => k.isShowable && v.isShowable && arePairsShowable rest

end

mutual

/-- A value as messages show it: strings in quotation marks, collections in brackets. -/
def shown : Value → String
  | .null => "None"
  | .boolean b => if b then "True" else "False"
  | .integer n => toString n
  | .float x => floatText x
  | .nan => "nan"
  | .string s => Quoted.letters s
  | .bytes bs => Quoted.bytes bs
  | .date d => d.shown
  | .moment t => t.shown
  | .list items => "[" ++ ", ".intercalate (shownItems items) ++ "]"
  | .pairs items => "[" ++ ", ".intercalate (shownTuples items) ++ "]"
  | .map entries => "\x7b" ++ ", ".intercalate (shownEntries entries) ++ "\x7d"
  | .set [] => "set()"
  | .set items => "\x7b" ++ ", ".intercalate (shownItems items) ++ "\x7d"
  | .again .list => "[...]"
  | .again .map => "\x7b...\x7d"
  | .again .set => "set(...)"

/-- Each value as messages show it. -/
def shownItems : List Value → List String
  | [] => []
  | v :: rest => v.shown :: shownItems rest

/-- Each pair in round brackets. -/
def shownTuples : List (Value × Value) → List String
  | [] => []
  | (k, v) :: rest => ("(" ++ k.shown ++ ", " ++ v.shown ++ ")") :: shownTuples rest

/-- Each entry as its key, a colon and its value. -/
def shownEntries : List (Value × Value) → List String
  | [] => []
  | (k, v) :: rest => (k.shown ++ ": " ++ v.shown) :: shownEntries rest

end

/-- A key as text: strings and dates plain, everything else as messages show it. -/
def keyText : Value → String
  | .string s => Letter.legible s
  | .date d => d.text
  | .moment t => t.text
  | v => v.shown

end Value

end Semicolon.Yaml
