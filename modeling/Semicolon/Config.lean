/-
The options file.

It is a YAML mapping with one known key, which says whether a `return` needs a semicolon.  A file
that cannot be opened, that is no YAML or that holds no mapping is warned about and counts as
empty, and so does every unknown key.  A value of the wrong kind is an error.
-/
import Semicolon.Disk.Access
import Semicolon.Line.Verdict
import Semicolon.Log
import Semicolon.Yaml.Load

namespace Semicolon.Config

/-- The key that says whether a `return` needs a semicolon. -/
def returnKey : String := "require_return_terminator"

/-- Why an options file ends the run. -/
inductive Error where
  /-- The path cannot be asked for. -/
  | disk (e : DiskError)
  /-- The file is not UTF-8. -/
  | undecodable (u : Utf8.Undecodable)
  /-- A value is none of its kind. -/
  | yaml (p : Yaml.Problem)
  /-- The known key has a value, shown here, that is neither true nor false. -/
  | notBoolean (path shown : String)
  deriving DecidableEq, Repr

/-- The wording of an error. -/
def Error.message : Error → String
  | .disk e => e.message
  | .undecodable u => u.message
  | .yaml p => p.message
  | .notBoolean path shown =>
    "'" ++ returnKey ++ "' in '" ++ path ++ "' must be true or false, got " ++ shown

/-- The text with every line end written as a line feed. -/
def unified : List Char → List Char
  | [] => []
  | '\r' :: '\n' :: rest => '\n' :: unified rest
  | '\r' :: rest => '\n' :: unified rest
  | c :: rest => c :: unified rest

/-- The entries of an options file: its keys, and the nodes of their values. -/
structure Entries where
  document : Yaml.Document
  entries : List (Yaml.Value × Yaml.Node)

/-- A warning for each key that is not known.  A key that cannot be shown ends them. -/
def unknownKeys (path : String) : List (Yaml.Value × Yaml.Node) → Log × Except Error Unit
  | [] => ([], .ok ())
  | (key, _) :: rest =>
    if key.sameKey (.ofText returnKey) then unknownKeys path rest
    else if !key.isShowable then ([], .error (.yaml .tooLong))
    else
      let (log, result) := unknownKeys path rest
      (.warning ("Unknown config key '" ++ key.keyText ++ "' in '" ++ path ++ "'") :: log, result)

/-- What a document says as an options file: nothing, if it is not a mapping and not empty. -/
def fromDocument (path : String) (doc : Yaml.Document) : Log × Except Error (Option Entries) :=
  match doc.entries? with
  | some (.error p) => ([], .error (.yaml p))
  | some (.ok entries) =>
    let (log, result) := unknownKeys path entries
    (log, result.map fun _ => some { document := doc, entries })
  | none =>
    match doc.kindName with
    | .error p => ([], .error (.yaml p))
    | .ok kind =>
      if kind = Yaml.Value.null.kindName then ([], .ok (some { document := doc, entries := [] }))
      else
        ([.warning ("Ignoring config '" ++ path ++ "': expected a mapping, got " ++ kind)],
          .ok none)

/-- The entries of an options file, if it holds a mapping or nothing at all. -/
def load (d : Disk) (path : String) : Log × Except Error (Option Entries) :=
  match d.readFile path with
  | .error (.refused f) =>
    ([.warning ("Could not open config '" ++ path ++ "': " ++ f.message)], .ok none)
  | .error e => ([], .error (.disk e))
  | .ok data =>
    match Utf8.decodeStrict data with
    | .error u => ([], .error (.undecodable u))
    | .ok text =>
      match Yaml.Document.read (unified text) with
      | .error .malformed =>
        ([.warning ("Could not parse config '" ++ path ++ "': " ++ Yaml.Problem.malformed.message)],
          .ok none)
      | .error p => ([], .error (.yaml p))
      | .ok doc => fromDocument path doc

/-- The policy that the entries of an options file ask for. -/
def policyOf (path : String) (e : Entries) : Except Error Policy :=
  match Yaml.Value.atText? e.entries returnKey with
  | none => .ok {}
  | some n =>
    match e.document.valueOf n with
    | .error p => .error (.yaml p)
    | .ok (.boolean b) => .ok { requireReturn := b }
    | .ok v => .error (if v.isShowable then .notBoolean path v.shown else .yaml .tooLong)

/-- The policy of a run: what the options file says, if there is one, unless the command line
allows a bare `return`.  An empty path stands for no file. -/
def build (d : Disk) (path : Option String) (allowBareReturn : Bool) : Log × Except Error Policy :=
  let (log, fromFile) : Log × Except Error Policy :=
    match path.filter (fun p => !p.isEmpty) with
    | none => ([], .ok {})
    | some p =>
      let (log, loaded) := load d p
      (log, loaded.bind fun entries => (entries.map (policyOf p)).getD (.ok {}))
  (log, fromFile.map fun policy => if allowBareReturn then { requireReturn := false } else policy)

end Semicolon.Config
