/-
A disk as a finite map from places to entries.

A place is the list of names from the top down, without links, dots or empty steps, so two
places are the same exactly if the lists are.  The top is always a directory.  A path is
resolved name by name from the working directory or from the top; links are followed on the
way, at most forty in one path.

The map is the whole view of the disk: what an operation does is said by what `get?` finds
afterwards.  A file stands at one place only, so there are no hard links, and nothing is said about
who may do what: every file that a path leads to can be read, and every directory can be listed.
So a file that was found to be there is never passed over as unreadable by a lint that only checks.
Names and paths are texts.
-/
import Semicolon.Disk.Path
import Semicolon.Disk.Fault

namespace Semicolon

/-- A place on the disk: the names from the top down. -/
abbrev Location := List String

/-- What can stand at a place. -/
inductive Entry where
  | file (data : Bytes) (executable : Bool)
  | directory
  | link (target : String)
  deriving DecidableEq, Repr

/-- The contents of a disk, and the directory at which relative paths start. -/
structure Disk where
  entries : List (Location × Entry) := []
  cwd : Location := []
  deriving DecidableEq, Repr

namespace Disk

/-! ### The map -/

/-- What stands at a place. -/
def get? (d : Disk) (loc : Location) : Option Entry :=
  if loc = [] then some .directory else d.entries.lookup loc

/-- The disk with nothing at the place. -/
def erase (d : Disk) (loc : Location) : Disk :=
  { d with entries := d.entries.filter (fun e => e.1 ≠ loc) }

/-- The disk with the entry at the place. -/
def put (d : Disk) (loc : Location) (e : Entry) : Disk :=
  { d with entries := (loc, e) :: (d.erase loc).entries }

/-- The names directly below a place. -/
def names (d : Disk) (loc : Location) : List String :=
  d.entries.filterMap fun e =>
    if e.1.dropLast = loc then e.1.getLast? else none

/-! ### Where a path leads -/

/-- Where a path leads: to an entry, or to a free name in a directory.  `slashed` says that the
path went on with a slash after the free name. -/
inductive Spot where
  | taken (loc : Location) (entry : Entry)
  | free (dir : Location) (name : String) (slashed : Bool)
  deriving DecidableEq, Repr

/-- The most links that one path may go through. -/
def maxLinks : Nat := 40

/-- The most bytes in a name. -/
def maxName : Nat := 255

/-- Paths of this many bytes or more are refused. -/
def maxPath : Nat := 4096

/-- The place of a name in a directory. -/
def child (here : Location) (name : String) : Location := here ++ [name]

/-- Follows steps from a place up to the first link that has to be followed, which `jump` is asked
to do.  Only a directory can be left or entered further, so a step of any kind after anything else
is refused.  The last name is followed through a link only if `follow` says so or if a slash comes
after it. -/
def walkTo (d : Disk) (follow : Bool) (jump : Location → List String → Except Fault Spot) :
    (here : Location) → (todo : List String) → Except Fault Spot
  | here, [] =>
    match d.get? here with
    | none => .error .noSuchEntry
    | some e => .ok (.taken here e)
  | here, name :: rest =>
    match d.get? here with
    | none => .error .noSuchEntry
    | some .directory =>
      if name = "" || name = "." then d.walkTo follow jump here rest
      else if name = ".." then d.walkTo follow jump here.dropLast rest
      else if (Utf8.encodeString name).length > maxName then .error .nameTooLong
      else
        match d.get? (child here name) with
        | none =>
          if rest.all (· = "") then .ok (.free here name (!rest.isEmpty)) else .error .noSuchEntry
        | some (.link target) =>
          if rest.isEmpty && !follow then .ok (.taken (child here name) (.link target))
          else jump (if Path.isAbsolute target then [] else here) (Path.steps target ++ rest)
        | some _ => d.walkTo follow jump (child here name) rest
    | some _ => .error .notDirectory

/-- Follows steps from a place, through at most `links` links. -/
def walk (d : Disk) (follow : Bool) : (links : Nat) → Location → List String → Except Fault Spot
  | 0 => d.walkTo follow fun _ _ => .error .tooManyLinks
  | links + 1 => d.walkTo follow (d.walk follow links)

/-- Where a path leads. -/
def resolve (d : Disk) (follow : Bool) (path : String) : Except Fault Spot :=
  if path.isEmpty then .error .noSuchEntry
  else if (Utf8.encodeString path).length ≥ maxPath then .error .nameTooLong
  else d.walk follow maxLinks (if Path.isAbsolute path then [] else d.cwd) (Path.steps path)

/-- The directory that a path's last name is looked up in, that name, and whether a slash follows
it.  The name is empty if the path ends at the top or in a dot step. -/
def resolveParent (d : Disk) (path : String) : Except Fault (Location × String × Bool) :=
  let steps := Path.steps path
  let slashed := steps.getLast? = some ""
  let named := (steps.reverse.dropWhile (· = "")).reverse
  let last := named.getLast?.getD ""
  if path.isEmpty then .error .noSuchEntry
  else if (Utf8.encodeString path).length ≥ maxPath then .error .nameTooLong
  else
    match d.walk true maxLinks (if Path.isAbsolute path then [] else d.cwd) named.dropLast with
    | .error f => .error f
    | .ok (.taken loc .directory) =>
      if last = "" || last = "." || last = ".." then .ok (loc, "", slashed)
      else if (Utf8.encodeString last).length > maxName then .error .nameTooLong
      else .ok (loc, last, slashed)
    | .ok (.taken _ _) => .error .notDirectory
    | .ok (.free _ _ _) => .error .noSuchEntry

/-- What a path leads to, links followed; `none` if there is nothing to be reached. -/
def entry? (d : Disk) (path : String) : Option Entry :=
  if path.toList.contains '\x00' then none
  else
    match d.resolve true path with
    | .ok (.taken _ e) => some e
    | _ => none

/-- Does the path lead to a regular file? -/
def isFile (d : Disk) (path : String) : Bool :=
  match d.entry? path with
  | some (.file _ _) => true
  | _ => false

/-- Does the path lead to a directory? -/
def isDirectory (d : Disk) (path : String) : Bool := d.entry? path = some .directory

/-- Does the path lead to anything? -/
def isThere (d : Disk) (path : String) : Bool := (d.entry? path).isSome

/-- A place written as an absolute path. -/
def absolute (loc : Location) : String := "/" ++ "/".intercalate loc

end Disk

end Semicolon
