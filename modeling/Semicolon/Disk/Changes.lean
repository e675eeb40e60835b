/-
What has changed on a disk.
-/
import Semicolon.Disk.Basic

namespace Semicolon

/-- Do two entries look the same?  Files do if their bytes are the same. -/
def Entry.looksLike : Entry → Entry → Bool
  | .file a _, .file b _ => a = b
  | .directory, .directory => true
  | .link a, .link b => a = b
  | _, _ => false

namespace Disk

/-- The places of a disk. -/
def places (d : Disk) : List Location := d.entries.map Prod.fst

/-- The places at which two disks differ, each with what the second one has there. -/
def changes (before after : Disk) : List (Location × Option Entry) :=
  let gone := before.places.filter fun loc => (after.get? loc).isNone
  let new := after.places.filterMap fun loc =>
    match before.get? loc, after.get? loc with
    | _, none => none
    | none, some e => some (loc, some e)
    | some e, some e' => if e.looksLike e' then none else some (loc, some e')
  gone.map (fun loc => (loc, none)) ++ new

/-- A place as a path from a directory: up from there as far as needed, then down. -/
def relativeTo : (dir loc : Location) → String
  | a :: dir, b :: loc =>
    if a = b then relativeTo dir loc
    else "/".intercalate (List.replicate (dir.length + 1) ".." ++ b :: loc)
  | dir, loc =>
    if dir.isEmpty && loc.isEmpty then "."
    else "/".intercalate (List.replicate dir.length ".." ++ loc)

end Disk

end Semicolon
