/-
The operations on a disk.

Each one either fails and leaves the disk alone, or gives the disk afterwards; where a failure can
come after a change, it comes with the disk as it is by then.  A write goes through links and makes
the file that a dangling one points to.  A replacement moves the entry itself, a link included, over
whatever file or link stands at the target; it never moves a file over a directory.
-/
import Semicolon.Disk.Basic

namespace Semicolon

/-- Operations of the disk that are made to fail. -/
structure Hazards where
  createFails : Bool := false
  /-- After how many bytes the filling of a created file fails, if it does. -/
  fillStops : Option Nat := none
  replaceFails : Bool := false
  unlinkFails : Bool := false
  deriving DecidableEq, Repr

namespace Disk

/-- Runs an operation on a path, which may not hold a NUL, and names the path in a failure. -/
def onPath {α : Type} (path : String) (act : Except Fault α) : Except DiskError α :=
  if path.toList.contains '\x00' then .error .embeddedNul
  else
    match act with
    | .ok a => .ok a
    | .error fault => .error (.refused { fault, path := some path })

/-- The bytes of a file. -/
def readFile (d : Disk) (path : String) : Except DiskError Bytes :=
  onPath path <|
    match d.resolve true path with
    | .error f => .error f
    | .ok (.taken _ (.file data _)) => .ok data
    | .ok (.taken _ _) => .error .isDirectory
    | .ok (.free _ _ _) => .error .noSuchEntry

/-- The disk after a file has been given new contents, made if need be. -/
def writeFile (d : Disk) (path : String) (data : Bytes) : Except DiskError Disk :=
  onPath path <|
    match d.resolveParent path with
    | .error f => .error f
    | .ok (_, name, slashed) =>
      if name = "" || slashed then .error .isDirectory
      else
        match d.resolve true path with
        | .error f => .error f
        | .ok (.taken loc (.file _ executable)) => .ok (d.put loc (.file data executable))
        | .ok (.taken _ _) => .error .isDirectory
        | .ok (.free _ _ true) => .error .isDirectory
        | .ok (.free dir name false) => .ok (d.put (child dir name) (.file data false))

/-- Starts a file anew, unless that is made to fail, and gets these bytes into it. -/
def startFile (d : Disk) (h : Hazards) (path : String) (data : Bytes) : Except DiskError Disk :=
  if h.createFails then onPath path (.error .readOnly) else d.writeFile path data

/-- Creates a file and fills it.  If the filling fails, what was created stays, with the bytes that
got there. -/
def createFile (d : Disk) (h : Hazards) (path : String) (data : Bytes) :
    Except (DiskError × Disk) Disk :=
  match h.fillStops with
  | none => (d.startFile h path data).mapError fun e => (e, d)
  | some count =>
    match d.startFile h path (data.take count) with
    | .error e => .error (e, d)
    | .ok d => .error (.refused { fault := .noSpace }, d)

/-- The disk after an entry that is no directory has been moved over another place. -/
def rename (d : Disk) (src dst : String) : Except Fault Disk :=
  match d.resolveParent src, d.resolveParent dst with
  | .error f, _ => .error f
  | .ok _, .error f => .error f
  | .ok (srcDir, srcName, srcSlashed), .ok (dstDir, dstName, dstSlashed) =>
    if srcName = "" || dstName = "" then .error .busy
    else
      match d.get? (child srcDir srcName) with
      | none => .error .noSuchEntry
      | some .directory => .error .isDirectory
      | some e =>
        if dstSlashed || srcSlashed then .error .notDirectory
        else if d.get? (child dstDir dstName) = some .directory then .error .isDirectory
        else .ok ((d.erase (child srcDir srcName)).put (child dstDir dstName) e)

/-- Moves a file over another one in a single step. -/
def replaceFile (d : Disk) (h : Hazards) (src dst : String) : Except DiskError Disk :=
  if h.replaceFails then .error (.refused { fault := .readOnly })
  else if src.toList.contains '\x00' || dst.toList.contains '\x00' then .error .embeddedNul
  else
    match d.rename src dst with
    | .ok d => .ok d
    | .error fault => .error (.refused { fault, path := some src, target := some dst })

/-- Removes an entry that is no directory. -/
def unlink (d : Disk) (path : String) : Except DiskError Disk :=
  onPath path <|
    match d.resolveParent path with
    | .error f => .error f
    | .ok (dir, name, slashed) =>
      if name = "" then .error .isDirectory
      else
        match d.get? (child dir name) with
        | none => .error .noSuchEntry
        | some .directory => .error .isDirectory
        | some _ => if slashed then .error .notDirectory else .ok (d.erase (child dir name))

/-- Removes a file, unless removal is made to fail. -/
def removeFile (d : Disk) (h : Hazards) (path : String) : Except DiskError Disk :=
  if h.unlinkFails then .error (.refused { fault := .readOnly }) else d.unlink path

/-- Makes one directory. -/
def makeDirectory (d : Disk) (path : String) : Except DiskError Disk :=
  onPath path <|
    match d.resolveParent path with
    | .error f => .error f
    | .ok (dir, name, _) =>
      if name = "" || (d.get? (child dir name)).isSome then .error .alreadyExists
      else .ok (d.put (child dir name) .directory)

/-- Makes a directory and, first, the ones that are missing above it.  That something is there
already is no failure above it; at the path itself it is one only if it is no directory.  The
path gets shorter with every level, so its length is fuel enough. -/
def makeDirectoriesWith (d : Disk) : (fuel : Nat) → (path : String) → Except (DiskError × Disk) Disk
  | 0, _ => .ok d
  | fuel + 1, path =>
    let (head, tail) := Path.split path
    let (head, tail) := if tail.isEmpty then Path.split head else (head, tail)
    let finish (d : Disk) : Except (DiskError × Disk) Disk :=
      match d.makeDirectory path with
      | .ok d => .ok d
      | .error e => if d.isDirectory path then .ok d else .error (e, d)
    if !head.isEmpty && !tail.isEmpty && !d.isThere head then
      match d.makeDirectoriesWith fuel head with
      | .ok d => if tail = "." then .ok d else finish d
      | .error (.refused f, d) =>
        if f.fault = .alreadyExists then (if tail = "." then .ok d else finish d)
        else .error (.refused f, d)
      | .error e => .error e
    else finish d

/-- Makes a directory and the missing ones above it.  A failure comes with the disk as it is by
then, since directories above may have been made. -/
def makeDirectories (d : Disk) (path : String) : Except (DiskError × Disk) Disk :=
  d.makeDirectoriesWith (path.length + 1) path

/-- The names in a directory, links to directories followed. -/
def list (d : Disk) (path : String) : Except DiskError (List String) :=
  onPath path <|
    match d.resolve true path with
    | .error f => .error f
    | .ok (.taken loc .directory) => .ok (d.names loc)
    | .ok (.taken _ _) => .error .notDirectory
    | .ok (.free _ _ _) => .error .noSuchEntry

end Disk

end Semicolon
