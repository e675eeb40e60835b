/-
The command line.

The run itself is a function of a disk, so this layer only gathers one and carries out what
changed.  The files that the arguments name are loaded, and if they name none, the paths that
standard input lists, one a line, stand for the files that can be found.
-/
import Semicolon.Disk.Changes
import Semicolon.Run

namespace Semicolon.CommandLine

/-- The place of a path, by its names alone. -/
def place (cwd : Location) (path : String) : Location :=
  (Path.steps path).foldl
    (fun here name =>
      if name = "" || name = "." then here
      else if name = ".." then here.dropLast
      else Disk.child here name)
    (if Path.isAbsolute path then [] else cwd)

/-- The disk with directories at the place and above it, where there is nothing yet. -/
def withDirectories (d : Disk) (loc : Location) : Disk :=
  (List.range loc.length).foldl
    (fun d n =>
      let above := loc.take (n + 1)
      if (d.get? above).isSome then d else d.put above .directory)
    d

/-- The disk with one more file. -/
def withFile (d : Disk) (path : String) (data : Bytes) : Disk :=
  let loc := place d.cwd path
  (withDirectories d loc.dropLast).put loc (.file data false)

/-- The paths that arguments may name, values after an equals sign included. -/
def mentioned (args : List String) : List String :=
  args ++ args.filterMap fun arg => (Options.named arg).2

/-- Do the arguments name files? -/
def namesFiles (args : List String) : Bool :=
  match Options.parse args with
  | .ok o => o.help || !(Options.modeAndFiles o.words).2.isEmpty
  | .error _ => true

/-- The bytes of a file, if it can be read. -/
def readIfThere (path : String) : IO (Option Bytes) := do
  try
    return some (← IO.FS.readBinFile path).toList
  catch _ =>
    return none

/-- Loads the files that can be read. -/
def loadFiles (d : Disk) : List String → IO Disk
  | [] => return d
  | path :: rest => do
    match ← readIfThere path with
    | some data => loadFiles (withFile d path data) rest
    | none => loadFiles d rest

/-- Carries out one change.  A file is replaced in a single step. -/
def carryOut (loc : Location) : Option Entry → IO Unit
  | none => IO.FS.removeFile (Disk.absolute loc)
  | some (.file data _) => do
    let path := Disk.absolute loc
    IO.FS.writeBinFile (Replacement.sibling path) ⟨data.toArray⟩
    IO.FS.rename (Replacement.sibling path) path
  | some .directory => IO.FS.createDir (Disk.absolute loc)
  | some (.link _) => return ()

/-- The lines of standard input. -/
def inputLines (input : IO.FS.Stream) : (fuel : Nat) → IO (List String)
  | 0 => return []
  | fuel + 1 => do
    let line ← input.getLine
    if line.isEmpty then return []
    else return String.ofList (line.toList.filter (· ≠ '\n')) :: (← inputLines input fuel)

end Semicolon.CommandLine

open Semicolon CommandLine in
/-- Runs the linter on the arguments. -/
def main (args : List String) : IO UInt32 := do
  let cwd := place [] ((← IO.getEnv "PWD").getD "/")
  let listed ← if namesFiles args then pure [] else inputLines (← IO.getStdin) 1000000
  let disk ← loadFiles (withDirectories { cwd } cwd) (mentioned args ++ listed)
  let world : World :=
    { disk, program := "semi-lint", searchPath := (← IO.getEnv "PATH").getD "" }
  let outcome := run world args
  for (loc, entry) in (Disk.changes disk outcome.disk).mergeSort fun a b => a.1.length ≤ b.1.length do
    carryOut loc entry
  IO.print outcome.stdout
  IO.eprint (outcome.stderr (Run.wantsDetails args))
  return outcome.ending.status.toUInt32
