/-
Putting a mended file in place of the old one.

The new text goes to a sibling with a suffix of its own, which is then moved over the file in a
single step.  If the sibling cannot be written, or cannot be moved, the file stays as it was.  A
sibling that could not be moved is removed again, if that succeeds.  One that was created but could
not be filled is left as it is.
-/
import Semicolon.Disk.Access
import Semicolon.Source
import Semicolon.Log

namespace Semicolon.Replacement

/-- The path of the sibling that takes the new text. -/
def sibling (path : String) : String := path ++ ".autofix.tmp"

/-- How a replacement went: the disk afterwards, the messages, and whether the file was replaced. -/
structure Outcome where
  disk : Disk
  log : Log
  replaced : Bool

/-- Moves the sibling over the file. -/
def swap (d : Disk) (h : Hazards) (path : String) : Except DiskError Outcome :=
  match d.replaceFile h (sibling path) path with
  | .ok d => .ok { disk := d, log := [.debug ("Rewrote " ++ path)], replaced := true }
  | .error .embeddedNul => .error .embeddedNul
  | .error (.refused f) =>
    let failed := Message.warning ("Failed to replace " ++ path ++ ": " ++ f.message)
    match d.removeFile h (sibling path) with
    | .ok d => .ok { disk := d, log := [failed], replaced := false }
    | .error .embeddedNul => .error .embeddedNul
    | .error (.refused _) =>
      let left := Message.debug ("Could not remove leftover " ++ sibling path)
      .ok { disk := d, log := [failed, left], replaced := false }

/-- Replaces a file by one with the given lines. -/
def apply (d : Disk) (h : Hazards) (path : String) (lines : List Text) :
    Except DiskError Outcome :=
  match d.createFile h (sibling path) (Source.bytes lines) with
  | .ok d => swap d h path
  | .error (.embeddedNul, _) => .error .embeddedNul
  | .error (.refused f, d) =>
    let failed := Message.warning ("Cannot create " ++ sibling path ++ ": " ++ f.message)
    .ok { disk := d, log := [failed], replaced := false }

end Semicolon.Replacement
