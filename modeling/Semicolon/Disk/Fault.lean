/-
What can go wrong on the disk, and how it is said.
-/
import Semicolon.Text.Quoted

namespace Semicolon

/-- The causes for which the disk refuses an operation. -/
inductive Fault where
  | noSuchEntry
  | busy
  | alreadyExists
  | notDirectory
  | isDirectory
  | noSpace
  | readOnly
  | nameTooLong
  | tooManyLinks
  deriving DecidableEq, Repr

namespace Fault

/-- The number of a fault. -/
def code : Fault → Nat
  | .noSuchEntry => 2
  | .busy => 16
  | .alreadyExists => 17
  | .notDirectory => 20
  | .isDirectory => 21
  | .noSpace => 28
  | .readOnly => 30
  | .nameTooLong => 36
  | .tooManyLinks => 40

/-- The name of a fault. -/
def text : Fault → String
  | .noSuchEntry => "No such file or directory"
  | .busy => "Device or resource busy"
  | .alreadyExists => "File exists"
  | .notDirectory => "Not a directory"
  | .isDirectory => "Is a directory"
  | .noSpace => "No space left on device"
  | .readOnly => "Read-only file system"
  | .nameTooLong => "File name too long"
  | .tooManyLinks => "Too many levels of symbolic links"

end Fault

/-- A failed operation: the fault and the paths that it is about. -/
structure Failure where
  fault : Fault
  path : Option String := none
  target : Option String := none
  deriving DecidableEq, Repr

/-- The wording of a failure. -/
def Failure.message (f : Failure) : String :=
  let paths := match f.path, f.target with
    | none, _ => ""
    | some p, none => ": " ++ Quoted.text p
    | some p, some q => ": " ++ Quoted.text p ++ " -> " ++ Quoted.text q
  "[Errno " ++ toString f.fault.code ++ "] " ++ f.fault.text ++ paths

/-- Why an operation on a path came to nothing. -/
inductive DiskError where
  /-- The disk refused it. -/
  | refused (f : Failure)
  /-- The path holds a NUL, so it cannot be asked for at all. -/
  | embeddedNul
  deriving DecidableEq, Repr

/-- The wording of a disk error. -/
def DiskError.message : DiskError → String
  | .refused f => f.message
  | .embeddedNul => "embedded null byte"

end Semicolon
