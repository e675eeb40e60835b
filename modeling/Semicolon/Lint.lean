/-
Linting files on a disk.

A file that cannot be read is passed over with a warning.  When files are to be mended, each one
is replaced right after its scan, whether or not anything was missing, and a replacement that
fails takes no finding back.
-/
import Semicolon.Scan
import Semicolon.Replacement

namespace Semicolon.Lint

/-- How a run treats what it finds. -/
inductive Mode where
  /-- Findings are reported only. -/
  | check
  /-- Files are mended as well. -/
  | fix
  deriving DecidableEq, Repr

/-- What the scan of one file gave. -/
structure FileResult where
  findings : List Finding
  mended : List Text

/-- How the lint of one file went.  There is no result for a file that cannot be read. -/
structure FileOutcome where
  disk : Disk
  log : Log
  result : Option FileResult

/-- The lines of a file. -/
def readLines (d : Disk) (path : String) : Except DiskError (List Text) :=
  (d.readFile path).map Source.lines

/-- Lints one file. -/
def file (d : Disk) (h : Hazards) (p : Policy) (mode : Mode) (path : String) :
    Except DiskError FileOutcome :=
  match readLines d path with
  | .error .embeddedNul => .error .embeddedNul
  | .error (.refused f) =>
    let skipped := Message.warning ("Skipping unreadable file " ++ path ++ ": " ++ f.message)
    .ok { disk := d, log := [skipped], result := none }
  | .ok lines =>
    let findings := Scan.findings p path lines
    let mended := Scan.mended p lines
    let log : Log :=
      [.debug ("Scanning " ++ path ++ " (" ++ toString lines.length ++ " lines)"),
        .debug ("  → " ++ toString findings.length ++ " missing semicolon(s) in " ++ path)]
    match mode with
    | .check => .ok { disk := d, log, result := some { findings, mended } }
    | .fix =>
      match Replacement.apply d h path mended with
      | .error e => .error e
      | .ok o =>
        .ok { disk := o.disk, log := log ++ o.log, result := some { findings, mended } }

/-- How the lint of several files went. -/
structure Outcome where
  disk : Disk
  log : Log
  findings : List Finding

/-- Lints files one after another, each with the hazards that its turn has; findings are in the
order of the files, then of the lines.  An error that no file can be blamed for ends the lint and
comes with what was done until then. -/
def files (d : Disk) (h : Nat → Hazards) (p : Policy) (mode : Mode) :
    List String → Except (DiskError × Disk × Log) Outcome
  | [] => .ok { disk := d, log := [], findings := [] }
  | path :: rest =>
    match file d (h 0) p mode path with
    | .error e => .error (e, d, [])
    | .ok o =>
      let found := match o.result with
        | some r => r.findings
        | none => []
      match files o.disk (fun turn => h (turn + 1)) p mode rest with
      | .error (e, d, log) => .error (e, d, o.log ++ log)
      | .ok o' =>
        .ok { disk := o'.disk, log := o.log ++ o'.log, findings := found ++ o'.findings }

end Semicolon.Lint
