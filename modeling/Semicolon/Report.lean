/-
What a run reports: a summary for people, and a YAML file for programs.
-/
import Semicolon.Lint
import Semicolon.Yaml.Print

namespace Semicolon.Report

/-- Said when there is no file to lint. -/
def nothingToLint : String := "No JavaScript files to lint."

/-- A run succeeds if nothing is missing, or if what was missing has been put in. -/
def succeeded (mode : Lint.Mode) (findings : List Finding) : Bool :=
  findings.isEmpty || mode = .fix

/-- The summary: a heading, one finding a line, and a hint; or a line that says that all is well. -/
def summary (mode : Lint.Mode) (findings : List Finding) : String :=
  if findings.isEmpty then "No missing semicolons detected."
  else
    let hint := match mode with
      | .fix => "Auto-fix applied where heuristic matched. Review changes."
      | .check => "Run 'fix' to attempt automatic insertion."
    "\n".intercalate
      ("Missing semicolons detected:" :: findings.map (fun f => "  " ++ f.location) ++ [hint])

/-- One finding as an item of the YAML list. -/
def item (f : Finding) : List Char :=
  "- file: ".toList ++ Yaml.Print.string 4 8 f.file ++ "\n  line: ".toList
    ++ (toString f.line).toList ++ ['\n']

/-- The YAML report: whether files were mended, the number of findings, and the findings. -/
def yaml (mode : Lint.Mode) (findings : List Finding) : List Char :=
  "fix_mode: ".toList ++ (if mode = .fix then "true" else "false").toList
    ++ "\nviolation_count: ".toList ++ (toString findings.length).toList
    ++ "\nviolations:".toList
    ++ (if findings.isEmpty then " []\n".toList else '\n' :: findings.flatMap item)

/-- Writes the YAML report.  Directories on the way are made.  A failure comes with the disk as it
is by then. -/
def write (d : Disk) (mode : Lint.Mode) (findings : List Finding) (path : String) :
    Except (DiskError × Disk) Disk :=
  let dir := Path.parent path
  match (if dir.isEmpty then .ok d else d.makeDirectories dir) with
  | .error e => .error e
  | .ok d =>
    match d.writeFile path ((yaml mode findings).flatMap Utf8.encodeChar) with
    | .ok d => .ok d
    | .error e => .error (e, d)

end Semicolon.Report
