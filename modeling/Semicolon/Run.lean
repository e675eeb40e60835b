/-
A whole run, from the command line to the exit status.

A run is a function of the world it starts in: the disk, what version control answers, how the
program was started, what the system makes of a walk, and which operations of the disk fail.  Its
outcome is the disk afterwards, what was printed, the questions that version control was asked, and
the exit status.

The status is 0 if nothing is missing or everything missing was put in, 1 if something is missing
or an error escaped, and 2 if the command line or the options file cannot be followed.
-/
import Semicolon.Config
import Semicolon.Discovery
import Semicolon.Options
import Semicolon.Report

namespace Semicolon

/-- The world that a run starts in. -/
structure World where
  disk : Disk
  /-- What is made to fail while a file is linted, turn by turn. -/
  hazards : Nat → Hazards := fun _ => {}
  git : Discovery.Staging := .missing
  walker : Discovery.Walker := {}
  /-- The name by which the program was started. -/
  program : String := ""
  /-- The directories in which a bare name is looked up, divided by colons. -/
  searchPath : String := ""

namespace Run

/-- One thing that is printed along the way. -/
inductive Notice where
  /-- A message, which may be below the level that is shown. -/
  | log (m : Message)
  /-- A text that is always shown. -/
  | say (text : String)
  deriving DecidableEq, Repr

/-- The messages of a log as notices. -/
def ofLog (l : Log) : List Notice := l.map .log

/-- What is seen of the notices. -/
def shown (verbose : Bool) : List Notice → String
  | [] => ""
  | .log m :: rest => (if m.isShown verbose then m.line ++ "\n" else "") ++ shown verbose rest
  | .say text :: rest => text ++ shown verbose rest

/-- An error that ends a run before its time. -/
inductive Escape where
  | disk (e : DiskError)
  | config (e : Config.Error)
  | search (e : Discovery.Error)
  deriving DecidableEq, Repr

/-- How a run ended. -/
inductive Ending where
  /-- The run was done and its findings are these. -/
  | done (success : Bool)
  /-- There was nothing to lint. -/
  | idle
  /-- Help was asked for. -/
  | help
  /-- The command line could not be followed. -/
  | usage (e : UsageError)
  /-- An error escaped. -/
  | escaped (e : Escape)
  deriving DecidableEq, Repr

/-- The exit status of an ending. -/
def Ending.status : Ending → Nat
  | .done success => if success then 0 else 1
  | .idle => 0
  | .help => 0
  | .usage _ => 2
  | .escaped _ => 1

/-- The outcome of a run. -/
structure Outcome where
  ending : Ending
  disk : Disk
  notices : List Notice := []
  queries : List (List String) := []
  findings : List Finding := []

/-! ### The stages -/

/-- The policy as the details show it. -/
def policyText (p : Policy) : String :=
  "LintConfig(require_return_terminator=" ++ (if p.requireReturn then "True" else "False") ++ ")"

/-- Writes the report that was asked for, if one was, and ends the run. -/
def conclude (o : Options) (mode : Lint.Mode) (queries : List (List String))
    (notices : List Notice) (linted : Lint.Outcome) : Outcome :=
  let ending : Ending := .done (Report.succeeded mode linted.findings)
  let summary := Notice.say (Report.summary mode linted.findings ++ "\n")
  match o.report.filter (fun p => !p.isEmpty) with
  | none =>
    { ending, disk := linted.disk, notices := notices ++ [summary], queries
      findings := linted.findings }
  | some path =>
    let notices := notices ++ [.log (.debug ("Writing YAML report to `" ++ path ++ "` …"))]
    match Report.write linted.disk mode linted.findings path with
    | .ok disk =>
      { ending, disk, notices := notices ++ [summary], queries, findings := linted.findings }
    | .error (e, disk) =>
      { ending := .escaped (.disk e), disk, notices, queries, findings := linted.findings }

/-- Lints the candidates that are source files. -/
def lint (w : World) (o : Options) (mode : Lint.Mode) (p : Policy)
    (queries : List (List String)) (notices : List Notice) (candidates : List String) : Outcome :=
  let nothing := Notice.say (Report.nothingToLint ++ "\n")
  if candidates.isEmpty then
    { ending := .idle, disk := w.disk, notices := notices ++ [nothing], queries }
  else
    let (kept, log) := Discovery.keep w.disk candidates
    let notices := notices ++ ofLog log
    if kept.isEmpty then
      { ending := .idle, disk := w.disk, notices := notices ++ [nothing], queries }
    else
      let notices :=
        notices ++ [.log (.debug ("Linting " ++ toString kept.length ++ " file(s)."))]
      match Lint.files w.disk w.hazards p mode kept with
      | .error (e, disk, log) =>
        { ending := .escaped (.disk e), disk, notices := notices ++ ofLog log, queries }
      | .ok linted => conclude o mode queries (notices ++ ofLog linted.log) linted

/-- Chooses the files and lints them, under a policy that is settled. -/
def gather (w : World) (o : Options) (p : Policy) (notices : List Notice) : Outcome :=
  let (mode, files) := Options.modeAndFiles o.words
  let word := match mode with
    | .fix => "fix"
    | .check => "check"
  let notices := notices ++ [.log (.debug ("Mode: " ++ word ++ ", " ++ policyText p))]
  let root : Except DiskError String := match o.root with
    | some root => .ok root
    | none => Discovery.defaultRoot w.disk w.searchPath w.program
  match root with
  | .error e => { ending := .escaped (.disk e), disk := w.disk, notices }
  | .ok root =>
    match Discovery.choose w.walker w.disk w.git files (o.staged && files.isEmpty) root with
    | .error (e, log, queries) =>
      { ending := .escaped (.search e), disk := w.disk, notices := notices ++ ofLog log, queries }
    | .ok choice => lint w o mode p choice.queries (notices ++ ofLog choice.log) choice.files

/-- The first option whose path is of the wrong kind, or cannot be asked for. -/
def pathCheck (d : Disk) (o : Options) : List PathOption → Option Ending
  | [] => none
  | p :: rest =>
    match o.path? p with
    | none => pathCheck d o rest
    | some path =>
      if path.toList.contains '\x00' then some (.escaped (.disk .embeddedNul))
      else
        match Options.pathProblem? d p path with
        | some e => some (.usage e)
        | none => pathCheck d o rest

/-- A run under options that were understood. -/
def withOptions (w : World) (o : Options) : Outcome :=
  if o.help then { ending := .help, disk := w.disk }
  else
    match pathCheck w.disk o o.order with
    | some ending => { ending, disk := w.disk }
    | none =>
      let (log, policy) := Config.build w.disk o.config o.allowBareReturn
      match policy with
      | .ok p => gather w o p (ofLog log)
      | .error (.notBoolean path shown) =>
        let e : Config.Error := .notBoolean path shown
        { ending := .usage (.badConfig e.message), disk := w.disk, notices := ofLog log }
      | .error e => { ending := .escaped (.config e), disk := w.disk, notices := ofLog log }

end Run

/-- What a command line does to the world. -/
def run (w : World) (args : List String) : Run.Outcome :=
  match Options.parse args with
  | .error e => { ending := .usage e, disk := w.disk }
  | .ok o => Run.withOptions w o

namespace Run

/-- What a run prints on its standard output. -/
def Outcome.stdout (o : Outcome) : String :=
  match o.ending with
  | .help => Options.helpText
  | _ => ""

/-- What a run prints on its standard error, with or without details. -/
def Outcome.stderr (o : Outcome) (verbose : Bool) : String :=
  shown verbose o.notices ++
    match o.ending with
    | .usage e => e.text
    | _ => ""

/-- Does the command line ask for details? -/
def wantsDetails (args : List String) : Bool :=
  match Options.parse args with
  | .ok o => o.verbose
  | .error _ => false

end Run

end Semicolon
