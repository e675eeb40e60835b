/-
The command line.

Options and words may come in any order.  An option that takes a value takes the next argument
whatever it looks like, or what follows its equals sign; the last value counts.  After `--`
everything is a word, and so is a single hyphen.  All arguments are read before any of them is
acted on, so one unknown option anywhere is an error even if help is asked for.
-/
import Semicolon.Disk.Access
import Semicolon.Lint

namespace Semicolon

/-- The options whose value is a path. -/
inductive PathOption where
  | config
  | report
  | root
  deriving DecidableEq, Repr

/-- The name of an option that takes a path. -/
def PathOption.name : PathOption → String
  | .config => "--config"
  | .report => "--report"
  | .root => "--root"

/-- What a command line asks for. -/
structure Options where
  staged : Bool := false
  allowBareReturn : Bool := false
  verbose : Bool := false
  help : Bool := false
  config : Option String := none
  report : Option String := none
  root : Option String := none
  /-- The arguments that are no options. -/
  words : List String := []
  /-- The options with a path, in the order in which they first appear. -/
  order : List PathOption := []
  deriving DecidableEq, Repr

/-- Why a command line cannot be followed. -/
inductive UsageError where
  | noSuchOption (name : String)
  | needsArgument (name : String)
  | takesNoValue (name : String)
  | isDirectory (option : PathOption) (path : String)
  | isFile (option : PathOption) (path : String)
  | badConfig (message : String)
  deriving DecidableEq, Repr

namespace UsageError

/-- The wording of an error. -/
def message : UsageError → String
  | .noSuchOption name => "No such option " ++ Quoted.text name ++ "."
  | .needsArgument name => "Option " ++ Quoted.text name ++ " requires an argument."
  | .takesNoValue name => "Option " ++ Quoted.text name ++ " does not take a value."
  | .isDirectory option path =>
    "Invalid value for '" ++ option.name ++ "': File " ++ Quoted.text path ++ " is a directory."
  | .isFile option path =>
    "Invalid value for '" ++ option.name ++ "': Directory " ++ Quoted.text path ++ " is a file."
  | .badConfig message => message

/-- The first line of the help text and of most errors. -/
def usageLine : String := "Usage: semi-lint [OPTIONS] [ARGS]...\n"

/-- The error as it is printed.  A missing or superfluous value is reported without the usage. -/
def text (e : UsageError) : String :=
  let error := "Error: " ++ e.message ++ "\n"
  match e with
  | .needsArgument _ | .takesNoValue _ => error
  | _ => usageLine ++ "Try 'semi-lint --help' for help.\n\n" ++ error

end UsageError

namespace Options

/-! ### Reading the arguments -/

/-- An option that takes no value, by its long name. -/
def flag? (name : String) : Option (Options → Options) :=
  match name with
  | "--staged" | "--cached" => some fun o => { o with staged := true }
  | "--allow-return-no-semi" => some fun o => { o with allowBareReturn := true }
  | "--verbose" => some fun o => { o with verbose := true }
  | "--help" => some fun o => { o with help := true }
  | _ => none

/-- An option that takes a path, by its name. -/
def pathOption? (name : String) : Option PathOption :=
  [PathOption.config, .report, .root].find? fun p => p.name = name

/-- The options with a path set. -/
def setPath (o : Options) (p : PathOption) (value : String) : Options :=
  let o := if o.order.contains p then o else { o with order := o.order ++ [p] }
  match p with
  | .config => { o with config := some value }
  | .report => { o with report := some value }
  | .root => { o with root := some value }

/-- The options after letters behind a single hyphen. -/
def letters (o : Options) : List Char → Except UsageError Options
  | [] => .ok o
  | 'v' :: rest => letters { o with verbose := true } rest
  | 'h' :: rest => letters { o with help := true } rest
  | c :: _ => .error (.noSuchOption (String.ofList ['-', c]))

/-- What an argument says: a name, and a value if an equals sign follows it. -/
def named (arg : String) : String × Option String :=
  match arg.toList.dropWhile (· ≠ '=') with
  | [] => (arg, none)
  | _ :: value =>
    (String.ofList (arg.toList.takeWhile (· ≠ '=')), some (String.ofList value))

/-- Is the argument an option rather than a word? -/
def isOption (arg : String) : Bool :=
  match arg.toList with
  | '-' :: _ :: _ => true
  | _ => false

/-- The options after the arguments. -/
def parseFrom (o : Options) : List String → Except UsageError Options
  | [] => .ok o
  | "--" :: rest => .ok { o with words := o.words ++ rest }
  | arg :: rest =>
    if !isOption arg then parseFrom { o with words := o.words ++ [arg] } rest
    else
      let (name, value?) := named arg
      match pathOption? name, flag? name with
      | some p, _ =>
        match value? with
        | some value => parseFrom (o.setPath p value) rest
        | none =>
          match rest with
          | value :: rest => parseFrom (o.setPath p value) rest
          | [] => .error (.needsArgument name)
      | none, some set =>
        if value?.isSome then .error (.takesNoValue name) else parseFrom (set o) rest
      | none, none =>
        if "--".toList.isPrefixOf arg.toList then .error (.noSuchOption name)
        else
          match letters o (arg.toList.drop 1) with
          | .error e => .error e
          | .ok o => parseFrom o rest

/-- What a command line asks for. -/
def parse (args : List String) : Except UsageError Options := parseFrom {} args

/-! ### Paths of the wrong kind -/

/-- The value of an option with a path. -/
def path? (o : Options) : PathOption → Option String
  | .config => o.config
  | .report => o.report
  | .root => o.root

/-- What is wrong with the path of an option: only an existing entry of the wrong kind is refused. -/
def pathProblem? (d : Disk) (p : PathOption) (path : String) : Option UsageError :=
  match p with
  | .root => if d.isFile path then some (.isFile p path) else none
  | _ => if d.isDirectory path then some (.isDirectory p path) else none

/-! ### Words -/

/-- The mode that the words ask for and the files that they name.  The last mode word counts. -/
def modeAndFiles : List String → Lint.Mode × List String
  | words =>
    words.foldl (fun (mode, files) word =>
      if word = "fix" then (.fix, files)
      else if word = "check" then (.check, files)
      else (mode, files ++ [word])) (.check, [])

/-! ### Help -/

/-- The help text. -/
def helpText : String :=
  UsageError.usageLine ++
  "\n" ++
  "  Heuristic missing-semicolon linter for JavaScript.\n" ++
  "\n" ++
  "    semi-lint [check]                # report, non-zero exit on violations\n" ++
  "    semi-lint fix                    # insert missing trailing semicolons\n" ++
  "    semi-lint --staged               # only staged *.js files\n" ++
  "    semi-lint fix --staged           # auto-fix only staged *.js files\n" ++
  "    semi-lint check a.js b.js        # limit to specific files\n" ++
  "\n" ++
  "Options:\n" ++
  "  --staged, --cached      Only lint staged *.js files (ignored when files are\n" ++
  "                          given)\n" ++
  "  --allow-return-no-semi  Do NOT require semicolons after `return`\n" ++
  "  --config FILE           YAML file with lint options\n" ++
  "                          (require_return_terminator)\n" ++
  "  --report FILE           Also write the violations to this YAML file\n" ++
  "  --root DIRECTORY        Directory to walk when no files are given (default:\n" ++
  "                          ../scripts next to the executable)\n" ++
  "  -v, --verbose           Enable verbose (DEBUG) logging\n" ++
  "  -h, --help              Show this message and exit.\n"

end Options

end Semicolon
