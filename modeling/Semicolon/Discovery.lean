/-
Which files are linted.

Files that are named win.  Otherwise the staged ones are taken, if they are asked for and there
are any.  Otherwise every source file below a directory is, links to directories followed.
Whatever was chosen is then filtered: only regular files with the source suffix stay.
-/
import Semicolon.Disk.Access
import Semicolon.Log

namespace Semicolon.Discovery

/-! ### Names -/

/-- The suffix of a source file. -/
def sourceSuffix : String := ".js"

/-- Does the path have the suffix of a source file? -/
def isSource (path : String) : Bool := Path.hasSuffix path sourceSuffix

/-- Is the path that of a regular file with the suffix of a source file? -/
def isSourceFile (d : Disk) (path : String) : Bool := isSource path && d.isFile path

/-- Why a search for files is given up. -/
inductive Error where
  /-- A directory cannot be asked for. -/
  | disk (e : DiskError)
  /-- Too many directories lie within one another. -/
  | tooDeep
  /-- What version control printed is no text. -/
  | undecodable (u : Utf8.Undecodable)
  deriving DecidableEq, Repr

/-- The wording of an error. -/
def Error.message : Error → String
  | .disk e => e.message
  | .tooDeep => "maximum recursion depth exceeded"
  | .undecodable u => u.message

/-! ### Below a directory -/

/-- The paths of what is in a directory.  One that cannot be listed holds nothing. -/
def within (d : Disk) (dir : String) : List String :=
  match d.list dir with
  | .error _ => []
  | .ok names => names.map (Path.join dir)

/-- The source files below a directory: its own, then those below each directory in it.  `depth`
bounds how many names may follow the root. -/
def below (d : Disk) : (depth : Nat) → (dir : String) → List String
  | 0, _ => []
  | depth + 1, dir =>
    (within d dir).filter (isSourceFile d) ++
      ((within d dir).filter d.isDirectory).flatMap (below d depth)

/-- No path that resolves has more names than this: between two links it goes down the tree, one
entry a name, and it goes through at most `maxLinks` of them. -/
def depthBound (d : Disk) : Nat := (Disk.maxLinks + 1) * (d.entries.length + 1) + 1

/-- Are there more than `limit` directories below this one, each in the one before it? -/
def nests (d : Disk) : (limit : Nat) → (dir : String) → Bool
  | 0, dir => (within d dir).any d.isDirectory
  | limit + 1, dir => ((within d dir).filter d.isDirectory).any (nests d limit)

/-- What the system that the program runs on has to say about a walk. -/
structure Walker where
  /-- How many directories, each in the one before it, the walk can go down from the root, if that
  has a limit. -/
  limit : Option Nat := none
  /-- The order in which the files turn up.  A system lists a directory in any order it likes. -/
  order : List String → List String := id
  perm : ∀ files, (order files).Perm files := by exact fun files => .refl files

/-- The source files below a directory.  A root that is missing or no directory has none. -/
def sources (walker : Walker) (d : Disk) (root : String) : Except Error (List String) :=
  if root.toList.contains '\x00' then .error (.disk .embeddedNul)
  else if walker.limit.any fun limit => nests d limit root then .error .tooDeep
  else .ok (walker.order (below d (depthBound d) root))

/-! ### Staged files -/

/-- What comes of a question to version control. -/
inductive Answer where
  /-- The command could not be started. -/
  | unstarted (f : Failure)
  /-- What the command printed is no text. -/
  | undecodable (u : Utf8.Undecodable)
  /-- The command printed a text and ended with a status. -/
  | given (status : Int) (text : String)
  deriving DecidableEq, Repr

/-- What version control answers to the question whether this is a work tree, and to the question
which names are staged. -/
structure Staging where
  worktree : Answer := .given 0 ""
  staged : Answer := .given 0 ""
  deriving DecidableEq, Repr

/-- There is no version control. -/
def Staging.missing : Staging where
  worktree := .unstarted { fault := .noSuchEntry, path := some "git" }

/-- The question whether this is a work tree. -/
def worktreeQuery : List String := ["git", "rev-parse", "--is-inside-work-tree"]

/-- The question which files are added, copied, modified or renamed in the index. -/
def stagedQuery : List String :=
  ["git", "diff", "--cached", "--name-only", "--diff-filter=ACMR"]

/-- The characters that end a line of an answer. -/
def isLineBreak (c : Char) : Bool :=
  ['\n', '\r', '\x0b', '\x0c', '\x1c', '\x1d', '\x1e', '\u0085', '\u2028', '\u2029'].contains c

/-- The lines of an answer.  A carriage return and a line feed after it end a line together, and a
break at the very end starts no further line. -/
def answerLines : List Char → List (List Char)
  | [] => []
  | '\r' :: '\n' :: rest => [] :: answerLines rest
  | c :: rest =>
    if isLineBreak c then [] :: answerLines rest
    else
      match answerLines rest with
      | [] => [[c]]
      | l :: ls => (c :: l) :: ls

/-- What asking for staged files gave: the files, the messages and the questions asked. -/
structure Staged where
  files : List String := []
  log : Log := []
  queries : List (List String) := []

/-- The staged source files that exist.  A command that cannot be started, or an answer that this is
no work tree, means that nothing is staged.  What the second command ends with does not count.  An
answer that is no text is an error, which comes with the questions asked. -/
def staged (d : Disk) (git : Staging) : Except (Error × List (List String)) Staged :=
  let notRun (f : Failure) : Log := [.warning ("Could not run git: " ++ f.message)]
  match git.worktree with
  | .unstarted f => .ok { log := notRun f, queries := [worktreeQuery] }
  | .undecodable u => .error (.undecodable u, [worktreeQuery])
  | .given status _ =>
    if status ≠ 0 then
      let log : Log := [.debug "Not inside a git work tree; no staged files."]
      .ok { log, queries := [worktreeQuery] }
    else
      match git.staged with
      | .unstarted f => .ok { log := notRun f, queries := [worktreeQuery, stagedQuery] }
      | .undecodable u => .error (.undecodable u, [worktreeQuery, stagedQuery])
      | .given _ text =>
        let names := (answerLines text.toList).map String.ofList
        .ok { files := names.filter (isSourceFile d), queries := [worktreeQuery, stagedQuery] }

/-! ### Choice -/

/-- Keeps the regular files with the source suffix, with a warning about each other path. -/
def keep (d : Disk) : List String → List String × Log
  | [] => ([], [])
  | path :: rest =>
    let (kept, log) := keep d rest
    if !isSource path then
      (kept, .warning ("Skipping non-JavaScript file " ++ path) :: log)
    else if !d.isFile path then
      (kept, .warning ("Skipping missing file " ++ path) :: log)
    else (path :: kept, log)

/-- What a choice of files gave. -/
structure Choice where
  files : List String
  log : Log := []
  queries : List (List String) := []

/-- Asks for the staged files and says how many there are, if they are wanted. -/
def askStaged (d : Disk) (git : Staging) (want : Bool) :
    Except (Error × List (List String)) Staged :=
  if want then
    (staged d git).map fun s =>
      { s with
        log := s.log ++ [.debug ("Found " ++ toString s.files.length ++ " staged file(s).")] }
  else .ok {}

/-- Chooses the files: those named, else those staged, else those below the root.  An error comes
with the messages and the questions before it. -/
def choose (walker : Walker) (d : Disk) (git : Staging) (named : List String) (wantStaged : Bool)
    (root : String) : Except (Error × Log × List (List String)) Choice :=
  if !named.isEmpty then .ok { files := named }
  else
    match askStaged d git wantStaged with
    | .error (e, queries) => .error (e, [], queries)
    | .ok asked =>
      if !asked.files.isEmpty then
        .ok { files := asked.files, log := asked.log, queries := asked.queries }
      else
        match sources walker d root with
        | .error e => .error (e, asked.log, asked.queries)
        | .ok found =>
          let count := Message.debug
            ("Found " ++ toString found.length ++ " file(s) under " ++ root ++ ".")
          .ok { files := found, log := asked.log ++ [count], queries := asked.queries }

/-! ### Where the program is -/

/-- The program that a bare name stands for: the first executable file of that name in the
directories of the search path. -/
def onSearchPath (d : Disk) (searchPath name : String) : Option String :=
  if searchPath.isEmpty then none
  else
    ((searchPath.splitOn ":").map fun dir => Path.join dir name).find? fun path =>
      match d.entry? path with
      | some (.file _ executable) => executable
      | _ => false

/-- Why a path stands for no place. -/
inductive Lost where
  | missing
  | embeddedNul
  deriving DecidableEq, Repr

/-- The place that steps lead to, where `jump` says what place a link stands for.  Dots and empty
steps are taken as they come, even after a file. -/
def realPlaceVia (d : Disk) (jump : Location → List String → Except Lost Location) :
    (here : Location) → (todo : List String) → Except Lost Location
  | here, [] => .ok here
  | here, name :: rest =>
    if name = "" || name = "." then realPlaceVia d jump here rest
    else if name = ".." then realPlaceVia d jump here.dropLast rest
    else if name.toList.contains '\x00' then .error .embeddedNul
    else
      match d.get? (Disk.child here name) with
      | none => .error .missing
      | some (.link target) =>
        match jump (if Path.isAbsolute target then [] else here) (Path.steps target) with
        | .error e => .error e
        | .ok here => realPlaceVia d jump here rest
      | some _ => realPlaceVia d jump (Disk.child here name) rest

/-- The place that a path stands for once its links are followed.  `depth` bounds how many links
may lead to one another, which only a loop of links can exceed if it is the number of links on the
disk. -/
def realPlace (d : Disk) : (depth : Nat) → Location → List String → Except Lost Location
  | 0 => realPlaceVia d fun _ _ => .error .missing
  | depth + 1 => realPlaceVia d (realPlace d depth)

/-- The number of links on a disk. -/
def linkCount (d : Disk) : Nat :=
  d.entries.countP fun e => match e.2 with
    | .link _ => true
    | _ => false

/-- The directory of the running program, given the name it was started by.  A name without a
slash is looked up on the search path.  If the program cannot be found, the working directory
takes its place. -/
def programDirectory (d : Disk) (searchPath program : String) : Except DiskError String :=
  let path :=
    if program.toList.contains '/' then program
    else (onSearchPath d searchPath program).getD program
  let start := if Path.isAbsolute path then [] else d.cwd
  match realPlace d (linkCount d) start (Path.steps path) with
  | .ok place => .ok (Disk.absolute place.dropLast)
  | .error .missing => .ok (Disk.absolute d.cwd.dropLast)
  | .error .embeddedNul => .error .embeddedNul

/-- The directory that is searched when nothing else is said: `scripts`, beside the program's own
directory. -/
def defaultRoot (d : Disk) (searchPath program : String) : Except DiskError String :=
  (programDirectory d searchPath program).map fun dir => Path.join dir "../scripts"

end Semicolon.Discovery
