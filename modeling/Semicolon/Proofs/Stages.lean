/-
The stages of a run.

A run reads its command line, asks whether the paths in it are of the right kind, settles on a
policy, looks for a root, chooses files and lints those that are source files.  Each stage may end
the run, and if it does, the disk is left as it was.  A run that goes through all stages has nothing
to lint, or ends with what its lint gives.
-/
import Semicolon.Run
import Semicolon.Proofs.Selection
import Semicolon.Proofs.Visit

namespace Semicolon

/-! ### One more word -/

namespace Options

variable {o o' : Options} {args : List String} {word : String}

theorem parseFrom_word (hword : isOption word = false) :
    parseFrom o (word :: args) = parseFrom { o with words := o.words ++ [word] } args := by
  have hne : word ≠ "--" := by
    rintro rfl
    exact absurd hword (by decide)
  rw [parseFrom.eq_3 o word args hne]
  simp [hword]

/-- A word at the end is one more word, and changes nothing else. -/
theorem parseFrom_concat (hword : isOption word = false) (h : parseFrom o args = .ok o') :
    parseFrom o (args ++ [word]) = .ok { o' with words := o'.words ++ [word] } := by
  fun_induction parseFrom o args generalizing o' with
  | case6 | case7 | case9 | case10 => cases h
  | case1 =>
      cases h
      rw [List.nil_append, parseFrom_word hword, parseFrom]
  | case2 =>
      cases h
      simp [parseFrom]
  | case3 o arg rest hdash harg ih =>
      rw [List.cons_append, parseFrom_word (by simpa using harg)]
      exact ih h
  | case4 o arg rest hdash harg name p hoption value hnamed ih =>
      rw [List.cons_append, parseFrom.eq_3 _ _ _ hdash, if_neg harg, hnamed]
      simp only [hoption]
      exact ih h
  | case5 o arg hdash harg name p hoption value rest hnamed ih =>
      rw [List.cons_append, parseFrom.eq_3 _ _ _ hdash, if_neg harg, hnamed]
      simp only [hoption]
      exact ih h
  | case8 o arg rest hdash harg name value? hnamed set hflag hoption hvalue ih =>
      rw [List.cons_append, parseFrom.eq_3 _ _ _ hdash, if_neg harg, hnamed]
      simp only [hoption, hflag, if_neg hvalue]
      exact ih h
  | case11 o arg rest hdash harg name value? hnamed hflag hoption hlong o₁ hletters ih =>
      rw [List.cons_append, parseFrom.eq_3 _ _ _ hdash, if_neg harg, hnamed]
      simp only [hoption, hflag, if_neg hlong, hletters]
      exact ih h

/-! ### Words that set the mode -/

/-- Does the word set the mode? -/
def isModeWord (word : String) : Bool := word = "fix" || word = "check"

theorem modeAndFiles_concat (words : List String) (word : String) :
    modeAndFiles (words ++ [word]) =
      if word = "fix" then (.fix, (modeAndFiles words).2)
      else if word = "check" then (.check, (modeAndFiles words).2)
      else ((modeAndFiles words).1, (modeAndFiles words).2 ++ [word]) := by
  unfold modeAndFiles
  rw [List.foldl_append]
  rfl

/-- The mode that the last such word asks for. -/
def lastMode (words : List String) : Lint.Mode :=
  if (words.filter isModeWord).getLast? = some "fix" then .fix else .check

/-- **The last word that sets the mode counts, and the other words name the files.** -/
theorem modeAndFiles_eq (words : List String) :
    modeAndFiles words = (lastMode words, words.filter fun word => !isModeWord word) := by
  unfold lastMode
  induction words using List.reverseRecOn with
  | nil => rfl
  | append_singleton words word ih =>
      rw [modeAndFiles_concat, ih, List.filter_append, List.filter_append]
      by_cases hfix : word = "fix"
      · subst hfix
        simp [isModeWord]
      by_cases hcheck : word = "check"
      · subst hcheck
        simp [isModeWord]
      · simp [isModeWord, hfix, hcheck]

end Options

namespace Run

variable {w : World} {o : Options} {p : Policy} {mode : Lint.Mode} {candidates : List String}
  {queries : List (List String)} {out : Lint.Outcome}

/-! ### The stages of a run -/

theorem run_of_parse {args : List String} (hparse : Options.parse args = .ok o) :
    run w args = withOptions w o := by
  simp only [run, hparse]

/-- The files that the words name. -/
def namedFiles (o : Options) : List String := (Options.modeAndFiles o.words).2

/-- Are staged files asked for, and no others? -/
def wantsStaged (o : Options) : Bool := o.staged && (namedFiles o).isEmpty

/-- The directory to search: the one that is given, or the one by default. -/
def rootOf (w : World) (o : Options) : Except DiskError String :=
  match o.root with
  | some root => .ok root
  | none => Discovery.defaultRoot w.disk w.searchPath w.program

/-- The files that a run lints: none, if help is asked for. -/
def linted (w : World) (o : Options) : List String :=
  if o.help then []
  else
    match rootOf w o with
    | .error _ => []
    | .ok root =>
      match Discovery.chosen w.walker w.disk w.git (namedFiles o) (wantsStaged o) root with
      | .error _ => []
      | .ok files => (Discovery.keep w.disk files).1

/-- A run went through all of its stages: it was not asked for help, the paths of its options are
of the right kind, the policy is settled, files are chosen, and those that are kept are linted with
this outcome. -/
structure Stages (w : World) (o : Options) (mode : Lint.Mode) (p : Policy) (root : String)
    (files : List String) (out : Lint.Outcome) : Prop where
  noHelp : o.help = false
  pathsFit : pathCheck w.disk o o.order = none
  policyIs : (Config.build w.disk o.config o.allowBareReturn).2 = .ok p
  rootIs : rootOf w o = .ok root
  chosenAre : Discovery.chosen w.walker w.disk w.git (namedFiles o) (wantsStaged o) root =
    .ok files
  lintGives : Lint.files w.disk w.hazards p mode (Discovery.keep w.disk files).1 = .ok out

theorem Stages.linted_eq {root : String} {files : List String}
    (h : Stages w o mode p root files out) : linted w o = (Discovery.keep w.disk files).1 := by
  unfold linted
  simp only [h.noHelp, h.rootIs, h.chosenAre]
  rfl

theorem ofLog_append (log log' : Log) : ofLog (log ++ log') = ofLog log ++ ofLog log' :=
  List.map_append

/-- The outcome of a run that has nothing to lint. -/
def idle (w : World) (log : Log) (queries : List (List String)) : Outcome where
  ending := .idle
  disk := w.disk
  notices := ofLog log ++ [.say (Report.nothingToLint ++ "\n")]
  queries := queries

/-- Either none of the candidates is kept and there is nothing to lint, or the run ends with what
the lint of those that are kept gives. -/
theorem lint_eq
    (hrun : Lint.files w.disk w.hazards p mode (Discovery.keep w.disk candidates).1 = .ok out)
    (log : Log) : ∃ log', lint w o mode p queries (ofLog log) candidates =
      if (Discovery.keep w.disk candidates).1 = [] then idle w log' queries
      else conclude o mode queries (ofLog log') out := by
  rcases hkeep : Discovery.keep w.disk candidates with ⟨kept, skipped⟩
  rw [hkeep] at hrun
  cases candidates with
  | nil =>
      cases hkeep
      exact ⟨log, rfl⟩
  | cons path candidates =>
      cases kept with
      | nil =>
          refine ⟨log ++ skipped, ?_⟩
          simp [lint, hkeep, ofLog_append, idle]
      | cons path kept =>
          refine ⟨log ++ skipped ++
            [.debug ("Linting " ++ toString (path :: kept).length ++ " file(s).")] ++ out.log, ?_⟩
          simp [lint, hkeep, hrun, ofLog]

/-- Once the root is found, files are chosen and linted, or an error escapes. -/
theorem gather_eq {root : String} (hroot : rootOf w o = .ok root) (log : Log) :
    ∃ log', gather w o p (ofLog log) =
      match Discovery.choose w.walker w.disk w.git (namedFiles o) (wantsStaged o) root with
      | .error (e, log, queries) =>
        { ending := .escaped (.search e), disk := w.disk, notices := ofLog (log' ++ log), queries }
      | .ok choice =>
        lint w o (Options.modeAndFiles o.words).1 p choice.queries (ofLog (log' ++ choice.log))
          choice.files := by
  have hnotice : ∀ text, ofLog log ++ [.log (.debug text)] = ofLog (log ++ [.debug text]) :=
    fun text => (ofLog_append log [.debug text]).symm
  cases hgiven : o.root with
  | none =>
      simp only [rootOf, hgiven] at hroot
      simp only [gather, hgiven, hroot, hnotice, ← ofLog_append]
      exact ⟨_, rfl⟩
  | some given =>
      simp only [rootOf, hgiven, Except.ok.injEq] at hroot
      simp only [gather, hgiven, hroot, hnotice, ← ofLog_append]
      exact ⟨_, rfl⟩

theorem gather_of_lost {e : DiskError} (hroot : rootOf w o = .error e) (notices : List Notice) :
    ∃ notices', gather w o p notices =
      { ending := .escaped (.disk e), disk := w.disk, notices := notices' } := by
  cases hgiven : o.root with
  | some given =>
      simp only [rootOf, hgiven] at hroot
      cases hroot
  | none =>
      simp only [rootOf, hgiven] at hroot
      simp only [gather, hgiven, hroot]
      exact ⟨_, rfl⟩

/-- **A run that goes through all stages has nothing to lint, or ends with what its lint gives.** -/
theorem withOptions_of_stages {root : String} {files : List String}
    (h : Stages w o (Options.modeAndFiles o.words).1 p root files out) :
    ∃ log queries, withOptions w o =
      if linted w o = [] then idle w log queries
      else conclude o (Options.modeAndFiles o.words).1 queries (ofLog log) out := by
  obtain ⟨choice, hchoose, rfl⟩ := Discovery.exists_choose_iff.mpr h.chosenAre
  rcases hbuild : Config.build w.disk o.config o.allowBareReturn with ⟨log, policy⟩
  obtain rfl : policy = .ok p := by
    rw [← h.policyIs, hbuild]
  obtain ⟨log', hgather⟩ := gather_eq h.rootIs log
  obtain ⟨log'', hlint⟩ := lint_eq h.lintGives (log' ++ choice.log)
  refine ⟨log'', choice.queries, ?_⟩
  simp only [withOptions, h.noHelp, h.pathsFit, hbuild]
  rw [if_neg (by simp), hgather, hchoose, h.linted_eq]
  exact hlint

/-- The paths of the options are of the right kind exactly if each of them can be asked for and is
no problem. -/
theorem pathCheck_eq_none_iff {d : Disk} {order : List PathOption} :
    pathCheck d o order = none ↔ ∀ opt ∈ order, ∀ path, o.path? opt = some path →
      '\x00' ∉ path.toList ∧ Options.pathProblem? d opt path = none := by
  induction order with
  | nil => simp [pathCheck]
  | cons opt order ih =>
      rw [List.forall_mem_cons, ← ih, pathCheck]
      cases hpath : o.path? opt with
      | none => simp
      | some path =>
          simp only [List.contains_iff_mem]
          by_cases hnul : '\x00' ∈ path.toList
          · simp [hnul]
          cases hproblem : Options.pathProblem? d opt path <;> simp [hnul, hproblem]

/-- A run stopped before it linted anything: it showed help that was asked for, refused to follow
the command line, or an error escaped.  The disk is as it was, and version control was asked
nothing, unless an error escaped. -/
structure Stopped (w : World) (o : Options) (r : Outcome) : Prop where
  ending : o.help = true ∧ r.ending = .help ∨ (∃ e, r.ending = .usage e) ∨
    ∃ e, r.ending = .escaped e
  disk : r.disk = w.disk
  silent : (∀ e, r.ending ≠ .escaped e) → r.queries = []

theorem Stopped.of_escaped {r : Outcome} {e : Escape} (hending : r.ending = .escaped e)
    (hdisk : r.disk = w.disk) : Stopped w o r :=
  ⟨.inr (.inr ⟨e, hending⟩), hdisk, fun hnone => absurd hending (hnone e)⟩

theorem stopped_of_pathCheck {d : Disk} {order : List PathOption} {ending : Ending}
    (h : pathCheck d o order = some ending) : Stopped w o { ending, disk := w.disk } := by
  refine ⟨?_, rfl, fun _ => rfl⟩
  induction order with
  | nil => cases h
  | cons opt order ih =>
      rw [pathCheck] at h
      split at h
      · exact ih h
      split at h
      · cases h
        exact .inr (.inr ⟨_, rfl⟩)
      split at h
      · cases h
        exact .inr (.inl ⟨_, rfl⟩)
      · exact ih h

/-- Files that are kept can be linted: only a path that cannot be asked for ends a lint. -/
theorem exists_files_of_keep (d : Disk) (hs : Nat → Hazards) (p : Policy) (mode : Lint.Mode)
    (files : List String) : ∃ out, Lint.files d hs p mode (Discovery.keep d files).1 = .ok out :=
  Lint.exists_files (fun _ hq => Discovery.noNul_of_mem_keep hq) d hs p mode

/-- Once the policy is settled, a run goes through the stages that are left, or an error escapes
before anything is linted. -/
theorem stages_or_escaped (hhelp : o.help = false) (hpaths : pathCheck w.disk o o.order = none)
    (hpolicy : (Config.build w.disk o.config o.allowBareReturn).2 = .ok p) :
    (∃ root files out, Stages w o (Options.modeAndFiles o.words).1 p root files out) ∨
      ∃ e, (withOptions w o).ending = .escaped e ∧ (withOptions w o).disk = w.disk := by
  rcases hbuild : Config.build w.disk o.config o.allowBareReturn with ⟨log, policy⟩
  obtain rfl : policy = .ok p := by
    rw [← hpolicy, hbuild]
  have hgathers : withOptions w o = gather w o p (ofLog log) := by
    simp [withOptions, hhelp, hpaths, hbuild]
  cases hroot : rootOf w o with
  | error e =>
      obtain ⟨notices, hgather⟩ := gather_of_lost (p := p) hroot (ofLog log)
      refine .inr ⟨.disk e, ?_⟩
      rw [hgathers, hgather]
      exact ⟨rfl, rfl⟩
  | ok root =>
      cases hchoose : Discovery.choose w.walker w.disk w.git (namedFiles o) (wantsStaged o) root with
      | error e =>
          obtain ⟨log', hgather⟩ := gather_eq (p := p) hroot log
          refine .inr ⟨.search e.1, ?_⟩
          rw [hgathers, hgather, hchoose]
          exact ⟨rfl, rfl⟩
      | ok choice =>
          obtain ⟨out, hrun⟩ := exists_files_of_keep w.disk w.hazards p
            (Options.modeAndFiles o.words).1 choice.files
          exact .inl ⟨root, choice.files, out, hhelp, hpaths, hpolicy, hroot,
            Discovery.exists_choose_iff.mp ⟨choice, hchoose, rfl⟩, hrun⟩

/-- **A run goes through all stages, or it stops before it lints anything.** -/
theorem stages_or_stopped (w : World) (o : Options) :
    (∃ p root files out, Stages w o (Options.modeAndFiles o.words).1 p root files out) ∨
      Stopped w o (withOptions w o) := by
  cases hhelp : o.help with
  | true =>
      refine .inr ⟨.inl ⟨hhelp, ?_⟩, ?_, fun _ => ?_⟩ <;> simp [withOptions, hhelp]
  | false =>
  cases hpaths : pathCheck w.disk o o.order with
  | some ending =>
      have hstops : withOptions w o = { ending, disk := w.disk } := by
        simp [withOptions, hhelp, hpaths]
      rw [hstops]
      exact .inr (stopped_of_pathCheck hpaths)
  | none =>
  rcases hbuild : Config.build w.disk o.config o.allowBareReturn with ⟨log, policy⟩
  cases policy with
  | ok p =>
      rcases stages_or_escaped hhelp hpaths (congrArg Prod.snd hbuild) with
        hstages | ⟨e, hending, hdisk⟩
      · exact .inl ⟨p, hstages⟩
      · exact .inr (.of_escaped hending hdisk)
  | error e =>
      simp only [withOptions, hhelp, hpaths, hbuild]
      cases e with
      | notBoolean => exact .inr ⟨.inr (.inl ⟨_, rfl⟩), rfl, fun _ => rfl⟩
      | _ => exact .inr (.of_escaped rfl rfl)

/-! ### Runs without a report -/

/-- The outcome has the disk and the findings of the lint, and the status that they call for. -/
structure Reports (mode : Lint.Mode) (out : Lint.Outcome) (r : Outcome) : Prop where
  status : r.ending.status = if Report.succeeded mode out.findings then 0 else 1
  disk : r.disk = out.disk
  findings : r.findings = out.findings

/-- **A run through all stages reports what its lint gives.** -/
theorem reports_of_stages {root : String} {files : List String} (hreport : o.report = none)
    (hmode : (Options.modeAndFiles o.words).1 = mode)
    (h : Stages w o mode p root files out) : Reports mode out (withOptions w o) := by
  subst hmode
  obtain ⟨log, queries, hrun⟩ := withOptions_of_stages h
  rw [hrun]
  split
  · rename_i hnone
    have hgives := h.lintGives
    rw [← h.linted_eq, hnone] at hgives
    cases hgives
    exact ⟨rfl, rfl, rfl⟩
  · simp only [conclude, hreport, Option.filter_none]
    exact ⟨rfl, rfl, rfl⟩

/-- **A run that ends well, and was not asked for help, went through all stages.** -/
theorem stages_of_status (hhelp : o.help = false)
    (hmode : (Options.modeAndFiles o.words).1 = mode)
    (hstatus : (withOptions w o).ending.status = 0) :
    ∃ p root files out, Stages w o mode p root files out := by
  subst hmode
  rcases stages_or_stopped w o with hstages | hstopped
  · exact hstages
  rcases hstopped.ending with ⟨hasked, -⟩ | ⟨e, hending⟩ | ⟨e, hending⟩
  · cases hhelp.symm.trans hasked
  · rw [hending] at hstatus
    cases hstatus
  · rw [hending] at hstatus
    cases hstatus

end Run

end Semicolon
