/-
What a run accounts for: its exit status, the list that it prints, and the file that it reports to.

A run that settles on a policy, and from which no error escapes, goes through all stages.  Its
status is then a gate: a check fails exactly if a file that is kept lacks a semicolon, and nothing
else, be it how the files were chosen or in what order the words came, has a say in it.  What is
printed last is the list of the findings, file by file and line by line.

The file that a run reports to holds the findings of that run, if there was something to lint.  If
there was nothing, the run ends well without a look at that file, which may still hold what an
earlier run had to say.
-/
import Semicolon.Proofs.SameFindings
import Semicolon.Proofs.Stages

namespace Semicolon

/-! ### The list that is printed -/

namespace Report

/-- The lines that are printed about findings: a heading, a line for each of them and a hint, or a
single line if there are none. -/
def printed (mode : Lint.Mode) (findings : List Finding) : List String :=
  if findings = [] then ["No missing semicolons detected."]
  else
    "Missing semicolons detected:" ::
      findings.map (fun f => "  " ++ f.file ++ ":" ++ toString f.line) ++
      [match mode with
        | .fix => "Auto-fix applied where heuristic matched. Review changes."
        | .check => "Run 'fix' to attempt automatic insertion."]

/-- The text of these lines, each of which ends in a newline. -/
def listing (mode : Lint.Mode) (findings : List Finding) : String :=
  String.join ((printed mode findings).map (· ++ "\n"))

/-- Lines with a newline between each two of them, and one more, end in a newline each. -/
theorem intercalate_newline {lines : List String} (hlines : lines ≠ []) :
    "\n".intercalate lines ++ "\n" = String.join (lines.map (· ++ "\n")) := by
  induction lines with
  | nil => exact absurd rfl hlines
  | cons line lines ih =>
      cases lines with
      | nil => simp
      | cons line' lines =>
          rw [String.intercalate_cons_cons, List.map_cons, String.join_cons, ← ih (by simp),
            String.append_assoc]

theorem summary_eq (mode : Lint.Mode) (findings : List Finding) :
    summary mode findings ++ "\n" = listing mode findings := by
  have hsummary : summary mode findings = "\n".intercalate (printed mode findings) := by
    unfold summary printed
    cases findings with
    | nil => simp
    | cons f findings =>
        cases mode <;> simp [Finding.location, String.append_assoc]
  have hprinted : printed mode findings ≠ [] := by
    unfold printed
    split <;> simp
  rw [hsummary, intercalate_newline hprinted, listing]

end Report

/-! ### The order of findings -/

namespace Lint

variable {d : Disk} {p : Policy} {path : String} {paths : List String} {mode : Mode}

/-- The findings are in the order of the files and, in one file, of the lines. -/
inductive InOrder : List String → List Finding → Prop where
  | nil : InOrder [] []
  | cons {path : String} {paths : List String} {findings : List Finding} (numbers : List Nat)
      (hnumbers : numbers.Pairwise (· < ·)) (hrest : InOrder paths findings) :
      InOrder (path :: paths) (numbers.map (fun n => ⟨path, n⟩) ++ findings)

theorem exists_numbers (d : Disk) (p : Policy) (path : String) :
    ∃ numbers : List Nat, numbers.Pairwise (· < ·) ∧
      found d p path = numbers.map fun n => ⟨path, n⟩ := by
  unfold found
  cases d.readFile path with
  | error e => exact ⟨[], List.Pairwise.nil, rfl⟩
  | ok bs => exact ⟨Scan.missing p (Source.lines bs), Scan.missing_pairwise p _, rfl⟩

/-- **A lint of several files finds in order.** -/
theorem inOrder_files {hs : Nat → Hazards} {out : Outcome}
    (hrun : files d hs p mode paths = .ok out) : InOrder paths out.findings := by
  induction paths generalizing d hs out with
  | nil =>
      cases hrun
      exact .nil
  | cons path paths ih =>
      obtain ⟨o, out', -, hrest, -, hfindings⟩ := files_cons hrun
      obtain ⟨numbers, hnumbers, hfound⟩ := exists_numbers d p path
      rw [hfindings, hfound]
      exact .cons numbers hnumbers (ih hrest)

theorem found_ne_nil_iff : found d p path ≠ [] ↔
    ∃ bs, d.readFile path = .ok bs ∧ Scan.missing p (Source.lines bs) ≠ [] := by
  unfold found
  cases d.readFile path with
  | error e => simp
  | ok bs => simp [scanned, Scan.findings]

end Lint

namespace Run

variable {w : World} {args : List String} {o : Options} {p : Policy} {out : Lint.Outcome}
  {mode : Lint.Mode} {root : String} {files : List String}

/-! ### The exit status -/

/-- The command line is understood, no help is asked for, the paths of the options are of the right
kind, the policy is settled, and no error escapes. -/
structure Completes (w : World) (args : List String) (o : Options) (p : Policy) : Prop where
  parsed : Options.parse args = .ok o
  noHelp : o.help = false
  pathsFit : pathCheck w.disk o o.order = none
  policyIs : (Config.build w.disk o.config o.allowBareReturn).2 = .ok p
  noEscape : ∀ e, (run w args).ending ≠ .escaped e

/-- Some file that is kept can be read and lacks a semicolon. -/
def SomeMissing (d : Disk) (p : Policy) (kept : List String) : Prop :=
  ∃ path ∈ kept, ∃ bs, d.readFile path = .ok bs ∧ Scan.missing p (Source.lines bs) ≠ []

theorem Completes.stages (h : Completes w args o p) : ∃ root files out,
    Stages w o (Options.modeAndFiles o.words).1 p root files out := by
  rcases stages_or_escaped h.noHelp h.pathsFit h.policyIs with hstages | ⟨e, hending, -⟩
  · exact hstages
  · rw [← run_of_parse h.parsed] at hending
    exact absurd hending (h.noEscape e)

/-- The choice of files does not need to be told that files are named. -/
theorem chosen_namedFiles (walker : Discovery.Walker) (d : Disk) (git : Discovery.Staging)
    (o : Options) (root : String) :
    Discovery.chosen walker d git (namedFiles o) (wantsStaged o) root =
      Discovery.chosen walker d git (namedFiles o) o.staged root := by
  unfold Discovery.chosen wantsStaged
  by_cases hnamed : namedFiles o = []
  · simp [hnamed]
  · simp [hnamed]

/-- A lint that checks finds something exactly if a file that can be read lacks a semicolon. -/
theorem Stages.findings_check (h : Stages w o .check p root files out) :
    out.findings ≠ [] ↔ SomeMissing w.disk p (Discovery.keep w.disk files).1 := by
  rw [(Lint.files_of_check h.lintGives).2, Ne, List.flatMap_eq_nil_iff]
  push Not
  exact exists_congr fun path => and_congr_right fun _ => Lint.found_ne_nil_iff

/-- The bytes of the file that a run reports to. -/
def reportBytes (mode : Lint.Mode) (findings : List Finding) : Bytes :=
  (Report.yaml mode findings).flatMap Utf8.encodeChar

/-- A run is done, and accounts for what its lint gave: by its ending, by the list that it prints
after its messages, and by the file that it reports to, if it has one. -/
structure Accounts (o : Options) (mode : Lint.Mode) (out : Lint.Outcome) (r : Outcome) : Prop where
  ending : r.ending = .done (Report.succeeded mode out.findings)
  list : ∃ log, ∀ verbose, r.stderr verbose =
    shown verbose (ofLog log) ++ Report.listing mode out.findings
  report : ∀ path, o.report = some path → path ≠ "" →
    r.disk.readFile path = .ok (reportBytes mode out.findings)

theorem shown_append (verbose : Bool) (notices notices' : List Notice) :
    shown verbose (notices ++ notices') = shown verbose notices ++ shown verbose notices' := by
  induction notices with
  | nil => simp [shown]
  | cons notice notices ih =>
      cases notice <;> simp [shown, ih, String.append_assoc]

/-- What comes last of a run that is done is its list. -/
theorem stderr_of_done {r : Outcome} {success : Bool} {log : Log} {findings : List Finding}
    (hending : r.ending = .done success)
    (hnotices : r.notices = ofLog log ++ [.say (Report.summary mode findings ++ "\n")])
    (verbose : Bool) : r.stderr verbose =
      shown verbose (ofLog log) ++ Report.listing mode findings := by
  rw [Outcome.stderr, hending, hnotices, shown_append, ← Report.summary_eq]
  simp [shown]

theorem readFile_of_write {d d' : Disk} {findings : List Finding} {path : String}
    (h : Report.write d mode findings path = .ok d') :
    d'.readFile path = .ok (reportBytes mode findings) := by
  simp only [Report.write] at h
  split at h
  · cases h
  split at h
  · rename_i hwrite
    cases h
    exact Disk.readFile_writeFile hwrite
  · cases h

/-- **A run that has linted files accounts for what it found, or an error escapes.** -/
theorem accounts_conclude (o : Options) (mode : Lint.Mode) (queries : List (List String))
    (log : Log) (out : Lint.Outcome) :
    Accounts o mode out (conclude o mode queries (ofLog log) out) ∨
      ∃ e, (conclude o mode queries (ofLog log) out).ending = .escaped e := by
  cases hreport : o.report.filter (fun path => !path.isEmpty) with
  | none =>
      simp only [conclude, hreport]
      refine .inl ⟨rfl, ⟨log, stderr_of_done rfl rfl⟩, fun path hpath hne => ?_⟩
      rw [hpath] at hreport
      simp [hne] at hreport
  | some path =>
      cases hwrite : Report.write out.disk mode out.findings path with
      | error e =>
          simp only [conclude, hreport, hwrite]
          exact .inr ⟨_, rfl⟩
      | ok d =>
          simp only [conclude, hreport, hwrite]
          let writing := Message.debug ("Writing YAML report to `" ++ path ++ "` …")
          have hlog : ofLog (log ++ [writing]) = ofLog log ++ [.log writing] := ofLog_append log _
          refine .inl ⟨rfl, ⟨log ++ [writing], stderr_of_done rfl ?_⟩, fun path' hpath' _ => ?_⟩
          · rw [hlog]
          · obtain rfl : path' = path := by
              rw [hpath'] at hreport
              simpa using (Option.filter_eq_some_iff.mp hreport).1
            exact readFile_of_write hwrite

/-- A run through all stages from which no error escapes has nothing to lint, or accounts for what
its lint gave. -/
theorem Stages.accounts (h : Stages w o (Options.modeAndFiles o.words).1 p root files out)
    (hescape : ∀ e, (withOptions w o).ending ≠ .escaped e) :
    linted w o = [] ∧ (withOptions w o).ending = .idle ∧ (withOptions w o).disk = w.disk ∨
      linted w o ≠ [] ∧ Accounts o (Options.modeAndFiles o.words).1 out (withOptions w o) := by
  obtain ⟨log, queries, hrun⟩ := withOptions_of_stages h
  by_cases hnone : linted w o = []
  · rw [hrun, if_pos hnone]
    exact .inl ⟨hnone, rfl, rfl⟩
  · rw [if_neg hnone] at hrun
    rw [hrun] at hescape ⊢
    rcases accounts_conclude o _ queries log out with haccounts | ⟨e, hending⟩
    · exact .inr ⟨hnone, haccounts⟩
    · exact absurd hending (hescape e)

theorem Stages.status (h : Stages w o (Options.modeAndFiles o.words).1 p root files out)
    (hescape : ∀ e, (withOptions w o).ending ≠ .escaped e) :
    (withOptions w o).ending.status =
      if Report.succeeded (Options.modeAndFiles o.words).1 out.findings then 0 else 1 := by
  rcases h.accounts hescape with ⟨hnone, hending, -⟩ | ⟨-, haccounts⟩
  · have hgives := h.lintGives
    rw [← h.linted_eq, hnone] at hgives
    cases hgives
    rw [hending]
    rfl
  · rw [haccounts.ending]
    rfl

/-- The outcome of a run is a gate for the files that are kept.  A check fails exactly if one of
them lacks a semicolon, a run that mends never fails, and if there are any files, what is printed
after the messages is the list of what their lint found. -/
structure Gates (w : World) (p : Policy) (mode : Lint.Mode) (kept : List String) (r : Outcome) :
    Prop where
  fails : mode = .check → (r.ending.status = 1 ↔ SomeMissing w.disk p kept)
  passes : mode = .check → (r.ending.status = 0 ↔ ¬SomeMissing w.disk p kept)
  mends : mode = .fix → r.ending.status = 0
  list : kept ≠ [] → ∃ out log, Lint.files w.disk w.hazards p mode kept = .ok out ∧
    Lint.InOrder kept out.findings ∧ ∀ verbose, r.stderr verbose =
      shown verbose (ofLog log) ++ Report.listing mode out.findings

theorem Stages.gates (h : Stages w o (Options.modeAndFiles o.words).1 p root files out)
    (hescape : ∀ e, (withOptions w o).ending ≠ .escaped e) :
    Gates w p (Options.modeAndFiles o.words).1 (Discovery.keep w.disk files).1
      (withOptions w o) := by
  have hstatus := h.status hescape
  have hcheck : (Options.modeAndFiles o.words).1 = .check →
      ((withOptions w o).ending.status = 1 ↔
        SomeMissing w.disk p (Discovery.keep w.disk files).1) ∧
      ((withOptions w o).ending.status = 0 ↔
        ¬SomeMissing w.disk p (Discovery.keep w.disk files).1) := by
    intro hmode
    rw [hmode] at hstatus h
    rw [hstatus, ← h.findings_check]
    cases out.findings <;> simp [Report.succeeded]
  refine ⟨fun hmode => (hcheck hmode).1, fun hmode => (hcheck hmode).2, fun hmode => ?_,
    fun hkept => ?_⟩
  · rw [hstatus, hmode]
    simp [Report.succeeded]
  · rw [← h.linted_eq] at hkept
    rcases h.accounts hescape with ⟨hnone, -⟩ | ⟨-, haccounts⟩
    · exact absurd hnone hkept
    · obtain ⟨log, hstderr⟩ := haccounts.list
      exact ⟨out, log, h.lintGives, Lint.inOrder_files h.lintGives, hstderr⟩

/-- **The exit status is a gate.**  The files are those that the words name, mode words apart, else
those that are staged, if they are asked for and there are any, else those below the root; whatever
is no source file is left out.  For these, the status and the list say what is missing. -/
theorem status_is_gate (h : Completes w args o p) :
    ∃ root files, rootOf w o = .ok root ∧
      Discovery.chosen w.walker w.disk w.git (o.words.filter fun word => !Options.isModeWord word)
        o.staged root = .ok files ∧
      Gates w p (Options.lastMode o.words) (Discovery.keep w.disk files).1 (run w args) := by
  obtain ⟨root, files, out, hstages⟩ := h.stages
  have hescape := h.noEscape
  rw [run_of_parse h.parsed] at hescape ⊢
  have hgates := hstages.gates hescape
  have hchosen := hstages.chosenAre
  rw [chosen_namedFiles, namedFiles, Options.modeAndFiles_eq] at hchosen
  rw [Options.modeAndFiles_eq] at hgates
  exact ⟨root, files, hstages.rootIs, hchosen, hgates⟩

/-- One staged file lacks a semicolon, another one is not there. -/
def gateWorld : World where
  disk := { entries := [(["a.js"], .file [0x61, 0x0A] false), (["b.js"], .file [] false)] }
  git := { staged := .given 0 "b.js\na.js\ngone.js\n" }

theorem status_is_gate_staged :
    (run gateWorld ["fix", "--staged", "check"]).ending.status = 1 ∧
      ∃ root files, rootOf gateWorld { staged := true, words := ["fix", "check"] } = .ok root ∧
        Discovery.chosen gateWorld.walker gateWorld.disk gateWorld.git [] true root = .ok files ∧
        Gates gateWorld {} .check (Discovery.keep gateWorld.disk files).1
          (run gateWorld ["fix", "--staged", "check"]) := by
  have hcompletes : Completes gateWorld ["fix", "--staged", "check"]
      { staged := true, words := ["fix", "check"] } {} := by
    refine ⟨?_, rfl, rfl, ?_, ?_⟩
    · decide +kernel
    · decide +kernel
    · intro e he
      have hending : (run gateWorld ["fix", "--staged", "check"]).ending = .done false := by
        decide +kernel
      cases hending.symm.trans he
  exact ⟨by decide +kernel, status_is_gate hcompletes⟩

/-! ### The file that a run reports to -/

/-- **The file that a run reports to holds the findings of that run**, if the run comes to its end
and had something to lint.  If it had nothing to lint, that file and all else is left as it was. -/
theorem report_holds_findings {path : String} (hparse : Options.parse args = .ok o)
    (hreport : o.report = some path) (hpath : path ≠ "")
    (hending : (∃ success, (run w args).ending = .done success) ∨ (run w args).ending = .idle) :
    (linted w o ≠ [] → ∃ p out, (Config.build w.disk o.config o.allowBareReturn).2 = .ok p ∧
      Lint.files w.disk w.hazards p (Options.lastMode o.words) (linted w o) = .ok out ∧
      (run w args).disk.readFile path =
        .ok (reportBytes (Options.lastMode o.words) out.findings)) ∧
    (linted w o = [] → (run w args).disk = w.disk) := by
  rw [run_of_parse hparse] at hending ⊢
  have hescape : ∀ e, (withOptions w o).ending ≠ .escaped e := by
    intro e he
    rcases hending with ⟨success, hdone⟩ | hidle
    · cases hdone.symm.trans he
    · cases hidle.symm.trans he
  rcases stages_or_stopped w o with ⟨p, root, files, out, hstages⟩ | hstopped
  · rcases hstages.accounts hescape with ⟨hnone, -, hdisk⟩ | ⟨hsome, haccounts⟩
    · exact ⟨fun hsome => absurd hnone hsome, fun _ => hdisk⟩
    · refine ⟨fun _ => ⟨p, out, hstages.policyIs, ?_, ?_⟩, fun hnone => absurd hnone hsome⟩
      · have hgives := hstages.lintGives
        rwa [← hstages.linted_eq, Options.modeAndFiles_eq] at hgives
      · have hread := haccounts.report path hreport hpath
        rwa [Options.modeAndFiles_eq] at hread
  · -- A run that stopped has none of the two endings.
    rcases hstopped.ending with ⟨-, hhelp⟩ | ⟨e, husage⟩ | ⟨e, he⟩
    · rw [hhelp] at hending
      simp at hending
    · rw [husage] at hending
      simp at hending
    · exact absurd he (hescape e)

/-- A file that lacks a semicolon, and the report of an earlier run. -/
def reportWorld : World where
  disk := {
    entries := [(["a.js"], .file [0x61, 0x0A] false),
      (["out.yaml"], .file (reportBytes .fix [⟨"b.js", 7⟩]) false)] }

theorem report_holds_findings_anew :
    (run reportWorld ["a.js", "--report", "out.yaml"]).ending = .done false ∧
      ∃ p out, (Config.build reportWorld.disk none false).2 = .ok p ∧
        Lint.files reportWorld.disk (fun _ => {}) p .check ["a.js"] = .ok out ∧
        (run reportWorld ["a.js", "--report", "out.yaml"]).disk.readFile "out.yaml" =
          .ok (reportBytes .check out.findings) := by
  let o : Options := { report := some "out.yaml", words := ["a.js"], order := [.report] }
  have hparse : Options.parse ["a.js", "--report", "out.yaml"] = .ok o := by decide +kernel
  have hending : (run reportWorld ["a.js", "--report", "out.yaml"]).ending = .done false := by
    decide +kernel
  have hlinted : linted reportWorld o = ["a.js"] := by decide +kernel
  have hholds := (report_holds_findings hparse rfl (by decide) (.inl ⟨false, hending⟩)).1
  rw [hlinted] at hholds
  exact ⟨hending, hholds (by decide)⟩

/-- A run that is asked for a report, and finds nothing to lint, ends well and leaves the report of
the earlier run in its place. -/
theorem report_left_over :
    (run reportWorld ["b.js", "--report", "out.yaml"]).ending = .idle ∧
      (run reportWorld ["b.js", "--report", "out.yaml"]).ending.status = 0 ∧
      (run reportWorld ["b.js", "--report", "out.yaml"]).disk.readFile "out.yaml" =
        .ok (reportBytes .fix [⟨"b.js", 7⟩]) ∧
      (run reportWorld ["b.js", "--report", "out.yaml"]).disk.readFile "out.yaml" ≠
        .ok (reportBytes .check []) := by
  refine ⟨?_, ?_, ?_, ?_⟩ <;> decide +kernel

end Run

end Semicolon
