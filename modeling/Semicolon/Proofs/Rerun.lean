/-
A run that mends leaves nothing for a run that checks.

The second run has the arguments of the first and a last word that makes it check.  It comes to the
same policy, chooses files in the same way, and finds them mended.

Three things must not have been upset by the first run.  The options file must read as it did, so
it may be neither a file that was mended nor a sibling that was written over.  A directory that was
given as the root must not have become a file.  And the directory that is searched by default, which
hangs on where the program is found, must be the same if it is searched.
-/
import Semicolon.Proofs.Aftermath
import Semicolon.Proofs.Stages

namespace Semicolon.Run

open Replacement (sibling)

variable {w : World} {o : Options} {p : Policy} {out : Lint.Outcome}

/-! ### The run that mends -/

/-- Does every replacement succeed that a run attempts when it mends files? -/
def allReplaced (w : World) (o : Options) : Bool :=
  match (Config.build w.disk o.config o.allowBareReturn).2 with
  | .error _ => true
  | .ok p => Lint.allReplaced p w.disk w.hazards (linted w o)

/-- No file is named, and none that is staged is taken: the files are those below the root. -/
def Walks (w : World) (o : Options) : Prop :=
  namedFiles o = [] ∧ Discovery.wanted w.disk w.git (wantsStaged o) = .ok []

/-- What a run needs besides the files that it lints was not upset by linting them: the options
file is none of them, then or now, nor a sibling of one; the root that is given has not become one
of them; and the root by default is found, and is the same if it is walked. -/
structure Undisturbed (w : World) (o : Options) (after : Disk) : Prop where
  config : ∀ c, o.config = some c → ∀ path ∈ linted w o,
    ¬w.disk.SameFile c path ∧ ¬w.disk.SameFile c (sibling path) ∧ ¬after.SameFile c path
  root : ∀ r, o.root = some r → ∀ path ∈ linted w o, ¬after.SameFile r path
  byDefault : o.root = none → ∃ r, Discovery.defaultRoot after w.searchPath w.program = .ok r ∧
    (Walks w o → Discovery.defaultRoot w.disk w.searchPath w.program = .ok r)

/-- A run that mends, and goes through all stages with every replacement done, is a tour of the
files that it lints. -/
theorem Stages.tour {root : String} {files : List String} (h : Stages w o .fix p root files out)
    (hplain : ∀ path ∈ linted w o, w.disk.isLink (sibling path) = false)
    (hdone : allReplaced w o = true) :
    Lint.Tour p w.disk (Discovery.keep w.disk files).1 true out.findings out.disk := by
  have hall : Lint.allReplaced p w.disk w.hazards (Discovery.keep w.disk files).1 = true := by
    simpa only [allReplaced, h.policyIs, h.linted_eq] using hdone
  rw [h.linted_eq] at hplain
  have htour := Lint.tour_of_files (fun _ => Discovery.isSource_of_mem_keep)
    (fun q hq => Disk.plain_of_isLink (by simp [sibling]) (hplain q hq)) (Or.inl hall) h.lintGives
  rwa [hall] at htour

/-! ### The run that checks -/

/-- The options with one more word, which asks for a check. -/
def andCheck (o : Options) : Options := { o with words := o.words ++ ["check"] }

theorem modeAndFiles_andCheck (o : Options) :
    Options.modeAndFiles (andCheck o).words = (.check, namedFiles o) :=
  Options.modeAndFiles_concat o.words "check"

theorem namedFiles_andCheck (o : Options) : namedFiles (andCheck o) = namedFiles o := by
  rw [namedFiles, modeAndFiles_andCheck]

theorem wantsStaged_andCheck (o : Options) : wantsStaged (andCheck o) = wantsStaged o := by
  rw [wantsStaged, namedFiles_andCheck]
  rfl

section Again

variable {after : Disk} {root : String} {files : List String} {findings : List Finding}
  {done : Bool} {walker : Discovery.Walker}

/-- The paths of the options are still of the right kind. -/
theorem pathCheck_again (hjs : ∀ path ∈ linted w o, Discovery.isSource path = true)
    (htour : Lint.Tour p w.disk (linted w o) done findings after) (hdone : done = true)
    (hsame : Undisturbed w o after) (h : pathCheck w.disk o o.order = none) :
    pathCheck after (andCheck o) (andCheck o).order = none := by
  rw [pathCheck_eq_none_iff] at h ⊢
  intro opt hopt path hpath
  have hpath' : o.path? opt = some path := by
    cases opt <;> exact hpath
  obtain ⟨hnul, hproblem⟩ := h opt hopt path hpath'
  refine ⟨hnul, ?_⟩
  cases opt with
  | config | report =>
      simp only [Options.pathProblem?, ite_eq_right_iff, reduceCtorEq, imp_false] at hproblem ⊢
      exact fun hnew => hproblem (htour.keeps.isDirectory hnew)
  | root =>
      simp only [Options.pathProblem?, ite_eq_right_iff, reduceCtorEq, imp_false] at hproblem ⊢
      intro hnew
      obtain ⟨data, hread⟩ := Disk.isFile_iff.mp hnew
      have hbefore := htour.readFile_before hdone hjs (hsame.root path hpath') hread
      exact hproblem (Disk.isFile_iff.mpr ⟨data, hbefore⟩)

/-- The root is found again, and it is the same if it is walked. -/
theorem rootOf_again (hsame : Undisturbed w o after) (hroot : rootOf w o = .ok root)
    (hazards : Nat → Hazards) (walker : Discovery.Walker) :
    ∃ root', rootOf { w with disk := after, hazards, walker } (andCheck o) = .ok root' ∧
      (Walks w o → root' = root) := by
  cases hgiven : o.root with
  | some given =>
      refine ⟨given, by simp only [rootOf, andCheck, hgiven], fun _ => ?_⟩
      simp only [rootOf, hgiven, Except.ok.injEq] at hroot
      exact hroot
  | none =>
      obtain ⟨root', hafter, hbefore⟩ := hsame.byDefault hgiven
      refine ⟨root', by simp only [rootOf, andCheck, hgiven, hafter], fun hwalks => ?_⟩
      simp only [rootOf, hgiven, hbefore hwalks, Except.ok.injEq] at hroot
      exact hroot

/-- **The run that checks goes through all stages, and finds nothing.** -/
theorem Stages.again (h : Stages w o .fix p root files out)
    (hplain : ∀ path ∈ linted w o, w.disk.isLink (sibling path) = false)
    (hdone : allReplaced w o = true) (hsame : Undisturbed w o out.disk) (hazards : Nat → Hazards)
    (hlimit : walker.limit = w.walker.limit) :
    ∃ root' files' out', out'.findings = [] ∧
      Stages { w with disk := out.disk, hazards, walker } (andCheck o) .check p root' files'
        out' := by
  have htour := h.tour hplain hdone
  have htour' := htour
  rw [← h.linted_eq] at htour'
  have hjs : ∀ path ∈ linted w o, Discovery.isSource path = true := by
    rw [h.linted_eq]
    exact fun _ => Discovery.isSource_of_mem_keep
  obtain ⟨root', hroot', hwalks⟩ := rootOf_again hsame h.rootIs hazards walker
  have hwalks' := fun hnamed hstaged => hwalks ⟨hnamed, hstaged⟩
  obtain ⟨files', hchosen'⟩ := htour.exists_chosen h.chosenAre rfl hlimit hwalks'
  obtain ⟨out', hcheck, -, hfound⟩ :=
    Lint.files_check (fun _ => Discovery.noNul_of_mem_keep) out.disk hazards p
  have hpaths := pathCheck_again hjs htour' rfl hsame h.pathsFit
  refine ⟨root', files', out', ?_, h.noHelp, hpaths, ?_, hroot', ?_, hcheck⟩
  · rw [hfound, List.flatMap_eq_nil_iff]
    intro q hq
    obtain ⟨data, hread⟩ := Disk.isFile_iff.mp (Discovery.mem_keep_iff.mp hq).2.2
    have hclean := htour.clean_chosen h.chosenAre rfl hwalks' hchosen' hq hread
    rw [Lint.found_of_readFile hread, hclean.findings_eq]
  · refine Config.policy_congr (fun c hc => ?_) h.policyIs
    have hconfig := hsame.config c hc
    exact htour'.readFile_iff rfl hjs (fun q hq => ⟨(hconfig q hq).1, (hconfig q hq).2.1⟩)
      (fun q hq => (hconfig q hq).2.2)
  · rw [namedFiles_andCheck, wantsStaged_andCheck]
    exact hchosen'

end Again

/-- The same command line with one more word, which asks for a check, on the disk that the first
run left.  Its hazards are its own, and a directory may be listed in another order. -/
def checkAgain (w : World) (args : List String) (hazards : Nat → Hazards)
    (walker : Discovery.Walker) : Outcome :=
  run { w with disk := (run w args).disk, hazards, walker } (args ++ ["check"])

/-- A run that mends files and writes no report ends well, with every replacement done and no
sibling a link. -/
structure Mends (w : World) (args : List String) (o : Options) : Prop where
  parsed : Options.parse args = .ok o
  mode : (Options.modeAndFiles o.words).1 = .fix
  noReport : o.report = none
  endsWell : (run w args).ending.status = 0
  allDone : allReplaced w o = true
  noLinks : ∀ path ∈ linted w o, w.disk.isLink (sibling path) = false

theorem Mends.run_eq {args : List String} (h : Mends w args o) : run w args = withOptions w o :=
  run_of_parse h.parsed

theorem Mends.checkAgain_eq {args : List String} (h : Mends w args o) (hazards : Nat → Hazards)
    (walker : Discovery.Walker) : checkAgain w args hazards walker =
      withOptions { w with disk := (withOptions w o).disk, hazards, walker } (andCheck o) := by
  have hparse : Options.parse (args ++ ["check"]) = .ok (andCheck o) :=
    Options.parseFrom_concat (by decide) h.parsed
  rw [checkAgain, h.run_eq]
  simp only [run, hparse]

/-- **A run that mends leaves nothing for a run that checks**, whether its files are named, staged
or below a directory, if it left alone what else a run needs. -/
theorem check_after_fix {args : List String} {walker : Discovery.Walker} (h : Mends w args o)
    (hsame : Undisturbed w o (run w args).disk) (hazards : Nat → Hazards)
    (hlimit : walker.limit = w.walker.limit) :
    (checkAgain w args hazards walker).ending.status = 0 ∧
      (checkAgain w args hazards walker).findings = [] := by
  have hstatus := h.endsWell
  rw [h.run_eq] at hstatus hsame
  rw [h.checkAgain_eq]
  cases hhelp : o.help with
  | true =>
      have hhelp' : (andCheck o).help = true := hhelp
      rw [withOptions, if_pos hhelp']
      exact ⟨rfl, rfl⟩
  | false =>
      obtain ⟨p, root, files, out, hstages⟩ := stages_of_status hhelp h.mode hstatus
      have hfirst := reports_of_stages h.noReport h.mode hstages
      rw [hfirst.disk] at hsame ⊢
      obtain ⟨root', files', out', hnone, hstages'⟩ :=
        hstages.again h.noLinks h.allDone hsame hazards hlimit
      have hmode : (Options.modeAndFiles (andCheck o).words).1 = .check := by
        rw [modeAndFiles_andCheck]
      have hsecond := reports_of_stages (o := andCheck o) h.noReport hmode hstages'
      rw [hsecond.status, hsecond.findings, hnone]
      exact ⟨rfl, rfl⟩

/-- A file that is staged lacks a semicolon, and the options file is empty. -/
def stagedWorld : World where
  disk := { entries := [(["a.js"], .file [0x61, 0x0A] false), (["c.yml"], .file [] false)] }
  git := { staged := .given 0 "a.js\ngone.js\n" }

/-- A command line that asks for it to be mended. -/
def stagedArgs : List String := ["fix", "--staged", "--config", "c.yml"]

theorem check_after_fix_staged :
    (run stagedWorld stagedArgs).findings = [⟨"a.js", 1⟩] ∧
      (checkAgain stagedWorld stagedArgs (fun _ => {}) {}).ending.status = 0 ∧
      (checkAgain stagedWorld stagedArgs (fun _ => {}) {}).findings = [] := by
  let o : Options :=
    { staged := true, config := some "c.yml", words := ["fix"], order := [.config] }
  have hmends : Mends stagedWorld stagedArgs o := by
    refine ⟨?_, rfl, rfl, ?_, ?_, ?_⟩ <;> decide +kernel
  have hsame : Undisturbed stagedWorld o (run stagedWorld stagedArgs).disk := by
    refine ⟨fun c hc => ?_, fun r hr => (nomatch hr), fun _ => ⟨"/../scripts", ?_, fun _ => ?_⟩⟩
    · obtain rfl : "c.yml" = c := Option.some.inj hc
      decide +kernel
    · decide +kernel
    · decide +kernel
  exact ⟨by decide +kernel, check_after_fix hmends hsame (fun _ => {}) rfl⟩

/-! ### What else a run needs -/

/-- A run mends files as it should, and its options file is none of them, but the run that checks
does not end well. -/
def Upset (w : World) (args : List String) : Prop :=
  ∃ o, Mends w args o ∧
    (∀ c, o.config = some c → ∀ path ∈ linted w o, ¬w.disk.SameFile c path) ∧
    (checkAgain w args (fun _ => {}) w.walker).ending.status ≠ 0

/-- The options file lets a `return` be, and it is a sibling of the file that is mended. -/
def siblingConfig : World where
  disk := {
    entries := [(["a.js"], .file (Utf8.encodeString "return x") false),
      (["a.js.autofix.tmp"],
        .file (Utf8.encodeString "require_return_terminator: false") false)] }

theorem upset_siblingConfig :
    Upset siblingConfig ["fix", "a.js", "--config", "a.js.autofix.tmp"] := by
  refine ⟨{ config := some "a.js.autofix.tmp", words := ["fix", "a.js"], order := [.config] },
    ⟨?_, rfl, rfl, ?_, ?_, ?_⟩, fun c hc => ?_, ?_⟩
  case refine_5 =>
    obtain rfl : "a.js.autofix.tmp" = c := Option.some.inj hc
    decide +kernel
  all_goals decide +kernel

/-- The link `d` leads to where it is, and `a.js` to a file that makes no sense as options. -/
def roundabout : World where
  disk := {
    entries := [(["d"], .link "."), (["a.js"], .link "f"),
      (["f"], .file (Utf8.encodeString "require_return_terminator: 0;") false)] }

/-- A path with one link too many, until `a.js` is a link no more. -/
def farPath : String := String.join (List.replicate Disk.maxLinks "d/") ++ "a.js"

theorem upset_farConfig : Upset roundabout ["fix", "a.js", "--config", farPath] := by
  refine ⟨{ config := some farPath, words := ["fix", "a.js"], order := [.config] },
    ⟨?_, rfl, rfl, ?_, ?_, ?_⟩, fun c hc => ?_, ?_⟩
  case refine_5 =>
    obtain rfl : farPath = c := Option.some.inj hc
    decide +kernel
  all_goals decide +kernel

theorem upset_farRoot : Upset roundabout ["fix", "a.js", "--root", farPath] := by
  refine ⟨{ root := some farPath, words := ["fix", "a.js"], order := [.root] },
    ⟨?_, rfl, rfl, ?_, ?_, ?_⟩, fun c hc => (nomatch hc), ?_⟩
  all_goals decide +kernel

/-- The program is looked for beside a link, which has nothing of the kind there until it is a
file. -/
def lostProgram : World where
  disk := {
    entries := [(["s"], .directory), (["s", "x.js"], .link "/t/f"), (["s", "y"], .directory),
      (["t"], .directory), (["t", "f"], .file [] true)] }
  program := "/s/x.js/../y/\x00"

/-- This rests on a NUL in the name that the program is started by, which no real start gives.
Nothing else keeps a program from being found, so for a real start it is enough that the root by
default is the same if it is walked. -/
theorem upset_lostProgram : Upset lostProgram ["fix", "/s/x.js"] := by
  refine ⟨{ words := ["fix", "/s/x.js"] }, ⟨?_, rfl, rfl, ?_, ?_, ?_⟩, fun c hc => (nomatch hc), ?_⟩
  all_goals decide +kernel

/-- The program is started by a link.  Below the directory that is searched by default is that link
again, and below the one that is searched when it has become a file is a file that lacks a
semicolon. -/
def linkedProgram : World where
  disk := {
    entries := [(["s"], .directory), (["s", "bin"], .directory),
      (["s", "bin", "x.js"], .link "/t/bin/x.js"), (["s", "scripts"], .directory),
      (["s", "scripts", "b.js"], .file [0x62, 0x0A] false), (["t"], .directory),
      (["t", "bin"], .directory), (["t", "bin", "x.js"], .file [] true),
      (["t", "scripts"], .directory), (["t", "scripts", "d"], .link "/s/bin")] }
  program := "/s/bin/x.js"

/-- The same with the link a file. -/
def copiedProgram : Disk where
  entries := (["s", "bin", "x.js"], .file [] false) ::
    linkedProgram.disk.entries.filter (·.1 ≠ ["s", "bin", "x.js"])

/-- A run that walks to one file goes through all stages with what the lint of it gives. -/
theorem exists_stages_of_below (w : World) (o : Options) (mode : Lint.Mode) (p : Policy)
    (root path : String) (after : Disk) (findings : List Finding) (hhelp : o.help = false)
    (hpaths : pathCheck w.disk o o.order = none)
    (hpolicy : (Config.build w.disk o.config o.allowBareReturn).2 = .ok p)
    (hroot : rootOf w o = .ok root) (hnul : '\x00' ∉ root.toList) (hnamed : namedFiles o = [])
    (hstaged : wantsStaged o = false) (hlimit : w.walker.limit = none)
    (hbelow : Discovery.below w.disk (Discovery.depthBound w.disk) root = [path])
    (hlint : (Lint.files w.disk w.hazards p mode (Discovery.keep w.disk [path]).1).map
      (fun out => (out.disk, out.findings)) = .ok (after, findings)) :
    ∃ out, Stages w o mode p root [path] out ∧ out.disk = after ∧ out.findings = findings := by
  cases hrun : Lint.files w.disk w.hazards p mode (Discovery.keep w.disk [path]).1 with
  | error e =>
      rw [hrun] at hlint
      cases hlint
  | ok out =>
      rw [hrun] at hlint
      cases hlint
      refine ⟨out, ⟨hhelp, hpaths, hpolicy, hroot, ?_, hrun⟩, rfl, rfl⟩
      have hsources : Discovery.sources w.walker w.disk root = .ok [path] := by
        refine Discovery.sources_eq_ok_iff.mpr ⟨hnul, by simp [hlimit], ?_⟩
        rw [hbelow]
        exact List.perm_singleton.mp (w.walker.perm [path])
      rw [hnamed, hstaged]
      exact Discovery.chosen_nil_eq_ok_iff.mpr (Or.inr ⟨rfl, hsources⟩)

theorem upset_linkedProgram : Upset linkedProgram ["fix"] := by
  obtain ⟨out, hstages, hdisk, hfindings⟩ :=
    exists_stages_of_below linkedProgram { words := ["fix"] } .fix {} "/t/bin/../scripts"
      "/t/bin/../scripts/d/x.js" copiedProgram [] rfl rfl (by decide +kernel) (by decide +kernel)
      (by decide) rfl rfl rfl (by decide +kernel) (by decide +kernel)
  have hlinted := hstages.linted_eq
  have hfirst := reports_of_stages rfl rfl hstages
  have hmends : Mends linkedProgram ["fix"] { words := ["fix"] } := by
    have hparse : Options.parse ["fix"] = .ok { words := ["fix"] } := by decide +kernel
    refine ⟨hparse, rfl, rfl, ?_, ?_, ?_⟩
    · simp only [run, hparse, hfirst.status, hfindings]
      rfl
    · rw [allReplaced, hlinted]
      decide +kernel
    · rw [hlinted]
      decide +kernel
  refine ⟨{ words := ["fix"] }, hmends, fun c hc => (by cases hc), ?_⟩
  obtain ⟨out', hstages', -, hfindings'⟩ :=
    exists_stages_of_below { linkedProgram with disk := copiedProgram }
      (andCheck { words := ["fix"] }) .check {} "/s/bin/../scripts" "/s/bin/../scripts/b.js"
      copiedProgram [⟨"/s/bin/../scripts/b.js", 1⟩] rfl rfl (by decide +kernel) (by decide +kernel)
      (by decide) rfl rfl rfl (by decide +kernel) (by decide +kernel)
  have hstatus := (reports_of_stages rfl rfl hstages').status
  rw [hfindings'] at hstatus
  rw [hmends.checkAgain_eq, hfirst.disk, hdisk]
  intro hzero
  exact absurd (hstatus.symm.trans hzero) (by decide)

/-- **None of the conditions can be left out**: a sibling as options file, a linted file that the
path of the options file or of the root comes to lead to, a program that is no longer found, and a
program that is found elsewhere. -/
theorem check_after_fix_upset :
    Upset siblingConfig ["fix", "a.js", "--config", "a.js.autofix.tmp"] ∧
      Upset roundabout ["fix", "a.js", "--config", farPath] ∧
      Upset roundabout ["fix", "a.js", "--root", farPath] ∧
      Upset lostProgram ["fix", "/s/x.js"] ∧ Upset linkedProgram ["fix"] :=
  ⟨upset_siblingConfig, upset_farConfig, upset_farRoot, upset_lostProgram, upset_linkedProgram⟩

end Semicolon.Run
