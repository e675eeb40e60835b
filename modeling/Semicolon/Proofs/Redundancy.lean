/-
Rules that never decide anything.

Seven things the linter asks could be left out, and `Concise` is the linter without them.  The
reasons differ, and the order of the questions is part of them.

  * A next line that begins with `&&` or `||` begins with a binary operator, one that begins with a
    closing bracket has been noticed already, and a line that is an operator of logic ends in one.
    These three say nothing that the other rules about continuation do not say.
  * A line that begins with `//` has no code, so it is blank before its slashes are looked at.
  * A bare declaration keyword is held by the block that it opens itself, and code that ends in a
    comma is not finished.  Both make the line a continuation, so that the question of its kind
    does not come up.
  * Whether a terminator is lacking is asked of a line of which nothing else is known, and then it
    always is: code that has one ends structurally.  Here the split of the line as it stands has to
    agree with the split of the trimmed line.
-/
import Semicolon.Proofs.Pass

namespace Semicolon.Concise

/-! ### The linter without them -/

/-- The next line picks the expression up. -/
def isResumedBy (next : Text) : Bool :=
  next.trimLeft.first?.any (·.among ")]") || next.trimLeft.first?.any (·.among binaryOperators)

/-- The line ends in an operator of logic, or it or the next one is an arm of a conditional
expression. -/
def isArm (l : Line) (next : Text) : Bool :=
  let trimmed := l.text.trimLeft
  trimmed.endsWithAny logicalOperators
    || next.trimLeft.first?.any (·.among "?:")
    || trimmed.first?.any (·.among "?:")

/-- Does the line continue a statement? -/
def continues (l : Line) (next : Text) (s : State) (held : Bool) : Bool :=
  s.insideGroup || l.endsOpen || isResumedBy next || held || isArm l next

/-- The structural endings other than the comma. -/
def structuralEnds : List String := [";", "\x7b", "\x7d", ":", "(", "=>"]

/-- A line that never takes a terminator under the policy. -/
def isIgnorable (raw : Text) (p : Policy) : Bool :=
  let trimmed := raw.trimLeft
  let code := (Line.split trimmed).1
  code.isBlank
    || trimmed.startsWithAny ["*", "/*"]
    || code.startsWithKeyword p
    || (code.isEmpty || code.endsWithAny structuralEnds)

/-- The verdict on a line, after two questions. -/
def verdict (l : Line) (next : Text) (s : State) (held : Bool) (p : Policy) : Verdict :=
  if continues l next s held then .continuation
  else if isIgnorable l.text p then .ignorable
  else .missing

/-- Judges one line in the state that the lines above it left. -/
def step (p : Policy) (s : State) (text next : Text) : Scan.Step :=
  let line := Line.ofText text
  let (state, held) := (s.deepen line.code).stepBlocks text text.trimLeft
  { line, state, held, verdict := verdict line next state held p }

/-- Judges the lines one after another. -/
def stepsFrom (p : Policy) : State → List Text → List Scan.Step
  | _, [] => []
  | s, text :: rest =>
    let st := step p s text (rest.headD [])
    st :: stepsFrom p st.state rest

/-- The steps of a whole file, from a fresh state. -/
def steps (p : Policy) (lines : List Text) : List Scan.Step := stepsFrom p {} lines

/-- The numbers of the lines whose semicolon is missing, in order. -/
def missing (p : Policy) (lines : List Text) : List Nat := Scan.missingFrom 1 (steps p lines)

/-- The lines with every missing semicolon put in. -/
def mended (p : Policy) (lines : List Text) : List Text := (steps p lines).map Scan.Step.mended

/-! ### Continuation -/

theorem isResumedBy_eq (l : Line) (next : Text) : isResumedBy next = l.isResumedBy next := by
  rw [Line.isResumedBy_eq, show ")]+-*/%^|&" = ")]" ++ binaryOperators by decide,
    Text.any_among_append]
  rfl

theorem isArm_eq (l : Line) (next : Text) : isArm l next = l.isArm next := by
  have hends : l.text.trimLeft.endsWithAny logicalOperators
      = l.text.endsWithAny ["&&", "||"] := Text.endsWithAny_trimLeft (by decide)
  rw [Line.isArm_eq, Text.dangles, ← hends, Bool.or_left_comm, ← Bool.or_assoc]
  rfl

theorem continues_eq (l : Line) (next : Text) (s : State) (held : Bool) :
    continues l next s held = l.continues next s held := by
  rw [continues, isResumedBy_eq l, isArm_eq, Line.continues]

/-! ### Kind -/

variable {p : Policy} {s : State} {t next : Text} {held : Bool}

/-- A line that begins with a comment has no code. -/
theorem code_of_mark (h : t.trimLeft.startsWith "//" = true) :
    (Line.split t.trimLeft).1.isBlank = true := by
  have hcut : Line.cut none t.trimLeft = ([], t.trimLeft) := Line.cut_of_startsWith h (by decide)
  have hne : t.trimLeft ≠ [] := by
    intro hnil
    rw [hnil] at h
    exact absurd h (by decide)
  rw [Line.split_of_marked (by rw [hcut]; exact hne), hcut]
  rfl

/-- Code that ends in a comma is not finished, with its indentation or without. -/
theorem not_endsWith_comma (h : (Line.ofText t).endsOpen = false) :
    (Line.split t.trimLeft).1.endsWith "," = false := by
  rw [Bool.eq_false_iff, ne_eq, Line.split_trimLeft, Text.endsWith_trimLeft (by decide),
    Text.endsWith_iff]
  rintro ⟨init, hinit⟩
  have hlast : (Line.split t).1.last? = some (.char ',') := by
    rw [Text.last?, ← hinit]
    exact List.getLast?_concat
  have hopen : (Line.ofText t).endsOpen = true := by
    show (Line.split t).1.last?.any (·.among ("," ++ binaryOperators)) = true
    rw [hlast]
    decide
  rw [hopen] at h
  exact Bool.noConfusion h

/-- Of a finished line that declares nothing, the two linters say the same. -/
theorem isIgnorable_eq (hbare : t.trimLeft.isBareDeclaration = false)
    (hopen : (Line.ofText t).endsOpen = false) : isIgnorable t p = t.isIgnorable p := by
  unfold isIgnorable Text.isIgnorable
  by_cases hblank : (Line.split t.trimLeft).1.isBlank = true
  · simp only [hblank, Bool.true_or]
  · have hmark : t.trimLeft.startsWith "//" = false := by
      rw [Bool.eq_false_iff]
      exact fun hstart => hblank (code_of_mark hstart)
    have hstarts : t.trimLeft.startsWithAny ["*", "//", "/*"]
        = t.trimLeft.startsWithAny ["*", "/*"] := by
      simp only [Text.startsWithAny, List.any_cons, List.any_nil, hmark, Bool.false_or]
    have hends : (Line.split t.trimLeft).1.endsWithAny Semicolon.structuralEnds
        = (Line.split t.trimLeft).1.endsWithAny structuralEnds := by
      simp only [Text.endsWithAny, Semicolon.structuralEnds, structuralEnds, List.any_cons,
        List.any_nil, not_endsWith_comma hopen, Bool.false_or]
    simp only [hstarts, hbare, Text.endsStructurally, hends, Bool.or_false]

/-! ### Verdict -/

/-- The two linters judge alike if a bare declaration keyword is held. -/
theorem verdict_eq (hheld : t.trimLeft.isBareDeclaration = true → held = true) :
    verdict (Line.ofText t) next s held p = (Line.ofText t).verdict next s held p := by
  unfold verdict Line.verdict
  rw [continues_eq]
  by_cases hcont : (Line.ofText t).continues next s held = true
  · rw [if_pos hcont, if_pos hcont]
  · rw [if_neg hcont, if_neg hcont]
    have hfree := hcont
    simp only [Line.continues, Bool.or_eq_true, not_or, Bool.not_eq_true] at hfree
    obtain ⟨⟨⟨⟨-, hopen⟩, -⟩, hnotHeld⟩, -⟩ := hfree
    have hbare : t.trimLeft.isBareDeclaration = false := by
      rw [Bool.eq_false_iff]
      intro h
      rw [hheld h] at hnotHeld
      exact Bool.noConfusion hnotHeld
    have hkind : isIgnorable (Line.ofText t).text p = (Line.ofText t).text.isIgnorable p :=
      isIgnorable_eq hbare hopen
    rw [hkind]
    by_cases hign : (Line.ofText t).text.isIgnorable p = true
    · rw [if_pos hign, if_pos hign]
    · have hneeds : (Line.ofText t).code.needsTerminator = true :=
        Text.needsTerminator_of_not_ignorable (Bool.eq_false_iff.mpr hign)
      rw [if_neg hign, if_neg hign, if_pos hneeds]

theorem step_eq (p : Policy) (s : State) (t next : Text) :
    step p s t next = Scan.step p s t next := by
  have hheld : t.trimLeft.isBareDeclaration = true → Scan.holds s t = true := by
    intro hbare
    rw [Scan.holds_eq, hbare]
    simp
  have hverdict : verdict (Line.ofText t) next (Scan.after s t) (Scan.holds s t) p
      = (Line.ofText t).verdict next (Scan.after s t) (Scan.holds s t) p := verdict_eq hheld
  rw [Scan.step_eq, ← hverdict]
  rfl

theorem stepsFrom_eq (p : Policy) (s : State) (lines : List Text) :
    stepsFrom p s lines = Scan.stepsFrom p s lines := by
  induction lines generalizing s with
  | nil => rfl
  | cons t rest ih => rw [stepsFrom, Scan.stepsFrom, step_eq, ih]

theorem steps_eq (p : Policy) (lines : List Text) : steps p lines = Scan.steps p lines :=
  stepsFrom_eq p {} lines

/-- A line is reported exactly if it neither continues a statement nor is of a kind that takes no
terminator. -/
theorem succ_mem_missing_iff_neither {lines : List Text} {i : Nat} {st : Scan.Step}
    (h : (Scan.steps p lines)[i]? = some st) :
    i + 1 ∈ Scan.missing p lines ↔
      st.line.continues (lines.getD (i + 1) []) st.state st.held = false ∧
        st.line.text.isIgnorable p = false := by
  rw [Scan.succ_mem_missing_iff_isMissing h, Scan.Step.isMissing, decide_eq_true_eq]
  rw [Scan.getElem?_steps, Option.map_eq_some_iff] at h
  obtain ⟨t, -, rfl⟩ := h
  exact Line.verdict_eq_missing_iff

/-- **The linter finds and mends the same without the rules that never decide.**  In particular a
line lacks its semicolon exactly if it neither continues a statement nor is of a kind that takes
none, so the last question may be left out. -/
theorem scan_without_dead_rules (p : Policy) (lines : List Text) :
    missing p lines = Scan.missing p lines ∧ mended p lines = Scan.mended p lines ∧
    ∀ i st, (Scan.steps p lines)[i]? = some st →
      (i + 1 ∈ Scan.missing p lines ↔
        st.line.continues (lines.getD (i + 1) []) st.state st.held = false ∧
          st.line.text.isIgnorable p = false) := by
  refine ⟨?_, ?_, fun i st => succ_mem_missing_iff_neither⟩
  · rw [missing, steps_eq, Scan.missing]
  · rw [mended, steps_eq, Scan.mended]

/-- A bare declaration keyword, a comma, a comment alone, and a condition over two lines. -/
def ruleLines : List Text :=
  [Text.ofString "let", Text.ofString "  a,", Text.ofString "// b", Text.ofString "  c;",
    Text.ofString "d = e", Text.ofString "  && f // ,", Text.ofString "g"]

theorem scan_without_dead_rules_ruleLines :
    missing {} ruleLines = [6, 7] ∧
    ∃ st, (Scan.steps {} ruleLines)[5]? = some st ∧
      st.line.continues (Text.ofString "g") st.state st.held = false ∧
        st.line.text.isIgnorable {} = false := by
  obtain ⟨hmissing, -, hneither⟩ := scan_without_dead_rules {} ruleLines
  refine ⟨hmissing.trans (by decide), _, rfl, ?_⟩
  exact (hneither 5 _ rfl).mp (by decide)

end Semicolon.Concise
