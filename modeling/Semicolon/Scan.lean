/-
The scan: one pass over the lines of a file.

A line is judged with the state that the lines above it left behind and with one line of
lookahead.  The depth is counted first, so a bracket that the line itself opens already makes
it a continuation; then the blocks step; then the verdict falls.  `steps` keeps all of it, one
step a line, and the findings and the mended text are read off the steps.
-/
import Semicolon.Line.Verdict

namespace Semicolon

/-- Where a semicolon is missing.  Lines count from one. -/
structure Finding where
  file : String
  line : Int
  deriving DecidableEq, Repr

/-- A finding as `file:line`. -/
def Finding.location (f : Finding) : String := f.file ++ ":" ++ toString f.line

namespace Scan

/-- What happened to one line: the state in which it was judged, whether a block held it, and the
verdict. -/
structure Step where
  line : Line
  state : State
  held : Bool
  verdict : Verdict
  deriving DecidableEq, Repr

/-- Judges one line in the state that the lines above it left. -/
def step (p : Policy) (s : State) (text next : Text) : Step :=
  let line := Line.ofText text
  let (state, held) := (s.deepen line.code).stepBlocks text text.trimLeft
  { line, state, held, verdict := line.verdict next state held p }

/-- Judges the lines one after another. -/
def stepsFrom (p : Policy) : State → List Text → List Step
  | _, [] => []
  | s, text :: rest =>
    let st := step p s text (rest.headD [])
    st :: stepsFrom p st.state rest

/-- The steps of a whole file, from a fresh state. -/
def steps (p : Policy) (lines : List Text) : List Step := stepsFrom p {} lines

/-- Is a semicolon missing on this line? -/
def Step.isMissing (st : Step) : Bool := st.verdict = .missing

/-- The line as the mended text has it. -/
def Step.mended (st : Step) : Text :=
  if st.isMissing then st.line.terminated else st.line.text

/-- The numbers of the lines whose semicolon is missing, where the first step is of line
`number`. -/
def missingFrom : (number : Nat) → List Step → List Nat
  | _, [] => []
  | number, st :: rest =>
    if st.isMissing then number :: missingFrom (number + 1) rest else missingFrom (number + 1) rest

/-- The numbers of the lines whose semicolon is missing, in order. -/
def missing (p : Policy) (lines : List Text) : List Nat := missingFrom 1 (steps p lines)

/-- The lines with every missing semicolon put in. -/
def mended (p : Policy) (lines : List Text) : List Text := (steps p lines).map Step.mended

/-- The findings in a file. -/
def findings (p : Policy) (file : String) (lines : List Text) : List Finding :=
  (missing p lines).map fun (n : Nat) => { file, line := n }

/-- Mends the lines again and again; gives the missing lines and the mended text of every pass. -/
def passes (p : Policy) : (count : Nat) → List Text → List (List Nat × List Text)
  | 0, _ => []
  | count + 1, lines => (missing p lines, mended p lines) :: passes p count (mended p lines)

end Scan

end Semicolon
