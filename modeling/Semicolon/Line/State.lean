/-
What the linter carries from line to line.

Two running depths say whether a round or square bracket is still open.  They are signed and
never clamped, so one bracket too many on the closing side hides a later opening one.

Three blocks hold statements that go on over several lines.  A declaration block opens on a
line that is only `const`, `let` or `var` and lasts until a line with a semicolon in it.  The
other two count round brackets: one opens on a condition, one on `return (`, in both cases
only if the line leaves a bracket open, and it lasts until the count is back to zero or below.
While a block is pending nothing can open it again.  Its opening and its closing line both
count as held.
-/
import Semicolon.Text.Glyph

namespace Semicolon

/-! ### Depth -/

/-- The net number of brackets of each kind that a text opens. -/
structure Balance where
  parens : Int
  brackets : Int
  braces : Int
  deriving DecidableEq, Repr

/-- The balance of a text. -/
def Text.balance (t : Text) : Balance :=
  { parens := Text.net '(' ')' t, brackets := Text.net '[' ']' t, braces := Text.net '{' '}' t }

/-! ### State -/

/-- A block that counts round brackets.  The count of an idle block is left over from its last
trigger and means nothing. -/
structure Tally where
  pending : Bool := false
  net : Int := 0
  deriving DecidableEq, Repr

/-- Everything that one line hands to the next. -/
structure State where
  parens : Int := 0
  brackets : Int := 0
  declaration : Bool := false
  condition : Tally := {}
  result : Tally := {}
  deriving DecidableEq, Repr

namespace State

/-- The state after the brackets of a line's code have been counted. -/
def deepen (s : State) (code : Text) : State :=
  { s with
    parens := s.parens + code.balance.parens
    brackets := s.brackets + code.balance.brackets }

/-- Is a round or square bracket open? -/
def insideGroup (s : State) : Bool := s.parens > 0 || s.brackets > 0

end State

/-! ### What opens a block -/

namespace Text

/-- A text that is only the keyword of a declaration. -/
def isBareDeclaration (t : Text) : Bool := t.isOneOf ["const", "let", "var"]

/-- A condition: `if`, `while` or `for` before a blank or a bracket, or `else if`, possibly after
closing braces. -/
def opensCondition (t : Text) : Bool :=
  (Text.trimLeft (t.trimLeft.dropWhile (· = .char '}'))).startsWithAny
    ["if ", "if(", "while ", "while(", "for ", "for(", "else if"]

/-- The word `return`, then possibly blanks, then an opening bracket. -/
def opensResult (t : Text) : Bool :=
  t.startsWith "return" && (Text.trimLeft (t.drop 6)).startsWith "("

end Text

/-! ### One step of each block

Each step gives the state after the line and whether the block holds the line. -/

/-- A declaration block sees the line as it is and without its indentation. -/
def State.stepDeclaration (s : State) (raw trimmed : Text) : State × Bool :=
  let pending := s.declaration || trimmed.isBareDeclaration
  ({ s with declaration := pending && !raw.has ';' }, pending)

/-- A counting block opens on a line that `opens` accepts and that leaves a bracket open. -/
def Tally.step (opens : Text → Bool) (b : Tally) (t : Text) : Tally × Bool :=
  if b.pending then
    let net := b.net + t.parenNet
    ({ pending := net > 0, net }, true)
  else if opens t then
    let net := t.parenNet
    ({ pending := net > 0, net }, net > 0)
  else (b, false)

namespace State

/-- One step of the block that a condition opens. -/
def stepCondition (s : State) (t : Text) : State × Bool :=
  let (b, held) := s.condition.step Text.opensCondition t
  ({ s with condition := b }, held)

/-- One step of the block that `return (` opens. -/
def stepResult (s : State) (t : Text) : State × Bool :=
  let (b, held) := s.result.step Text.opensResult t
  ({ s with result := b }, held)

/-- One step of all three blocks.  None of them is skipped because another one holds. -/
def stepBlocks (s : State) (raw trimmed : Text) : State × Bool :=
  let (s, declared) := s.stepDeclaration raw trimmed
  let (s, conditional) := s.stepCondition trimmed
  let (s, returned) := s.stepResult trimmed
  (s, declared || conditional || returned)

end State

end Semicolon
