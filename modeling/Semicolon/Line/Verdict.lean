/-
The three questions that a line is asked, in this order.

Does it continue a statement?  Then nothing is asked of it.  Is it of a kind that never takes
a semicolon: blank, a comment, a control-flow keyword, or code that ends in a structural
character?  Then it is left alone as well.  Otherwise, does its code lack a terminator?

All rules are about characters.  Keywords match as prefixes, so `tryAgain()` counts as `try`.
-/
import Semicolon.Line.Basic
import Semicolon.Line.State

namespace Semicolon

/-- What a run asks for.  Fixed before the first file is looked at. -/
structure Policy where
  /-- Does a `return` statement need a semicolon? -/
  requireReturn : Bool := true
  deriving DecidableEq, Repr

/-! ### Continuation -/

/-- The operators that carry an expression over a line end. -/
def binaryOperators : String := "+-*/%^|&"

/-- The two-character operators of logic. -/
def logicalOperators : List String := ["&&", "||"]

namespace Line

/-- The code stops in the middle of a list or an expression. -/
def endsOpen (l : Line) : Bool := l.code.last?.any (·.among ("," ++ binaryOperators))

/-- The next line picks the expression up. -/
def isResumedBy (l : Line) (next : Text) : Bool :=
  let next := next.trimLeft
  next.first?.any (·.among ")]")
    || next.startsWithAny logicalOperators
    || next.first?.any (·.among binaryOperators)
    || (next.startsWith ")" && !l.text.isBlank && !l.text.last?.any (·.among ",;"))

/-- The line dangles on a logical operator, or it or the next one is an arm of a conditional
expression. -/
def isArm (l : Line) (next : Text) : Bool :=
  let trimmed := l.text.trimLeft
  trimmed.isOneOf logicalOperators
    || trimmed.endsWithAny logicalOperators
    || next.trimLeft.first?.any (·.among "?:")
    || trimmed.first?.any (·.among "?:")

/-- Does the line continue a statement?  `s` already counts the line's own brackets, `held` says
whether a block holds the line, and `next` is the line after it, empty after the last one. -/
def continues (l : Line) (next : Text) (s : State) (held : Bool) : Bool :=
  s.insideGroup || l.endsOpen || l.isResumedBy next || held || l.isArm next

end Line

/-! ### Lines that take no terminator -/

/-- What a line of control flow or declaration begins with. -/
def keywordStarts : List String :=
  ["if ", "if(", "for ", "for(", "while ", "while(", "switch ", "switch(", "else ", "try",
    "catch", "finally", "class ", "export ", "export\x7b", "import ", "import(", "function ",
    "async function ", "throw ", "break", "continue", "yield", "await "]

/-- What a `return` with a value begins with. -/
def returnStarts : List String := ["return ", "return("]

/-- The endings after which a statement is closed or still open on purpose. -/
def structuralEnds : List String := [";", "\x7b", "\x7d", ":", ",", "(", "=>"]

namespace Text

/-- Code that begins with a keyword which takes no terminator under the policy. -/
def startsWithKeyword (code : Text) (p : Policy) : Bool :=
  code = ofString "else" || code.startsWithAny keywordStarts
    || (code.startsWithAny returnStarts && !p.requireReturn)

/-- Code that is empty or ends in a structural character. -/
def endsStructurally (code : Text) : Bool := code.isEmpty || code.endsWithAny structuralEnds

/-- A line that never takes a terminator under the policy. -/
def isIgnorable (raw : Text) (p : Policy) : Bool :=
  let trimmed := raw.trimLeft
  let code := (Line.split trimmed).1
  code.isBlank
    || trimmed.startsWithAny ["*", "//", "/*"]
    || trimmed.isBareDeclaration
    || code.startsWithKeyword p
    || code.endsStructurally

/-! ### Lack of a terminator -/

/-- What an expression can end in: a letter, a digit, an underscore, a closing bracket or a
quotation mark. -/
def expressionEnds : String :=
  "abcdefghijklmnopqrstuvwxyzABCDEFGHIJKLMNOPQRSTUVWXYZ0123456789_)]\"'`"

/-- Does the code lack a terminator? -/
def needsTerminator (code : Text) : Bool :=
  match code.last? with
  | none => true
  | some last =>
    if last = .char ';' then false
    else if code.endsWithAny ["++", "--"] then true
    else if last.among expressionEnds then true
    else last ≠ .char ','

end Text

/-! ### The verdict -/

/-- What becomes of a line. -/
inductive Verdict where
  /-- It continues a statement. -/
  | continuation
  /-- It never takes a terminator. -/
  | ignorable
  /-- It has its terminator. -/
  | terminated
  /-- Its terminator is missing. -/
  | missing
  deriving DecidableEq, Repr

/-- The verdict on a line: the first of the three questions that settles it. -/
def Line.verdict (l : Line) (next : Text) (s : State) (held : Bool) (p : Policy) : Verdict :=
  if l.continues next s held then .continuation
  else if l.text.isIgnorable p then .ignorable
  else if l.code.needsTerminator then .missing
  else .terminated

end Semicolon
