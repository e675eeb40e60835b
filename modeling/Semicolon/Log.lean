/-
What a run tells its user along the way.
-/

namespace Semicolon

/-- How much a message matters. -/
inductive Level where
  | debug
  | info
  | warning
  deriving DecidableEq, Repr

/-- The name of a level. -/
def Level.name : Level → String
  | .debug => "DEBUG"
  | .info => "INFO"
  | .warning => "WARNING"

/-- One message. -/
structure Message where
  level : Level
  text : String
  deriving DecidableEq, Repr

namespace Message

/-- A message for those who asked for details. -/
def debug (text : String) : Message := { level := .debug, text }

/-- A message about something that was passed over. -/
def warning (text : String) : Message := { level := .warning, text }

/-- A message with its level in front. -/
def line (m : Message) : String := m.level.name ++ ": " ++ m.text

/-- Is the message shown?  Details are shown only on request. -/
def isShown (verbose : Bool) (m : Message) : Bool := verbose || m.level ≠ .debug

end Message

/-- The messages of a run, in order. -/
abbrev Log := List Message

end Semicolon
