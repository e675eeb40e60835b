/-
What a scalar stands for.

A scalar without quotation marks and without a tag gets its kind from its spelling: `yes` is a
boolean, `0b11` and `1:30` are integers, `1.5` is a float, `2024-01-31` is a date, and whatever
fits none of the spellings is a string.  A tag may ask for a kind that the spelling does not fit;
then reading the value fails in that kind's own way.
-/
import Semicolon.Yaml.Problem

namespace Semicolon.Yaml

/-- The kinds of node that have a name in the standard set, and any other tag. -/
inductive Tag where
  | null
  | boolean
  | integer
  | float
  | binary
  | timestamp
  | string
  | merge
  | default
  | sequence
  | mapping
  | set
  | orderedPairs
  | pairs
  | other (uri : String)
  deriving DecidableEq, Repr

/-- What the standard tags begin with. -/
def standardTags : String := "tag:yaml.org,2002:"

/-- The kind that a full tag names. -/
def Tag.ofUri (uri : String) : Tag :=
  let named : List (String × Tag) :=
    [("null", .null), ("bool", .boolean), ("int", .integer), ("float", .float),
      ("binary", .binary), ("timestamp", .timestamp), ("str", .string), ("merge", .merge),
      ("value", .default), ("seq", .sequence), ("map", .mapping), ("set", .set),
      ("omap", .orderedPairs), ("pairs", .pairs)]
  (named.lookup (String.ofList (uri.toList.drop standardTags.length))).filter
    (fun _ => standardTags.toList.isPrefixOf uri.toList) |>.getD (.other uri)

namespace Scalar

/-! ### Spelling -/

/-- A decimal digit. -/
def isDigit (c : Char) : Bool := '0' ≤ c && c ≤ '9'

/-- A decimal digit or an underscore between digits. -/
def isSpaced (c : Char) : Bool := isDigit c || c = '_'

/-- A sign. -/
def isSign (c : Char) : Bool := c = '-' || c = '+'

/-- The text without one sign in front. -/
def unsigned : List Char → List Char
  | c :: rest => if isSign c then rest else c :: rest
  | [] => []

/-- Cuts a text at every colon. -/
def colonParts : List Char → List (List Char)
  | [] => [[]]
  | c :: rest =>
    match colonParts rest with
    | [] => [[c]]
    | p :: ps => if c = ':' then [] :: p :: ps else (c :: p) :: ps

/-- A number below sixty in one or two digits. -/
def isSixtieth : List Char → Bool
  | [a] => isDigit a
  | [a, b] => '0' ≤ a && a ≤ '5' && isDigit b
  | _ => false

/-- A digit and then digits and underscores. -/
def isSpacedNumber : List Char → Bool
  | a :: rest => isDigit a && rest.all isSpaced
  | [] => false

/-- One of the spellings of a boolean. -/
def isBoolean (cs : List Char) : Bool :=
  ["yes", "Yes", "YES", "no", "No", "NO", "true", "True", "TRUE", "false", "False", "FALSE",
    "on", "On", "ON", "off", "Off", "OFF"].any fun w => w.toList = cs

/-- One of the spellings of nothing. -/
def isNull (cs : List Char) : Bool :=
  ["", "~", "null", "Null", "NULL"].any fun w => w.toList = cs

/-- An integer in base two, eight, ten, sixteen or sixty. -/
def isInteger (cs : List Char) : Bool :=
  match unsigned cs with
  | '0' :: 'b' :: rest => !rest.isEmpty && rest.all fun c => c = '0' || c = '1' || c = '_'
  | '0' :: 'x' :: rest =>
    !rest.isEmpty && rest.all fun c =>
      isSpaced c || ('a' ≤ c && c ≤ 'f') || ('A' ≤ c && c ≤ 'F')
  | '0' :: rest => rest.all fun c => ('0' ≤ c && c ≤ '7') || c = '_'
  | body =>
    match colonParts body with
    | first :: rest => isSpacedNumber first && rest.all isSixtieth
    | [] => false

/-- The exponent of a float: nothing, or the letter, a sign and digits. -/
def isExponent : List Char → Bool
  | [] => true
  | e :: s :: rest => (e = 'e' || e = 'E') && isSign s && !rest.isEmpty && rest.all isDigit
  | _ => false

/-- The end of a float after its point: digits and underscores, then an exponent. -/
def isFraction (cs : List Char) : Bool := isExponent (cs.dropWhile isSpaced)

/-- The part before the point and the part after it. -/
def atPoint (cs : List Char) : Option (List Char × List Char) :=
  match cs.dropWhile (· ≠ '.') with
  | _ :: after => some (cs.takeWhile (· ≠ '.'), after)
  | [] => none

/-- A float: with a point, in base sixty, infinite, or not a number. -/
def isFloat (cs : List Char) : Bool :=
  let body := unsigned cs
  let decimal :=
    match atPoint body with
    | none => false
    | some (whole, after) =>
      (isSpacedNumber whole && isFraction after)
        || (match colonParts whole with
          | first :: rest =>
            !rest.isEmpty && isSpacedNumber first && rest.all isSixtieth && after.all isSpaced
          | [] => false)
  let pointed :=
    match cs with
    | '.' :: a :: rest => isDigit a && isFraction rest
    | _ => false
  decimal || pointed
    || [".inf", ".Inf", ".INF"].any (fun w => w.toList = body)
    || [".nan", ".NaN", ".NAN"].any (fun w => w.toList = cs)

/-! ### Dates and times -/

/-- The offset that a time is written with. -/
inductive Zone where
  | universal
  | offset (west : Bool) (hours minutes : Nat)
  deriving DecidableEq, Repr

/-- The time of day in a timestamp. -/
structure Clock where
  hour : Nat
  minute : Nat
  second : Nat
  fraction : List Char
  zone : Option Zone
  deriving DecidableEq, Repr

/-- The numbers in a timestamp.  `full` says that month and day have two digits. -/
structure Stamp where
  year : Nat
  month : Nat
  day : Nat
  full : Bool
  clock : Option Clock
  deriving DecidableEq, Repr

/-- The number that digits spell in a base. -/
def number (base : Nat) (cs : List Char) : Nat :=
  cs.foldl (fun n c => n * base + (if isDigit c then c.toNat - 48
    else if 'a' ≤ c && c ≤ 'z' then c.toNat - 87 else c.toNat - 55)) 0

/-- Takes at least `least` and at most `most` digits off the front. -/
def takeDigits (least most : Nat) (cs : List Char) : Option (List Char × List Char) :=
  let digits := (cs.take most).takeWhile isDigit
  if least ≤ digits.length then some (digits, cs.drop digits.length) else none

/-- Takes one given character off the front. -/
def takeChar (c : Char) : List Char → Option (List Char)
  | a :: rest => if a = c then some rest else none
  | [] => none

/-- A space or a tab. -/
def isGap (c : Char) : Bool := c = ' ' || c = '\t'

/-- The offset at the end of a time: blanks, then `Z` or a sign with hours and perhaps minutes. -/
def zone? (cs : List Char) : Option (Option Zone) :=
  if cs.isEmpty then some none
  else
    match cs.dropWhile isGap with
    | ['Z'] => some (some .universal)
    | s :: rest =>
      if !isSign s then none
      else do
        let (hours, rest) ← takeDigits 1 2 rest
        let west := s = '-'
        if rest.isEmpty then some (some (.offset west (number 10 hours) 0))
        else
          let (minutes, rest) ← takeChar ':' rest >>= takeDigits 2 2
          if rest.isEmpty then some (some (.offset west (number 10 hours) (number 10 minutes)))
          else none
    | [] => none

/-- The time of day after a date. -/
def clock? (cs : List Char) : Option Clock := do
  let rest ← match cs with
    | 'T' :: rest => some rest
    | 't' :: rest => some rest
    | c :: rest => if isGap c then some (rest.dropWhile isGap) else none
    | [] => none
  let (hour, rest) ← takeDigits 1 2 rest
  let (minute, rest) ← takeChar ':' rest >>= takeDigits 2 2
  let (second, rest) ← takeChar ':' rest >>= takeDigits 2 2
  let (fraction, rest) := match rest with
    | '.' :: rest => (rest.takeWhile isDigit, rest.dropWhile isDigit)
    | _ => ([], rest)
  let zone ← zone? rest
  some { hour := number 10 hour, minute := number 10 minute, second := number 10 second,
         fraction, zone }

/-- The numbers of a date, with or without a time. -/
def stamp? (cs : List Char) : Option Stamp := do
  let (year, rest) ← takeDigits 4 4 cs
  let (month, rest) ← takeChar '-' rest >>= takeDigits 1 2
  let (day, rest) ← takeChar '-' rest >>= takeDigits 1 2
  let clock ← if rest.isEmpty then some none else (clock? rest).map some
  some { year := number 10 year, month := number 10 month, day := number 10 day,
         full := month.length = 2 && day.length = 2, clock }

/-- The spelling of a date or a time.  A date alone needs two digits for month and day. -/
def isTimestamp (cs : List Char) : Bool :=
  match stamp? cs with
  | some s => s.clock.isSome || s.full
  | none => false

/-! ### Kind by spelling -/

/-- A spelling is looked at without one line feed at its end. -/
def spelled (cs : List Char) : List Char :=
  if cs.getLast? = some '\n' then cs.dropLast else cs

/-- The kind of a scalar that has neither a tag nor quotation marks. -/
def kind (text : String) : Tag :=
  let cs := spelled text.toList
  if isBoolean cs then .boolean
  else if isFloat cs then .float
  else if isInteger cs then .integer
  else if cs = ['<', '<'] then .merge
  else if isNull text.toList || (isNull cs && !cs.isEmpty) then .null
  else if isTimestamp cs then .timestamp
  else if cs = ['='] then .default
  else if [['!'], ['&'], ['*']].contains cs then .other (standardTags ++ "yaml")
  else .string

end Scalar

end Semicolon.Yaml
