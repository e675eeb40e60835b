/-
Dates and times of day.

The calendar is the Gregorian one, carried back before its introduction, for the years 1 to
9999.  A time may come with an offset from universal time, which is less than a day either way;
two times with an offset are equal if they are the same instant.
-/

namespace Semicolon.Calendar

/-- A day of the calendar. -/
structure Date where
  year : Nat
  month : Nat
  day : Nat
  deriving DecidableEq, Repr

/-- A time on a day.  The offset is in seconds east of universal time. -/
structure Moment where
  date : Date
  hour : Nat
  minute : Nat
  second : Nat
  micro : Nat
  offset : Option Int
  deriving DecidableEq, Repr

/-! ### What is no date -/

/-- Why numbers make up no date or time. -/
inductive Fault where
  | year (n : Nat)
  | month
  | day
  | hour
  | minute
  | second
  | offset (seconds : Int)
  deriving DecidableEq, Repr

/-- Does the year have a 29th of February? -/
def isLeap (year : Nat) : Bool := year % 4 = 0 && (year % 100 ≠ 0 || year % 400 = 0)

/-- The number of days in a month. -/
def daysIn (year month : Nat) : Nat :=
  if month = 2 then (if isLeap year then 29 else 28)
  else if [4, 6, 9, 11].contains month then 30
  else 31

/-- The date with these numbers, if there is one. -/
def date (year month day : Nat) : Except Fault Date :=
  if year < 1 || year > 9999 then .error (.year year)
  else if month < 1 || month > 12 then .error .month
  else if day < 1 || day > daysIn year month then .error .day
  else .ok { year, month, day }

/-- An offset of less than a day. -/
def offset (seconds : Int) : Except Fault Int :=
  if seconds.natAbs < 86400 then .ok seconds else .error (.offset seconds)

/-- The time with these numbers, if there is one. -/
def moment (d : Date) (hour minute second micro : Nat) (offset : Option Int) :
    Except Fault Moment :=
  if hour > 23 then .error .hour
  else if minute > 59 then .error .minute
  else if second > 59 then .error .second
  else .ok { date := d, hour, minute, second, micro, offset }

/-! ### Instants -/

/-- The number of days before the date, counted from the first day of year 1. -/
def Date.ordinal (d : Date) : Nat :=
  let y := d.year - 1
  let months := (List.range (d.month - 1)).foldl (fun days m => days + daysIn d.year (m + 1)) 0
  y * 365 + y / 4 - y / 100 + y / 400 + months + d.day

/-- The instant in microseconds of universal time, for a time with an offset. -/
def Moment.instant? (t : Moment) : Option Int :=
  t.offset.map fun seconds =>
    let elapsed : Int := ((t.date.ordinal * 24 + t.hour) * 60 + t.minute) * 60 + t.second
    (elapsed - seconds) * 1000000 + t.micro

/-- Two times are the same if both have an offset and they are the same instant, or if neither has
one and all their numbers are. -/
def Moment.same (a b : Moment) : Bool :=
  match a.instant?, b.instant? with
  | some i, some j => i = j
  | none, none => a = b
  | _, _ => false

/-! ### Text -/

/-- A number in at least `width` digits. -/
def padded (width n : Nat) : String :=
  let digits := Nat.toDigits 10 n
  String.ofList (List.replicate (width - digits.length) '0' ++ digits)

/-- A date as year, month and day with hyphens. -/
def Date.text (d : Date) : String :=
  padded 4 d.year ++ "-" ++ padded 2 d.month ++ "-" ++ padded 2 d.day

/-- An offset as hours and minutes with a sign. -/
def offsetText (seconds : Int) : String :=
  let minutes := seconds.natAbs / 60
  (if seconds < 0 then "-" else "+") ++ padded 2 (minutes / 60) ++ ":" ++ padded 2 (minutes % 60)

/-- A time as its date and the time of day, with microseconds if there are any. -/
def Moment.text (t : Moment) : String :=
  t.date.text ++ " " ++ padded 2 t.hour ++ ":" ++ padded 2 t.minute ++ ":" ++ padded 2 t.second
    ++ (if t.micro = 0 then "" else "." ++ padded 6 t.micro)
    ++ (t.offset.map offsetText).getD ""

/-- A date as a constructor with its numbers. -/
def Date.shown (d : Date) : String :=
  "datetime.date(" ++ toString d.year ++ ", " ++ toString d.month ++ ", " ++ toString d.day ++ ")"

/-- A span of time as a constructor with days and seconds; the seconds are never negative. -/
def spanShown (seconds : Int) : String :=
  let days := seconds / 86400
  let rest := seconds % 86400
  let parts :=
    (if days = 0 then [] else ["days=" ++ toString days])
      ++ (if rest = 0 then [] else ["seconds=" ++ toString rest])
  "datetime.timedelta(" ++ (if parts.isEmpty then "0" else ", ".intercalate parts) ++ ")"

/-- An offset as a constructor. -/
def offsetShown (seconds : Int) : String :=
  if seconds = 0 then "datetime.timezone.utc"
  else "datetime.timezone(" ++ spanShown seconds ++ ")"

/-- A time as a constructor with its numbers; seconds and microseconds that are zero are left out
from the end. -/
def Moment.shown (t : Moment) : String :=
  let numbers := [t.date.year, t.date.month, t.date.day, t.hour, t.minute]
    ++ (if t.second = 0 && t.micro = 0 then [] else [t.second])
    ++ (if t.micro = 0 then [] else [t.micro])
  let zone := match t.offset with
    | none => ""
    | some seconds => ", tzinfo=" ++ offsetShown seconds
  "datetime.datetime(" ++ ", ".intercalate (numbers.map toString) ++ zone ++ ")"

/-- The wording of a fault. -/
def Fault.message : Fault → String
  | .year n => "year " ++ toString n ++ " is out of range"
  | .month => "month must be in 1..12"
  | .day => "day is out of range for month"
  | .hour => "hour must be in 0..23"
  | .minute => "minute must be in 0..59"
  | .second => "second must be in 0..59"
  | .offset seconds =>
    "offset must be a timedelta strictly between -timedelta(hours=24) and timedelta(hours=24), not "
      ++ spanShown seconds ++ "."

end Semicolon.Calendar
