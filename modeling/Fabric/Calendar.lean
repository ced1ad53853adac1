import Fabric.Numeral

/-!
# Days and times

The days of the Gregorian calendar, from year 1 to year 9999, and the times of a day. A clock may
know how far it is ahead of universal time; two clocks that know it are compared by the instant they
show, so one instant has many forms.
-/

namespace Fabric

structure Day where
  year : Nat
  month : Nat
  day : Nat
  deriving DecidableEq, Repr

/-- A time of day, and the minutes by which its clock is ahead of universal time, if they are
known. -/
structure Clock where
  hour : Nat
  minute : Nat
  second : Nat
  microsecond : Nat := 0
  ahead : Option Int := none
  deriving DecidableEq, Repr

/-- A number with zeros before it. -/
def padded (width n : Nat) : String :=
  let digits := Nat.toDigits 10 n
  String.ofList (List.replicate (width - digits.length) '0' ++ digits)

namespace Day

def isLeap (year : Nat) : Bool := year % 4 == 0 && (year % 100 != 0 || year % 400 == 0)

def daysInMonth (year month : Nat) : Nat :=
  if month = 2 then if isLeap year then 29 else 28
  else if month = 4 ∨ month = 6 ∨ month = 9 ∨ month = 11 then 30
  else 31

/-- How many days lie before a year, counted from the start of year 1. -/
def daysBeforeYear (year : Nat) : Nat :=
  let past := year - 1
  365 * past + past / 4 - past / 100 + past / 400

/-- How many days of a year lie before a month. -/
def daysBeforeMonth (year month : Nat) : Nat :=
  (List.range (month - 1)).foldl (fun days past => days + daysInMonth year (past + 1)) 0

/-- The number of a day, counted from the first day of year 1. -/
def number (d : Day) : Nat := daysBeforeYear d.year + daysBeforeMonth d.year d.month + d.day

/-- Whether a day is earlier. -/
def lt (a b : Day) : Bool := a.number < b.number

/-- Why numbers make no day, if they do not. -/
def problem? (d : Day) : Option String :=
  if d.year = 0 then some "year 0 is out of range"
  else if d.month = 0 ∨ d.month > 12 then some "month must be in 1..12"
  else if d.day = 0 ∨ d.day > daysInMonth d.year d.month then some "day is out of range for month"
  else none

def text (d : Day) : String :=
  padded 4 d.year ++ "-" ++ padded 2 d.month ++ "-" ++ padded 2 d.day

end Day

namespace Clock

/-- The number of minutes of a day. -/
def dayMinutes : Int := 24 * 60

/-- How a difference of minutes is shown: whole days, which may be negative, and seconds. -/
def differenceText (minutes : Int) : String :=
  let days := minutes / dayMinutes
  let seconds := minutes % dayMinutes * 60
  let parts := (if days = 0 then [] else ["days=" ++ Numeral.text days]) ++
    (if seconds = 0 then [] else ["seconds=" ++ Numeral.text seconds])
  "datetime.timedelta(" ++ ", ".intercalate parts ++ ")"

/-- Why the difference to universal time is none, if it is not: it is less than a day. -/
def zoneProblem? (c : Clock) : Option String :=
  let minutes := c.ahead.getD 0
  if minutes.natAbs ≥ dayMinutes.toNat then
    some ("offset must be a timedelta strictly between -timedelta(hours=24) and " ++
      "timedelta(hours=24), not " ++ differenceText minutes ++ ".")
  else none

/-- Why numbers make no time of day, if they do not. -/
def problem? (c : Clock) : Option String :=
  if c.hour > 23 then some "hour must be in 0..23"
  else if c.minute > 59 then some "minute must be in 0..59"
  else if c.second > 59 then some "second must be in 0..59"
  else none

/-- The microseconds between the start of a day by universal time and a clock on it. -/
def microseconds (c : Clock) : Int :=
  let minutes := 60 * (c.hour : Int) + c.minute - c.ahead.getD 0
  1000000 * (60 * minutes + c.second) + c.microsecond

def zoneText (ahead : Int) : String :=
  (if ahead < 0 then "-" else "+") ++ padded 2 (ahead.natAbs / 60) ++ ":" ++
    padded 2 (ahead.natAbs % 60)

/-- The text of a clock; microseconds are left out if they are zero. -/
def text (c : Clock) : String :=
  padded 2 c.hour ++ ":" ++ padded 2 c.minute ++ ":" ++ padded 2 c.second ++
    (if c.microsecond = 0 then "" else "." ++ padded 6 c.microsecond) ++
    (c.ahead.map zoneText).getD ""

/-- Whether two clocks both know their difference to universal time, or both do not. -/
def areAlike (a b : Clock) : Bool := a.ahead.isSome == b.ahead.isSome

end Clock

/-- The microseconds between the first day of year 1 and a time on a day. -/
def instant (d : Day) (c : Clock) : Int :=
  1000000 * (60 * (Clock.dayMinutes * d.number)) + c.microseconds

end Fabric
