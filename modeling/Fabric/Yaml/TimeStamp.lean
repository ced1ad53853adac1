import Fabric.Calendar

/-!
# Days and times in YAML

A day is written as year, month and day; a point in time adds a clock and, optionally, how far the
clock is from universal time. The form is checked here, and the calendar afterwards, so a text can
have the form of a time and be none.
-/

namespace Fabric.Yaml

structure TimeStamp where
  day : Day
  clock : Option Clock := none

namespace TimeStamp

/-- Takes as many digits as there are, up to a number of them, and at least another. -/
def takeDigits? (least most : Nat) (text : List Char) : Option (Nat × List Char) :=
  let digits := (text.take most).takeWhile Char.isDigit
  if digits.length < least then none
  else some (Numeral.ofDigits digits, text.drop digits.length)

/-- Takes a character that must be there. -/
def takeChar? (c : Char) : List Char → Option (List Char)
  | [] => none
  | d :: rest => if c = d then some rest else none

def isBlank (c : Char) : Bool := c == ' ' || c == '\t'

/-- Reads how far a clock is ahead, in minutes, at the end of a text. -/
def readZone? (text : List Char) : Option (Option Int) :=
  match text, text.dropWhile isBlank with
  | [], _ => some none
  | _, ['Z'] => some (some 0)
  | _, sign :: rest => do
    if sign ≠ '+' ∧ sign ≠ '-' then none
    let (hours, rest) ← takeDigits? 1 2 rest
    let (minutes, rest) ←
      if rest.isEmpty then some (0, rest) else takeDigits? 2 2 (← takeChar? ':' rest)
    if !rest.isEmpty then none
    return some (Numeral.signed (sign == '-') (60 * hours + minutes))
  | _, [] => none

/-- The microseconds of the digits after the point, of which six count. -/
def microseconds (digits : List Char) : Nat :=
  let kept := digits.take 6
  Numeral.ofDigits (kept ++ List.replicate (6 - kept.length) '0')

/-- Reads a clock: after a mark or blanks. -/
def readClock? (text : List Char) : Option Clock := do
  let text ← match text with
    | 'T' :: rest | 't' :: rest => some rest
    | c :: rest => if isBlank c then some (rest.dropWhile isBlank) else none
    | [] => none
  let (hour, text) ← takeDigits? 1 2 text
  let (minute, text) ← takeDigits? 2 2 (← takeChar? ':' text)
  let (second, text) ← takeDigits? 2 2 (← takeChar? ':' text)
  let (fraction, text) := match text with
    | '.' :: rest => (rest.takeWhile Char.isDigit, rest.dropWhile Char.isDigit)
    | rest => ([], rest)
  return { hour, minute, second, microsecond := microseconds fraction, ahead := ← readZone? text }

/-- Reads a text that has the form of a day or a time. -/
def ofText? (text : List Char) : Option TimeStamp := do
  let (year, rest) ← takeDigits? 4 4 text
  let (month, rest) ← takeDigits? 1 2 (← takeChar? '-' rest)
  let (day, rest) ← takeDigits? 1 2 (← takeChar? '-' rest)
  let day : Day := { year, month, day }
  if rest.isEmpty then return { day }
  else return { day, clock := some (← readClock? rest) }

/-- The length of a day whose numbers have all their digits. -/
def dayLength : Nat := 10

/-- Whether the form of a plain text tells that it is a time: a day without a clock must have all
its digits. -/
def isPlain (text : List Char) : Bool :=
  match ofText? text with
  | some t => t.clock.isSome || text.length == dayLength
  | none => false

/-- Why the numbers make no time, if they do not; the clock's zone is looked at first. -/
def problem? (t : TimeStamp) : Option String :=
  (t.clock.bind Clock.zoneProblem?).or (t.day.problem?.or (t.clock.bind Clock.problem?))

end TimeStamp

end Fabric.Yaml
