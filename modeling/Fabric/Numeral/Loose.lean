import Fabric.Binary64.Read
import Fabric.Text.Blank
import Fabric.Text.Digits
import Fabric.Text.Quoted

/-!
# Loose numerals

A loose numeral may stand between blanks, may be written with the decimal digits of any script, and
may hold single low lines between its digits. An integer is read in a radix, whose mark may come
before the digits. `splitInteger?` finds the parts of an integer, `readInteger` also keeps the limit
on decimal digits, and `readReal` reads a real numeral.
-/

namespace Fabric.Numeral

/-- The radixes in which integers are written. -/
inductive Radix where
  | binary
  | octal
  | decimal
  | hexadecimal
  deriving DecidableEq, Repr

namespace Radix

def base : Radix → Nat
  | .binary => 2
  | .octal => 8
  | .decimal => 10
  | .hexadecimal => 16

/-- The letter that marks a radix after a zero, in lower case. -/
def mark? : Radix → Option Char
  | .binary => some 'b'
  | .octal => some 'o'
  | .decimal => none
  | .hexadecimal => some 'x'

/-- The number that a digit stands for. -/
def digitValue? (radix : Radix) (c : Char) : Option Nat :=
  let lower := c.toLower
  let value :=
    if c.isDigit then c.toNat - '0'.toNat
    else if 'a' ≤ lower && lower ≤ 'f' then lower.toNat - 'a'.toNat + 10
    else radix.base
  if value < radix.base then some value else none

def isDigit (radix : Radix) (c : Char) : Bool := (radix.digitValue? c).isSome

/-- The number that digits stand for; other characters count as zeros. -/
def ofDigits (radix : Radix) (digits : List Char) : Nat :=
  digits.foldl (fun n c => radix.base * n + (radix.digitValue? c).getD 0) 0

/-- Takes the mark of a radix off a numeral, if it is there, and a low line after it. -/
def dropMark (radix : Radix) : List Char → List Char
  | '0' :: mark :: rest =>
    if radix.mark? = some mark.toLower then
      if rest.head? = some '_' then rest.tail else rest
    else '0' :: mark :: rest
  | text => text

end Radix

/-- Why a text is no numeral. -/
inductive Fault where
  | notAnInteger (radix : Radix) (text : String)
  | notAReal (text : String)
  /-- A decimal numeral has more digits than may be converted. -/
  | tooManyDigits (count : Nat)
  deriving DecidableEq, Repr

/-- How much of a text that is no integer is shown. -/
def shownLength : Nat := 200

def Fault.message : Fault → String
  | .notAnInteger radix text =>
    "invalid literal for int() with base " ++ Numeral.text radix.base ++ ": " ++
      String.ofList ((Text.quoted text).toList.take shownLength)
  | .notAReal text => "could not convert string to float: " ++ Text.quoted text
  | .tooManyDigits count =>
    "Exceeds the limit (" ++ Numeral.text maxDigits ++
      " digits) for integer string conversion: value has " ++ Numeral.text count ++
      " digits; use sys.set_int_max_str_digits() to increase the limit"

/-- A blank that may stand around a numeral: a space, or a control from tab to carriage return. -/
def isPadding (c : Char) : Bool := c == ' ' || ('\t' ≤ c && c ≤ '\r')

/-- The ASCII form of a blank or a decimal digit of any script; other characters stay. -/
def asciiForm (c : Char) : Char :=
  if c.toNat < 128 then c
  else if Text.isBlank c then ' '
  else match Text.digitValue? c with
    | some d => Nat.digitChar d
    | none => c

/-- Whether every low line has a digit before and after it. -/
def areGrouped (isDigit : Char → Bool) (text : List Char) : Bool :=
  (text.zip (text.drop 1 ++ [' '])).all (fun (c, next) => c != '_' || isDigit next) &&
    (text.zip (' ' :: text)).all fun (c, previous) => c != '_' || isDigit previous

/-- The parts of an integer: its sign, its digits, and what follows them. -/
structure IntegerParts where
  negative : Bool
  digits : List Char
  rest : List Char

/-- Splits an integer; there must be digits, and low lines only between them. -/
def splitInteger? (radix : Radix) (text : List Char) : Option IntegerParts :=
  let (negative, body) := splitSign ((text.map asciiForm).dropWhile isPadding)
  let body := radix.dropMark body
  let isPart (c : Char) : Bool := radix.isDigit c || c == '_'
  let grouped := body.takeWhile isPart
  if grouped.isEmpty || !areGrouped radix.isDigit grouped then none
  else some { negative, digits := grouped.filter (· != '_'), rest := body.dropWhile isPart }

/-- The integer that parts stand for, if only blanks follow it. -/
def IntegerParts.value? (parts : IntegerParts) (radix : Radix) : Option Int :=
  if parts.rest.all isPadding then some (signed parts.negative (radix.ofDigits parts.digits))
  else none

/-- Reads an integer. A decimal numeral that is too long is refused before what follows it is
looked at. -/
def readInteger (radix : Radix) (text : List Char) : Except Fault Int :=
  let refused := Fault.notAnInteger radix (String.ofList text)
  match splitInteger? radix text with
  | none => .error refused
  | some parts =>
    if radix = .decimal ∧ parts.digits.length > maxDigits then
      .error (.tooManyDigits parts.digits.length)
    else match parts.value? radix with
      | some n => .ok n
      | none => .error refused

/-- Reads a real numeral, or one of the words for infinity and for not a number. -/
def readReal (text : List Char) : Except Fault Binary64 :=
  let plain := (text.map asciiForm).dropWhile isPadding
  let body := (plain.reverse.dropWhile isPadding).reverse
  let value? :=
    if areGrouped Char.isDigit body then
      Binary64.read? (String.ofList (body.filter (· != '_')))
    else none
  match value? with
  | some x => .ok x
  | none => .error (.notAReal (String.ofList text))

end Fabric.Numeral
