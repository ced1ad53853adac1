import Fabric.Binary64.Round
import Fabric.Numeral

/-!
# Reading decimal numerals

A decimal numeral is an optional sign, digits with at most one point among or beside them, and an
optional exponent; `inf`, `infinity` and `nan` are numerals too, in any case. Its value is rounded
once. Exponents so large or so small that the result is certainly infinite or zero are not
expanded.
-/

namespace Fabric.Binary64

/-- The magnitude nearest to `coefficient * 10 ^ exponent`. Beyond `10 ^ 310` every positive
multiple is infinite; a product below `10 ^ -330` is zero. -/
def Magnitude.ofScientific (coefficient : Nat) (exponent : Int) : Magnitude :=
  if coefficient = 0 then zero
  else if exponent > 310 then infinity
  else if exponent < -(332 + Nat.log2 coefficient : Int) then zero
  else if 0 ≤ exponent then nearest (coefficient * Nat.pow 10 exponent.toNat) 1
  else nearest coefficient (Nat.pow 10 (-exponent).toNat)

/-- The parts of a decimal numeral without its sign. -/
structure DecimalParts where
  whole : List Char
  fraction : List Char
  exponent : Int

/-- Reads the exponent at the end of a numeral: nothing, or a mark, an optional sign and digits. -/
def readExponent? : List Char → Option Int
  | [] => some 0
  | mark :: rest =>
    let (negative, digits) := Numeral.splitSign rest
    if (mark == 'e' || mark == 'E') && !digits.isEmpty && digits.all Char.isDigit then
      some (Numeral.signed negative (Numeral.ofDigits digits))
    else none

/-- Splits a numeral without sign into its parts. -/
def readParts? (text : List Char) : Option DecimalParts :=
  let whole := text.takeWhile Char.isDigit
  let (fraction, rest) := match text.dropWhile Char.isDigit with
    | '.' :: tail => (tail.takeWhile Char.isDigit, tail.dropWhile Char.isDigit)
    | rest => ([], rest)
  if whole.isEmpty && fraction.isEmpty then none
  else (readExponent? rest).map fun exponent => { whole, fraction, exponent }

/-- The magnitude of a numeral from its parts. -/
def DecimalParts.magnitude (p : DecimalParts) : Magnitude :=
  .ofScientific (Numeral.ofDigits (p.whole ++ p.fraction)) (p.exponent - p.fraction.length)

/-- Reads a numeral without sign; not a number is `none` inside. -/
def readUnsigned? (text : List Char) : Option (Option Magnitude) :=
  let lower := text.map Char.toLower
  if lower = "inf".toList ∨ lower = "infinity".toList then some (some .infinity)
  else if lower = "nan".toList then some none
  else (readParts? text).map fun parts => some parts.magnitude

/-- Reads a numeral of ASCII characters. -/
def read? (token : String) : Option Binary64 :=
  let (negative, rest) := Numeral.splitSign token.toList
  (readUnsigned? rest).map fun
    | some m => .signed negative m
    | none => .nan

end Fabric.Binary64
