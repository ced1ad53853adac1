import Fabric.Binary64.Basic
import Fabric.Numeral

/-!
# Decimal expansions and their layout

A positive decimal is a coefficient with a power of ten. `DecimalStyle` holds the decisions of a
written form: between which exponents the number is written positionally, and whether a whole
number keeps its point.
-/

namespace Fabric.Binary64

/-- The number `coefficient * 10 ^ exponent`. -/
structure Decimal where
  coefficient : Nat
  exponent : Int
  deriving DecidableEq

/-- The significant digits of a decimal: its coefficient without the zeros at its end, and the
place of the point counted from the first digit. -/
def Decimal.significant (d : Decimal) : List Char × Int :=
  let all := Nat.toDigits 10 d.coefficient
  let kept := (all.reverse.dropWhile (· == '0')).reverse
  (if kept.isEmpty then ['0'] else kept, all.length + d.exponent)

/-- The decisions of a written form of decimals. -/
structure DecimalStyle where
  /-- The least exponent that is written positionally. -/
  leastExponent : Int
  /-- The first exponent that is too large to be written positionally. -/
  exponentLimit : Int
  /-- Whether a whole number is followed by a point and a zero. -/
  keepsPoint : Bool

/-- The exponent after its mark: a sign and at least two digits. -/
def exponentText (exponent : Int) : List Char :=
  let digits := Nat.toDigits 10 exponent.natAbs
  ['e', if exponent < 0 then '-' else '+'] ++ (if digits.length < 2 then '0' :: digits else digits)

/-- Writes significant digits whose point stands after `point` of them. -/
def DecimalStyle.layOut (style : DecimalStyle) (digits : List Char) (point : Int) : List Char :=
  let exponent := point - 1
  if style.leastExponent ≤ exponent ∧ exponent < style.exponentLimit then
    if point ≤ 0 then ['0', '.'] ++ List.replicate (-point).toNat '0' ++ digits
    else
      let places := point.toNat
      if digits.length ≤ places then
        digits ++ List.replicate (places - digits.length) '0' ++
          (if style.keepsPoint then ['.', '0'] else [])
      else digits.take places ++ ['.'] ++ digits.drop places
  else
    (match digits with
      | first :: second :: rest => first :: '.' :: second :: rest
      | _ => digits) ++ exponentText exponent

/-- Writes a value whose magnitude, if it is finite and not zero, has the given decimal. -/
def DecimalStyle.write (style : DecimalStyle) (decimal : Magnitude → Decimal) : Binary64 → String
  | .nan => "nan"
  | .signed negative m =>
    let body :=
      if m.isInfinite then ['i', 'n', 'f']
      else if m.isZero then style.layOut ['0'] 1
      else
        let (digits, point) := (decimal m).significant
        style.layOut digits point
    String.ofList (if negative then '-' :: body else body)

/-- The place of the point of a positive number of units: the number lies below ten to this power
and not below the power before. Shifted by `10 ^ 400`, every positive value has a whole part. -/
def pointPlace (units : Nat) : Int :=
  (Nat.toDigits 10 (units * Nat.pow 10 400 / unitsPerOne)).length - 400

/-- A number of units divided by a power of ten, as a fraction. -/
def unitsOver (units : Nat) (exponent : Int) : Nat × Nat :=
  if 0 ≤ exponent then (units, unitsPerOne * Nat.pow 10 exponent.toNat)
  else (units * Nat.pow 10 (-exponent).toNat, unitsPerOne)

end Fabric.Binary64
