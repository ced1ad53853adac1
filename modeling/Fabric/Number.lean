import Fabric.Binary64.Arith
import Fabric.Binary64.Shortest
import Fabric.Binary64.Significant
import Fabric.Count

/-!
# Numbers

A number is a count or a binary64 value. Counts and values are compared exactly, whatever their
size; a count becomes a value only where one is computed with or shown with six digits, and there it
may be too large. `Operand` is the interface of what may stand as a real operand of a statement.
-/

namespace Fabric

inductive Number where
  | whole (n : Count)
  | real (x : Binary64)
  deriving DecidableEq

namespace Number

/-- The number as a binary64 value. -/
def toReal : Number → Except NumberFault Binary64
  | .whole n => Binary64.ofInt n.value
  | .real x => .ok x

/-- Why a number is no binary64 value, if it is not. -/
def fault? (n : Number) : Option NumberFault :=
  match n.toReal with
  | .ok _ => none
  | .error fault => some fault

/-- The numeral of a number: the digits of a count, or the shortest numeral that reads back. -/
def text : Number → Except NumberFault String
  | .whole n => if Numeral.isWritable n.value then .ok n.text else .error .tooManyDigits
  | .real x => .ok x.text

/-- The place of a number in the numerical order: on which side of the finite numbers it lies, and
for a finite one its units. Not a number has no place. -/
def place? : Number → Option (Int × Int)
  | .whole n => some (0, n.value * Binary64.unitsPerOne)
  | .real .nan => none
  | .real (.signed negative m) =>
    let sign : Int := if negative then -1 else 1
    some (if m.isInfinite then (sign, 0) else (0, sign * m.units))

/-- Numerical comparison; false as soon as one side is not a number. -/
def lt : Number → Number → Bool
  | .real x, .real y => x.lt y
  | a, b => match a.place?, b.place? with
    | some (sideA, unitsA), some (sideB, unitsB) =>
      sideA < sideB || (sideA == sideB && unitsA < unitsB)
    | _, _ => false

/-- Numerical equality; not a number differs from itself. -/
def same : Number → Number → Bool
  | .real x, .real y => x.same y
  | a, b => match a.place?, b.place? with
    | some placeA, some placeB => placeA == placeB
    | _, _ => false

/-- Numerical comparison; false as soon as one side is not a number. -/
def le : Number → Number → Bool
  | .real x, .real y => x.le y
  | a, b => a.lt b || a.same b

/-- The value nearest to a number. -/
def nearest : Number → Binary64
  | .whole n => .nearestInt n.value
  | .real x => x

@[simp] theorem lt_real (x y : Binary64) : (real x).lt (real y) = x.lt y := rfl

@[simp] theorem le_real (x y : Binary64) : (real x).le (real y) = x.le y := rfl

@[simp] theorem same_real (x y : Binary64) : (real x).same (real y) = x.same y := rfl

end Number

/-- What may stand as a real operand of a statement: it has a numeral, and a brief one of six
significant digits. -/
class Operand (ρ : Type) where
  text : ρ → Except NumberFault String
  brief : ρ → Except NumberFault String

instance : Operand Binary64 where
  text x := .ok x.text
  brief x := .ok x.briefText

instance : Operand Number where
  text := Number.text
  brief n := n.toReal.map Binary64.briefText

end Fabric
