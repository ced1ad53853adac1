import Fabric.Binary64.Round
import Fabric.NumberFault

/-!
# Arithmetic

Each operation is the exact result rounded once to the nearest value. `sqrt` rounds an irrational
number: half units of it are counted exactly, and a rest is replaced by a quarter unit, which lies
on the same side of every value and of every midpoint between two values.
-/

namespace Fabric.Binary64

namespace Magnitude

def add (a b : Magnitude) : Magnitude :=
  if a.isInfinite || b.isInfinite then infinity else nearestUnits (a.units + b.units) 1

/-- The product of two magnitudes, of which none is zero if the other is infinite. -/
def mul (a b : Magnitude) : Magnitude :=
  if a.isInfinite || b.isInfinite then infinity else nearestUnits (a.units * b.units) unitsPerOne

/-- The quotient of two magnitudes, of which not both are zero and not both infinite. -/
def div (a b : Magnitude) : Magnitude :=
  if a.isInfinite || b.isZero then infinity
  else if b.isInfinite then zero
  else nearest a.units b.units

def sqrt (a : Magnitude) : Magnitude :=
  if a.isInfinite then infinity
  else
    let square := 4 * (a.units * unitsPerOne)
    let root := Nat.sqrt square
    nearestUnits (2 * root + if root * root = square then 0 else 1) 4

/-- The least whole number that is not below a finite magnitude. -/
def ceil (a : Magnitude) : Nat := (a.units + (unitsPerOne - 1)) / unitsPerOne

/-- The greatest whole number that is not above a finite magnitude. -/
def floor (a : Magnitude) : Nat := a.units / unitsPerOne

end Magnitude

/-- The value of a signed number of units; zero is positive. -/
def ofUnits (units : Int) : Binary64 :=
  .signed (units < 0) (.nearestUnits units.natAbs 1)

def add : Binary64 → Binary64 → Binary64
  | .signed s a, .signed t b =>
    if s = t then .signed s (a.add b)
    else if a.isInfinite && b.isInfinite then .nan
    else if a.isInfinite then .signed s a
    else if b.isInfinite then .signed t b
    else ofUnits ((if s then -(a.units : Int) else a.units) +
      (if t then -(b.units : Int) else b.units))
  | _, _ => .nan

def mul : Binary64 → Binary64 → Binary64
  | .signed s a, .signed t b =>
    if (a.isZero && b.isInfinite) || (a.isInfinite && b.isZero) then .nan
    else .signed (s != t) (a.mul b)
  | _, _ => .nan

def div : Binary64 → Binary64 → Binary64
  | .signed s a, .signed t b =>
    if (a.isZero && b.isZero) || (a.isInfinite && b.isInfinite) then .nan
    else .signed (s != t) (a.div b)
  | _, _ => .nan

/-- The square root; that of a negative zero is the negative zero. -/
def sqrt : Binary64 → Binary64
  | .signed s a => if s && !a.isZero then .nan else .signed s a.sqrt
  | .nan => .nan

/-- Division that refuses a divisor of zero. -/
def quotient (a b : Binary64) : Except NumberFault Binary64 :=
  if b.same zero then .error .divisionByZero else .ok (a.div b)

/-- The value nearest to an integer, infinite if the integer is out of range. -/
def nearestInt (n : Int) : Binary64 := .signed (n < 0) (.nearest n.natAbs 1)

/-- The value nearest to an integer. -/
def ofInt (n : Int) : Except NumberFault Binary64 :=
  if (nearestInt n).isFinite then .ok (nearestInt n) else .error .integerTooLarge

/-- The value nearest to the quotient of two integers. -/
def quotientOfInts (a b : Int) : Except NumberFault Binary64 :=
  if b = 0 then .error .divisionByZero
  else
    let q := .signed (decide (a < 0) != decide (b < 0)) (.nearest a.natAbs b.natAbs)
    if q.isFinite then .ok q else .error .quotientTooLarge

/-- The least integer that is not below a value. -/
def ceil : Binary64 → Except NumberFault Int
  | .nan => .error .wholeOfNan
  | .signed s m =>
    if m.isInfinite then .error .wholeOfInfinity
    else .ok (if s then -(m.floor : Int) else m.ceil)

end Fabric.Binary64
