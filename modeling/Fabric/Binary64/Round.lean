import Fabric.Binary64.Basic

/-!
# Rounding to binary64

`Magnitude.nearest n d` is the magnitude nearest to the quotient `n / d`, where of two magnitudes
equally near the one with the even last place is taken. The quotient is first scaled so that its
whole part has at most 53 bits; the scale and the rounded quotient then give the ordinal directly,
because a carry into the next power of two lands on the ordinal where that power begins.
-/

namespace Fabric.Binary64

/-- The whole number nearest to `n / d`; a half goes to the even neighbour. -/
def roundHalfEven (n d : Nat) : Nat :=
  let quotient := n / d
  let twice := 2 * (n % d)
  if twice < d ∨ (twice = d ∧ quotient % 2 = 0) then quotient else quotient + 1

/-- How many binary places a number of units loses when it is cut to 53 bits. -/
def excessBits (units : Nat) : Nat := Nat.log2 units - 52

namespace Magnitude

/-- The magnitude nearest to `n / d` units. -/
def nearestUnits (n d : Nat) : Magnitude :=
  let scale := excessBits (n / d)
  ofOrdinal (scale * binadeSize + roundHalfEven n (d * Nat.pow 2 scale))

/-- The magnitude nearest to `n / d`. -/
def nearest (n d : Nat) : Magnitude := nearestUnits (n * unitsPerOne) d

end Magnitude

end Fabric.Binary64
