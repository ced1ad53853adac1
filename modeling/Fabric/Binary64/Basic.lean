/-!
# Binary64 values

The values of the IEEE 754 binary64 format, as exact data: not a number, or a sign and a magnitude.
The magnitudes, infinity included, are numbered in ascending order by their *ordinal*; a finite
magnitude is a natural number of units of `2 ^ -1074`, the smallest positive value. Everything the
library computes with these values is exact arithmetic on naturals followed by one rounding.
-/

namespace Fabric

namespace Binary64

/-- The number of magnitudes that share a power of two. -/
def binadeSize : Nat := Nat.pow 2 52

/-- The ordinal of infinity, above which there is no magnitude. -/
def infinityOrdinal : Nat := 2047 * binadeSize

/-- The number of units of `2 ^ -1074` in one. -/
def unitsPerOne : Nat := Nat.pow 2 1074

/-- A magnitude, named by its place in the ascending order: zero has ordinal 0. -/
structure Magnitude where
  /-- The place of the magnitude in the ascending order. -/
  ordinal : Nat
  ordinal_le : ordinal ≤ infinityOrdinal
  deriving DecidableEq

namespace Magnitude

def zero : Magnitude := ⟨0, Nat.zero_le _⟩

def infinity : Magnitude := ⟨infinityOrdinal, Nat.le_refl _⟩

/-- The magnitude of an ordinal; whatever lies beyond infinity is infinity. -/
def ofOrdinal (n : Nat) : Magnitude := ⟨min n infinityOrdinal, Nat.min_le_right _ _⟩

def isInfinite (m : Magnitude) : Bool := m.ordinal == infinityOrdinal

def isZero (m : Magnitude) : Bool := m.ordinal == 0

/-- The value in units of `2 ^ -1074`. In the lowest binade the ordinal counts the units; above it
the fraction is preceded by a leading one. The number for infinity continues the same rule. -/
def units (m : Magnitude) : Nat :=
  let binade := m.ordinal / binadeSize
  let fraction := m.ordinal % binadeSize
  if binade = 0 then fraction else (binadeSize + fraction) * Nat.pow 2 (binade - 1)

@[simp] theorem units_zero : units zero = 0 := by decide

end Magnitude

end Binary64

/-- A binary64 value: not a number, or a sign with a magnitude. Zero and infinity have both
signs. -/
inductive Binary64 where
  | nan
  | signed (negative : Bool) (magnitude : Binary64.Magnitude)
  deriving DecidableEq

namespace Binary64

def zero : Binary64 := .signed false .zero

instance : Inhabited Binary64 := ⟨zero⟩

def isFinite : Binary64 → Bool
  | .nan => false
  | .signed _ m => !m.isInfinite

/-- The place of a value in the numerical order, where both zeros are at 0; not a number has
none. -/
def place? : Binary64 → Option Int
  | .nan => none
  | .signed negative m => some (if negative then -(m.ordinal : Int) else m.ordinal)

/-- Numerical comparison; false as soon as one side is not a number. -/
def lt (a b : Binary64) : Bool :=
  match a.place?, b.place? with
  | some x, some y => x < y
  | _, _ => false

/-- Numerical comparison; false as soon as one side is not a number. -/
def le (a b : Binary64) : Bool :=
  match a.place?, b.place? with
  | some x, some y => x ≤ y
  | _, _ => false

/-- Numerical equality: the zeros are equal, and not a number differs from itself. -/
def same (a b : Binary64) : Bool :=
  match a.place?, b.place? with
  | some x, some y => x == y
  | _, _ => false

instance : BEq Binary64 := ⟨same⟩

end Binary64

end Fabric
