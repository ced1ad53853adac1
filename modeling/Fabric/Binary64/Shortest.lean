import Fabric.Binary64.Decimal
import Fabric.Binary64.Read

/-!
# The shortest numeral that reads back

`Magnitude.shortest` gives the decimal with the fewest digits whose nearest magnitude is the given
one, and of two such decimals the nearer. For a growing number of digits the two neighbours of the
value on that decimal grid are read back; the first grid with a hit wins. Should no grid up to
`maxShortestDigits` have one, the exact expansion is taken, so that what is written always reads
back.
-/

namespace Fabric.Binary64

/-- Seventeen digits tell all binary64 values apart. -/
def maxShortestDigits : Nat := 17

namespace Magnitude

/-- The neighbours of a value on the grid of multiples of `10 ^ exponent`, the nearer first; of two
equally near ones the even first. -/
def gridNeighbours (units : Nat) (exponent : Int) : List Decimal :=
  let (n, d) := unitsOver units exponent
  let below := n / d
  let nearer := if 2 * (n % d) < d ∨ (2 * (n % d) = d ∧ below % 2 = 0) then below else below + 1
  let other := if nearer = below then below + 1 else below
  [⟨nearer, exponent⟩, ⟨other, exponent⟩]

/-- A decimal that reads back as the magnitude. -/
def readsBack (m : Magnitude) (d : Decimal) : Bool := ofScientific d.coefficient d.exponent = m

/-- The decimals tried for a magnitude: the grid neighbours with one digit, two digits, and so
on. -/
def shortCandidates (m : Magnitude) : List Decimal :=
  let point := pointPlace m.units
  (List.range maxShortestDigits).flatMap fun digits =>
    gridNeighbours m.units (point - (digits + 1 : Nat))

/-- The exact decimal expansion of a finite magnitude: a unit is `5 ^ 1074` times `10 ^ -1074`. -/
def expansion (m : Magnitude) : Decimal := ⟨m.units * Nat.pow 5 1074, -1074⟩

/-- The shortest decimal that reads back as the magnitude. -/
def shortest (m : Magnitude) : Decimal :=
  ((shortCandidates m).find? m.readsBack).getD m.expansion

end Magnitude

/-- The exact written form: positional from `10 ^ -4` up to below `10 ^ 16`, and a whole number
shows its point. -/
def exactStyle : DecimalStyle := { leastExponent := -4, exponentLimit := 16, keepsPoint := true }

/-- The shortest numeral that reads back as the value. -/
def text (x : Binary64) : String := exactStyle.write Magnitude.shortest x

end Fabric.Binary64
