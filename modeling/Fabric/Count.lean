import Fabric.Numeral
import Fabric.NumberFault

/-!
# Counts

A count in a configuration is an integer, or a truth value that counts as one or zero. The two are
told apart only where a count is shown.
-/

namespace Fabric

inductive Count where
  | number (n : Int)
  | flag (b : Bool)
  deriving DecidableEq, Repr

namespace Count

/-- The integer that a count stands for. -/
def value : Count → Int
  | .number n => n
  | .flag b => if b then 1 else 0

/-- How a count is shown. -/
def text : Count → String
  | .number n => Numeral.text n
  | .flag b => if b then "True" else "False"

instance (n : Nat) : OfNat Count n := ⟨.number n⟩

@[simp] theorem value_number (n : Int) : (number n).value = n := rfl

end Count

end Fabric
