import Fabric.Binary64.Read
import Fabric.Number

/-!
# Bounds of real-valued operands

Each real operand must lie above a low bound and not above a high bound.
-/

namespace Fabric

/-- The half-open interval of the values above `low` and not above `high`. -/
structure Bounds where
  low : Number
  high : Number
  deriving DecidableEq

namespace Bounds

/-- Whether a value lies above the low and not above the high bound. -/
def admits (b : Bounds) (x : Binary64) : Bool := b.low.lt (.real x) && (Number.real x).le b.high

/-- The value nearest to a signed decimal. -/
def decimal (negative : Bool) (coefficient : Nat) (exponent : Int) : Binary64 :=
  .signed negative (.ofScientific coefficient exponent)

/-- The bounds that two values give. -/
def between (low high : Binary64) : Bounds := ⟨.real low, .real high⟩

def chanWidthIo : Bounds := between .zero (decimal false 5000 0)

def fc : Bounds := between .zero (decimal false 1 20)

def uniformPeak : Bounds := between .zero (decimal false 1 0)

def shapedPeak : Bounds := between (decimal true 1 0) (decimal false 1 0)

def deltaPeak : Bounds := between (decimal true 1 5) (decimal false 1 5)

def channelWidth : Bounds := between .zero (decimal false 1 10)

/-- A fraction of a channel; the tiny negative low bound lets an exact zero through. -/
def fraction : Bounds := between (decimal true 1 (-30)) (decimal false 1 0)

end Bounds

end Fabric
