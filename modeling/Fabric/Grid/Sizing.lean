import Fabric.Grid.Error
import Fabric.Number

/-!
# Sizing a grid

A circuit asks for room for its blocks and pads, in a grid of a given aspect ratio or of a fixed
size. A fixed size is only checked. Otherwise the height is solved from the area
(`height ^ 2 * aspect`) and from the perimeter (`2 * height * (1 + aspect)`), each rounded up, and
the width follows from the height.
-/

namespace Fabric

/-- What a circuit asks of the grid. -/
structure Sizing where
  numBlocks : Count
  numPads : Count
  /-- Width over height. -/
  aspectRatio : Number := .real (.nearestInt 1)
  /-- Width and height, if the caller fixes them. -/
  fixedSize : Option (Count × Count) := none
  deriving DecidableEq

/-- Why a sizing is refused before any grid is made. -/
inductive SizingFault where
  | negativeCount
  /-- The aspect ratio, as it is shown, is not positive and finite. -/
  | badAspect (shown : String)
  | number (fault : NumberFault)
  deriving DecidableEq

def SizingFault.message : SizingFault → String
  | .negativeCount => "Block and pad counts must be non-negative."
  | .badAspect shown => "Aspect ratio must be positive and finite, got " ++ shown ++ "."
  | .number fault => fault.message

/-- Why a grid cannot be made. -/
inductive GridFault where
  | error (e : GridError)
  | number (fault : NumberFault)
  deriving DecidableEq

namespace Number

/-- Whether a number is finite and above zero. -/
def isPositive : Number → Except NumberFault Bool
  | .whole n => do
    let _ ← Binary64.ofInt n.value
    return 0 < n.value
  | .real x => return x.isFinite && Binary64.zero.lt x

/-- An integer divided by a number. -/
def divideInto (ratio : Number) (n : Int) : Except NumberFault Binary64 :=
  match ratio with
  | .whole m => Binary64.quotientOfInts n m.value
  | .real x => do (← Binary64.ofInt n).quotient x

/-- The least integer that is not below an integer times a number. -/
def scaleUp (ratio : Number) (n : Int) : Except NumberFault Int :=
  match ratio with
  | .whole m => .ok (n * m.value)
  | .real x => do ((← Binary64.ofInt n).mul x).ceil

end Number

namespace Sizing

/-- Refuses negative counts and aspect ratios that are not positive and finite. -/
def check (s : Sizing) : Except SizingFault Unit := do
  if s.numBlocks.value < 0 ∨ s.numPads.value < 0 then throw .negativeCount
  if !(← s.aspectRatio.isPositive.mapError .number) then
    throw (.badAspect (← s.aspectRatio.text.mapError .number))

/-- The number of I/O slots around a grid. -/
def ioSlots (ioRat width height : Int) : Int := 2 * ioRat * (width + height)

/-- Whether a fixed size cannot hold the blocks or the pads. -/
def isTooSmall (s : Sizing) (ioRat width height : Int) : Bool :=
  width < 1 || height < 1 || s.numBlocks.value > width * height ||
    s.numPads.value > ioSlots ioRat width height

/-- A count, if it may be written. -/
def countText (n : Count) : Except NumberFault String :=
  if Numeral.isWritable n.value then .ok n.text else .error .tooManyDigits

/-- The error of a fixed size that is too small. -/
def tooSmall (s : Sizing) (ioRat : Int) (width height : Count) : GridFault :=
  let details : Except NumberFault String := do
    let blocks ← countText s.numBlocks
    let pads ← countText s.numPads
    let sites ← countText (.number (max width.value 0 * max height.value 0))
    let slots ← countText (.number (ioSlots ioRat width.value height.value))
    return "User-specified size is too small for circuit: " ++ blocks ++ " block(s) need " ++
      blocks ++ " site(s) and " ++ pads ++ " pad(s) need " ++ pads ++
      " I/O slot(s); the grid offers " ++ sites ++ " site(s) and " ++ slots ++ " slot(s)."
  match details with
  | .ok details => .error { kind := .tooSmall, details, width := some width, height := some height }
  | .error fault => .number fault

/-- The height that the blocks need. -/
def heightForBlocks (s : Sizing) : Except NumberFault Int := do
  (← s.aspectRatio.divideInto s.numBlocks.value).sqrt.ceil

/-- The number of slots per unit of height: `2 * ioRat * (1 + aspect)`. -/
def slotsPerHeight (s : Sizing) (ioRat : Int) : Except NumberFault Binary64 := do
  let sides := (Binary64.nearestInt 1).add (← s.aspectRatio.toReal)
  return (← Binary64.ofInt (2 * ioRat)).mul sides

/-- The height that the pads need. -/
def heightForPads (s : Sizing) (ioRat : Int) : Except NumberFault Int := do
  let perHeight ← s.slotsPerHeight ioRat
  (← (← Binary64.ofInt s.numPads.value).quotient perHeight).ceil

/-- The size chosen for a circuit: the height that both need, at least one, and its width. -/
def automaticSize (s : Sizing) (ioRat : Int) : Except NumberFault (Int × Int) := do
  let forBlocks ← s.heightForBlocks
  let forPads ← s.heightForPads ioRat
  let height := max (max forBlocks forPads) 1
  return (← s.aspectRatio.scaleUp height, height)

/-- The width and the height of the grid for a circuit. -/
def gridSize (s : Sizing) (ioRat : Int) : Except GridFault (Count × Count) :=
  match s.fixedSize with
  | some (width, height) =>
    if s.isTooSmall ioRat width.value height.value then .error (s.tooSmall ioRat width height)
    else .ok (width, height)
  | none =>
    match s.automaticSize ioRat with
    | .ok (width, height) => .ok (.number width, .number height)
    | .error fault => .error (.number fault)

end Sizing

end Fabric
