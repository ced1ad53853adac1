import Fabric.Number
import Fabric.Pin.Cells
import Fabric.Pin.Sides

/-!
# Descriptions

The architecture of one fabric: the capacity of its I/O cells, its channels, the pins of the logic
block grouped into classes, the subblocks of a cluster and, optionally, the parameters of detailed
routing. The type `ρ` of the real operands is `Binary64` for a description that was read; equality
(`==`) then compares them as numbers, so the two zeros agree. Indices are integers, since a
description that was not read may hold any.
-/

namespace Fabric

/-- A group of logically equivalent pins: `members` holds pin indices in declaration order. -/
structure PinClass where
  id : Int
  direction : Option Direction
  members : List Int
  deriving DecidableEq, BEq

/-- One physical pin of the logic block. -/
structure Pin where
  index : Int
  classId : Int
  sides : Sides
  deriving DecidableEq, BEq

/-- The track distribution of one channel axis. What the profile does not use is zero: a uniform
channel has only a peak, and a delta has no width. -/
structure Channel (ρ : Type) where
  profile : Profile
  peak : ρ
  width : ρ
  xpeak : ρ
  dc : ρ
  deriving DecidableEq, BEq

/-- What only detailed routing reads. -/
structure DetailedRouting (ρ : Type) where
  fcOutput : ρ
  fcInput : ρ
  fcPad : ρ
  fcMeasure : FcMeasure
  switchBlock : SwitchBlock
  deriving DecidableEq, BEq

structure Description (ρ : Type) where
  ioRat : Int
  chanWidthIo : ρ
  chanX : Channel ρ
  chanY : Channel ρ
  classes : List PinClass
  pins : List Pin
  subblocksPerCluster : Int
  subblockLutSize : Int
  detailed : Option (DetailedRouting ρ)
  deriving DecidableEq, BEq

namespace Description

variable {ρ : Type}

def numClasses (d : Description ρ) : Nat := d.classes.length

def pinsPerBlock (d : Description ρ) : Nat := d.pins.length

/-- The place in a row of a size that an index means, which may count from the end: `-1` is the
last. -/
def placeOf? (size : Nat) (index : Int) : Option Nat :=
  let place := if index < 0 then index + size else index
  if 0 ≤ place ∧ place < size then some place.toNat else none

/-- The entry of a list at an index that may count from the end. -/
def entryFromEnd? {α : Type} (xs : List α) (index : Int) : Option α := do
  xs[← placeOf? xs.length index]?

/-- The class that a pin cites. -/
def citedClass? (d : Description ρ) (pin : Pin) : Option PinClass :=
  entryFromEnd? d.classes pin.classId

/-- The class of a pin, where a negative pin index counts from the end. -/
def classOf? (d : Description ρ) (pin : Int) : Option PinClass := do
  d.citedClass? (← entryFromEnd? d.pins pin)

/-- The indices of the pins on a side. -/
def pinsOnSide (d : Description ρ) (side : Side) : List Int :=
  (d.pins.filter (·.sides.contains side)).map (·.index)

/-- Marks a pin in the rows of its sides, at the column of its index. -/
def markPin (rows : List (Array Bool)) (pin : Pin) : Except Defect (List (Array Bool)) :=
  ((Vocabulary.all (α := Side)).zip rows).mapM fun (side, row) =>
    if !pin.sides.contains side then .ok row
    else match placeOf? row.size pin.index with
      | some column => Cells.put row column true
      | none => .error (.outsideTable pin.index row.size)

/-- One row per side and one column per pin: whether the pin is on the side. -/
def locationMatrix (d : Description ρ) : Except Defect (List (Array Bool)) :=
  d.pins.foldlM markPin
    ((Vocabulary.all (α := Side)).map fun _ => Array.replicate d.pinsPerBlock false)

end Description

end Fabric
