import Fabric.Pin.Cells
import Fabric.Pin.Census
import Fabric.Pin.Sides

/-!
# Pin tables

The tables of classes and pins are sized by the census before the pins are loaded, and never grow.
Each class has as many member slots as the census counted and a fill count that says which slot is
next.
-/

namespace Fabric

/-- The preallocated tables. -/
structure PinTables where
  /-- The member slots of each class; a slot is empty until a pin fills it. -/
  members : Array (Array (Option Nat))
  /-- The next free slot of each class. -/
  fillCounts : Array Nat
  /-- The direction of each class, once its first pin is seen. -/
  directions : Array (Option Direction)
  /-- The class of each pin. -/
  pinClass : Array (Option Nat)
  /-- The sides of each pin. -/
  pinSides : Array Sides
  deriving DecidableEq

/-- The empty tables for a census. -/
def Census.allocate (c : Census) : PinTables where
  members := (c.pinsPerClass.map fun count => Array.replicate count none).toArray
  fillCounts := Array.replicate c.numClasses 0
  directions := Array.replicate c.numClasses none
  pinClass := Array.replicate c.totalPins none
  pinSides := Array.replicate c.totalPins .empty

namespace PinTables

def direction (t : PinTables) (classId : Nat) : Except Defect (Option Direction) :=
  Cells.get t.directions classId

def setDirection (t : PinTables) (classId : Nat) (direction : Direction) :
    Except Defect PinTables := do
  return { t with directions := ← Cells.put t.directions classId (some direction) }

/-- Fills the next member slot of a class. -/
def addMember (t : PinTables) (classId pin : Nat) : Except Defect PinTables := do
  let slot ← Cells.get t.fillCounts classId
  let slots ← Cells.get t.members classId
  let slots ← Cells.fill slots slot pin
  let members ← Cells.put t.members classId slots
  let fillCounts ← Cells.put t.fillCounts classId (slot + 1)
  return { t with members, fillCounts }

def setClass (t : PinTables) (pin classId : Nat) : Except Defect PinTables := do
  return { t with pinClass := ← Cells.fill t.pinClass pin classId }

def addSide (t : PinTables) (pin : Nat) (side : Side) : Except Defect PinTables := do
  let sides ← Cells.get t.pinSides pin
  return { t with pinSides := ← Cells.put t.pinSides pin (sides.insert side) }

end PinTables

end Fabric
