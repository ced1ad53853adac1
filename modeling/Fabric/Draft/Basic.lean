import Fabric.Description.Basic
import Fabric.Draft.FieldLog
import Fabric.Pin.Table

/-!
# Drafts

A draft is a description in the making: the values read so far, the pin tables and the field log.
`Draft.toDescription` freezes it.
-/

namespace Fabric

structure Draft where
  source : String
  census : Census
  tables : PinTables
  log : FieldLog Nat := .empty
  nextPin : Nat := 0
  ioRat : Option Int := none
  chanWidthIo : Option Binary64 := none
  chanX : Option (Channel Binary64) := none
  chanY : Option (Channel Binary64) := none
  subblocksPerCluster : Option Int := none
  subblockLutSize : Option Int := none
  fcOutput : Option Binary64 := none
  fcInput : Option Binary64 := none
  fcPad : Option Binary64 := none
  fcMeasure : Option FcMeasure := none
  switchBlock : Option SwitchBlock := none
  deriving DecidableEq

namespace Draft

/-- The draft before the first statement, with the tables of a census. -/
def start (source : String) (census : Census) : Draft :=
  { source, census, tables := census.allocate }

/-- The parameters of detailed routing, once all five are set. -/
def detailed (d : Draft) : Option (DetailedRouting Binary64) := do
  return {
    fcOutput := ← d.fcOutput
    fcInput := ← d.fcInput
    fcPad := ← d.fcPad
    fcMeasure := ← d.fcMeasure
    switchBlock := ← d.switchBlock }

def hasDetailed (d : Draft) : Bool := d.detailed.isSome

/-- A value that must have been set. -/
def required {α : Type} (value : Option α) : Except Defect α :=
  match value with
  | some x => .ok x
  | none => .error .unsetValue

/-- The class with a given number, from its table entries. -/
def pinClass (d : Draft) (classId : Nat) : Except Defect PinClass := do
  let direction ← Cells.get d.tables.directions classId
  let slots ← Cells.get d.tables.members classId
  let members ← slots.toList.mapM required
  return { id := classId, direction, members := members.map fun (pin : Nat) => (pin : Int) }

/-- The pin with a given index, from its table entries. -/
def pin (d : Draft) (index : Nat) : Except Defect Pin := do
  let classId ← required (← Cells.get d.tables.pinClass index)
  return { index, classId, sides := ← Cells.get d.tables.pinSides index }

/-- Freezes a draft whose values are all set. -/
def toDescription (d : Draft) : Except Defect (Description Binary64) := do
  return {
    classes := ← (List.range d.census.numClasses).mapM d.pinClass
    pins := ← (List.range d.census.totalPins).mapM d.pin
    ioRat := ← required d.ioRat
    chanWidthIo := ← required d.chanWidthIo
    chanX := ← required d.chanX
    chanY := ← required d.chanY
    subblocksPerCluster := ← required d.subblocksPerCluster
    subblockLutSize := ← required d.subblockLutSize
    detailed := d.detailed }

end Draft

end Fabric
