import Fabric.Description.Basic
import Fabric.Value.Basic

/-!
# Descriptions in their own language

`Description.format` writes a description as statements. Real values are written by the shortest
numeral that reads back, so that reading the text gives the same description.
-/

namespace Fabric

/-- Why a description cannot be written. -/
inductive WriteFault where
  | number (fault : NumberFault)
  /-- A pin cites a class that the description does not have. -/
  | unknownClass (classId : Int)
  /-- A class has no direction. -/
  | noDirection (classId : Int)
  deriving DecidableEq, Repr

namespace WriteFault

/-- The numeral of an integer, if it may be written. -/
def integer (n : Int) : Except WriteFault String := (Value.intText n).mapError .number

/-- The numeral of a real operand, if it may be written. -/
def real {ρ : Type} [Operand ρ] (x : ρ) : Except WriteFault String :=
  (Operand.text x).mapError .number

/-- The brief numeral of a real operand, if it has one. -/
def brief {ρ : Type} [Operand ρ] (x : ρ) : Except WriteFault String :=
  (Operand.brief x).mapError .number

end WriteFault

/-- The words of a statement on one line. -/
def statementLine (field : Field) (operands : List String) : String :=
  " ".intercalate (field.keyword :: operands)

variable {ρ : Type} [Operand ρ]

namespace Channel

/-- The operands that the profile of a channel has, in order. -/
def operands (c : Channel ρ) : List ρ :=
  match c.profile with
  | .uniform => [c.peak]
  | .delta => [c.peak, c.xpeak, c.dc]
  | .gaussian | .pulse => [c.peak, c.width, c.xpeak, c.dc]

/-- The statement of a channel. -/
def line (field : Field) (c : Channel ρ) : Except WriteFault String := do
  return statementLine field (Vocabulary.word c.profile :: (← c.operands.mapM WriteFault.real))

end Channel

namespace Description

/-- The keyword of a pin of a class: only a driver class is declared by `outpin`. -/
def pinField (pinClass : PinClass) : Field :=
  if pinClass.direction = some .driver then .outpin else .inpin

/-- The statement of a pin; a pin without sides leaves their place blank. -/
def pinLine (d : Description ρ) (pin : Pin) : Except WriteFault String := do
  match d.citedClass? pin with
  | none => .error (.unknownClass pin.classId)
  | some pinClass =>
    let sides := " ".intercalate (pin.sides.toList.map Vocabulary.word)
    return statementLine (pinField pinClass)
      [classMarker, ← WriteFault.integer pin.classId, sides]

/-- The statements of the parameters of detailed routing. -/
def detailedLines (r : DetailedRouting ρ) : Except WriteFault (List String) := do
  return ["", statementLine .fcType [Vocabulary.word r.fcMeasure],
    statementLine .fcOutput [← WriteFault.real r.fcOutput],
    statementLine .fcInput [← WriteFault.real r.fcInput],
    statementLine .fcPad [← WriteFault.real r.fcPad],
    statementLine .switchBlockType [Vocabulary.word r.switchBlock]]

/-- The lines of a description. -/
def formatLines (d : Description ρ) : Except WriteFault (List String) := do
  let ioRat ← WriteFault.integer d.ioRat
  let chanWidthIo ← WriteFault.real d.chanWidthIo
  let chanX ← d.chanX.line .chanWidthX
  let chanY ← d.chanY.line .chanWidthY
  let pinLines ← d.pins.mapM d.pinLine
  let subblocks ← WriteFault.integer d.subblocksPerCluster
  let lutSize ← WriteFault.integer d.subblockLutSize
  let detailed ← match d.detailed with
    | some r => detailedLines r
    | none => pure []
  return [statementLine .ioRat [ioRat], statementLine .chanWidthIo [chanWidthIo], chanX, chanY,
      ""] ++ pinLines ++
    ["", statementLine .subblocksPerCluster [subblocks],
      statementLine .subblockLutSize [lutSize]] ++ detailed

/-- Writes a description as statements. -/
def format (d : Description ρ) : Except WriteFault String := do
  return "\n".intercalate (← d.formatLines) ++ "\n"

end Description

end Fabric
