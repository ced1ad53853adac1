import Fabric.Description.Printer

/-!
# The echo report

A human-readable account of a description: its channels, a table of the pins, a table of the
classes and the parameters of detailed routing. Real values are shown with six significant digits.
-/

namespace Fabric

variable {ρ : Type} [Operand ρ]

namespace Channel

def echoLines (name : String) (c : Channel ρ) : Except WriteFault (List String) := do
  let peak ← WriteFault.brief c.peak
  let width ← WriteFault.brief c.width
  let xpeak ← WriteFault.brief c.xpeak
  let dc ← WriteFault.brief c.dc
  return [name ++ ":",
    "type: " ++ c.profile.label ++ "  peak: " ++ peak ++ "  width: " ++ width ++ "  xpeak: " ++
      xpeak ++ "  dc: " ++ dc,
    ""]

end Channel

namespace Description

/-- The columns of a row, separated by tabs. -/
def row (columns : List String) : String := "\t".intercalate columns

/-- The row of a pin: its index, its class, and a flag for each side. -/
def echoPin (pin : Pin) : Except WriteFault String := do
  let index ← WriteFault.integer pin.index
  let classId ← WriteFault.integer pin.classId
  return row (index :: classId ::
    (Vocabulary.all (α := Side)).map fun side => if pin.sides.contains side then "1" else "0")

/-- The row of a class: its number, direction and size, and the indices of its pins. -/
def echoClass (c : PinClass) : Except WriteFault String := do
  let members ← c.members.mapM WriteFault.integer
  let id ← WriteFault.integer c.id
  match c.direction with
  | none => .error (.noDirection c.id)
  | some direction =>
    return row [id, direction.label, ← WriteFault.integer c.members.length, row members]

/-- The account of the parameters of detailed routing. -/
def echoDetailed (r : DetailedRouting ρ) : Except WriteFault (List String) := do
  let fcOutput ← WriteFault.brief r.fcOutput
  let fcInput ← WriteFault.brief r.fcInput
  let fcPad ← WriteFault.brief r.fcPad
  return ["",
    match r.fcMeasure with
    | .absolute => "Fc value is absolute number of tracks."
    | .fractional => "Fc value is fraction of tracks in a channel.",
    "Fc_output: " ++ fcOutput ++ ".  Fc_input: " ++ fcInput ++ ".  Fc_pad: " ++ fcPad ++ ".",
    "switch_block_type: " ++ r.switchBlock.label ++ "."]

/-- The lines of the echo report of a description read from `source`. -/
def echoLines (d : Description ρ) (source : String) (routing : Routing) :
    Except WriteFault (List String) := do
  let ioRat ← WriteFault.integer d.ioRat
  let chanWidthIo ← WriteFault.brief d.chanWidthIo
  let chanX ← d.chanX.echoLines Field.chanWidthX.keyword
  let chanY ← d.chanY.echoLines Field.chanWidthY.keyword
  let pins ← d.pins.mapM echoPin
  let classes ← d.classes.mapM echoClass
  let subblocks ← WriteFault.integer d.subblocksPerCluster
  let lutSize ← WriteFault.integer d.subblockLutSize
  let detailed ← match routing, d.detailed with
    | .detailed, some r => echoDetailed r
    | _, _ => pure []
  return ["Input architecture file: " ++ source, "", "io_rat: " ++ ioRat ++ ".",
      "chan_width_io: " ++ chanWidthIo ++ "  pins_per_clb (pins per clb): " ++
        Numeral.text d.pinsPerBlock, ""] ++ chanX ++ chanY ++
    [row ("Pin #" :: "class" :: Vocabulary.words Side)] ++ pins ++ [""] ++
    [row ["Class", "Type", "Numpins", "Pins"]] ++ classes ++ [""] ++
    ["subblocks_per_cluster (maximum): " ++ subblocks, "subblock_lut_size: " ++ lutSize] ++
    detailed

/-- The echo report of a description read from `source`. -/
def echo (d : Description ρ) (source : String) (routing : Routing) : Except WriteFault String := do
  return "\n".intercalate (← d.echoLines source routing) ++ "\n"

end Description

end Fabric
