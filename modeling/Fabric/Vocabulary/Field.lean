import Fabric.Vocabulary.Word

/-!
# Statement keywords

The thirteen keywords that open a statement, in the order in which fields are reported. Two of them
declare pins and may occur any number of times; five matter for detailed routing only.
-/

namespace Fabric

inductive Field where
  | ioRat
  | chanWidthX
  | chanWidthY
  | chanWidthIo
  | outpin
  | inpin
  | subblocksPerCluster
  | subblockLutSize
  | fcOutput
  | fcInput
  | fcPad
  | fcType
  | switchBlockType
  deriving DecidableEq, Repr

instance : Vocabulary Field where
  all := [.ioRat, .chanWidthX, .chanWidthY, .chanWidthIo, .outpin, .inpin, .subblocksPerCluster,
    .subblockLutSize, .fcOutput, .fcInput, .fcPad, .fcType, .switchBlockType]
  word
    | .ioRat => "io_rat"
    | .chanWidthX => "chan_width_x"
    | .chanWidthY => "chan_width_y"
    | .chanWidthIo => "chan_width_io"
    | .outpin => "outpin"
    | .inpin => "inpin"
    | .subblocksPerCluster => "subblocks_per_cluster"
    | .subblockLutSize => "subblock_lut_size"
    | .fcOutput => "Fc_output"
    | .fcInput => "Fc_input"
    | .fcPad => "Fc_pad"
    | .fcType => "Fc_type"
    | .switchBlockType => "switch_block_type"

namespace Field

/-- The keyword of a field. -/
def keyword (f : Field) : String := Vocabulary.word f

/-- A field that declares a pin. -/
def isPin : Field → Bool
  | .outpin | .inpin => true
  | _ => false

/-- A field that only detailed routing reads. -/
def isDetailed : Field → Bool
  | .fcOutput | .fcInput | .fcPad | .fcType | .switchBlockType => true
  | _ => false

/-- The pin fields, in reporting order. -/
def pins : List Field := [.outpin, .inpin]

/-- The fields that only detailed routing reads, in reporting order. -/
def detailed : List Field := [.fcOutput, .fcInput, .fcPad, .fcType, .switchBlockType]

end Field

/-- The word that introduces the class number of a pin. -/
def classMarker : String := "class:"

end Fabric
