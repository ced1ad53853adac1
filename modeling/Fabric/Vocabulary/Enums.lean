import Fabric.Vocabulary.Word

/-!
# Directions, sides, channel profiles and routing choices

The closed vocabularies of a description. `label` is the name of a member in the echo report.
-/

namespace Fabric

/-- The direction shared by all pins of a class. -/
inductive Direction where
  | driver
  | receiver
  deriving DecidableEq, Repr

instance : Vocabulary Direction where
  all := [.driver, .receiver]
  word
    | .driver => "driver"
    | .receiver => "receiver"

def Direction.label : Direction → String
  | .driver => "DRIVER"
  | .receiver => "RECEIVER"

/-- A side of the logic block from which a pin can be reached. -/
inductive Side where
  | top
  | bottom
  | left
  | right
  deriving DecidableEq, Repr

instance : Vocabulary Side where
  all := [.top, .bottom, .left, .right]
  word
    | .top => "top"
    | .bottom => "bottom"
    | .left => "left"
    | .right => "right"

/-- The profile of the track distribution along one channel axis. -/
inductive Profile where
  | uniform
  | gaussian
  | pulse
  | delta
  deriving DecidableEq, Repr

instance : Vocabulary Profile where
  all := [.uniform, .gaussian, .pulse, .delta]
  word
    | .uniform => "uniform"
    | .gaussian => "gaussian"
    | .pulse => "pulse"
    | .delta => "delta"

def Profile.label : Profile → String
  | .uniform => "UNIFORM"
  | .gaussian => "GAUSSIAN"
  | .pulse => "PULSE"
  | .delta => "DELTA"

/-- How the Fc values count: as numbers of tracks, or as fractions of a channel. -/
inductive FcMeasure where
  | absolute
  | fractional
  deriving DecidableEq, Repr

instance : Vocabulary FcMeasure where
  all := [.absolute, .fractional]
  word
    | .absolute => "absolute"
    | .fractional => "fractional"

/-- The topology of a switch block. -/
inductive SwitchBlock where
  | subset
  | wilton
  | universal
  deriving DecidableEq, Repr

instance : Vocabulary SwitchBlock where
  all := [.subset, .wilton, .universal]
  word
    | .subset => "subset"
    | .wilton => "wilton"
    | .universal => "universal"

def SwitchBlock.label : SwitchBlock → String
  | .subset => "SUBSET"
  | .wilton => "WILTON"
  | .universal => "UNIVERSAL"

/-- The routing mode asked for; detailed routing needs more of a description. -/
inductive Routing where
  | global
  | detailed
  deriving DecidableEq, Repr

instance : Vocabulary Routing where
  all := [.global, .detailed]
  word
    | .global => "global"
    | .detailed => "detailed"

end Fabric
