import Fabric.Count
import Fabric.Report

/-!
# Grid errors

A grid that cannot be made is reported with its size.
-/

namespace Fabric

inductive GridErrorKind where
  | general
  | tooSmall
  | degenerate
  | coordinateOverflow
  deriving DecidableEq, Repr

namespace GridErrorKind

def title : GridErrorKind → String
  | .general => "Grid Layout Error"
  | .tooSmall => "Grid Too Small"
  | .degenerate => "Degenerate Grid"
  | .coordinateOverflow => "Grid Coordinate Overflow"

def suggestion : GridErrorKind → String
  | .general => "Review the grid sizing inputs."
  | .tooSmall =>
    "Increase the requested width/height, or let the grid be sized automatically."
  | .degenerate =>
    "A 1 x 1 grid leaves the placer no legal moves; use a larger grid or a larger circuit."
  | .coordinateOverflow =>
    "Width and height must not exceed 32766; reduce the circuit size or adjust the aspect ratio."

end GridErrorKind

structure GridError where
  kind : GridErrorKind
  details : String
  width : Option Count := none
  height : Option Count := none
  deriving DecidableEq

namespace GridError

/-- One side of the size, if it is known. -/
def sideText (side : Option Count) : String := (side.map Count.text).getD "None"

def size (e : GridError) : String := sideText e.width ++ " x " ++ sideText e.height

def message (e : GridError) : String := "Grid layout error (" ++ e.size ++ "): " ++ e.details

def report (e : GridError) : Report where
  title := e.kind.title
  details := e.details ++ "\nGrid size: " ++ e.size ++ "."
  suggestion := e.kind.suggestion

end GridError

end Fabric
