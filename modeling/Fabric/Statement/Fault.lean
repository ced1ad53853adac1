import Fabric.NumberFault
import Fabric.Report
import Fabric.Vocabulary.Bounds
import Fabric.Vocabulary.Enums
import Fabric.Vocabulary.Field

/-!
# Faults of a description

A `Problem` says what is wrong with a statement, a `Fault` where. Each problem has a kind, which
fixes the title and the suggestion of its report, and one wording. A `Defect` is a failure that no
description should reach: a table written outside its cells, a value read before it was set, a
number that does not fit. Reading stops with a fault or with a defect.
-/

namespace Fabric

/-- The kinds of located errors, by the title and the suggestion of their reports. -/
inductive FaultKind where
  | general
  | unreadableFile
  | missingValue
  | malformedNumber
  | outOfRange
  | trailingTokens
  | unknownKeyword
  | unknownDistribution
  | classGap
  | mixedDirections
  | noLocation
  | badLocation
  deriving DecidableEq, Repr

namespace FaultKind

def title : FaultKind → String
  | .general => "Architecture Parsing Error"
  | .unreadableFile => "Architecture File Error"
  | .missingValue => "Missing Value"
  | .malformedNumber => "Malformed Number"
  | .outOfRange => "Out Of Range Value"
  | .trailingTokens => "Trailing Tokens"
  | .unknownKeyword => "Unknown Keyword"
  | .unknownDistribution => "Unknown Channel Distribution"
  | .classGap => "Non-Consecutive Pin Classes"
  | .mixedDirections => "Mixed Direction Pin Class"
  | .noLocation => "Missing Pin Location"
  | .badLocation => "Invalid Pin Location"

def suggestion : FaultKind → String
  | .general => "Check the format of the indicated line in the architecture file."
  | .unreadableFile => "Ensure the file exists, has read permissions and is plain text."
  | .missingValue => "Supply the value(s) the statement expects after its keyword."
  | .malformedNumber =>
    "Write integers without a decimal point and floats in plain or exponent notation."
  | .outOfRange => "Use a value within the documented bounds for this field."
  | .trailingTokens => "Remove the extra values at the end of the statement."
  | .unknownKeyword => "Keywords are case-sensitive; use one of the values listed above."
  | .unknownDistribution => "Use one of: uniform, gaussian, pulse, delta."
  | .classGap => "Pin class numbers must start at 0 and be consecutive."
  | .mixedDirections => "A pin class may contain only inpin or only outpin statements."
  | .noLocation => "List at least one of top, bottom, left, right after the class number."
  | .badLocation => "Pin locations must be one of: top, bottom, left, right."

end FaultKind

/-- A located error in its general form. -/
structure LocatedError where
  kind : FaultKind
  details : String
  source : Option String := none
  line : Option Int := none
  field : Option String := none
  token : Option String := none
  deriving DecidableEq

namespace LocatedError

/-- The one-line message of an error. -/
def message (e : LocatedError) : String :=
  let place := match e.line with
    | some n => " on line " ++ Numeral.text n
    | none => ""
  "Error in architecture file '" ++ e.source.getD "None" ++ "'" ++ place ++ ": " ++ e.details

def report (e : LocatedError) : Report where
  title := e.kind.title
  source := e.source
  line := e.line.map Numeral.text
  field := e.field
  input := e.token
  details := e.details
  suggestion := e.kind.suggestion

end LocatedError

/-- What is wrong with a statement. -/
inductive Problem where
  /-- The statement ends where the value `what` is expected. -/
  | missingValue (what : String)
  /-- Tokens follow the last operand. -/
  | trailingTokens (extra : List String)
  | notAnInteger (what token : String)
  | notANumber (what token : String)
  | notPositive (value : Int) (token : String)
  | outsideBounds (what : String) (value : Binary64) (bounds : Bounds) (token : String)
  | unknownWord (what token : String) (allowed : List String)
  | unknownDistribution (what token : String) (allowed : List String)
  /-- Another token stands where the class marker is expected. -/
  | noClassMarker (token : String)
  | negativeClass (value : Int) (token : String)
  | badSide (token : String)
  /-- The class was opened by a pin of the other direction. -/
  | mixedDirections (classId : Nat)
  /-- The pin names no side. -/
  | noLocation (pin : Nat)
  /-- Some class number below the highest is never used. -/
  | classGap (missing highest : Nat)
  deriving DecidableEq

namespace Problem

def kind : Problem → FaultKind
  | .missingValue _ => .missingValue
  | .trailingTokens _ => .trailingTokens
  | .notAnInteger .. | .notANumber .. => .malformedNumber
  | .notPositive .. | .outsideBounds .. | .negativeClass .. => .outOfRange
  | .unknownWord .. | .noClassMarker _ => .unknownKeyword
  | .unknownDistribution .. => .unknownDistribution
  | .badSide _ => .badLocation
  | .mixedDirections _ => .mixedDirections
  | .noLocation _ => .noLocation
  | .classGap .. => .classGap

/-- The wording of a problem in a statement with the given keyword. -/
def details (keyword : String) : Problem → String
  | .missingValue what => "Missing " ++ what ++ " value for '" ++ keyword ++ "'."
  | .trailingTokens extra =>
    "Extra characters at end of '" ++ keyword ++ "' statement: " ++ " ".intercalate extra
  | .notAnInteger what token => "Expected an integer for " ++ what ++ ", got '" ++ token ++ "'."
  | .notANumber what token => "Expected a number for " ++ what ++ ", got '" ++ token ++ "'."
  | .notPositive value _ =>
    "Bad value. " ++ keyword ++ " = " ++ Numeral.text value ++
      "; the value must be greater than 0."
  | .outsideBounds what value bounds _ =>
    "Bad value parsing " ++ what ++ ": " ++ value.briefText ++ " is outside (" ++
      bounds.low.nearest.briefText ++ ", " ++ bounds.high.nearest.briefText ++ "]."
  | .unknownWord what token allowed | .unknownDistribution what token allowed =>
    "Bad " ++ what ++ " value '" ++ token ++ "'. Expected one of: " ++
      ", ".intercalate allowed ++ "."
  | .noClassMarker token =>
    "Expected '" ++ classMarker ++ "' keyword after '" ++ keyword ++ "', got '" ++ token ++ "'."
  | .negativeClass value _ => "Expected class number >= 0, got " ++ Numeral.text value ++ "."
  | .badSide token => "Bad pin location '" ++ token ++ "'."
  | .mixedDirections classId =>
    "Class " ++ Numeral.text classId ++ " contains both input and output pins."
  | .noLocation pin => "Pin statement for pin " ++ Numeral.text pin ++ " specifies no locations."
  | .classGap missing highest =>
    "Class index " ++ Numeral.text missing ++ " not used in architecture file. " ++
      "Specified class indices are not consecutive (highest index is " ++
      Numeral.text highest ++ ")."

/-- The field that a report names. -/
def field (keyword : String) : Problem → String
  | .classGap .. => classMarker
  | _ => keyword

/-- The input that a report quotes, if the problem is about one. -/
def token? : Problem → Option String
  | .missingValue _ | .noLocation _ | .classGap .. => none
  | .trailingTokens extra => some (" ".intercalate extra)
  | .notAnInteger _ token | .notANumber _ token | .notPositive _ token
  | .outsideBounds _ _ _ token | .unknownWord _ token _ | .unknownDistribution _ token _
  | .noClassMarker token | .negativeClass _ token | .badSide token => some token
  | .mixedDirections classId => some (Numeral.text classId)

/-- The integers that the wording writes in full. -/
def integers : Problem → List Int
  | .notPositive value _ | .negativeClass value _ => [value]
  | .mixedDirections classId => [(classId : Int)]
  | .noLocation pin => [(pin : Int)]
  | .classGap missing highest => [(missing : Int), (highest : Int)]
  | _ => []

/-- The numbers that the wording writes with six digits. -/
def briefNumbers : Problem → List Number
  | .outsideBounds _ _ bounds _ => [bounds.low, bounds.high]
  | _ => []

/-- Why the wording cannot be written, if it cannot. -/
def numberFault? (p : Problem) : Option NumberFault :=
  if !p.integers.all Numeral.isWritable then some .tooManyDigits
  else p.briefNumbers.findSome? (·.fault?)

end Problem

/-- A problem with its place: the source, the last physical line of the statement and the keyword
of the statement. -/
structure Fault where
  source : String
  line : Nat
  keyword : String
  problem : Problem
  deriving DecidableEq

namespace Fault

def details (f : Fault) : String := f.problem.details f.keyword

/-- The general form of a fault. -/
def toLocatedError (f : Fault) : LocatedError where
  kind := f.problem.kind
  details := f.details
  source := some f.source
  line := some (f.line : Int)
  field := some (f.problem.field f.keyword)
  token := f.problem.token?

end Fault

/-- A failure that no description should reach. -/
inductive Defect where
  /-- A number cannot be stored or written. -/
  | number (fault : NumberFault)
  /-- A cell outside a table of the given size is used. -/
  | outsideTable (index : Int) (size : Nat)
  /-- A value is used that was never set. -/
  | unsetValue
  /-- No unused class number was found among the candidates. -/
  | noGapFound
  deriving DecidableEq, Repr

/-- Why reading stopped. -/
inductive Failure where
  | fault (f : Fault)
  | defect (d : Defect)
  deriving DecidableEq

namespace Failure

/-- The failure of reporting a fault: the fault itself, unless its wording cannot be written. -/
def ofFault (f : Fault) : Failure :=
  match f.problem.numberFault? with
  | none => .fault f
  | some reason => .defect (.number reason)

end Failure

end Fabric
