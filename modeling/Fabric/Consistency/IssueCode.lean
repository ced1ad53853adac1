import Fabric.Value.Basic

/-!
# Issue codes

Each code of a consistency issue has a message template. A template is filled from named arguments;
if one is missing, the message says so and shows the template with the arguments.
-/

namespace Fabric

inductive IssueCode where
  | missingField
  | duplicateField
  | noPins
  | inconsistentDetailed
  | detailedIgnored
  deriving DecidableEq, Repr

/-- A piece of a template: a fixed text, or the place of an argument. -/
inductive TemplatePiece where
  | text (s : String)
  | argument (name : String)

namespace IssueCode

def all : List IssueCode :=
  [.missingField, .duplicateField, .noPins, .inconsistentDetailed, .detailedIgnored]

/-- The name of a code. -/
def name : IssueCode → String
  | .missingField => "MISSING_FIELD"
  | .duplicateField => "DUPLICATE_FIELD"
  | .noPins => "NO_PINS_DEFINED"
  | .inconsistentDetailed => "INCONSISTENT_DETAILED_ROUTING"
  | .detailedIgnored => "DETAILED_FIELDS_IGNORED"

/-- The message template of a code. -/
def pieces : IssueCode → List TemplatePiece
  | .missingField =>
    [.text "'", .argument "field_name", .text "' not set in file ", .argument "source", .text "."]
  | .duplicateField =>
    [.text "'", .argument "field_name", .text "' set ", .argument "count", .text " times in file ",
      .argument "source", .text " (lines ", .argument "lines", .text ")."]
  | .noPins =>
    [.text "Logic block in file ", .argument "source",
      .text " has no inpin or outpin statements."]
  | .inconsistentDetailed => [.argument "reason"]
  | .detailedIgnored =>
    [.text "'", .argument "field_name",
      .text "' is only used for detailed routing and is ignored in ", .argument "route_type",
      .text " mode."]

end IssueCode

/-- Named arguments, in the order in which they were given. -/
abbrev Arguments := List (String × Value)

namespace Arguments

/-- The value given for a name. -/
def get? (args : Arguments) (name : String) : Option Value := List.lookup name args

/-- The arguments as a mapping from names to values. -/
def toValue (args : Arguments) : Value :=
  .mapping (args.map fun (name, value) => (.string name, value))

end Arguments

namespace TemplatePiece

/-- A piece as it stands in its template. -/
def spelling : TemplatePiece → String
  | .text s => s
  | .argument name => "\x7b" ++ name ++ "\x7d"

/-- The first argument that pieces need and that is not given, if any. -/
def firstMissing? (args : Arguments) : List TemplatePiece → Option String
  | [] => none
  | .text _ :: rest => firstMissing? args rest
  | .argument name :: rest =>
    if (args.get? name).isNone then some name else firstMissing? args rest

/-- The pieces up to the first whose argument is missing, filled. -/
def fill (args : Arguments) : List TemplatePiece → Except NumberFault (List String)
  | [] => .ok []
  | .text s :: rest => do return s :: (← fill args rest)
  | .argument name :: rest =>
    match args.get? name with
    | some value => do return (← value.text) :: (← fill args rest)
    | none => .ok []

end TemplatePiece

namespace IssueCode

def template (code : IssueCode) : String := String.join (code.pieces.map TemplatePiece.spelling)

/-- The message of a code with arguments. -/
def message (code : IssueCode) (args : Arguments) : Except NumberFault String := do
  let filled ← TemplatePiece.fill args code.pieces
  match TemplatePiece.firstMissing? args code.pieces with
  | none => return String.join filled
  | some name =>
    return "Error formatting message for " ++ code.name ++ ": Missing key '" ++ name ++
      "'. Template: '" ++ code.template ++ "' Args: " ++ (← args.toValue.literal)

end IssueCode

end Fabric
