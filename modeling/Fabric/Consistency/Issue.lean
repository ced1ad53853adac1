import Fabric.Consistency.IssueCode
import Fabric.Report
import Fabric.Vocabulary.Field

/-!
# Consistency issues

An issue is a problem of a description as a whole. Errors reject the description, remarks are only
logged. A rejection carries all its errors together.
-/

namespace Fabric

inductive IssueLevel where
  | error
  | info
  deriving DecidableEq, Repr

def IssueLevel.name : IssueLevel → String
  | .error => "ERROR"
  | .info => "INFO"

/-- A problem found by the consistency checks. -/
structure Issue where
  level : IssueLevel
  code : String
  message : String
  field : Option String := none
  details : Arguments := []

namespace Issue

def isError (i : Issue) : Bool := i.level == .error

/-- The one-line form of an issue. -/
def line (i : Issue) : String :=
  let field := match i.field with
    | some name => if name.isEmpty then [] else ["Field: " ++ name]
    | none => []
  " ".intercalate (["[" ++ i.level.name ++ " - " ++ i.code ++ "]"] ++ field ++
    ["Message: " ++ i.message])

end Issue

/-- The rejection of a description for its errors. -/
structure Rejection where
  issues : List Issue
  source : Option String

/-- Why a rejection has no report. -/
inductive RejectionFault where
  | number (fault : NumberFault)
  /-- The lines of the first issue are a mapping, which has no last one. -/
  | unorderedLines
  /-- The lines of the first issue are a single value of the type. -/
  | singleLine (typeName : String)
  deriving DecidableEq

def RejectionFault.message : RejectionFault → String
  | .number fault => fault.message
  | .unorderedLines => "-1"
  | .singleLine typeName => "'" ++ typeName ++ "' object is not subscriptable"

namespace Rejection

/-- The rejection for the errors among issues. -/
def ofIssues (issues : List Issue) (source : Option String) : Rejection :=
  { issues := issues.filter (·.isError), source }

def codes (r : Rejection) : List String := r.issues.map (·.code)

/-- The errors as list items. -/
def items (r : Rejection) : String := "\n".intercalate (r.issues.map fun i => "  - " ++ i.line)

def message (r : Rejection) : String :=
  if r.issues.isEmpty then "ArchitectureValidationError was raised with no error-level issues."
  else "Architecture validation failed with " ++ Numeral.text r.issues.length ++ " error(s):\n" ++
    r.items

/-- The last of the lines that an issue names, if it names any. -/
def lastLine? (i : Issue) : Except RejectionFault (Option Value) :=
  match (i.details.get? "lines").filter Value.isTruthy with
  | none => .ok none
  | some (.list items) => .ok items.getLast?
  | some (.string s) => .ok (s.toList.getLast?.map fun c => .string (String.singleton c))
  | some (.mapping _) => .error .unorderedLines
  | some value => .error (.singleLine value.typeName)

/-- The report of a rejection; its header names the field and the line of the first error. -/
def report (r : Rejection) : Except RejectionFault Report := do
  let last ← match r.issues.head? with
    | some issue => lastLine? issue
    | none => pure none
  let line ← match last with
    | none | some .null => pure none
    | some line => some <$> line.text.mapError .number
  return {
    title := "Architecture Consistency Error"
    source := r.source
    line
    field := r.issues.head?.bind (·.field)
    details := "The architecture file is incomplete or inconsistent.\nFound " ++
      Numeral.text r.issues.length ++ " error(s). See details below:\n\n" ++ r.items
    suggestion := "Set every mandatory field exactly once and make the detailed routing " ++
      "parameters agree with each other." }

end Rejection

end Fabric
