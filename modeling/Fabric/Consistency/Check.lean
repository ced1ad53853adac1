import Fabric.Consistency.Issue
import Fabric.Draft.Load

/-!
# Consistency checks

A loaded draft is checked before it is frozen. Every mandatory field must be set exactly once and
some pin must be declared; detailed routing makes its five fields mandatory too, and then, once
nothing is missing or repeated, needs uniform channels of one width and Fc values that fit their
measure. Global routing remarks on detailed fields that it ignores.
-/

namespace Fabric

/-- What a check finds. -/
inductive Finding where
  | missing (field : Field)
  | repeated (field : Field) (lines : List Nat)
  | noPins
  | notUniform (x y : Profile)
  | unequalWidths (x y io : Binary64)
  | fcOutOfRange (measure : FcMeasure) (offending : List (Field × Binary64))
  | ignored (field : Field)

namespace Finding

def level : Finding → IssueLevel
  | .ignored _ => .info
  | _ => .error

def code : Finding → IssueCode
  | .missing _ => .missingField
  | .repeated .. => .duplicateField
  | .noPins => .noPins
  | .notUniform .. | .unequalWidths .. | .fcOutOfRange .. => .inconsistentDetailed
  | .ignored _ => .detailedIgnored

/-- The rule that Fc values break. -/
def fcRule : FcMeasure → String
  | .absolute => "must be >= 1 in absolute mode"
  | .fractional => "must be <= 1 in fractional mode"

/-- The reason given for an inconsistency of detailed routing. -/
def reason : Finding → String
  | .notUniform x y =>
    "Detailed routing is only supported with uniform channels; got chan_width_x " ++
      Vocabulary.word x ++ " and chan_width_y " ++ Vocabulary.word y ++ "."
  | .unequalWidths x y io =>
    "Detailed routing requires all channels to have equal width; got chan_width_x " ++
      x.briefText ++ ", chan_width_y " ++ y.briefText ++ ", chan_width_io " ++ io.briefText ++ "."
  | .fcOutOfRange measure offending =>
    "Fc values " ++ fcRule measure ++ ": " ++
      ", ".intercalate (offending.map fun (field, value) =>
        field.keyword ++ " = " ++ value.briefText) ++ "."
  | _ => ""

/-- The field that a finding is about. -/
def field? : Finding → Option Field
  | .missing field | .repeated field _ | .ignored field => some field
  | .fcOutOfRange .. => some .fcType
  | _ => none

/-- The arguments of the message and what else is recorded of a finding. -/
def details (source : String) (finding : Finding) : Arguments :=
  let source := ("source", .string source)
  match finding with
  | .missing field => [("field_name", .string field.keyword), source]
  | .repeated field lines =>
    [("field_name", .string field.keyword), ("count", .int lines.length),
      ("lines", .list (lines.map fun (n : Nat) => .int n)), source]
  | .noPins => [source]
  | .notUniform x y =>
    [("reason", .string finding.reason), ("chan_x_kind", .string (Vocabulary.word x)),
      ("chan_y_kind", .string (Vocabulary.word y)), source]
  | .unequalWidths .. => [("reason", .string finding.reason), source]
  | .fcOutOfRange measure _ =>
    [("reason", .string finding.reason), ("field_name", .string Field.fcType.keyword),
      ("fc_type", .string (Vocabulary.word measure)), source]
  | .ignored field =>
    [("field_name", .string field.keyword),
      ("route_type", .string (Vocabulary.word Routing.global)), source]

/-- The issue that records a finding. -/
def toIssue (source : String) (finding : Finding) : Except NumberFault Issue := do
  let details := finding.details source
  return {
    level := finding.level
    code := finding.code.name
    message := ← finding.code.message details
    field := finding.field?.map Field.keyword
    details }

end Finding

namespace Draft

/-- The fields that a routing mode requires exactly once, in reporting order. -/
def mandatory (routing : Routing) : List Field :=
  (Vocabulary.all (α := Field)).filter fun field =>
    !field.isPin && (routing == .detailed || !field.isDetailed)

/-- What is missing or repeated. -/
def presenceFindings (d : Draft) (routing : Routing) : List Finding :=
  (mandatory routing).flatMap (fun field =>
    match d.log.lines field.keyword with
    | [] => [.missing field]
    | [_] => []
    | lines => [.repeated field lines]) ++
  if Field.pins.all fun field => d.log.count field.keyword == 0 then [.noPins] else []

/-- Whether the channels suit detailed routing. -/
def channelFindings (d : Draft) : Except Defect (List Finding) := do
  let x ← required d.chanX
  let y ← required d.chanY
  if x.profile ≠ .uniform ∨ y.profile ≠ .uniform then
    return [.notUniform x.profile y.profile]
  else
    let io ← required d.chanWidthIo
    return if x.peak != y.peak || x.peak != io then [.unequalWidths x.peak y.peak io] else []

/-- The value one, to which Fc values are compared. -/
def one : Binary64 := Bounds.decimal false 1 0

/-- Whether an Fc value breaks the rule of its measure. -/
def breaksFcRule (measure : FcMeasure) (value : Binary64) : Bool :=
  match measure with
  | .absolute => value.lt one
  | .fractional => one.lt value

/-- Whether the Fc values fit their measure. -/
def fcFindings (d : Draft) : Except Defect (List Finding) := do
  let measure ← required d.fcMeasure
  let values := [(Field.fcOutput, ← required d.fcOutput), (.fcInput, ← required d.fcInput),
    (.fcPad, ← required d.fcPad)]
  let offending := values.filter (breaksFcRule measure ·.2)
  return if offending.isEmpty then [] else [.fcOutOfRange measure offending]

/-- The remarks on detailed fields that global routing ignores. -/
def ignoredFindings (d : Draft) : List Finding :=
  (Field.detailed.filter fun field => 0 < d.log.count field.keyword).map .ignored

/-- All findings on a draft, in reporting order. -/
def findings (d : Draft) (routing : Routing) : Except Defect (List Finding) :=
  let presence := d.presenceFindings routing
  match routing with
  | .global => .ok (presence ++ d.ignoredFindings)
  | .detailed =>
    if presence.isEmpty then do return (← d.channelFindings) ++ (← d.fcFindings)
    else .ok presence

/-- All issues of a draft, in reporting order. -/
def issues (d : Draft) (routing : Routing) : Except Defect (List Issue) := do
  let findings ← d.findings routing
  (findings.mapM (Finding.toIssue d.source)).mapError .number

end Draft

end Fabric
