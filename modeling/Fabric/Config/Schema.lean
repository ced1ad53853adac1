import Fabric.Config.Error
import Fabric.Config.FieldOrder

/-!
# Schemas of configurations

A schema gives each field of a mapping a rule. A document fits if every field it has is known and
keeps its rule and no required field is absent. Before the check, a field with a default that is
absent or null takes the default. All errors are collected in the order of the document; a rule
stops at its first error that makes the rest meaningless.
-/

namespace Fabric

/-- The kinds of values that a rule can ask for. -/
inductive ValueKind where
  | string
  | number
  | integer
  | mapping
  deriving DecidableEq, Repr

namespace ValueKind

def name : ValueKind → String
  | .string => "string"
  | .number => "number"
  | .integer => "integer"
  | .mapping => "dict"

/-- Whether a value is of a kind. A truth value counts as an integer, but as no number. -/
def admits : ValueKind → Value → Bool
  | .string, .string _ => true
  | .number, .int _ | .number, .real _ => true
  | .integer, .int _ | .integer, .bool _ => true
  | .mapping, .mapping _ => true
  | _, _ => false

end ValueKind

/-- What a field must keep. -/
structure FieldRule where
  kind : Option ValueKind := none
  /-- Whether an empty value is refused. -/
  nonempty : Bool := false
  /-- The texts that are allowed, if not all are. -/
  oneOf : Option (List String) := none
  /-- The least integer that is allowed. -/
  least : Option Int := none
  /-- Whether a number must be finite and above zero. -/
  positive : Bool := false
  required : Bool := false
  default : Option Value := none

namespace Value

/-- Whether a value has a size and its size is zero. -/
def isEmpty : Value → Bool
  | .string s => s.isEmpty
  | .list items => items.isEmpty
  | .mapping entries => entries.isEmpty
  | _ => false

/-- Whether a number is finite when it is taken as a real value, and whether it is above zero;
nothing for a value that is no number. A truth value counts as a number here. -/
def positivity? : Value → Option (Bool × Bool)
  | .real x => some (x.isFinite, Binary64.zero.lt x)
  | value => value.toInt?.map fun n => ((Binary64.nearestInt n).isFinite, 0 < n)

/-- The value of a field of a mapping. -/
def field? (entries : List (Value × Value)) (name : String) : Option Value :=
  (entries.find? fun (key, _) => match key with
    | .string s => s == name
    | _ => false).map (·.2)

end Value

/-- What is wrong with a field. -/
structure FieldError where
  text : String
  /-- Whether no rule of the schema accounts for the error. -/
  isUnruled : Bool := false

namespace FieldRule

/-- The error of a number that is not positive. -/
def positiveErrors (value : Value) : Except NumberFault (List FieldError) :=
  match value.positivity? with
  | none | some (true, true) => .ok []
  | some (false, _) => do
    return [{ text := "must be a finite number, got " ++ (← value.text), isUnruled := true }]
  | some (true, false) => do
    return [{ text := "must be greater than 0, got " ++ (← value.text), isUnruled := true }]

/-- The error of a text that is not among the allowed ones. -/
def allowedErrors (rule : FieldRule) (value : Value) : Except NumberFault (List FieldError) :=
  match rule.oneOf, value with
  | some words, .string s =>
    .ok (if words.contains s then [] else [{ text := "unallowed value " ++ s }])
  | some _, value => do return [{ text := "unallowed value " ++ (← value.text) }]
  | none, _ => .ok []

/-- The error of an integer below the least one. -/
def leastErrors (rule : FieldRule) (value : Value) : List FieldError :=
  match rule.least, value.toInt? with
  | some least, some n =>
    if n < least then [{ text := "min value is " ++ Numeral.text least }] else []
  | _, _ => []

/-- The errors of a value. A null value and a value of the wrong kind have that error alone; a value
that is refused for being empty is not compared with the allowed texts. -/
def errors (rule : FieldRule) (value : Value) : Except NumberFault (List FieldError) := do
  match value with
  | .null => return [{ text := "null value not allowed" }]
  | value =>
    match rule.kind.filter fun kind => !kind.admits value with
    | some kind => return [{ text := "must be of " ++ kind.name ++ " type" }]
    | none =>
      let isRefused := rule.nonempty && value.isEmpty
      let empty := if isRefused then [{ text := "empty values not allowed" }] else []
      let allowed ← if isRefused then .ok [] else rule.allowedErrors value
      let positive ← if rule.positive then positiveErrors value else .ok []
      return empty ++ allowed ++ rule.leastErrors value ++ positive

end FieldRule

/-- The rules of the fields of a mapping whose values are scalars. -/
abbrev FlatSchema := List (String × FieldRule)

/-- Why the errors of a mapping cannot be collected. -/
inductive SchemaFault where
  | number (fault : NumberFault)
  | order (fault : OrderFault)
  deriving DecidableEq

/-- The errors of a field by its name. -/
abbrev FieldErrors := Value × List FieldError

namespace FieldOrder

/-- Adds the errors of a field. -/
def addAll (order : FieldOrder) (name : Value) (errors : List FieldError) :
    Except SchemaFault FieldOrder :=
  (errors.foldlM (fun (order : FieldOrder) error => order.add name error.isUnruled)
    order).mapError .order

end FieldOrder

namespace FlatSchema

/-- The errors of an entry of a mapping. -/
def entryErrors (schema : FlatSchema) (key value : Value) :
    Except NumberFault (List FieldError) :=
  let rule := match key with
    | .string s => schema.lookup s
    | _ => none
  match rule with
  | some rule => rule.errors value
  | none => .ok [{ text := "unknown field", isUnruled := true }]

/-- The errors of the fields that a mapping has, with their order after those before them. -/
def presentErrors (schema : FlatSchema) (order : FieldOrder) :
    List (Value × Value) → Except SchemaFault (List FieldErrors × FieldOrder)
  | [] => .ok ([], order)
  | (key, value) :: rest => do
    let errors ← (schema.entryErrors key value).mapError .number
    let (others, order) ← schema.presentErrors (← order.addAll key errors) rest
    return (if errors.isEmpty then others else (key, errors) :: others, order)

/-- The errors of the required fields that a mapping does not have. -/
def absentErrors (schema : FlatSchema) (entries : List (Value × Value)) : List FieldErrors :=
  (schema.filter fun (name, rule) =>
    rule.required && (Value.field? entries name).isNone).map fun (name, _) =>
      (.string name, [{ text := "required field" }])

/-- Adds the errors of the required fields that a mapping does not have to the others. -/
def withAbsent (schema : FlatSchema) (entries : List (Value × Value)) (present : List FieldErrors)
    (order : FieldOrder) : Except SchemaFault (List FieldErrors × FieldOrder) := do
  let absent := schema.absentErrors entries
  let order ← absent.foldlM (fun (order : FieldOrder) (name, errors) =>
    order.addAll name errors) order
  return (present ++ absent, order)

/-- All errors of a mapping. -/
def errors (schema : FlatSchema) (entries : List (Value × Value)) :
    Except SchemaFault (List FieldErrors × FieldOrder) := do
  let (present, order) ← schema.presentErrors {} entries
  schema.withAbsent entries present order

/-- The errors of a mapping as a tree, if the names can be written. -/
def toTree (errors : List FieldErrors) : Except NumberFault ErrorTree :=
  errors.mapM fun (name, errors) => do
    return (← name.text, errors.map fun error => ErrorEntry.message error.text)

/-- Whether a field takes its default: it has one, and is absent or null. -/
def takesDefault (entries : List (Value × Value)) (name : String) : Bool :=
  match Value.field? entries name with
  | none | some .null => true
  | some _ => false

/-- A mapping in which the fields that take their default have it. -/
def withDefaults (schema : FlatSchema) (entries : List (Value × Value)) : List (Value × Value) :=
  schema.foldl (fun entries (name, rule) =>
    match rule.default with
    | some value =>
      if takesDefault entries name then
        (entries.filter fun (key, _) => match key with
          | .string s => s != name
          | _ => true) ++ [(.string name, value)]
      else entries
    | none => entries) entries

end FlatSchema

end Fabric
