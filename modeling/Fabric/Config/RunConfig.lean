import Fabric.Config.Schema
import Fabric.File.System
import Fabric.Grid.Sizing
import Fabric.Vocabulary.Enums
import Fabric.Yaml.Fault

/-!
# Run configurations

A run configuration holds the routing mode, the sizing of the grid and, optionally, where the echo
report goes. It is read from a mapping that must fit the schema below; the grid field is a mapping
with a schema of its own.
-/

namespace Fabric

structure RunConfig where
  routing : Routing
  sizing : Sizing
  echoFile : Option Path := none
  deriving DecidableEq

/-- Why there is no run configuration. -/
inductive ConfigError where
  | file (e : ConfigFileError)
  | schema (e : SchemaError)
  /-- There is no document at all. -/
  | noDocument
  /-- The document, as it is shown, is no mapping. -/
  | notAMapping (shown : String)
  | sizing (fault : SizingFault)
  | number (fault : NumberFault)
  /-- The names of the fields cannot be ordered. -/
  | order (fault : OrderFault)
  /-- A scalar of the document has no value. -/
  | value (fault : Yaml.Fault)
  /-- The file cannot be opened or decoded. -/
  | unreadable (fault : FileFault)
  /-- A field that the schema requires is not there. -/
  | unsetField

def ConfigError.ofSchema : SchemaFault → ConfigError
  | .number fault => .number fault
  | .order fault => .order fault

namespace RunConfig

/-- The rules of the fields other than the grid. -/
def schema : FlatSchema :=
  [("route_type", { kind := some .string, oneOf := some (Vocabulary.words Routing)
                    default := some (.string (Vocabulary.word Routing.global)) }),
    ("aspect_ratio", { kind := some .number, positive := true
                       default := some (.real (.nearestInt 1)) }),
    ("grid", { kind := some .mapping }),
    ("num_blocks", { kind := some .integer, least := some 0, required := true }),
    ("num_pads", { kind := some .integer, least := some 0, required := true }),
    ("echo_file", { kind := some .string, nonempty := true })]

/-- The rules of the fields of the grid. -/
def gridSchema : FlatSchema :=
  [("width", { kind := some .integer, least := some 1, required := true }),
    ("height", { kind := some .integer, least := some 1, required := true })]

/-- What is wrong with a field: its own errors, and those of the fields of its mapping. -/
structure Finding where
  name : Value
  own : List FieldError
  inner : List FieldErrors

namespace Finding

def isEmpty (f : Finding) : Bool := f.own.isEmpty && f.inner.isEmpty

/-- The entry of a finding in the error tree, if the names can be written. -/
def toTree (f : Finding) : Except NumberFault (String × List ErrorEntry) := do
  let name ← f.name.text
  let inner ← FlatSchema.toTree f.inner
  let own := f.own.map fun error => ErrorEntry.message error.text
  return (name, own ++ if inner.isEmpty then [] else [.nested inner])

end Finding

/-- The errors of the fields of the grid, if the entry is the grid and holds a mapping, and their
order. -/
def gridErrors (key value : Value) : Except SchemaFault (List FieldErrors × FieldOrder) :=
  match key, value with
  | .string "grid", .mapping fields => gridSchema.errors fields
  | _, _ => .ok ([], {})

/-- What is wrong with the fields that a mapping has, with its order after what was found before. -/
def presentFindings (order : FieldOrder) :
    List (Value × Value) → Except SchemaFault (List Finding × FieldOrder)
  | [] => .ok ([], order)
  | (name, value) :: rest => do
    let own ← (schema.entryErrors name value).mapError .number
    let order ← order.addAll name own
    let (inner, innerOrder) ← gridErrors name value
    let order ←
      if inner.isEmpty then pure order
      else (order.addGroup name innerOrder).mapError .order
    let (others, order) ← presentFindings order rest
    return ({ name, own, inner } :: others, order)

/-- What is wrong with a mapping whose defaults are filled in. -/
def findings (entries : List (Value × Value)) : Except SchemaFault (List Finding) := do
  let (present, order) ← presentFindings {} entries
  let (absent, _) ← schema.withAbsent entries [] order
  let missing := absent.map fun (name, own) => { name, own, inner := [] : Finding }
  return (present ++ missing).filter (!·.isEmpty)

/-- All errors of a mapping whose defaults are filled in. -/
def errors (entries : List (Value × Value)) : Except SchemaFault ErrorTree := do
  ((← findings entries).mapM Finding.toTree).mapError .number

/-- The count of a field. -/
def count? (entries : List (Value × Value)) (name : String) : Option Count :=
  match Value.field? entries name with
  | some (.int n) => some (.number n)
  | some (.bool b) => some (.flag b)
  | _ => none

/-- The width and the height that the grid field fixes. -/
def fixedSize? (entries : List (Value × Value)) : Option (Count × Count) :=
  match Value.field? entries "grid" with
  | some (.mapping fields) => do return (← count? fields "width", ← count? fields "height")
  | _ => none

/-- The aspect ratio as a real value. -/
def aspectRatio (entries : List (Value × Value)) : Except ConfigError Binary64 :=
  match Value.field? entries "aspect_ratio" with
  | some (.real x) => .ok x
  | some (.int n) => (Binary64.ofInt n).mapError .number
  | _ => .error .unsetField

/-- Where the echo report goes: a relative path is taken from the directory of the configuration
file, if that directory exists. -/
def echoPath (fs : FileSystem) (path : Path) (entries : List (Value × Value)) :
    Except ConfigError (Option Path) :=
  match Value.field? entries "echo_file" with
  | some (.string text) => do
    let file := Path.ofString text
    if file.isAbsolute then return some file
    let present ← (fs.exists? path.parent).mapError fun e => .unreadable (.error e)
    return some (if present then path.parent.join file else file)
  | _ => .ok none

/-- The counts of a configuration. -/
def counts (c : RunConfig) : List Count :=
  let fixed := match c.sizing.fixedSize with
    | some (width, height) => [width, height]
    | none => []
  c.sizing.numBlocks :: c.sizing.numPads :: fixed

/-- Whether all counts may be written. A configuration is recorded when it is loaded, so one that
cannot be written is refused. -/
def isWritable (c : RunConfig) : Bool := c.counts.all fun count => Numeral.isWritable count.value

/-- The configuration that a mapping holds, which fits the schema. -/
def ofFitting (fs : FileSystem) (path : Path) (entries : List (Value × Value)) :
    Except ConfigError RunConfig := do
  let required {α : Type} (value : Option α) : Except ConfigError α :=
    match value with
    | some x => .ok x
    | none => .error .unsetField
  let routing ← required (match Value.field? entries "route_type" with
    | some (.string word) => Vocabulary.find? (α := Routing) word
    | _ => none)
  let echoFile ← echoPath fs path entries
  let sizing : Sizing := {
    numBlocks := ← required (count? entries "num_blocks")
    numPads := ← required (count? entries "num_pads")
    aspectRatio := .real (← aspectRatio entries)
    fixedSize := fixedSize? entries }
  sizing.check.mapError .sizing
  let config := { routing, sizing, echoFile }
  if !config.isWritable then throw (.number .tooManyDigits)
  return config

/-- The configuration that a document holds, read from `path`. -/
def ofValue (fs : FileSystem) (path : Path) (content : Value) : Except ConfigError RunConfig := do
  match content with
  | .null => throw .noDocument
  | .mapping entries =>
    let entries := schema.withDefaults entries
    let errors ← (errors entries).mapError .ofSchema
    if !errors.isEmpty then throw (.schema { errors, path })
    ofFitting fs path entries
  | other => throw (.notAMapping (← other.text.mapError .number))

/-- The path that stands for a document held in memory. -/
def memoryPath : Path := .ofString "<memory>"

end RunConfig

namespace ConfigError

/-- The text of an error of a document that is no mapping. -/
def documentMessage? : ConfigError → Option String
  | .noDocument => some "document is missing"
  | .notAMapping shown => some ("'" ++ shown ++ "' is not a document, must be a dict")
  | _ => none

end ConfigError

end Fabric
