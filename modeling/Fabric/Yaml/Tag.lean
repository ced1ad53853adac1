/-!
# Tags

A tag tells the type of a node. Scalars have the types below as well as the two special keys: one
whose value is merged into the mapping around it, and one whose value stands for the mapping. A tag
of any other name is unknown.
-/

namespace Fabric.Yaml

inductive Tag where
  | null
  | bool
  | integer
  | real
  | binary
  | time
  | string
  | sequence
  | mapping
  /-- A sequence of mappings with one entry each. -/
  | pairs
  /-- A mapping whose values count for nothing. -/
  | set
  /-- The key whose value is merged into the mapping around it. -/
  | merge
  /-- The key whose value stands for the mapping around it. -/
  | default
  | unknown
  deriving DecidableEq, Repr

namespace Tag

/-- Where the names of the usual tags begin. -/
def usualStart : String := "tag:yaml.org,2002:"

/-- The usual tags by the rest of their names. -/
def usual : List (String × Tag) :=
  [("null", .null), ("bool", .bool), ("int", .integer), ("float", .real), ("binary", .binary),
    ("timestamp", .time), ("str", .string), ("seq", .sequence), ("map", .mapping),
    ("omap", .pairs), ("pairs", .pairs), ("set", .set), ("merge", .merge), ("value", .default)]

/-- The tag of a name. -/
def ofName (name : String) : Tag :=
  match usual.find? fun (rest, _) => usualStart ++ rest == name with
  | some (_, tag) => tag
  | none => .unknown

/-- Whether a tag asks for a collection. -/
def isCollection (tag : Tag) : Bool := [.sequence, .mapping, .pairs, .set].contains tag

end Tag

end Fabric.Yaml
