import Fabric.Yaml.Merge
import Fabric.Yaml.Scalar.Value

/-!
# The value of a YAML document

Every node is built once. A collection is met before its parts are built: the collections that are
met wait, and are filled in the order in which they were met, so of several faults the one of the
outermost collection is reported, and in one collection the first. In a mapping, of equal keys the
last value counts, at the place of the first. Since a document may hold itself, its value is shown
down to a depth, below which collections appear empty.
-/

namespace Fabric

namespace Value

/-- Whether two values are the same key. Numbers are compared by their value, and truth values count
as one and zero; clocks that know their zone are compared by the instant. -/
def sameKey (a b : Value) : Bool :=
  match a, b with
  | .null, .null => true
  | .string s, .string t => s == t
  | .bytes s, .bytes t => s == t
  | .day d, .day e => d == e
  | .time d c, .time e k => c.areAlike k && instant d c == instant e k
  | a, b => match a.number?, b.number? with
    | some x, some y => x.same y
    | _, _ => false

def isNan : Value → Bool
  | .real .nan => true
  | _ => false

end Value

namespace Yaml

/-- The key of an entry. -/
structure Key where
  value : Value
  /-- Which one it is of those that are not a number: all that are written by the word for it are
  one, and each other node is one of its own. -/
  node : Option NodeId := none

def Key.same (a b : Key) : Bool :=
  if a.value.isNan && b.value.isNan then a.node == b.node else a.value.sameKey b.value

/-- Sets the value of a key: in its place if the key is there, and at the end if not. -/
def setKey (entries : List (Key × NodeId)) (key : Key) (value : NodeId) : List (Key × NodeId) :=
  if entries.any (·.1.same key) then
    entries.map fun (k, v) => if k.same key then (k, value) else (k, v)
  else entries ++ [(key, value)]

/-- What is built of a node. -/
inductive Built where
  | scalar (key : Key)
  | list (items : List NodeId)
  | pairs (entries : List (NodeId × NodeId))
  | set (members : List Key)
  | mapping (entries : List (Key × NodeId))

/-- The nodes, what is built of them, and the collections that wait, the last one first. -/
structure Building where
  nodes : NodeTable
  built : Array (Option Built)
  waiting : List NodeId := []

abbrev Builder := StateT Building (Except Fault)

namespace Builder

def setBuilt (id : NodeId) (b : Built) : Builder Unit :=
  modify fun s => { s with built := s.built.setIfInBounds id (some b) }

/-- The text of a node that stands for a scalar: its own, or that of the default value of a mapping.
A default value can be a mapping again; no chain of them is longer than the number of nodes. -/
def scalarText (nodes : NodeTable) : Nat → NodeId → Except Fault String
  | 0, _ => .error .endless
  | links + 1, id =>
    match nodes[id]? with
    | some { content := .scalar text, .. } => .ok text
    | some { content := .mapping entries, .. } =>
      match entries.find? fun (key, _) => nodes.tagOf key == .default with
      | some (_, value) => scalarText nodes links value
      | none => .error .illFormed
    | _ => .error .illFormed

/-- Builds a node as a scalar of a type. -/
def scalar (tag : Tag) (id : NodeId) : Builder Unit := do
  let nodes := (← get).nodes
  let text ← scalarText nodes (nodes.size + 1) id
  if tag == .time && (nodes.entriesOf? id).isSome then throw .mappingAsTime
  let value ← Scalar.value tag text
  let isOwn := value.isNan && !Scalar.isNanWord text
  setBuilt id (.scalar { value, node := if isOwn then some id else none })

/-- Builds a node, if it is not built. A collection has no parts yet and waits for them. -/
def meet (id : NodeId) : Builder Unit := do
  let s ← get
  if (s.built[id]?.join).isSome then return ()
  let tag := s.nodes.tagOf id
  if tag == .merge || tag == .default || tag == .unknown then throw .illFormed
  else if tag.isCollection then
    setBuilt id (if tag == .mapping then .mapping [] else .list [])
    modify fun s => { s with waiting := id :: s.waiting }
  else scalar tag id

/-- The key that a node was built as; a collection is none. -/
def keyOf (id : NodeId) : Builder Key := do
  match (← get).built[id]?.join with
  | some (.scalar key) => return key
  | _ => throw .illFormed

/-- Builds the entries of a mapping, after what they ask for was merged. -/
def entries (id : NodeId) : Builder (List (Key × NodeId)) := do
  let s ← get
  if (s.nodes.entriesOf? id).isNone then throw .illFormed
  let (_, nodes) ← (Merging.flatten id).run s.nodes
  set { s with nodes }
  let pairs ← ((nodes.entriesOf? id).getD []).mapM fun (key, value) => do
    meet key
    let built ← keyOf key
    meet value
    return (built, value)
  return pairs.foldl (fun built (key, value) => setKey built key value) []

/-- The items of a sequence. -/
def items (id : NodeId) : Builder (List NodeId) := do
  match (← get).nodes[id]? with
  | some { content := .sequence items, .. } => return items
  | _ => throw .illFormed

/-- Builds the one entry of an item of pairs. -/
def pair (id : NodeId) : Builder (NodeId × NodeId) := do
  match (← get).nodes.entriesOf? id with
  | some [(key, value)] => do
    meet key
    meet value
    return (key, value)
  | _ => throw .illFormed

/-- Fills a collection that waits. -/
def fill (id : NodeId) : Builder Unit := do
  match (← get).nodes.tagOf id with
  | .mapping => do setBuilt id (.mapping (← entries id))
  | .set => do setBuilt id (.set ((← entries id).map (·.1)))
  | .pairs => do setBuilt id (.pairs (← (← items id).mapM pair))
  | _ => do
    let items ← items id
    items.forM meet
    setBuilt id (.list items)

/-- Fills the collections that wait, and those that are met on the way; each is met once, so the
number of nodes bounds the rounds. -/
def fillAll : Nat → Builder Unit
  | 0 => return ()
  | rounds + 1 => do
    let waiting := (← get).waiting.reverse
    if waiting.isEmpty then return ()
    modify ({ · with waiting := [] })
    waiting.forM fill
    fillAll rounds

end Builder

namespace Building

/-- The value of a node that was built. -/
def valueOf (s : Building) : Nat → NodeId → Value
  | 0, id => match s.built[id]?.join with
    | some (.scalar key) => key.value
    | some (.list _) | some (.pairs _) | some (.set _) => .list []
    | some (.mapping _) => .mapping []
    | none => .null
  | depth + 1, id => match s.built[id]?.join with
    | some (.scalar key) => key.value
    | some (.list items) => .list (items.map (valueOf s depth))
    | some (.set members) => .list (members.map (·.value))
    | some (.pairs entries) =>
      .list (entries.map fun (key, value) => .list [valueOf s depth key, valueOf s depth value])
    | some (.mapping entries) =>
      .mapping (entries.map fun (key, value) => (key.value, valueOf s depth value))
    | none => .null

end Building

namespace Graph

/-- The value of a document down to a depth. -/
def value (g : Graph) (depth : Nat) : Except Fault Value := do
  let start : Building := { nodes := g.nodes, built := Array.replicate g.nodes.size none }
  let (_, s) ← (do Builder.meet g.root; Builder.fillAll (g.nodes.size + 1) : Builder Unit).run start
  return s.valueOf depth g.root

end Graph

/-- The value of the one document of a text down to a depth; a text that holds nothing is null. -/
def read (depth : Nat) (text : String) : Except Fault Value := do
  match ← Graph.ofText? text with
  | none => return .null
  | some g => g.value depth

end Yaml

end Fabric
