import Fabric.Yaml.Node

/-!
# Merged entries

A merge key brings the entries of another mapping, or of several, into the mapping around it, before
its own entries; of several mappings the last comes first, so the first counts most. Merging changes
the nodes: a mapping that was merged into has no merge key left, and a key that stands for a default
value has become a text. Every merge takes a key away, so the number of merge keys bounds how deep
merges lie in each other.
-/

namespace Fabric.Yaml

namespace NodeTable

def tagOf (nodes : NodeTable) (id : NodeId) : Tag := (nodes[id]?.map (·.tag)).getD .unknown

/-- The entries of a mapping; none for another node. -/
def entriesOf? (nodes : NodeTable) (id : NodeId) : Option (List (NodeId × NodeId)) :=
  match nodes[id]? with
  | some { content := .mapping entries, .. } => some entries
  | _ => none

def setEntries (nodes : NodeTable) (id : NodeId) (entries : List (NodeId × NodeId)) : NodeTable :=
  nodes.modify id ({ · with content := .mapping entries })

def setTag (nodes : NodeTable) (id : NodeId) (tag : Tag) : NodeTable :=
  nodes.modify id ({ · with tag })

/-- The number of merge keys. -/
def mergeCount (nodes : NodeTable) : Nat :=
  nodes.foldl (fun count node => match node.content with
    | .mapping entries => count + (entries.filter fun (key, _) => nodes.tagOf key == .merge).length
    | _ => count) 0

end NodeTable

/-- An action on the nodes of a document. -/
abbrev Merging := StateT NodeTable (Except Fault)

namespace Merging

/-- The entries of a mapping after `flatten` has merged what they ask for. -/
def flatEntries (flatten : NodeId → Merging Unit) (id : NodeId) :
    Merging (List (NodeId × NodeId)) := do
  if ((← get).entriesOf? id).isNone then throw .illFormed
  flatten id
  return ((← get).entriesOf? id).getD []

/-- The entries that a merged value stands for. -/
def source (flatten : NodeId → Merging Unit) (value : NodeId) :
    Merging (List (NodeId × NodeId)) := do
  let nodes ← get
  match nodes[value]? with
  | some { content := .mapping _, .. } => flatEntries flatten value
  | some { content := .sequence items, .. } => do
    let parts ← items.mapM (flatEntries flatten)
    return parts.reverse.flatten
  | _ => throw .illFormed

/-- Takes the merge keys of a mapping away from a place on, and gives the entries that they bring.
A merge can come back to the same mapping, so its entries are looked up in each of the rounds. -/
def gather (flatten : NodeId → Merging Unit) (id : NodeId) (place : Nat) :
    Nat → Merging (List (NodeId × NodeId))
  | 0 => return []
  | rounds + 1 => do
    let nodes ← get
    let entries := (nodes.entriesOf? id).getD []
    match entries[place]? with
    | none => return []
    | some (key, value) =>
      match nodes.tagOf key with
      | .merge => do
        set (nodes.setEntries id (entries.eraseIdx place))
        let here ← source flatten value
        return here ++ (← gather flatten id place rounds)
      | .default => do
        set (nodes.setTag key .string)
        gather flatten id (place + 1) rounds
      | _ => gather flatten id (place + 1) rounds

/-- Merges what the entries of a mapping ask for; the count bounds how deep. -/
def flattenTo : Nat → NodeId → Merging Unit
  | 0, _ => return ()
  | depth + 1, id => do
    let entries := ((← get).entriesOf? id).getD []
    let merged ← gather (flattenTo depth) id 0 entries.length
    if !merged.isEmpty then
      modify fun nodes => nodes.setEntries id (merged ++ (nodes.entriesOf? id).getD [])

/-- Merges what the entries of a mapping ask for. -/
def flatten (id : NodeId) : Merging Unit := do flattenTo ((← get).mergeCount + 1) id

end Merging

end Fabric.Yaml
