import Fabric.Yaml.Scalar.Form
import Fabric.Yaml.Tokens

/-!
# The nodes of a YAML document

A document is a graph of nodes: scalars, sequences and mappings. The nodes stand in a table and name
their parts by their places in it, so an alias is one more name of a node, and a node may be a part
of itself. Readers take tokens from the front; each is bounded by a count of calls, and twice the
number of tokens is enough because of two calls within each other one takes a token.
-/

namespace Fabric.Yaml

/-- The place of a node in the table. -/
abbrev NodeId := Nat

inductive NodeContent where
  | scalar (text : String)
  | sequence (items : List NodeId)
  | mapping (entries : List (NodeId × NodeId))
  deriving Inhabited

structure Node where
  tag : Tag
  content : NodeContent

/-- The nodes of a document. -/
abbrev NodeTable := Array Node

/-- What is known while nodes are read: the tokens ahead with the fault after them, what the tag
handles stand for, the nodes, and those with an anchor. -/
structure NodeState where
  tokens : List Token
  fault : Option Fault
  handles : List (String × String) := [("!", "!"), ("!!", Tag.usualStart)]
  nodes : NodeTable := #[]
  anchors : List (String × NodeId) := []

abbrev NodeReader := StateT NodeState (Except Fault)

namespace NodeReader

def fail {α : Type} : NodeReader α := throw .illFormed

/-- The token ahead; none at the end of the text. -/
def ahead : NodeReader (Option Token) := do
  match (← get).tokens, (← get).fault with
  | [], some fault => throw fault
  | tokens, _ => return tokens.head?

def skip : NodeReader Unit := modify fun s => { s with tokens := s.tokens.tail }

/-- Takes a token if it is the one ahead; whether it was. -/
def takes (token : Token) : NodeReader Bool := do
  if (← ahead) = some token then
    skip
    return true
  else return false

/-- Takes a token that must be there. -/
def expect (token : Token) : NodeReader Unit := do
  if !(← takes token) then fail

/-- Whether one of some tokens is ahead. -/
def isAhead (tokens : List Token) : NodeReader Bool := do
  return match ← ahead with
    | some token => tokens.contains token
    | none => false

/-- The node that an alias stands for. -/
def aliased (name : String) : NodeReader NodeId := do
  match (← get).anchors.lookup name with
  | some node => return node
  | none => fail

/-- Puts a node into the table. -/
def newNode (tag : Tag) (content : NodeContent) : NodeReader NodeId := do
  let id := (← get).nodes.size
  modify fun s => { s with nodes := s.nodes.push { tag, content } }
  return id

/-- Sets the content of a node in the table. -/
def setContent (id : NodeId) (content : NodeContent) : NodeReader Unit :=
  modify fun s => { s with nodes := s.nodes.modify id ({ · with content }) }

/-- A scalar that is not written. -/
def emptyNode : NodeReader NodeId := newNode .null (.scalar "")

/-- The name of a tag in full. -/
def fullTag (handle : Option String) (suffix : String) : NodeReader String := do
  match handle with
  | none => return suffix
  | some handle => match (← get).handles.lookup handle with
    | some start => return start ++ suffix
    | none => fail

/-- Takes a tag, if one is ahead: its handle and the rest. -/
def takeTag : NodeReader (Option (Option String × String)) := do
  match ← ahead with
  | some (.tag handle suffix) => do
    skip
    return some (handle, suffix)
  | _ => return none

/-- Takes an anchor, if one is ahead. -/
def takeAnchor : NodeReader (Option String) := do
  match ← ahead with
  | some (.anchor name) => do
    skip
    return some name
  | _ => return none

/-- What stands before a node: its anchor and the name of its tag, in any order. -/
structure Properties where
  anchor : Option String := none
  tag : Option String := none

/-- Takes what stands before a node. A tag is looked up once both are taken. -/
def properties : NodeReader Properties := do
  let (anchor, tag) ← match ← takeAnchor with
    | some anchor => do pure (some anchor, ← takeTag)
    | none => do
      match ← takeTag with
      | some tag => do pure (← takeAnchor, some tag)
      | none => pure (none, none)
  match tag with
  | none => return { anchor }
  | some (handle, suffix) => return { anchor, tag := some (← fullTag handle suffix) }

def Properties.areEmpty (p : Properties) : Bool := p.anchor.isNone && p.tag.isNone

/-- The tag of a node; `usual` is the one of a node without a tag, and of one whose tag asks for
none. -/
def Properties.tagOr (p : Properties) (usual : Tag) : Tag :=
  match p.tag with
  | none | some "!" => usual
  | some name => .ofName name

/-- Puts a node into the table and notes its anchor; no two nodes share an anchor. -/
def Properties.newNode (p : Properties) (usual : Tag) (content : NodeContent) :
    NodeReader NodeId := do
  match p.anchor with
  | none => NodeReader.newNode (p.tagOr usual) content
  | some name =>
    if ((← get).anchors.lookup name).isSome then fail
    let id ← NodeReader.newNode (p.tagOr usual) content
    modify fun s => { s with anchors := (name, id) :: s.anchors }
    return id

/-- A scalar; its form tells its type if it is plain and has no tag, or if its tag asks for none. -/
def Properties.newScalar (p : Properties) (text : String) (isPlain : Bool) : NodeReader NodeId :=
  p.newNode (if isPlain || p.tag.isSome then Scalar.formTag text else .string) (.scalar text)

/-- A sequence whose items are read after its anchor is noted, so they may hold the sequence. -/
def Properties.newSequence (p : Properties) (items : NodeReader (List NodeId)) :
    NodeReader NodeId := do
  let id ← p.newNode .sequence (.sequence [])
  setContent id (.sequence (← items))
  return id

/-- A mapping whose entries are read after its anchor is noted. -/
def Properties.newMapping (p : Properties) (entries : NodeReader (List (NodeId × NodeId))) :
    NodeReader NodeId := do
  let id ← p.newNode .mapping (.mapping [])
  setContent id (.mapping (← entries))
  return id

/-- The node of properties after which nothing is written. -/
def emptyAfter (p : Properties) : NodeReader NodeId :=
  if p.areEmpty then fail else p.newScalar "" true

mutual

/-- A node. In block context a block collection may start here; after a key, also entries that are
not indented. -/
def node (inBlock mayHoldEntries : Bool) : Nat → NodeReader NodeId
  | 0 => fail
  | fuel + 1 => do
    match ← ahead with
    | some (.alias name) => do
      skip
      aliased name
    | _ => do
      let p ← properties
      match ← ahead with
      | some (.scalar text isPlain) => do
        skip
        p.newScalar text isPlain
      | some .flowSequenceStart => do
        skip
        p.newSequence (flowItems true fuel)
      | some .flowMappingStart => do
        skip
        p.newMapping (flowEntries true fuel)
      | some .blockEntry =>
        if mayHoldEntries then p.newSequence (looseItems fuel) else emptyAfter p
      | some .blockSequenceStart =>
        if inBlock then do
          skip
          p.newSequence (blockItems fuel)
        else emptyAfter p
      | some .blockMappingStart =>
        if inBlock then do
          skip
          p.newMapping (blockEntries fuel)
        else emptyAfter p
      | _ => emptyAfter p

/-- A node, unless a token ahead says that nothing is written. -/
def nodeUnless (ends : List Token) (inBlock mayHoldEntries : Bool) : Nat → NodeReader NodeId
  | 0 => fail
  | fuel + 1 => do
    if ← isAhead ends then emptyNode
    else node inBlock mayHoldEntries fuel

/-- The value of an entry, if a value token is ahead. -/
def valueUnless (ends : List Token) (inBlock : Bool) : Nat → NodeReader NodeId
  | 0 => fail
  | fuel + 1 => do
    if ← takes .value then nodeUnless ends inBlock inBlock fuel
    else emptyNode

/-- The items of a block sequence. -/
def blockItems : Nat → NodeReader (List NodeId)
  | 0 => fail
  | fuel + 1 => do
    if ← takes .blockEntry then
      let item ← nodeUnless [.blockEntry, .blockEnd] true false fuel
      return item :: (← blockItems fuel)
    else do
      expect .blockEnd
      return []

/-- The items of a sequence that is not indented; nothing marks its end. -/
def looseItems : Nat → NodeReader (List NodeId)
  | 0 => fail
  | fuel + 1 => do
    if ← takes .blockEntry then
      let item ← nodeUnless [.blockEntry, .key, .value, .blockEnd] true false fuel
      return item :: (← looseItems fuel)
    else return []

/-- The entries of a block mapping. -/
def blockEntries : Nat → NodeReader (List (NodeId × NodeId))
  | 0 => fail
  | fuel + 1 => do
    if ← takes .key then
      let key ← nodeUnless [.key, .value, .blockEnd] true true fuel
      let value ← valueUnless [.key, .value, .blockEnd] true fuel
      return (key, value) :: (← blockEntries fuel)
    else do
      expect .blockEnd
      return []

/-- The items of a flow sequence; an entry with a key is a mapping by itself. -/
def flowItems (isFirst : Bool) : Nat → NodeReader (List NodeId)
  | 0 => fail
  | fuel + 1 => do
    if ← takes .flowSequenceEnd then return []
    if !isFirst then expect .flowEntry
    if ← takes .key then
      let key ← nodeUnless [.value, .flowEntry, .flowSequenceEnd] false false fuel
      let value ← valueUnless [.flowEntry, .flowSequenceEnd] false fuel
      let entry ← newNode .mapping (.mapping [(key, value)])
      return entry :: (← flowItems false fuel)
    else if ← takes .flowSequenceEnd then return []
    else
      let item ← node false false fuel
      return item :: (← flowItems false fuel)

/-- The entries of a flow mapping; a node without a key mark is a key without a value. -/
def flowEntries (isFirst : Bool) : Nat → NodeReader (List (NodeId × NodeId))
  | 0 => fail
  | fuel + 1 => do
    if ← takes .flowMappingEnd then return []
    if !isFirst then expect .flowEntry
    if ← takes .key then
      let key ← nodeUnless [.value, .flowEntry, .flowMappingEnd] false false fuel
      let value ← valueUnless [.flowEntry, .flowMappingEnd] false fuel
      return (key, value) :: (← flowEntries false fuel)
    else if ← takes .flowMappingEnd then return []
    else
      let key ← node false false fuel
      let value ← emptyNode
      return (key, value) :: (← flowEntries false fuel)

end

/-- The directives before a document: at most one version, which is 1, and each handle at most
once. The handles that are set come before the usual ones. -/
def directives : Nat → Bool → List String → NodeReader Unit
  | 0, _, _ => fail
  | fuel + 1, hasVersion, handles => do
    match ← ahead with
    | some (.version major) =>
      if hasVersion || major != 1 then fail
      skip
      directives fuel true handles
    | some (.tagHandle handle start) =>
      if handles.contains handle then fail
      skip
      modify fun s => { s with handles := (handle, start) :: s.handles }
      directives fuel hasVersion (handle :: handles)
    | some .otherDirective => do
      skip
      directives fuel hasVersion handles
    | _ => return ()

def isDirective : Token → Bool
  | .version _ | .tagHandle .. | .otherDirective => true
  | _ => false

/-- The tokens after which an explicit document holds nothing. -/
def endsDocument (token : Token) : Bool :=
  isDirective token || token == .documentStart || token == .documentEnd

/-- The outermost node of a document, after the directives before it. -/
def documentNode (fuel : Nat) : NodeReader NodeId := do
  let isExplicit := (← ahead).any fun token => isDirective token || token == .documentStart
  if !isExplicit then node true false fuel
  else
    directives fuel false []
    expect .documentStart
    match ← ahead with
    | none => emptyNode
    | some token => if endsDocument token then emptyNode else node true false fuel

/-- The outermost node of the one document of a text; none if the text holds nothing. The
directives of a second document are read before it is refused. -/
def document : NodeReader (Option NodeId) := do
  let fuel := 2 * (← get).tokens.length + 2
  if (← ahead).isNone then return none
  let root ← documentNode fuel
  modify fun s => { s with tokens := s.tokens.dropWhile (· == .documentEnd) }
  match ← ahead with
  | none => return some root
  | some _ => do
    directives fuel false []
    fail

end NodeReader

/-- The nodes of a document and the place of the outermost. -/
structure Graph where
  nodes : NodeTable
  root : NodeId

/-- The nodes of the one document of a text; none if the text holds nothing. -/
def Graph.ofText? (text : String) : Except Fault (Option Graph) := do
  let tokens := Tokens.ofText text
  let (root, state) ← NodeReader.document.run { tokens := tokens.tokens, fault := tokens.fault }
  return root.map fun root => { nodes := state.nodes, root }

end Fabric.Yaml
