import Fabric.Yaml.Fault
import Fabric.Yaml.Token.Basic

/-!
# Places in a YAML text

A `Place` is a place in a text with what is known there: the indentation levels that are open, the
depth of flow collections, whether a key may start here, and for each depth the place of the token
that would become a key if a colon followed it on the same line. A `Lexer` moves through the
text and collects tokens, up to the first fault.
-/

namespace Fabric.Yaml

/-- A token that is a key if a colon follows. -/
structure KeyCandidate where
  /-- How many tokens came before it. -/
  tokenCount : Nat
  /-- Whether only a key can stand here. -/
  isRequired : Bool
  index : Nat
  line : Nat
  column : Nat

structure Place where
  rest : List Char
  index : Nat := 0
  line : Nat := 0
  column : Nat := 0
  /-- The column of the innermost block collection; `-1` if there is none. -/
  indent : Int := -1
  /-- The columns of the collections around it. -/
  outerIndents : List Int := []
  flowDepth : Nat := 0
  mayStartKey : Bool := true
  /-- The candidates by depth, the innermost first. -/
  candidates : List (Option KeyCandidate) := [none]
  tokens : Array Token := #[]

abbrev Lexer := StateT Place (Except Fault)

namespace Place

/-- The place after the next character. -/
def step (s : Place) : Place :=
  match s.rest with
  | [] => s
  | c :: rest =>
    if isBreak c && !(c == '\r' && rest.head? == some '\n') then
      { s with rest, index := s.index + 1, line := s.line + 1, column := 0 }
    else if c == '\ufeff' then { s with rest, index := s.index + 1 }
    else { s with rest, index := s.index + 1, column := s.column + 1 }

/-- The place after a number of characters. -/
def steps (s : Place) : Nat → Place
  | 0 => s
  | n + 1 => s.step.steps n

/-- Whether three given characters stand here, followed by a gap. -/
def hasMark (s : Place) (mark : Char) : Bool :=
  s.rest.take 3 == [mark, mark, mark] && isGap s.rest[3]?

/-- Whether a document marker stands here. -/
def hasDocumentMark (s : Place) : Bool := s.hasMark '-' || s.hasMark '.'

end Place

/-- The text is no document. -/
def illFormed {α : Type} : Lexer α := throw .illFormed

/-- Goes on only if a condition holds. -/
def require (condition : Bool) : Lexer Unit := if condition then pure () else illFormed

/-- The character some places further on. -/
def peek (n : Nat) : Lexer (Option Char) := return (← get).rest[n]?

def forward (n : Nat) : Lexer Unit := modify (·.steps n)

/-- Takes the characters from here on that satisfy a condition. -/
def takeRun (p : Char → Bool) : Lexer (List Char) := do
  let run := (← get).rest.takeWhile p
  forward run.length
  return run

/-- Takes a line end, if there is one, and gives what it stands for. -/
def takeBreak : Lexer (List Char) := do
  match (← get).rest with
  | '\r' :: '\n' :: _ => do forward 2; return ['\n']
  | c :: _ => if isBreak c then do forward 1; return breakText c else return []
  | [] => return []

def emit (token : Token) : Lexer Unit := modify fun s => { s with tokens := s.tokens.push token }

/-- Replaces the candidate of the innermost depth. -/
def setCandidate (candidate : Option KeyCandidate) : Lexer Unit :=
  modify fun s => { s with candidates := candidate :: s.candidates.tail }

def setMayStartKey (b : Bool) : Lexer Unit := modify fun s => { s with mayStartKey := b }

/-- Gives up the candidate of the innermost depth, which must not have been required. -/
def dropCandidate : Lexer Unit := do
  match (← get).candidates.head? with
  | some (some candidate) => require !candidate.isRequired
  | _ => pure ()
  setCandidate none

/-- Makes the token that follows a candidate, if a key may start here. -/
def noteCandidate : Lexer Unit := do
  let s ← get
  if s.mayStartKey then
    dropCandidate
    setCandidate (some {
      tokenCount := s.tokens.size
      isRequired := s.flowDepth == 0 && s.indent == s.column
      index := s.index, line := s.line, column := s.column })

/-- The longest distance between a key and its colon. -/
def maxKeyLength : Nat := 1024

namespace Place

/-- Whether a candidate is on an earlier line or too far back to become a key here. -/
def isStale (s : Place) (c : KeyCandidate) : Bool :=
  c.line != s.line || s.index - c.index > maxKeyLength

/-- How many tokens are settled here: all before the first that may still become a key. -/
def settled (s : Place) : Nat :=
  (s.candidates.filterMap (·.filter fun c => !s.isStale c)).foldl
    (fun count c => min count c.tokenCount) s.tokens.size

end Place

/-- Gives up the candidates that can be no keys any more. -/
def dropStaleCandidates : Lexer Unit := do
  let s ← get
  require (s.candidates.all fun c => match c with
    | some c => !(s.isStale c && c.isRequired)
    | none => true)
  set { s with candidates := s.candidates.map (Option.filter fun c => !s.isStale c) }

/-- Ends the block collections that are indented deeper than a column. -/
def endBlocks (column : Int) : Lexer Unit :=
  modify fun s => if s.flowDepth = 0 then close s (s.outerIndents.length + 1) else s
where
  close (s : Place) : Nat → Place
    | 0 => s
    | n + 1 =>
      if s.indent > column then
        close { s with
          indent := s.outerIndents.headD (-1), outerIndents := s.outerIndents.tail
          tokens := s.tokens.push .blockEnd } n
      else s

/-- Opens a block collection at a column, unless one is open there; whether it was opened. -/
def openBlock (column : Int) : Lexer Bool := do
  let s ← get
  if s.indent < column then
    set { s with indent := column, outerIndents := s.indent :: s.outerIndents }
    return true
  else return false

end Fabric.Yaml
