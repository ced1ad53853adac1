import Fabric.Yaml.Token.Mark

/-!
# From a YAML text to its tokens

Token after token is taken from the text, up to the first fault. What a colon follows becomes a key
after the fact: the key token is put in before the tokens of the key, and in block context it may
open a mapping there.
-/

namespace Fabric.Yaml

/-- Skips blanks, comments and line ends up to the next token, and the byte order mark at the start
of the text. -/
def skipToToken : Lexer Unit := do
  let s ← get
  if s.index = 0 ∧ s.rest.head? = some '\ufeff' then forward 1
  lines (s.rest.length + 1)
where
  lines : Nat → Lexer Unit
    | 0 => return ()
    | fuel + 1 => do
      skipBlanks
      if (← get).rest.head? == some '#' then
        let _ ← takeRun fun c => !isBreak c
      if ((← get).rest.head?.map isBreak).getD false then
        let _ ← takeBreak
        if (← get).flowDepth = 0 then setMayStartKey true
        lines fuel

/-- Puts a token in before the tokens from a place on. -/
def insertToken (place : Nat) (token : Token) : Lexer Unit :=
  modify fun s => { s with tokens := s.tokens.insertIdxIfInBounds place token }

/-- The end of the text: all block collections end. -/
def finish : Lexer Unit := do
  endBlocks (-1)
  dropCandidate

/-- The start of something that stands outside of documents. -/
def leaveDocument : Lexer Unit := do
  endBlocks (-1)
  dropCandidate
  setMayStartKey false

/-- A document marker. -/
def documentMark (token : Token) : Lexer Unit := do
  leaveDocument
  forward 3
  emit token

/-- The start of a flow collection. -/
def openFlow (token : Token) : Lexer Unit := do
  noteCandidate
  modify fun s => { s with flowDepth := s.flowDepth + 1, candidates := none :: s.candidates }
  setMayStartKey true
  forward 1
  emit token

/-- The end of a flow collection. -/
def closeFlow (token : Token) : Lexer Unit := do
  dropCandidate
  require ((← get).flowDepth != 0)
  modify fun s => { s with flowDepth := s.flowDepth - 1, candidates := s.candidates.tail }
  setMayStartKey false
  forward 1
  emit token

/-- Opens a block collection here if the context is a block; there must be room for one. -/
def openHere (token : Token) : Lexer Unit := do
  let s ← get
  if s.flowDepth = 0 then
    require s.mayStartKey
    if ← openBlock s.column then emit token

/-- The start of an entry, after its indicator. -/
def entryToken (token : Token) : Lexer Unit := do
  setMayStartKey true
  dropCandidate
  forward 1
  emit token

/-- The start of a key that is marked as such. -/
def keyToken : Lexer Unit := do
  openHere .blockMappingStart
  setMayStartKey ((← get).flowDepth == 0)
  dropCandidate
  forward 1
  emit .key

/-- The start of a value: what stands before the colon is its key, if it can be one. -/
def valueToken : Lexer Unit := do
  let s ← get
  match s.candidates.head?.join with
  | some candidate =>
    setCandidate none
    insertToken candidate.tokenCount .key
    if s.flowDepth = 0 then
      if ← openBlock candidate.column then insertToken candidate.tokenCount .blockMappingStart
    setMayStartKey false
  | none =>
    openHere .blockMappingStart
    setMayStartKey (s.flowDepth == 0)
    dropCandidate
  forward 1
  emit .value

/-- A token that can be a key by itself. -/
def possibleKey (token : Lexer Unit) : Lexer Unit := do
  noteCandidate
  setMayStartKey false
  token

/-- The characters that start no plain scalar. -/
def isIndicator (c : Char) : Bool := "-?:,[]\x7b\x7d#&*!|>'\"%@\x60".toList.contains c

/-- Whether a plain scalar starts here. -/
def startsPlain (inFlow : Bool) (c : Char) (next : Option Char) : Bool :=
  !(isGap (some c) || isIndicator c) ||
    (!isGap next && (c == '-' || (!inFlow && (c == '?' || c == ':'))))

/-- Takes the token that starts with a character. -/
def nextToken (c : Char) : Lexer Unit := do
  let s ← get
  let inFlow := s.flowDepth != 0
  let next ← peek 1
  if c == '%' && s.column == 0 then do leaveDocument; directiveToken
  else if s.column == 0 && s.hasMark '-' then documentMark .documentStart
  else if s.column == 0 && s.hasMark '.' then documentMark .documentEnd
  else if c == '[' then openFlow .flowSequenceStart
  else if c == '\x7b' then openFlow .flowMappingStart
  else if c == ']' then closeFlow .flowSequenceEnd
  else if c == '\x7d' then closeFlow .flowMappingEnd
  else if c == ',' then entryToken .flowEntry
  else if c == '-' && isGap next then do openHere .blockSequenceStart; entryToken .blockEntry
  else if c == '?' && (inFlow || isGap next) then keyToken
  else if c == ':' && (inFlow || isGap next) then valueToken
  else if c == '*' then possibleKey (anchorToken .alias)
  else if c == '&' then possibleKey (anchorToken .anchor)
  else if c == '!' then possibleKey tagToken
  else if c == '|' && !inFlow then blockScalar false
  else if c == '>' && !inFlow then blockScalar true
  else if c == '\'' || c == '"' then possibleKey (quotedScalar c)
  else if startsPlain inFlow c next then possibleKey plainScalar
  else illFormed

/-- Takes what stands before the next token, and the token; whether there was one. -/
def takeNext : Lexer Bool := do
  skipToToken
  dropStaleCandidates
  endBlocks (← get).column
  match (← get).rest with
  | [] => do
    finish
    return false
  | c :: _ => do
    nextToken c
    return true

/-- The tokens of a text, up to a fault if there is one. -/
structure Tokens where
  tokens : List Token
  fault : Option Fault := none

/-- Takes all tokens from a place on. A reader of the tokens meets a fault as soon as it asks for
more than the settled ones. -/
def tokensFrom : Nat → Place → Tokens
  | 0, s => { tokens := s.tokens.toList, fault := some .illFormed }
  | fuel + 1, s =>
    match takeNext s with
    | .ok (true, next) => tokensFrom fuel next
    | .ok (false, next) => { tokens := next.tokens.toList }
    | .error fault => { tokens := s.tokens.toList.take s.settled, fault := some fault }

/-- The tokens of a text. -/
def Tokens.ofText (text : String) : Tokens :=
  let rest := text.toList
  if rest.all isAllowed then tokensFrom (rest.length + 1) { rest }
  else { tokens := [], fault := some .illFormed }

end Fabric.Yaml
