import Fabric.Yaml.Token.Scalar

/-!
# Anchors, tags and directives of a YAML text

The marks that give nodes names and types, and the lines before a document.
-/

namespace Fabric.Yaml

/-- A name of at least one character. -/
def takeName : Lexer String := do
  let name ← takeRun isNameChar
  require !name.isEmpty
  return String.ofList name

/-- The characters that may follow an anchor or an alias. -/
def mayFollowAnchor (c : Option Char) : Bool :=
  isGap c || match c with
    | some c => "?:,]\x7d%@\x60".toList.contains c
    | none => true

/-- An anchor or an alias, after its indicator. -/
def anchorToken (token : String → Token) : Lexer Unit := do
  forward 1
  let name ← takeName
  require (mayFollowAnchor (← get).rest.head?)
  emit (token name)

/-- The characters of a tag. -/
def isTagChar (c : Char) : Bool := c.isAlphanum || "-;/?:@&=+$,_.!~*'()[]%".toList.contains c

/-- The bytes of escapes that follow each other in a tag. -/
def escapedBytes : Nat → List UInt8 → Lexer (List UInt8)
  | 0, bytes => return bytes
  | fuel + 1, bytes => do
    match (← get).rest with
    | '%' :: rest => match hexNumber? 2 (rest.take 2) with
      | some n => do
        forward 3
        escapedBytes fuel (bytes ++ [UInt8.ofNat n])
      | none => illFormed
    | _ => return bytes

/-- The characters of a tag, of which there is at least one; escapes stand for the text that their
bytes encode. -/
def takeTagText : Lexer String := do
  let text ← parts ((← get).rest.length + 1) []
  require !text.isEmpty
  return String.ofList text
where
  parts : Nat → List Char → Lexer (List Char)
    | 0, text => return text
    | fuel + 1, text => do
      let text := text ++ (← takeRun fun c => isTagChar c && c != '%')
      if (← get).rest.head? == some '%' then
        let bytes ← escapedBytes (← get).rest.length []
        match String.fromUTF8? ⟨bytes.toArray⟩ with
        | some escaped => parts fuel (text ++ escaped.toList)
        | none => illFormed
      else return text

/-- A handle of tags: a name, which may be absent, between exclamation marks, or one mark before a
blank. -/
def takeHandle : Lexer String := do
  require ((← get).rest.head? == some '!')
  forward 1
  if (← get).rest.head? == some ' ' then return "!"
  let name ← takeRun isNameChar
  require ((← get).rest.head? == some '!')
  forward 1
  return String.ofList ('!' :: name ++ ['!'])

/-- Whether a tag has a handle: an exclamation mark stands before the next blank or line end. -/
def hasHandle (rest : List Char) : Bool :=
  (rest.takeWhile fun c => !(c == ' ' || isBreak c)).contains '!'

/-- A tag. -/
def tagToken : Lexer Unit := do
  let next ← peek 1
  let (handle, suffix) ←
    if next == some '<' then do
      forward 2
      let suffix ← takeTagText
      require ((← get).rest.head? == some '>')
      forward 1
      pure (none, suffix)
    else if isGap next then do
      forward 1
      pure (none, "!")
    else if hasHandle (← get).rest.tail then do
      let handle ← takeHandle
      pure (some handle, ← takeTagText)
    else do
      forward 1
      pure (some "!", ← takeTagText)
  let after := (← get).rest.head?
  require (after == some ' ' || isLineEnd after)
  emit (.tag handle suffix)

/-- Blanks. -/
def skipBlanks : Lexer Unit := do
  let _ ← takeRun (· == ' ')

/-- Whether a blank or a line end stands here. -/
def requireEnd : Lexer Unit := do
  let next := (← get).rest.head?
  require (next == some ' ' || isLineEnd next)

/-- A number of a version. -/
def takeVersionNumber : Lexer Int := do
  let digits ← takeRun Char.isDigit
  require !digits.isEmpty
  match Numeral.readInteger .decimal digits with
  | .ok n => return n
  | .error fault => throw (.numeral fault)

/-- What a directive of a name says. -/
def directiveBody (name : String) : Lexer Token := do
  if name = "YAML" then
    skipBlanks
    let major ← takeVersionNumber
    require ((← get).rest.head? == some '.')
    forward 1
    let _ ← takeVersionNumber
    requireEnd
    return .version major
  else if name = "TAG" then
    skipBlanks
    let handle ← takeHandle
    require ((← get).rest.head? == some ' ')
    skipBlanks
    let start ← takeTagText
    requireEnd
    return .tagHandle handle start
  else
    let _ ← takeRun fun c => !isBreak c
    return .otherDirective

/-- A directive and the rest of its line. -/
def directiveToken : Lexer Unit := do
  forward 1
  let name ← takeName
  requireEnd
  let token ← directiveBody name
  skipLineRest
  emit token

end Fabric.Yaml
