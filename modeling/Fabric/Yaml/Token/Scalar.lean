import Fabric.Yaml.Place

/-!
# Scalars of a YAML text

Plain, quoted and block scalars. A line end inside a plain or quoted scalar folds into a blank, and
blank lines keep theirs; a block scalar keeps or folds its line ends as its header says. Loops are
bounded by the length of the text, of which every round takes a part.
-/

namespace Fabric.Yaml

/-- What the line ends between two parts of a folded scalar stand for. -/
def foldBreaks (first : List Char) (others : List Char) : List Char :=
  (if first ≠ ['\n'] then first else if others.isEmpty then [' '] else []) ++ others

/-- The blanks and line ends after a part of a plain scalar; none where the scalar ends. -/
def plainGap : Lexer (List Char) := do
  let blanks ← takeRun (· == ' ')
  if ((← get).rest.head?.map isBreak).getD false then
    let first ← takeBreak
    setMayStartKey true
    if (← get).hasDocumentMark then return []
    match ← breaks (← get).rest.length [] with
    | none => return []
    | some others => return foldBreaks first others
  else return blanks
where
  breaks : Nat → List Char → Lexer (Option (List Char))
    | 0, gathered => return some gathered
    | fuel + 1, gathered => do
      match (← get).rest.head? with
      | some ' ' => do forward 1; breaks fuel gathered
      | some c =>
        if isBreak c then
          let gathered := gathered ++ (← takeBreak)
          if (← get).hasDocumentMark then return none
          breaks fuel gathered
        else return some gathered
      | none => return some gathered

/-- How many characters of a plain scalar stand here, up to a gap, a colon before a gap, or an
indicator of a flow collection. -/
def plainLength (inFlow : Bool) : List Char → Nat
  | [] => 0
  | c :: rest =>
    let isFlowMark (c : Char) : Bool :=
      c == ',' || c == '[' || c == ']' || c == '\x7b' || c == '\x7d'
    let next := rest.head?
    if isGap (some c) || (c == ':' && (isGap next || (inFlow && (next.map isFlowMark).getD false)))
        || (inFlow && (isFlowMark c || c == '?')) then 0
    else plainLength inFlow rest + 1

/-- A plain scalar, which goes on over lines that are indented deeper than its collection. -/
def plainScalar : Lexer Unit := do
  let s ← get
  let text ← parts (s.indent + 1) s.rest.length [] []
  emit (.scalar (String.ofList text) true)
where
  parts (indent : Int) : Nat → List Char → List Char → Lexer (List Char)
    | 0, text, _ => return text
    | fuel + 1, text, gap => do
      let s ← get
      let length := if s.rest.head? == some '#' then 0 else plainLength (s.flowDepth != 0) s.rest
      if length = 0 then return text
      setMayStartKey false
      let text := text ++ gap ++ s.rest.take length
      forward length
      let gap ← plainGap
      let s ← get
      if gap.isEmpty || s.rest.head? == some '#' || (s.flowDepth == 0 && s.column < indent) then
        return text
      parts indent fuel text gap

/-- The character that an escape of a double-quoted scalar stands for. -/
def escaped? : Char → Option Char
  | '0' => some '\x00'
  | 'a' => some '\x07'
  | 'b' => some '\x08'
  | 't' | '\t' => some '\t'
  | 'n' => some '\n'
  | 'v' => some '\x0b'
  | 'f' => some '\x0c'
  | 'r' => some '\r'
  | 'e' => some '\x1b'
  | ' ' => some ' '
  | '"' => some '"'
  | '\\' => some '\\'
  | '/' => some '/'
  | 'N' => some '\x85'
  | '_' => some '\xa0'
  | 'L' => some '\u2028'
  | 'P' => some '\u2029'
  | _ => none

/-- The number of hexadecimal digits after an escape mark. -/
def escapeDigits? : Char → Option Nat
  | 'x' => some 2
  | 'u' => some 4
  | 'U' => some 8
  | _ => none

/-- The last code point. -/
def maxCode : Nat := 0x10ffff

/-- The character of a code point; half of a surrogate pair is none and is replaced. -/
def codeChar (code : Nat) : Char := if code.isValidChar then Char.ofNat code else '\ufffd'

/-- The blank lines inside a quoted scalar. -/
def quotedBreaks : Lexer (List Char) := do
  lines ((← get).rest.length + 1) []
where
  lines : Nat → List Char → Lexer (List Char)
    | 0, gathered => return gathered
    | fuel + 1, gathered => do
      require !(← get).hasDocumentMark
      let _ ← takeRun fun c => c == ' ' || c == '\t'
      if ((← get).rest.head?.map isBreak).getD false then lines fuel (gathered ++ (← takeBreak))
      else return gathered

/-- An escape of a double-quoted scalar, after its backslash. -/
def escapeText : Lexer (List Char) := do
  match (← get).rest with
  | [] => illFormed
  | c :: rest =>
    match escaped? c, escapeDigits? c with
    | some x, _ => do forward 1; return [x]
    | none, some width =>
      match hexNumber? width (rest.take width) with
      | some code => do
        if code > maxCode then throw (.noCharacter code)
        forward (width + 1)
        return [codeChar code]
      | none => illFormed
    | none, none =>
      if isBreak c then do
        let _ ← takeBreak
        quotedBreaks
      else illFormed

/-- A quoted scalar. -/
def quotedScalar (quote : Char) : Lexer Unit := do
  forward 1
  let text ← parts (2 * (← get).rest.length + 1) []
  emit (.scalar (String.ofList text) false)
where
  parts : Nat → List Char → Lexer (List Char)
    | 0, _ => illFormed
    | fuel + 1, text => do
      let run ← takeRun fun c => !(c == '\'' || c == '"' || c == '\\' || isGap (some c))
      let text := text ++ run
      match (← get).rest with
      | [] => illFormed
      | c :: rest =>
        if c == quote then
          forward 1
          if quote == '\'' && rest.head? == some '\'' then
            forward 1
            parts fuel (text ++ ['\''])
          else return text
        else if c == '\\' && quote == '"' then
          forward 1
          parts fuel (text ++ (← escapeText))
        else if c == '\'' || c == '"' || c == '\\' then
          forward 1
          parts fuel (text ++ [c])
        else
          let blanks ← takeRun fun c => c == ' ' || c == '\t'
          match (← get).rest.head? with
          | none => illFormed
          | some c =>
            if isBreak c then
              let first ← takeBreak
              parts fuel (text ++ foldBreaks first (← quotedBreaks))
            else parts fuel (text ++ blanks)

/-- The header of a block scalar: whether the line ends after it are all kept (`some true`), all
dropped (`some false`) or clipped to one, and how much deeper its lines are indented. -/
def blockHeader : Lexer (Option Bool × Option Nat) := do
  let chomping? (c : Char) : Option Bool :=
    if c == '+' then some true else if c == '-' then some false else none
  let digit? (c : Char) : Option Nat := if c.isDigit then some (c.toNat - '0'.toNat) else none
  let first := (← get).rest.head?
  match first.bind chomping?, first.bind digit? with
  | some chomping, _ => do
    forward 1
    match (← get).rest.head?.bind digit? with
    | some n => do
      require (n ≠ 0)
      forward 1
      return (some chomping, some n)
    | none => return (some chomping, none)
  | none, some n => do
    require (n ≠ 0)
    forward 1
    match (← get).rest.head?.bind chomping? with
    | some chomping => do
      forward 1
      return (some chomping, some n)
    | none => return (none, some n)
  | none, none => return (none, none)

/-- The rest of a line that may hold only blanks and a comment. -/
def skipLineRest : Lexer Unit := do
  let _ ← takeRun (· == ' ')
  if (← get).rest.head? == some '#' then
    let _ ← takeRun fun c => !isBreak c
  require (isLineEnd (← get).rest.head?)
  let _ ← takeBreak

/-- The blank lines before the first line of a block scalar, and the deepest column they reach. -/
def blockIndentation : Lexer (List Char × Nat) := do
  lines ((← get).rest.length) [] 0
where
  lines : Nat → List Char → Nat → Lexer (List Char × Nat)
    | 0, gathered, deepest => return (gathered, deepest)
    | fuel + 1, gathered, deepest => do
      match (← get).rest.head? with
      | some ' ' => do
        forward 1
        lines fuel gathered (max deepest (← get).column)
      | some c =>
        if isBreak c then lines fuel (gathered ++ (← takeBreak)) deepest
        else return (gathered, deepest)
      | none => return (gathered, deepest)

/-- The blank lines inside a block scalar of an indentation. -/
def blockBreaks (indent : Nat) : Lexer (List Char) := do
  skipIndent
  lines ((← get).rest.length) []
where
  skipIndent : Lexer Unit := do
    let s ← get
    forward ((s.rest.take (indent - s.column)).takeWhile (· == ' ')).length
  lines : Nat → List Char → Lexer (List Char)
    | 0, gathered => return gathered
    | fuel + 1, gathered => do
      if ((← get).rest.head?.map isBreak).getD false then
        let gathered := gathered ++ (← takeBreak)
        skipIndent
        lines fuel gathered
      else return gathered

/-- A block scalar, literal or folded. -/
def blockScalar (isFolded : Bool) : Lexer Unit := do
  setMayStartKey true
  dropCandidate
  forward 1
  let (chomping, increment) ← blockHeader
  let next := (← get).rest.head?
  require (next == some ' ' || isLineEnd next)
  skipLineRest
  let least := ((← get).indent + 1).toNat.max 1
  let (breaks, indent) ← match increment with
    | none => do
      let (breaks, deepest) ← blockIndentation
      pure (breaks, max least deepest)
    | some n => do
      let indent := least + n - 1
      pure (← blockBreaks indent, indent)
  let (text, lastBreak, breaks) ← body indent ((← get).rest.length + 1) [] [] breaks
  let ending := match chomping with
    | none => lastBreak
    | some true => lastBreak ++ breaks
    | some false => []
  emit (.scalar (String.ofList (text ++ ending)) false)
where
  isBlank (c : Option Char) : Bool := c == some ' ' || c == some '\t'
  body (indent : Nat) : Nat → List Char → List Char → List Char →
      Lexer (List Char × List Char × List Char)
    | 0, text, lastBreak, breaks => return (text, lastBreak, breaks)
    | fuel + 1, text, lastBreak, breaks => do
      let s ← get
      if s.column = indent ∧ !s.rest.isEmpty then
        let startsDense := !isBlank s.rest.head?
        let line ← takeRun fun c => !isBreak c
        let text := text ++ breaks ++ line
        let lastBreak ← takeBreak
        let breaks ← blockBreaks indent
        let s ← get
        if s.column = indent ∧ !s.rest.isEmpty then
          let joint :=
            if isFolded && lastBreak == ['\n'] && startsDense && !isBlank s.rest.head? then
              if breaks.isEmpty then [' '] else []
            else lastBreak
          body indent fuel (text ++ joint) lastBreak breaks
        else return (text, lastBreak, breaks)
      else return (text, lastBreak, breaks)

end Fabric.Yaml
