import Fabric.Text.Lines
import Fabric.Text.Words

/-!
# Logical lines

A description is a sequence of statements, one per logical line. On a physical line a `#` starts a
comment; a physical line whose content ends in `\` continues on the next one, and the continued
lines form one logical line, numbered by its last physical line. Logical lines without a token are
skipped.

`LogicalLine.listFrom` gives all logical lines of a text at once, `LogicalLine.next?` only the
first, with what is left.
-/

namespace Fabric

/-- A non-empty logical line: its keyword, its other tokens and the number of its last physical
line. -/
structure LogicalLine where
  number : Nat
  keyword : String
  operands : List String
  deriving DecidableEq, Repr

namespace LogicalLine

/-- What a physical line holds before its comment, without the blanks at its end. -/
def content (raw : List Char) : List Char := Text.trimEnd (raw.takeWhile (· ≠ '#'))

/-- Whether a physical line goes on with the next one. -/
def continues (raw : List Char) : Bool := (content raw).getLast? == some '\\'

/-- The tokens of a physical line; the sign of continuation is not part of them. -/
def tokens (raw : List Char) : List String :=
  let kept := if continues raw then (content raw).dropLast else content raw
  (Text.words kept).map String.ofList

/-- A logical line from its tokens, if there are any. -/
def ofTokens? (number : Nat) : List String → Option LogicalLine
  | [] => none
  | keyword :: operands => some { number, keyword, operands }

/-- The logical lines of physical lines, of which `number` came before and `pending` are the tokens
of a logical line that was begun on them. -/
def listFrom (pending : List String) (number : Nat) : List (List Char) → List LogicalLine
  | [] => (ofTokens? number pending).toList
  | raw :: rest =>
    let gathered := pending ++ tokens raw
    if continues raw then listFrom gathered (number + 1) rest
    else (ofTokens? (number + 1) gathered).toList ++ listFrom [] (number + 1) rest

/-- The first logical line of physical lines, the number of the last physical line that was taken
for it, and the physical lines left. -/
def next? (pending : List String) (number : Nat) :
    List (List Char) → Option LogicalLine × Nat × List (List Char)
  | [] => (ofTokens? number pending, number, [])
  | raw :: rest =>
    let gathered := pending ++ tokens raw
    if continues raw then next? gathered (number + 1) rest
    else match ofTokens? (number + 1) gathered with
      | some line => (some line, number + 1, rest)
      | none => next? [] (number + 1) rest

/-- All tokens of a line, the keyword first. -/
def allTokens (line : LogicalLine) : List String := line.keyword :: line.operands

end LogicalLine

end Fabric
