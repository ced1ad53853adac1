import Fabric.Statement.Cursor

/-!
# Scalar operands

Readers of one operand, or of the whole payload of a simple statement. Each consumes tokens from
the cursor and gives a value in its range, or stops with the first problem.
-/

namespace Fabric.Scalar

open Cursor

/-- The integer that a token spells, where `what` names it in the message. -/
def toInteger (what token : String) : Reading Int :=
  match Numeral.read? token with
  | some value => pure value
  | none => fail (.notAnInteger what token)

/-- A numeral of a real operand has ASCII characters only and no underscore. -/
def isPlain (token : String) : Bool := token.toList.all fun c => c.toNat < 128 && c ≠ '_'

/-- The value that a token spells, where `what` names it in the message. -/
def toReal (what token : String) : Reading Binary64 :=
  match if isPlain token then Binary64.read? token else none with
  | some value => pure value
  | none => fail (.notANumber what token)

/-- Reads a statement whose payload is one integer above zero. -/
def positiveInteger : Reading Int := do
  let what ← getKeyword
  let token ← take what
  let value ← toInteger what token
  if value ≤ 0 then fail (.notPositive value token)
  expectEnd
  return value

/-- Reads one real operand within bounds, named `what` in messages, or else by the keyword. What
follows it is left. -/
def real (bounds : Bounds) (what : Option String) : Reading Binary64 := do
  let what := what.getD (← getKeyword)
  let token ← take what
  let value ← toReal what token
  if !bounds.admits value then fail (.outsideBounds what value bounds token)
  return value

/-- Reads one word of a vocabulary, named `what` in messages, or else by the keyword; `problem`
says what is wrong with any other word. -/
def word (α : Type) [Vocabulary α] (what : Option String)
    (problem : String → String → List String → Problem) : Reading α := do
  let what := what.getD (← getKeyword)
  let token ← take what
  match Vocabulary.find? (α := α) token with
  | some value => return value
  | none => fail (problem what token (Vocabulary.words α))

/-- Reads a statement whose payload is one word of a vocabulary. -/
def wordStatement (α : Type) [Vocabulary α] : Reading α := do
  let value ← word α none .unknownWord
  expectEnd
  return value

/-- Reads the class marker and the class number after it. -/
def classId : Reading Nat := do
  let marker ← take classMarker
  if marker ≠ classMarker then fail (.noClassMarker marker)
  let what := "class number"
  let token ← take what
  let value ← toInteger what token
  if value < 0 then fail (.negativeClass value token)
  return value.toNat

/-- The side that a token names. -/
def side (token : String) : Reading Side :=
  match Vocabulary.find? (α := Side) token with
  | some side => pure side
  | none => fail (.badSide token)

end Fabric.Scalar
