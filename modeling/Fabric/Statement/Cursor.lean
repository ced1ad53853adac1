import Fabric.Statement.Fault
import Fabric.Statement.Line

/-!
# Cursors

A `Cursor` gives sequential access to the operands of one logical line. A `Reading` is an action on
a cursor that may stop with a failure; the cursor keeps what was consumed before the failure.
-/

namespace Fabric

/-- A logical line of a source, with the operands that are not yet consumed. -/
structure Cursor where
  source : String
  line : LogicalLine
  remaining : List String
  deriving DecidableEq

/-- The cursor before the first operand of a line. -/
def LogicalLine.cursor (line : LogicalLine) (source : String) : Cursor :=
  { source, line, remaining := line.operands }

/-- An action on a cursor. -/
abbrev Reading := EStateM Failure Cursor

namespace Cursor

def keyword (c : Cursor) : String := c.line.keyword

/-- The fault that a problem is on the line of a cursor. -/
def fault (c : Cursor) (problem : Problem) : Fault :=
  { source := c.source, line := c.line.number, keyword := c.keyword, problem }

/-- Stops with a problem of the line. -/
def fail {α : Type} (problem : Problem) : Reading α := fun c =>
  .error (Failure.ofFault (c.fault problem)) c

/-- The next operand, which stays unconsumed. -/
def peek : Reading (Option String) := fun c => .ok c.remaining.head? c

/-- Consumes the next operand, which `what` names in the message if there is none. -/
def take (what : String) : Reading String := fun c =>
  match c.remaining with
  | token :: rest => .ok token { c with remaining := rest }
  | [] => fail (.missingValue what) c

/-- Consumes all operands that are left. -/
def skipRest : Reading Unit := fun c => .ok () { c with remaining := [] }

/-- Requires that no operand is left. -/
def expectEnd : Reading Unit := fun c =>
  if c.remaining.isEmpty then .ok () c else fail (.trailingTokens c.remaining) c

/-- The keyword of the line. -/
def getKeyword : Reading String := fun c => .ok c.keyword c

/-- The operands that are left, which stay unconsumed. -/
def getRemaining : Reading (List String) := fun c => .ok c.remaining c

end Cursor

end Fabric
