import Fabric.Consistency.Check

/-!
# From a text to a description

A text is read twice: the census of its pin classes sizes the tables, then the statements are loaded
into a draft. The draft is checked for the routing mode asked for and frozen. Any failure ends the
parse and nothing partial is returned.
-/

namespace Fabric

/-- Why a text is no description. -/
inductive ParseError where
  | fault (f : Fault)
  | inconsistent (r : Rejection)
  | defect (d : Defect)

def Failure.toParseError : Failure → ParseError
  | .fault f => .fault f
  | .defect d => .defect d

namespace Draft

/-- The description of a loaded draft, if the checks find no error. -/
def accept (d : Draft) (routing : Routing) : Except ParseError (Description Binary64) := do
  let issues ← (d.issues routing).mapError .defect
  if issues.any (·.isError) then
    throw (.inconsistent (.ofIssues issues (some d.source)))
  d.toDescription.mapError .defect

end Draft

namespace Stream

/-- The draft of a whole text. -/
def draft (s : Stream) : Except Failure Draft := do
  let census ← s.discover.1
  let entered := (s.load census).1
  match entered.halt with
  | some halt => .error halt.failure
  | none => return entered.draft

/-- The description that a text holds. -/
def parse (s : Stream) (routing : Routing) : Except ParseError (Description Binary64) := do
  let draft ← s.draft.mapError Failure.toParseError
  draft.accept routing

end Stream

/-- Parses a text, which `source` names in messages. -/
def parseText (text source : String) (routing : Routing) :
    Except ParseError (Description Binary64) :=
  (Stream.ofText text source).parse routing

end Fabric
