import Fabric.Statement.Scalar
import Fabric.Statement.Stream

/-!
# The census of pin classes

The pin classes of a description are not declared; they are learnt from the class numbers that the
pin statements cite. The cited numbers must be `0, 1, …, k - 1` for some `k`; the census then holds
how often each is cited.
-/

namespace Fabric

/-- How many pins each class has, by class number. -/
structure Census where
  pinsPerClass : List Nat
  deriving DecidableEq, Repr

/-- A failure, with the number of the physical line at which reading stopped. -/
structure Halt where
  failure : Failure
  lineNumber : Nat

namespace Census

def numClasses (c : Census) : Nat := c.pinsPerClass.length

def totalPins (c : Census) : Nat := c.pinsPerClass.foldr (· + ·) 0

/-- Whether a keyword opens a pin statement. -/
def isPinKeyword (keyword : String) : Bool := Field.pins.any (·.keyword == keyword)

/-- The class numbers cited by the pin statements, in order. -/
def citedClasses (source : String) : List LogicalLine → Except Halt (List Nat)
  | [] => .ok []
  | line :: rest =>
    if isPinKeyword line.keyword then
      match Scalar.classId (line.cursor source) with
      | .ok classId _ => (citedClasses source rest).map (classId :: ·)
      | .error failure _ => .error ⟨failure, line.number⟩
    else citedClasses source rest

/-- One more than the greatest cited number, zero if none is cited. -/
def classBound (cited : List Nat) : Nat := cited.foldl (fun bound c => max bound (c + 1)) 0

/-- The least number that is not cited, sought among the first numbers, one more of them than
distinct numbers are cited. -/
def leastUnused? (cited : List Nat) : Option Nat :=
  (List.range (cited.eraseDups.length + 1)).find? (!cited.contains ·)

/-- The census of cited class numbers; `lastLine` is where a gap is reported. -/
def ofCited (source : String) (lastLine : Nat) (cited : List Nat) : Except Failure Census :=
  let bound := classBound cited
  if cited.eraseDups.length = bound then
    .ok ⟨(List.range bound).map fun classId => cited.count classId⟩
  else match leastUnused? cited with
    | some missing => .error (Failure.ofFault
        { source, line := lastLine, keyword := classMarker,
          problem := .classGap missing (bound - 1) })
    | none => .error (.defect .noGapFound)

/-- The number of the last line, zero if there is none. -/
def lastLineNumber (lines : List LogicalLine) : Nat := (lines.getLast?.map (·.number)).getD 0

end Census

/-- Takes the census of a whole text. The stream is left at the end, or just after the pin statement
that could not be read. -/
def Stream.discover (s : Stream) : Except Failure Census × Stream :=
  let lines := s.rewind.logicalLines
  match Census.citedClasses s.source lines with
  | .error halt => (.error halt.failure, s.seek halt.lineNumber)
  | .ok cited => (Census.ofCited s.source (Census.lastLineNumber lines) cited, s.seekEnd)

end Fabric
