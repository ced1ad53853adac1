import Fabric.Statement.Line

/-!
# Streams of logical lines

A `Stream` reads the logical lines of one text in order and counts the physical lines it has taken.
It can be rewound, and moved to the place just after a given physical line.
-/

namespace Fabric

/-- A text with a place in it. -/
structure Stream where
  /-- The name of the text in messages. -/
  source : String
  /-- All physical lines of the text. -/
  lines : List (List Char)
  /-- The physical lines after the place. -/
  unread : List (List Char)
  /-- The number of physical lines before the place. -/
  lineNumber : Nat
  deriving DecidableEq

namespace Stream

/-- The stream at the start of a text. -/
def ofText (text : String) (source : String) : Stream :=
  let lines := Text.physicalLines text.toList
  { source, lines, unread := lines, lineNumber := 0 }

/-- The stream placed just after its first `n` physical lines. -/
def seek (s : Stream) (n : Nat) : Stream :=
  { s with unread := s.lines.drop n, lineNumber := n }

def rewind (s : Stream) : Stream := s.seek 0

def seekEnd (s : Stream) : Stream := s.seek s.lines.length

/-- Takes the next logical line; at the end there is none. -/
def next (s : Stream) : Option LogicalLine × Stream :=
  let (line?, lineNumber, unread) := LogicalLine.next? [] s.lineNumber s.unread
  (line?, { s with unread, lineNumber })

/-- The logical lines after the place. -/
def logicalLines (s : Stream) : List LogicalLine := LogicalLine.listFrom [] s.lineNumber s.unread

end Stream

end Fabric
