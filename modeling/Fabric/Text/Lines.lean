import Fabric.Text.Blank

/-!
# Lines

Three notions of a line. The *physical lines* of a description end at line feeds only; the *report
lines* of a text end at any line boundary; and a text stored in a file may end its lines with
carriage returns, which `unifyLineEnds` turns into line feeds.
-/

namespace Fabric.Text

/-- Drops a last empty line: a line end closes a line and opens none. -/
def dropEmptyLast (lines : List (List Char)) : List (List Char) :=
  if lines.getLast? = some [] then lines.dropLast else lines

/-- The parts of a text between line feeds. -/
def physicalLines (text : List Char) : List (List Char) :=
  dropEmptyLast (text.splitOn '\n')

/-- A carriage return, with the line feed that may follow it, becomes one line feed. -/
def unifyLineEnds : List Char → List Char
  | '\r' :: '\n' :: rest => '\n' :: unifyLineEnds rest
  | '\r' :: rest => '\n' :: unifyLineEnds rest
  | c :: rest => c :: unifyLineEnds rest
  | [] => []

/-- The lines of a text shown in a report: a carriage return and the line feed after it end one
line together, every other line boundary ends one by itself. -/
def reportLines (text : List Char) : List (List Char) :=
  dropEmptyLast ((unifyLineEnds text).splitOnP isLineBoundary)

end Fabric.Text
