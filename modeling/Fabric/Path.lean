/-!
# Paths

A path is a root with a list of names. Doubled separators and `.` are dropped when a path is read;
`..` is kept, because what it means depends on the files. Names are Unicode text: a file whose name is
no UTF-8 has no path.
-/

namespace Fabric

/-- A path: the root is empty for a relative path, and `/` or `//` for an absolute one. -/
structure Path where
  root : String
  names : List String
  deriving DecidableEq, Repr

namespace Path

/-- The root that a text begins with: exactly two separators are kept as two, any other number of
them is one. -/
def readRoot (text : List Char) : String :=
  match (text.takeWhile (· = '/')).length with
  | 0 => ""
  | 2 => "//"
  | _ => "/"

def ofString (text : String) : Path where
  root := readRoot text.toList
  names := ((text.toList.splitOn '/').map String.ofList).filter fun name =>
    name ≠ "" ∧ name ≠ "."

def isAbsolute (p : Path) : Bool := p.root ≠ ""

/-- The written form of a path; an empty relative path is `.`. -/
def text (p : Path) : String :=
  if p.names.isEmpty ∧ p.root = "" then "." else p.root ++ "/".intercalate p.names

/-- The path without its last name, if it has one. -/
def parent (p : Path) : Path := { p with names := p.names.dropLast }

/-- A path taken from another: an absolute one stands for itself. -/
def join (base p : Path) : Path :=
  if p.isAbsolute then p else { base with names := base.names ++ p.names }

end Path

end Fabric
