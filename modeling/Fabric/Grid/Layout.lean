import Fabric.Grid.Sizing
import Fabric.Grid.Table

/-!
# Grid layouts

The grid has `width * height` logic cells inside a ring of I/O cells; the four corners of the ring
are unusable. Cells are addressed by `x` from 0 to `width + 1` and `y` from 0 to `height + 1`. A
layout is determined by its size and by the capacity of an I/O cell, so its tables are functions of
these and hold no cells of their own.
-/

namespace Fabric

inductive CellKind where
  | illegal
  | io
  | logic
  deriving DecidableEq, Repr

namespace CellKind

def all : List CellKind := [.illegal, .io, .logic]

/-- The number by which a kind is stored. -/
def code : CellKind → Nat
  | .illegal => 0
  | .io => 1
  | .logic => 2

def name : CellKind → String
  | .illegal => "ILLEGAL"
  | .io => "IO"
  | .logic => "LOGIC"

end CellKind

/-- A table that holds one value in all its cells. -/
structure UniformTable where
  shape : List Nat
  value : Int
  deriving DecidableEq, Repr

namespace UniformTable

/-- The number of cells. -/
def cells (t : UniformTable) : Nat := t.shape.foldl (· * ·) 1

/-- The number of cells that do not hold zero. -/
def nonzeroCells (t : UniformTable) : Nat := if t.value = 0 then 0 else t.cells

end UniformTable

/-- Why an index leads to no cell. -/
inductive IndexFault where
  /-- It is outside an axis of the table. -/
  | outside (index : Int) (axis size : Nat)
  /-- It is not taken as an index. -/
  | noIndex
  /-- Its conversion to an index overflows. -/
  | overflow
  deriving DecidableEq, Repr

def IndexFault.message : IndexFault → String
  | .outside index axis size =>
    "index " ++ Numeral.text index ++ " is out of bounds for axis " ++ Numeral.text axis ++
      " with size " ++ Numeral.text size
  | .noIndex =>
    "only integers, slices (`:`), ellipsis (`...`), numpy.newaxis (`None`) and integer or " ++
      "boolean arrays are valid indices"
  | .overflow => NumberFault.cellOverflow.message

/-- Whether the fault is an error of the index; an overflow is one of its conversion. -/
def IndexFault.isIndexError : IndexFault → Bool
  | .overflow => false
  | .outside _ _ _ | .noIndex => true

/-- Takes an integer that fits a signed 64-bit word as an index, and no other. -/
def wordIndex (index : Int) : Except IndexFault Int :=
  let limit : Int := Nat.pow 2 63
  if -limit ≤ index ∧ index < limit then .ok index else .error .noIndex

structure GridLayout where
  width : Count
  height : Count
  ioRat : Int
  deriving DecidableEq, Repr

namespace GridLayout

/-- The number of logic columns. -/
def columns (g : GridLayout) : Nat := g.width.value.toNat

/-- The number of logic rows. -/
def rows (g : GridLayout) : Nat := g.height.value.toNat

/-- The number of I/O slots around the grid. -/
def ioSlotCount (g : GridLayout) : Int := Sizing.ioSlots g.ioRat g.width.value g.height.value

/-- The kinds of the cells. The four sides of the ring and the logic are written to a table of
unusable cells, so that the corners stay unusable. -/
def kinds (g : GridLayout) : Table CellKind :=
  let logicX : Span := ⟨1, g.columns + 1⟩
  let logicY : Span := ⟨1, g.rows + 1⟩
  (Table.full (g.columns + 2) (g.rows + 2) CellKind.illegal)
    |>.write logicX (.only 0) .io
    |>.write logicX (.only (g.rows + 1)) .io
    |>.write (.only 0) logicY .io
    |>.write (.only (g.columns + 1)) logicY .io
    |>.write logicX logicY .logic

/-- The number of cells along each axis, the ring included. -/
def shape (g : GridLayout) : List Nat := g.kinds.shape

/-- The kind of the cell at a place. -/
def cellKind (g : GridLayout) (x y : Nat) : CellKind := g.kinds.cell x y

/-- The capacity of a cell of some kind. -/
def capacityOf (g : GridLayout) : CellKind → Int
  | .illegal => 0
  | .io => g.ioRat
  | .logic => 1

/-- The capacities of the cells. -/
def capacities (g : GridLayout) : Table Int := g.kinds.map g.capacityOf

/-- The capacity of the cell at a place. -/
def capacity (g : GridLayout) (x y : Nat) : Int := g.capacities.cell x y

/-- The occupancy of the cells, which nothing has been placed on. -/
def occupancy (g : GridLayout) : UniformTable := ⟨g.capacities.shape, 0⟩

/-- The widths of the horizontal channels. -/
def chanWidthX (g : GridLayout) : UniformTable := ⟨[g.rows + 1], 0⟩

/-- The widths of the vertical channels. -/
def chanWidthY (g : GridLayout) : UniformTable := ⟨[g.columns + 1], 0⟩

/-- The number of cells of a kind, which their table need not be searched for. -/
def kindCount (g : GridLayout) : CellKind → Nat
  | .illegal => 4
  | .io => 2 * (g.columns + g.rows)
  | .logic => g.columns * g.rows

/-- How many cells have each capacity that occurs, in ascending order. -/
def capacityCounts (g : GridLayout) : List (Int × Nat) :=
  let capacities := (CellKind.all.map g.capacityOf).mergeSort (fun a b => a ≤ b)
  capacities.eraseDups.map fun capacity =>
    (capacity, ((CellKind.all.filter (g.capacityOf · = capacity)).map g.kindCount).foldr (· + ·) 0)

/-- The place that an index along an axis means; a negative index counts from the end. -/
def resolveIndex (axis size : Nat) (index : Int) : Except IndexFault Nat :=
  let place := if index < 0 then index + size else index
  if 0 ≤ place ∧ place < size then .ok place.toNat else .error (.outside index axis size)

/-- The kind of the cell at a place whose coordinates may count from the end. How an integer is
converted to an index, and which ones are refused before the table is looked at, is for `toIndex` to
say. -/
def kindAt (g : GridLayout) (toIndex : Int → Except IndexFault Int) (x y : Int) :
    Except IndexFault CellKind := do
  let x ← toIndex x
  let y ← toIndex y
  let x ← resolveIndex 0 g.kinds.sizeX x
  let y ← resolveIndex 1 g.kinds.sizeY y
  return g.cellKind x y

/-- Whether two layouts agree in size and I/O capacity, and so in every cell. -/
def sameAs (a b : GridLayout) : Bool :=
  a.width.value == b.width.value && a.height.value == b.height.value && a.ioRat == b.ioRat

end GridLayout

namespace Sizing

/-- Coordinates are stored in 16 bits with room for the ring. -/
def maxDimension : Int := 32766

/-- The largest I/O capacity that a cell of the capacity table holds is below this. -/
def cellLimit : Int := Nat.pow 2 63

/-- The error of a grid that holds a block and has one place. -/
def degenerate (width height : Count) : GridFault :=
  .error { kind := .degenerate, width := some width, height := some height
           details := "Cannot place a circuit with only one valid location for a logic block." }

/-- The error of a grid whose coordinates are too large. -/
def overflow (width height : Count) : GridFault :=
  let details : Except NumberFault String := do
    return "Width and height must be at most " ++ Numeral.text maxDimension ++ "; got " ++
      (← countText width) ++ " and " ++ (← countText height) ++ "."
  match details with
  | .ok details =>
    .error { kind := .coordinateOverflow, details, width := some width, height := some height }
  | .error fault => .number fault

/-- Sizes the grid for a circuit and lays it out. -/
def layout (s : Sizing) (ioRat : Int) : Except GridFault GridLayout := do
  let (width, height) ← s.gridSize ioRat
  if width.value = 1 ∧ height.value = 1 ∧ s.numBlocks.value ≠ 0 then throw (degenerate width height)
  if width.value > maxDimension ∨ height.value > maxDimension then throw (overflow width height)
  if ioRat < -cellLimit ∨ cellLimit ≤ ioRat then throw (.number .cellOverflow)
  return { width, height, ioRat }

end Sizing

end Fabric
