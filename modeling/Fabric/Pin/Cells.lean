import Fabric.Statement.Fault

/-!
# Checked cells

Reading and writing the cells of a fixed-size table. An index outside the table is a defect, and so
is an integer that does not fit a cell.
-/

namespace Fabric.Cells

/-- The largest integer that a cell holds. -/
def maxInteger : Nat := Nat.pow 2 63 - 1

/-- The entry of a table at an index. -/
def get {α : Type} (table : Array α) (index : Nat) : Except Defect α :=
  match table[index]? with
  | some x => .ok x
  | none => .error (.outsideTable index table.size)

/-- The table with the entry at an index replaced. -/
def put {α : Type} (table : Array α) (index : Nat) (x : α) : Except Defect (Array α) :=
  if h : index < table.size then .ok (table.set index x h)
  else .error (.outsideTable index table.size)

/-- The table with the integer cell at an index filled. -/
def fill (table : Array (Option Nat)) (index value : Nat) : Except Defect (Array (Option Nat)) :=
  if value ≤ maxInteger then put table index (some value) else .error (.number .cellOverflow)

end Fabric.Cells
