/-!
# Tables of cells

A table has a cell at each place that is below its sizes along both axes. It is filled with one
value and then written to in rectangles, of which a later one covers those before.
-/

namespace Fabric

/-- The coordinates from a first one up to one that is no longer meant. -/
structure Span where
  first : Nat
  stop : Nat
  deriving DecidableEq, Repr

namespace Span

def only (i : Nat) : Span := ⟨i, i + 1⟩

def holds (s : Span) (i : Nat) : Bool := s.first ≤ i && i < s.stop

@[simp] theorem holds_mk {first stop i : Nat} :
    (mk first stop).holds i = true ↔ first ≤ i ∧ i < stop := by
  simp [holds]

@[simp] theorem holds_only {i j : Nat} : (only i).holds j = true ↔ j = i := by
  rw [only, holds_mk]
  omega

end Span

/-- Values at the places of two axes. -/
structure Table (α : Type) where
  sizeX : Nat
  sizeY : Nat
  cell : Nat → Nat → α

namespace Table

variable {α β : Type}

/-- A table that holds one value in all its cells. -/
def full (sizeX sizeY : Nat) (value : α) : Table α := ⟨sizeX, sizeY, fun _ _ => value⟩

/-- Writes a value to the cells of a rectangle. -/
def write (t : Table α) (xs ys : Span) (value : α) : Table α :=
  { t with cell := fun x y => if xs.holds x && ys.holds y then value else t.cell x y }

/-- Applies a function to what each cell holds. -/
def map (f : α → β) (t : Table α) : Table β := ⟨t.sizeX, t.sizeY, fun x y => f (t.cell x y)⟩

def shape (t : Table α) : List Nat := [t.sizeX, t.sizeY]

variable {sizeX sizeY x y : Nat} {a : α} {t : Table α} {xs ys : Span}

@[simp] theorem cell_full : (full sizeX sizeY a).cell x y = a := rfl

theorem cell_write : (t.write xs ys a).cell x y =
    if xs.holds x = true ∧ ys.holds y = true then a else t.cell x y := by
  simp only [write, Bool.and_eq_true]

end Table

end Fabric
