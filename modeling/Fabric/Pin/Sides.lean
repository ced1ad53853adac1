import Fabric.Vocabulary.Enums

/-!
# Sets of sides

A set of sides of the logic block, listed in the fixed order top, bottom, left, right.
-/

namespace Fabric

/-- A set of sides. -/
structure Sides where
  top : Bool := false
  bottom : Bool := false
  left : Bool := false
  right : Bool := false
  deriving DecidableEq, Repr

namespace Sides

def empty : Sides := {}

def contains (s : Sides) : Side → Bool
  | .top => s.top
  | .bottom => s.bottom
  | .left => s.left
  | .right => s.right

def insert (s : Sides) : Side → Sides
  | .top => { s with top := true }
  | .bottom => { s with bottom := true }
  | .left => { s with left := true }
  | .right => { s with right := true }

/-- The members in the fixed order. -/
def toList (s : Sides) : List Side := (Vocabulary.all (α := Side)).filter s.contains

def ofList (sides : List Side) : Sides := sides.foldl insert empty

@[simp] theorem contains_empty (x : Side) : empty.contains x = false := by cases x <;> rfl

theorem contains_insert (s : Sides) (x y : Side) :
    (s.insert x).contains y = (y == x || s.contains y) := by
  cases x <;> cases y <;> simp [insert, contains]

theorem mem_toList {s : Sides} {x : Side} : x ∈ s.toList ↔ s.contains x = true := by
  cases x <;> simp [toList, Vocabulary.all]

end Sides

end Fabric
