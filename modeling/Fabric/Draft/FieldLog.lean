/-!
# The field log

For every field the numbers of the lines that set it. Missing and repeated fields are found from
it.
-/

namespace Fabric

/-- The settings of fields with their lines, the last one first. -/
structure FieldLog (τ : Type) where
  settings : List (String × τ) := []
  deriving DecidableEq, Repr

namespace FieldLog

variable {τ : Type}

def empty : FieldLog τ := {}

/-- Notes that a line sets a field. -/
def record (log : FieldLog τ) (name : String) (line : τ) : FieldLog τ :=
  ⟨(name, line) :: log.settings⟩

/-- The lines that set a field, in the order of recording. -/
def lines (log : FieldLog τ) (name : String) : List τ :=
  ((log.settings.filter (·.1 == name)).map (·.2)).reverse

/-- How often a field is set. -/
def count (log : FieldLog τ) (name : String) : Nat := (log.lines name).length

@[simp] theorem lines_empty (name : String) : (empty : FieldLog τ).lines name = [] := rfl

theorem lines_record (log : FieldLog τ) (name other : String) (line : τ) :
    (log.record name line).lines other =
      if name = other then log.lines other ++ [line] else log.lines other := by
  by_cases h : name = other <;> simp [record, lines, h]

theorem count_record (log : FieldLog τ) (name other : String) (line : τ) :
    (log.record name line).count other = log.count other + if name = other then 1 else 0 := by
  by_cases h : name = other <;> simp [count, lines_record, h]

end FieldLog

end Fabric
