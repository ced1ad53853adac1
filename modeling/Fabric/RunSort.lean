/-!
# Sorting by runs

A sort by comparisons that may be refused. The run at the start, ascending or strictly descending,
is taken as it is or reversed, and every later element is put in by halving. With an order that
compares all elements the result is the sorted list, and equal elements keep their order; with any
other, the comparisons that are made, and so whether one is refused, follow from this rule.
-/

namespace Fabric.RunSort

variable {α ε : Type} (less : α → α → Except ε Bool)

/-- Puts an element into a list by comparing it with the middle one, after those equal to it. -/
def insert (x : α) (xs : List α) : Except ε (List α) :=
  match _h : xs.drop (xs.length / 2) with
  | [] => .ok [x]
  | middle :: after => do
    let before := xs.take (xs.length / 2)
    if ← less x middle then return (← insert x before) ++ middle :: after
    else return before ++ middle :: (← insert x after)
termination_by xs.length
decreasing_by
  · have := congrArg List.length _h
    simp only [List.length_drop, List.length_cons] at this
    simp only [List.length_take]
    omega
  · have := congrArg List.length _h
    simp only [List.length_drop, List.length_cons] at this
    omega

/-- Splits a list after the elements that go on with a run from the one before. -/
def splitRun (isDescending : Bool) (previous : α) : List α → Except ε (List α × List α)
  | [] => .ok ([], [])
  | x :: rest => do
    if (← less x previous) == isDescending then
      let (run, others) ← splitRun isDescending x rest
      return (x :: run, others)
    else return ([], x :: rest)

/-- Sorts a list. -/
def sort : List α → Except ε (List α)
  | first :: second :: rest => do
    let isDescending ← less second first
    let (run, others) ← splitRun less isDescending second rest
    let run := first :: second :: run
    others.foldlM (fun sorted x => insert less x sorted) (if isDescending then run.reverse else run)
  | xs => .ok xs

end Fabric.RunSort
