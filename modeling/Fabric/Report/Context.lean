import Fabric.Report
import Fabric.Value.Basic

/-!
# Reports from contexts

The header of a report can be given as a context, a mapping from names to values of any type. Values
that say nothing are left out: nothing is shown of a null value, and of the texts only those that
are not empty. A line is shown as soon as it is there, even if it is zero.
-/

namespace Fabric.Report

/-- The text of an entry of a context, if it is there. -/
def entryText? (context : List (String × Value)) (name : String) :
    Except NumberFault (Option String) :=
  match context.lookup name with
  | none | some .null => .ok none
  | some value => some <$> value.text

/-- The text of an entry of a context that says something. -/
def truthyText? (context : List (String × Value)) (name : String) :
    Except NumberFault (Option String) :=
  if (context.lookup name).any Value.isTruthy then entryText? context name else .ok none

/-- The report with a header given as a context. -/
def ofContext (title details suggestion : String) (context : List (String × Value)) :
    Except NumberFault Report := do
  return {
    title, details, suggestion
    source := ← truthyText? context "source_file"
    line := ← entryText? context "line_number"
    field := ← truthyText? context "field"
    input := ← truthyText? context "user_input" }

end Fabric.Report
