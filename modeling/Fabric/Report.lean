import Fabric.Text.Lines

/-!
# Diagnostic reports

Every failure is shown in one layout: a header with the lines that apply, the details and the
suggestion, each of their lines indented. A source, a field or an input that is empty is left out.
-/

namespace Fabric

/-- The parts of a diagnostic report. -/
structure Report where
  title : String
  source : Option String := none
  line : Option String := none
  field : Option String := none
  input : Option String := none
  details : String
  suggestion : String
  deriving DecidableEq

namespace Report

/-- A header line, if there is anything to show. -/
def headerLine (label : String) (value : Option String) : List String :=
  match value with
  | some text => if text.isEmpty then [] else [label ++ text]
  | none => []

/-- The lines of a text, indented by two blanks. -/
def indented (text : String) : List String :=
  (Text.reportLines text.toList).map fun line => "  " ++ String.ofList line

def banner : String :=
  "================ FPGA Architecture Build: Diagnostic Report ================"

def rule : String := String.ofList (List.replicate 76 '=')

/-- The text of a report. -/
def render (r : Report) : String :=
  let header :=
    ["\n", banner, "Error Type:     " ++ r.title] ++
      headerLine "Source File:    " r.source ++
      (r.line.map ("Line:           " ++ ·)).toList ++
      headerLine "Field:          " r.field ++
      headerLine "User Input:     "
        ((r.input.filter (!·.isEmpty)).map fun text => "'" ++ text ++ "'")
  let suggestion :=
    if r.suggestion.isEmpty then [] else "\nSuggestion:" :: indented r.suggestion
  "\n".intercalate (header ++ ["\nDetails:"] ++ indented r.details ++ suggestion ++ [rule])

end Report

end Fabric
