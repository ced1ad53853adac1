import Fabric.Path
import Fabric.Report
import Fabric.Numeral

/-!
# Configuration errors

The errors of a configuration form a tree: each field has a list of entries, and an entry is a
message or the errors of a nested mapping. The tree is shown flat, one line per message, under the
names of the fields joined by dots.
-/

namespace Fabric

/-- An entry of an error tree. -/
inductive ErrorEntry where
  | message (text : String)
  | nested (fields : List (String × List ErrorEntry))

/-- The entries of each field. -/
abbrev ErrorTree := List (String × List ErrorEntry)

/-- Orders the parts of a list by name; parts of one name keep their order. -/
def sortByName {α : Type} (parts : List (String × α)) : List (String × α) :=
  parts.mergeSort fun a b => a.1 ≤ b.1

mutual

/-- The messages of an entry under the name of its field. -/
def ErrorEntry.flatten (name : String) : ErrorEntry → List (String × String)
  | .message text => [(name, text)]
  | .nested fields => (sortByName (flattenFields (name ++ ".") fields)).flatMap (·.2)

def flattenEntries (name : String) : List ErrorEntry → List (String × String)
  | [] => []
  | entry :: rest => entry.flatten name ++ flattenEntries name rest

/-- The messages of each field. -/
def flattenFields (before : String) :
    List (String × List ErrorEntry) → List (String × List (String × String))
  | [] => []
  | (key, entries) :: rest =>
    (key, flattenEntries (before ++ key) entries) :: flattenFields before rest

end

/-- The messages of a tree with the dotted names of their fields: the fields of one mapping in
ascending order, the entries of one field in their order. -/
def ErrorTree.flatten (tree : ErrorTree) : List (String × String) :=
  (sortByName (flattenFields "" tree)).flatMap (·.2)

/-- The configuration does not fit its schema. -/
structure SchemaError where
  errors : ErrorTree
  path : Path

namespace SchemaError

def message (e : SchemaError) : String :=
  let lines := e.errors.flatten.map fun (name, text) => "  - In field '" ++ name ++ "': " ++ text
  "Run configuration validation failed for file '" ++ e.path.text ++ "':\n" ++
    "\n".intercalate lines

def report (e : SchemaError) : Report :=
  let flat := e.errors.flatten
  let lines := flat.map fun (name, text) => "  - Field '" ++ name ++ "': " ++ text
  { title := "Run Configuration Schema Error"
    source := some e.path.text
    details := "The run configuration does not conform to the required schema.\n" ++
      "See details for " ++ Numeral.text flat.length ++ " issue(s) below:\n\n" ++
      "\n".intercalate lines
    suggestion := "Correct the listed fields. 'num_blocks' and 'num_pads' are required; " ++
      "'route_type' is 'global' or 'detailed'." }

end SchemaError

/-- The configuration file cannot be read. -/
structure ConfigFileError where
  details : String
  path : Path
  deriving DecidableEq

namespace ConfigFileError

def message (e : ConfigFileError) : String :=
  "Configuration error in file '" ++ e.path.text ++ "': " ++ e.details

def report (e : ConfigFileError) : Report where
  title := "Run Configuration File Error"
  source := some e.path.text
  details := e.details
  suggestion := "Ensure the file exists, has the correct read permissions, and contains a " ++
    "YAML mapping."

end ConfigFileError

end Fabric
