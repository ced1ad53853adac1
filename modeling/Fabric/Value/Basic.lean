import Fabric.Calendar
import Fabric.Number
import Fabric.Text.Quoted

/-!
# Values of documents

The values that a configuration document, an issue or a report can hold: scalars, lists and
mappings in insertion order; a set is the list of its members. A value has two written forms: its
`text`, as it is shown by itself, and its `literal`, as it is shown inside a list or a mapping,
where texts are quoted. Writing fails if an integer is too long.
-/

namespace Fabric

inductive Value where
  | null
  | bool (b : Bool)
  | int (n : Int)
  | real (x : Binary64)
  | string (s : String)
  | bytes (b : List UInt8)
  | day (d : Day)
  | time (d : Day) (c : Clock)
  | list (items : List Value)
  | mapping (entries : List (Value × Value))
  deriving Inhabited

namespace Value

/-- The numeral of an integer, if it may be written. -/
def intText (n : Int) : Except NumberFault String :=
  match Numeral.text? n with
  | some text => .ok text
  | none => .error .tooManyDigits

def boolText (b : Bool) : String := if b then "True" else "False"

mutual

/-- How a value is shown inside a list or a mapping. -/
def literal : Value → Except NumberFault String
  | .null => .ok "None"
  | .bool b => .ok (boolText b)
  | .int n => intText n
  | .real x => .ok x.text
  | .string s => .ok (Text.quoted s)
  | .bytes b => .ok (Text.quotedBytes b)
  | .day d => .ok d.text
  | .time d c => .ok (d.text ++ " " ++ c.text)
  | .list items => do return "[" ++ ", ".intercalate (← literals items) ++ "]"
  | .mapping entries => do return "\x7b" ++ ", ".intercalate (← entryLiterals entries) ++ "\x7d"

def literals : List Value → Except NumberFault (List String)
  | [] => .ok []
  | item :: rest => do return (← literal item) :: (← literals rest)

def entryLiterals : List (Value × Value) → Except NumberFault (List String)
  | [] => .ok []
  | (key, value) :: rest => do
    let key ← literal key
    let value ← literal value
    return (key ++ ": " ++ value) :: (← entryLiterals rest)

end

/-- How a value is shown by itself. -/
def text : Value → Except NumberFault String
  | .string s => .ok s
  | value => literal value

/-- A value that is neither null, false nor zero, nor empty. -/
def isTruthy : Value → Bool
  | .null => false
  | .bool b => b
  | .int n => n != 0
  | .real x => x != Binary64.zero
  | .string s => !s.isEmpty
  | .bytes b => !b.isEmpty
  | .day _ | .time .. => true
  | .list items => !items.isEmpty
  | .mapping entries => !entries.isEmpty

/-- The integer that an integer or a truth value stands for. -/
def toInt? : Value → Option Int
  | .int n => some n
  | .bool b => some (if b then 1 else 0)
  | _ => none

/-- The number that a number or a truth value stands for. -/
def number? : Value → Option Number
  | .int n => some (.whole (.number n))
  | .bool b => some (.whole (.flag b))
  | .real x => some (.real x)
  | _ => none

/-- The name of the type of a value in messages. -/
def typeName : Value → String
  | .null => "NoneType"
  | .bool _ => "bool"
  | .int _ => "int"
  | .real _ => "float"
  | .string _ => "str"
  | .bytes _ => "bytes"
  | .day _ => "datetime.date"
  | .time .. => "datetime.datetime"
  | .list _ => "list"
  | .mapping _ => "dict"

end Value

end Fabric
