import Fabric.RunSort
import Fabric.Value.Basic

/-!
# The order of fields

While a configuration is checked, its errors are kept sorted by the names of their fields, and those
that no rule of the schema accounts for are kept a second time by themselves. The name of a field
can be any scalar. Integers come before whatever they are compared with that is no integer, and so
do texts; the other types are only compared with their like. So not all names can be compared, and
an error whose place is sought among such names is refused.
-/

namespace Fabric

/-- Why two names cannot be compared. -/
inductive OrderFault where
  /-- Their types are not alike. -/
  | unlike (first second : String)
  /-- One is a day and the other a time. -/
  | dayAndTime
  /-- One clock knows its zone and the other does not. -/
  | zones
  deriving DecidableEq, Repr

def OrderFault.message : OrderFault → String
  | .unlike first second =>
    "'<' not supported between instances of '" ++ first ++ "' and '" ++ second ++ "'"
  | .dayAndTime => "can't compare datetime.datetime to datetime.date"
  | .zones => "can't compare offset-naive and offset-aware datetimes"

namespace Value

/-- Whether a name that is neither an integer nor a text comes before another. -/
def beforeOther (a b : Value) : Except OrderFault Bool :=
  match a, b with
  | .bytes s, .bytes t => .ok (s.map UInt8.toNat < t.map UInt8.toNat)
  | .day d, .day e => .ok (d.lt e)
  | .day _, .time .. | .time .., .day _ => .error .dayAndTime
  | .time d c, .time e k =>
    if c.areAlike k then .ok (instant d c < instant e k) else .error .zones
  | .real x, b => match b.number? with
    | some y => .ok ((Number.real x).lt y)
    | none => .error (.unlike a.typeName b.typeName)
  | a, b => .error (.unlike a.typeName b.typeName)

/-- Whether a name comes before another. -/
def before (a b : Value) : Except OrderFault Bool :=
  match a.toInt?, b.toInt?, a, b with
  | some n, some m, _, _ => .ok (n < m)
  | some _, none, _, _ => .ok true
  | none, _, .string s, .string t => .ok (s < t)
  | none, _, .string _, _ => .ok true
  | none, _, _, _ => a.beforeOther b

@[simp] theorem before_string (s t : String) :
    (Value.string s).before (.string t) = .ok (s < t) := rfl

end Value

/-- The names of the fields that have an error, once for each error. -/
structure FieldOrder where
  /-- All names, each with whether its error is outside of the rules of the schema. -/
  all : List (Value × Bool) := []
  /-- The names of the errors outside of the rules. -/
  unruled : List Value := []

namespace FieldOrder

/-- Sorts names of errors. -/
def sortAll (names : List (Value × Bool)) : Except OrderFault (List (Value × Bool)) :=
  RunSort.sort (fun a b => a.1.before b.1) names

/-- Adds an error of a field. -/
def add (order : FieldOrder) (name : Value) (isUnruled : Bool) : Except OrderFault FieldOrder := do
  let all ← sortAll (order.all ++ [(name, isUnruled)])
  let unruled ←
    if isUnruled then RunSort.sort Value.before (order.unruled ++ [name]) else pure order.unruled
  return { all, unruled }

/-- Whether a member of a group comes before another; the group itself, which has no name among its
members, comes first. -/
def beforeMember (a b : Option Value) : Except OrderFault Bool :=
  match a, b with
  | some a, some b => a.before b
  | a, b => .ok (a.isNone && b.isSome)

/-- Adds the errors of a mapping as one error of the field that holds it. Those outside of the rules
are sorted once more, after the group that they form. -/
def addGroup (order : FieldOrder) (name : Value) (inner : FieldOrder) :
    Except OrderFault FieldOrder := do
  let all ← sortAll (order.all ++ [(name, false)])
  let members := (inner.all.filter (·.2)).map fun (name, _) => some name
  let _ ← members.foldlM (fun sorted name => RunSort.sort beforeMember (sorted ++ [name])) [none]
  return { order with all }

end FieldOrder

end Fabric
