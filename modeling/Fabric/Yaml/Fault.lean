import Fabric.Numeral.Loose
import Fabric.NumberFault

/-!
# Faults of YAML documents

A text that is no document of the supported types is ill-formed, and nothing more is said about it.
The other faults are scalars that ask for a type and have no value of it.
-/

namespace Fabric.Yaml

/-- Why a text is no value. -/
inductive Fault where
  /-- The text is no YAML, or no single document of the supported types. -/
  | illFormed
  /-- An escape asks for a character beyond Unicode. -/
  | noCharacter (code : Nat)
  | numeral (fault : Numeral.Fault)
  | number (fault : NumberFault)
  /-- Nothing is left where a number has its sign or its first digit. -/
  | emptyNumber
  /-- The word of a truth value is neither true nor false. -/
  | noTruthValue (word : String)
  /-- The text of a time does not have its form. -/
  | noTime
  /-- A mapping stands for a time. -/
  | mappingAsTime
  /-- The numbers of a time make none; the message says why. -/
  | outsideCalendar (message : String)
  /-- A scalar is given by a mapping, and that leads back to itself. -/
  | endless
  deriving DecidableEq

/-- The first code that does not fit a signed 32-bit number. -/
def codeLimit : Nat := Nat.pow 2 31

/-- The text of a fault; there is none for a text that is ill-formed. -/
def Fault.message? : Fault → Option String
  | .illFormed => none
  | .noCharacter code =>
    some (if code < codeLimit then "chr() arg not in range(0x110000)"
      else "Python int too large to convert to C int")
  | .numeral fault => some fault.message
  | .number fault => some fault.message
  | .emptyNumber => some "string index out of range"
  | .noTruthValue word => some (Text.quoted word)
  | .noTime => some "'NoneType' object has no attribute 'groupdict'"
  | .mappingAsTime => some "expected string or bytes-like object, got 'list'"
  | .outsideCalendar message => some message
  | .endless => some "maximum recursion depth exceeded"

end Fabric.Yaml
