/-!
# Integer numerals

An integer numeral is an optional sign and one or more ASCII digits, at most `maxDigits` of them.
Reading and writing keep the same limit: a longer numeral is not read, and an integer that needs
more digits is not written. Leading zeros count towards the limit, the sign does not.
-/

namespace Fabric.Numeral

/-- The longest digit string that is converted. -/
def maxDigits : Nat := 4300

/-- The value of a string of digits in base ten. -/
def ofDigits (digits : List Char) : Nat := Nat.ofDigitChars 10 digits 0

/-- Takes an optional sign off a text; the flag says whether it was a minus. -/
def splitSign : List Char → Bool × List Char
  | '-' :: rest => (true, rest)
  | '+' :: rest => (false, rest)
  | rest => (false, rest)

/-- The integer with the given sign and absolute value. -/
def signed (negative : Bool) (n : Nat) : Int := if negative then -(n : Int) else n

/-- A digit string that may be converted. -/
def isConvertible (digits : List Char) : Bool :=
  !digits.isEmpty && digits.all Char.isDigit && digits.length ≤ maxDigits

/-- Reads an integer numeral. -/
def read? (token : String) : Option Int :=
  let (negative, digits) := splitSign token.toList
  if isConvertible digits then some (signed negative (ofDigits digits)) else none

/-- The shortest numeral of an integer, of any length. -/
def text (n : Int) : String :=
  match n with
  | .ofNat m => String.ofList (Nat.toDigits 10 m)
  | .negSucc m => String.ofList ('-' :: Nat.toDigits 10 (m + 1))

/-- Whether the numeral of an integer stays within the digit limit. -/
def isWritable (n : Int) : Bool := n.natAbs < Nat.pow 10 maxDigits

/-- The numeral of an integer, unless it would be too long. -/
def text? (n : Int) : Option String := if isWritable n then some (text n) else none

end Fabric.Numeral
