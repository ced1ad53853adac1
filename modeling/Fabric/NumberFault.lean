/-!
# Failures of arithmetic and of writing numbers

What can go wrong when a number is converted, divided, rounded, stored or written.
-/

namespace Fabric

inductive NumberFault where
  /-- An integer rounds to no finite binary64 value. -/
  | integerTooLarge
  /-- The quotient of two integers rounds to no finite binary64 value. -/
  | quotientTooLarge
  /-- The next whole number above infinity is asked for. -/
  | wholeOfInfinity
  /-- The next whole number above something that is not a number is asked for. -/
  | wholeOfNan
  | divisionByZero
  /-- An integer does not fit a signed 64-bit cell. -/
  | cellOverflow
  /-- An integer needs more digits than may be written. -/
  | tooManyDigits
  deriving DecidableEq, Repr

/-- The text shown for a failure. -/
def NumberFault.message : NumberFault → String
  | .integerTooLarge => "int too large to convert to float"
  | .quotientTooLarge => "integer division result too large for a float"
  | .wholeOfInfinity => "cannot convert float infinity to integer"
  | .wholeOfNan => "cannot convert float NaN to integer"
  | .divisionByZero => "float division by zero"
  | .cellOverflow => "Python int too large to convert to C long"
  | .tooManyDigits =>
    "Exceeds the limit (4300 digits) for integer string conversion; " ++
      "use sys.set_int_max_str_digits() to increase the limit"

end Fabric
