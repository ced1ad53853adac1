import Fabric.Binary64.Decimal
import Fabric.Binary64.Round

/-!
# Numerals of six significant digits

The brief form shown in messages and reports: the value is rounded to six significant digits, a
half to the even digit, and zeros at the end are not written.
-/

namespace Fabric.Binary64

/-- The number of significant digits of the brief form. -/
def briefDigits : Nat := 6

/-- A positive finite magnitude rounded to six significant digits. -/
def Magnitude.brief (m : Magnitude) : Decimal :=
  let exponent := pointPlace m.units - briefDigits
  let (n, d) := unitsOver m.units exponent
  ⟨roundHalfEven n d, exponent⟩

/-- The brief written form: positional from `10 ^ -4` up to below `10 ^ 6`, without a point after a
whole number. -/
def briefStyle : DecimalStyle :=
  { leastExponent := -4, exponentLimit := briefDigits, keepsPoint := false }

/-- The numeral of a value with six significant digits. -/
def briefText (x : Binary64) : String := briefStyle.write Magnitude.brief x

end Fabric.Binary64
