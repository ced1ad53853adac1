import Fabric.Text.Printable

/-!
# Quoted texts

A text inside a list or a mapping is shown in quotes: single ones, or double ones if it holds a
single quote and no double quote. The quote and the backslash are escaped, and so is every character
that is not printable. Bytes are shown in the same way, after a mark.
-/

namespace Fabric.Text

/-- A hexadecimal numeral of at least the given width. -/
def hexText (width n : Nat) : List Char :=
  let digits := Nat.toDigits 16 n
  List.replicate (width - digits.length) '0' ++ digits

/-- A character inside quotes, where `isShown` says which characters stand for themselves. -/
def escape (isShown : Char → Bool) (quote c : Char) : List Char :=
  if c = quote ∨ c = '\\' then ['\\', c]
  else if c = '\n' then ['\\', 'n']
  else if c = '\r' then ['\\', 'r']
  else if c = '\t' then ['\\', 't']
  else if isShown c then [c]
  else if c.toNat < 0x100 then '\\' :: 'x' :: hexText 2 c.toNat
  else if c.toNat < 0x10000 then '\\' :: 'u' :: hexText 4 c.toNat
  else '\\' :: 'U' :: hexText 8 c.toNat

/-- Characters in quotes. -/
def enclose (isShown : Char → Bool) (chars : List Char) : List Char :=
  let quote := if chars.contains '\'' && !chars.contains '"' then '"' else '\''
  quote :: chars.flatMap (escape isShown quote) ++ [quote]

/-- A text in quotes. -/
def quoted (text : String) : String := String.ofList (enclose isPrintable text.toList)

/-- Bytes in quotes: those of visible ASCII characters are shown as these. -/
def quotedBytes (bytes : List UInt8) : String :=
  String.ofList ('b' :: enclose (fun c => ' ' ≤ c && c ≤ '~')
    (bytes.map fun byte => Char.ofNat byte.toNat))

end Fabric.Text
