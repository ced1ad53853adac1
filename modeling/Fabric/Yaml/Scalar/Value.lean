import Fabric.Text.Base64
import Fabric.Text.Lower
import Fabric.Value.Basic
import Fabric.Yaml.Fault
import Fabric.Yaml.Scalar.Form

/-!
# The values of YAML scalars

The value of a text as a type. Numbers are read more freely than their plain form, since a tag can
ask any text to be a number: blanks may stand around the digits, and every group of base sixty may
have a sign.
-/

namespace Fabric.Yaml.Scalar

/-- A text without its low lines. -/
def ungrouped (text : List Char) : List Char := text.filter (· != '_')

/-- A number without its sign; there must be something to look at. -/
def splitNumber (text : List Char) : Except Fault (Bool × List Char) :=
  if text.isEmpty then .error .emptyNumber else .ok (Numeral.splitSign text)

/-- An integer in a radix. -/
def integer (radix : Numeral.Radix) (text : List Char) : Except Fault Int :=
  (Numeral.readInteger radix text).mapError .numeral

/-- The value of an integer after its sign: a mark or a zero before it tells the radix. -/
def unsignedValue (body : List Char) : Except Fault Int :=
  match body with
  | [] => .error .emptyNumber
  | ['0'] => .ok 0
  | '0' :: 'b' :: bits => integer .binary bits
  | '0' :: 'x' :: digits => integer .hexadecimal digits
  | '0' :: _ => integer .octal body
  | _ => do
    let groups ← (body.splitOn ':').mapM (integer .decimal)
    return groups.foldl (fun n group => 60 * n + group) 0

def integerValue (text : List Char) : Except Fault Int := do
  let (negative, body) ← splitNumber (ungrouped text)
  let n ← unsignedValue body
  return if negative then -n else n

/-- The sum of groups of base sixty, the last group first. -/
def sumSixtieths (sum : Binary64) (base : Int) : List Binary64 → Except Fault Binary64
  | [] => .ok sum
  | group :: others => do
    let weight ← (Binary64.ofInt base).mapError .number
    sumSixtieths (sum.add (group.mul weight)) (60 * base) others

/-- A real numeral. -/
def numeral (text : List Char) : Except Fault Binary64 :=
  (Numeral.readReal text).mapError .numeral

/-- A real number in lower case and without low lines, as its sign and the rest. -/
def splitReal (text : String) : Except Fault (Bool × List Char) :=
  splitNumber (Text.lower (String.ofList (ungrouped text.toList))).toList

/-- Whether a text is the word for not a number. -/
def isNanWord (text : String) : Bool :=
  match splitReal text with
  | .ok (_, body) => body = ".nan".toList
  | .error _ => false

def realValue (text : String) : Except Fault Binary64 := do
  let (negative, body) ← splitReal text
  let sign := Binary64.nearestInt (if negative then -1 else 1)
  if body = ".inf".toList then return sign.mul (.signed false .infinity)
  else if body = ".nan".toList then return .nan
  else if body.contains ':' then
    let groups ← (body.splitOn ':').mapM numeral
    return sign.mul (← sumSixtieths .zero 1 groups.reverse)
  else return sign.mul (← numeral body)

/-- A truth value, whose word may be in any case. -/
def boolValue (text : String) : Except Fault Bool :=
  let word := Text.lower text
  if trueWords.contains word then .ok true
  else if falseWords.contains word then .ok false
  else .error (.noTruthValue word)

/-- A day or a point in time. -/
def timeValue (text : String) : Except Fault Value :=
  match TimeStamp.ofText? (withoutLineFeed text.toList) with
  | none => .error .noTime
  | some t => match t.problem? with
    | some message => .error (.outsideCalendar message)
    | none => .ok (match t.clock with
      | none => .day t.day
      | some clock => .time t.day clock)

/-- Bytes; they are written in ASCII characters. -/
def binaryValue (text : String) : Except Fault Value :=
  if text.toList.any (128 ≤ ·.toNat) then .error .illFormed
  else match Text.Base64.decode? text.toList with
    | some bytes => .ok (.bytes bytes)
    | none => .error .illFormed

/-- The value of a text as a type. -/
def value (tag : Tag) (text : String) : Except Fault Value :=
  match tag with
  | .null => .ok .null
  | .bool => Value.bool <$> boolValue text
  | .integer => Value.int <$> integerValue text.toList
  | .real => Value.real <$> realValue text
  | .binary => binaryValue text
  | .time => timeValue text
  | .string => .ok (.string text)
  | .sequence | .mapping | .pairs | .set | .merge | .default | .unknown => .error .illFormed

end Fabric.Yaml.Scalar
