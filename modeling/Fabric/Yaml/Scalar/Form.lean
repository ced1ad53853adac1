import Fabric.Yaml.Tag
import Fabric.Yaml.TimeStamp

/-!
# The form of YAML scalars

The form of a plain scalar tells its type: a truth value, a number, a point in time, or nothing at
all; anything else is a text. Digits may be grouped by low lines, and a number may be written in
groups of base sixty, joined by colons. A line feed at the end does not count.
-/

namespace Fabric.Yaml.Scalar

def trueWords : List String := ["yes", "Yes", "YES", "true", "True", "TRUE", "on", "On", "ON"]

def falseWords : List String := ["no", "No", "NO", "false", "False", "FALSE", "off", "Off", "OFF"]

def nullWords : List String := ["~", "null", "Null", "NULL"]

/-- The characters that by themselves have no value. -/
def markWords : List String := ["!", "&", "*"]

def isGrouped (c : Char) : Bool := c.isDigit || c == '_'

/-- A digit, followed by digits and low lines. -/
def isDigitGroup : List Char → Bool
  | [] => false
  | c :: rest => c.isDigit && rest.all isGrouped

/-- A group of base sixty after the first. -/
def isSixtieth : List Char → Bool
  | [d] => d.isDigit
  | [t, d] => '0' ≤ t && t ≤ '5' && d.isDigit
  | _ => false

/-- At least one group of base sixty after the first. -/
def areSixtieths (groups : List (List Char)) : Bool := !groups.isEmpty && groups.all isSixtieth

def isHexDigit (c : Char) : Bool :=
  c.isDigit || ('a' ≤ c && c ≤ 'f') || ('A' ≤ c && c ≤ 'F')

/-- The form of an integer without its sign. -/
def isUnsignedInteger (body : List Char) : Bool :=
  match body with
  | '0' :: 'b' :: bits => !bits.isEmpty && bits.all fun c => c == '0' || c == '1' || c == '_'
  | '0' :: 'x' :: digits => !digits.isEmpty && digits.all fun c => isHexDigit c || c == '_'
  | ['0'] => true
  | '0' :: digits => digits.all fun c => ('0' ≤ c && c ≤ '7') || c == '_'
  | _ =>
    match body.splitOn ':' with
    | [digits] => isDigitGroup digits
    | first :: others => isDigitGroup first && areSixtieths others
    | [] => false

def isInteger (text : List Char) : Bool := isUnsignedInteger (Numeral.splitSign text).2

/-- Nothing, or an exponent with its sign. -/
def isExponent : List Char → Bool
  | [] => true
  | mark :: sign :: digits =>
    (mark == 'e' || mark == 'E') && (sign == '+' || sign == '-') && !digits.isEmpty &&
      digits.all Char.isDigit
  | _ => false

/-- The form of a real value, which has a point. -/
def isReal (text : List Char) : Bool :=
  let body := (Numeral.splitSign text).2
  let isSigned := body.length != text.length
  let whole := body.takeWhile (· != '.')
  match body.dropWhile (· != '.') with
  | '.' :: fraction =>
    if whole.isEmpty then
      ["inf", "Inf", "INF"].contains (String.ofList fraction) ||
        (!isSigned && (["nan", "NaN", "NAN"].contains (String.ofList fraction) ||
          (isDigitGroup (fraction.takeWhile isGrouped) &&
            isExponent (fraction.dropWhile isGrouped))))
    else
      match whole.splitOn ':' with
      | [digits] => isDigitGroup digits && isExponent (fraction.dropWhile isGrouped)
      | first :: others => isDigitGroup first && areSixtieths others && fraction.all isGrouped
      | [] => false
  | _ => false

/-- The tag that the form of a text tells, if the text is not empty. -/
def lineTag (text : String) : Tag :=
  let chars := text.toList
  if (trueWords ++ falseWords).contains text then .bool
  else if isReal chars then .real
  else if isInteger chars then .integer
  else if text = "<<" then .merge
  else if nullWords.contains text then .null
  else if TimeStamp.isPlain chars then .time
  else if text = "=" then .default
  else if markWords.contains text then .unknown
  else .string

/-- A text without the line feed at its end. -/
def withoutLineFeed (text : List Char) : List Char :=
  if text.getLast? = some '\n' then text.dropLast else text

/-- The tag that the form of a text tells; an empty text is nothing. -/
def formTag (text : String) : Tag :=
  if text.isEmpty then .null else lineTag (String.ofList (withoutLineFeed text.toList))

end Fabric.Yaml.Scalar
