/-!
# UTF-8

Bytes are decoded as a whole or not at all. If they are no UTF-8, `Utf8.firstError` says where the
first ill-formed sequence stands and what is wrong with it: a byte that cannot start a sequence, a
byte that cannot continue one, or an end in the middle of one.

A text is encoded as a whole or not at all. What has no UTF-8 are surrogates, by which some systems
write the bytes of a file name that is no text; a `String` holds none.
-/

namespace Fabric.Text.Utf8

inductive Reason where
  | invalidStart
  | invalidContinuation
  | unexpectedEnd
  deriving DecidableEq, Repr

def Reason.text : Reason → String
  | .invalidStart => "invalid start byte"
  | .invalidContinuation => "invalid continuation byte"
  | .unexpectedEnd => "unexpected end of data"

/-- What the start of some bytes is: a well-formed sequence of a length, or an ill-formed one. -/
inductive Verdict where
  | wellFormed (length : Nat)
  | illFormed (length : Nat) (reason : Reason)
  deriving DecidableEq, Repr

def isContinuation (b : UInt8) : Bool := 0x80 ≤ b && b ≤ 0xbf

/-- The bytes that may follow a start byte: they exclude the longer forms of shorter sequences,
the surrogates and everything above the last code point. -/
def secondRange (start : UInt8) : UInt8 × UInt8 :=
  if start = 0xe0 then (0xa0, 0xbf)
  else if start = 0xed then (0x80, 0x9f)
  else if start = 0xf0 then (0x90, 0xbf)
  else if start = 0xf4 then (0x80, 0x8f)
  else (0x80, 0xbf)

/-- How many bytes a start byte announces, none if it cannot start a sequence. -/
def announced (start : UInt8) : Option Nat :=
  if start < 0x80 then some 1
  else if start < 0xc2 then none
  else if start < 0xe0 then some 2
  else if start < 0xf0 then some 3
  else if start < 0xf5 then some 4
  else none

/-- Checks the bytes after the second one of a sequence, of which `missing` are announced and
`taken` came before. -/
def checkRest (taken : Nat) : Nat → List UInt8 → Verdict
  | 0, _ => .wellFormed taken
  | _ + 1, [] => .illFormed taken .unexpectedEnd
  | missing + 1, b :: rest =>
    if isContinuation b then checkRest (taken + 1) missing rest
    else .illFormed taken .invalidContinuation

/-- What stands at the start of bytes. -/
def verdict (start : UInt8) (rest : List UInt8) : Verdict :=
  match announced start with
  | none => .illFormed 1 .invalidStart
  | some 0 | some 1 => .wellFormed 1
  | some (missing + 2) =>
    match rest with
    | [] => .illFormed 1 .unexpectedEnd
    | second :: rest =>
      let (low, high) := secondRange start
      if low ≤ second && second ≤ high then checkRest 2 missing rest
      else .illFormed 1 .invalidContinuation

/-- An ill-formed sequence and its place. -/
structure Error where
  start : Nat
  bytes : List UInt8
  reason : Reason
  deriving DecidableEq

/-- The first ill-formed sequence of bytes that stand after `position` others; the first `skip` of
them belong to a sequence already checked. -/
def firstErrorFrom (position skip : Nat) : List UInt8 → Option Error
  | [] => none
  | b :: rest =>
    match skip with
    | skip + 1 => firstErrorFrom (position + 1) skip rest
    | 0 => match verdict b rest with
      | .wellFormed length => firstErrorFrom (position + 1) (length - 1) rest
      | .illFormed length reason => some ⟨position, (b :: rest).take length, reason⟩

/-- The first ill-formed sequence. -/
def firstError (bytes : List UInt8) : Option Error := firstErrorFrom 0 0 bytes

/-- The text of an error. -/
def Error.message (e : Error) : String :=
  let last := e.start + e.bytes.length - 1
  let what := match e.bytes with
    | [b] => "byte 0x" ++ String.ofList (hex b.toNat) ++ " in position " ++ toString e.start
    | _ => "bytes in position " ++ toString e.start ++ "-" ++ toString last
  "'utf-8' codec can't decode " ++ what ++ ": " ++ e.reason.text
where
  hex (n : Nat) : List Char := [Nat.digitChar (n / 16), Nat.digitChar (n % 16)]

/-- The text that bytes encode. -/
def decode (bytes : ByteArray) : Except Error String :=
  match String.fromUTF8? bytes with
  | some text => .ok text
  | none => .error ((firstError bytes.toList).getD ⟨0, [], .unexpectedEnd⟩)

/-- How many bytes of a stream are read at a time. -/
def pieceSize : Nat := 8192

/-- Where the sequence starts that holds the byte at a place of well-formed text. -/
def sequenceStart (bytes : ByteArray) : Nat → Nat
  | 0 => 0
  | before + 1 =>
    if (bytes[before + 1]?).any isContinuation then sequenceStart bytes before else before + 1

/-- Whether a surrogate seems to be encoded at a place: that would take three bytes. -/
def startsSurrogate (bytes : ByteArray) (place : Nat) : Bool :=
  bytes[place]? == some 0xed &&
    (bytes[place + 1]?).any fun second => 0xa0 ≤ second && second ≤ 0xbf

/-- The place of the byte that shows an error; no byte shows the end. A surrogate is refused once
all its bytes are there. -/
def shownBy? (bytes : ByteArray) (e : Error) : Option Nat :=
  match e.reason with
  | .invalidStart => some e.start
  | .invalidContinuation =>
    let last := e.start + if startsSurrogate bytes e.start then 2 else e.bytes.length
    if last < bytes.size then some last else none
  | .unexpectedEnd => none

/-- From where on the decoder of a stream holds bytes when it meets an error: from the start of the
piece that shows the error, or of a sequence that the piece before it cut off. The end comes after
all pieces, so that then only a sequence without its end is held. -/
def heldFrom (bytes : ByteArray) (e : Error) : Nat :=
  match shownBy? bytes e with
  | some place =>
    let border := place / pieceSize * pieceSize
    if border < e.start then sequenceStart bytes border else e.start
  | none => e.start

/-- The text that bytes encode, read as a stream: an error is placed by counting from the first
byte that the decoder holds. -/
def decodeStream (bytes : ByteArray) : Except Error String :=
  (decode bytes).mapError fun e => { e with start := e.start - heldFrom bytes e }

/-- Surrogates next to each other, and the place of the first. They stand for no character, so they
have no bytes. -/
structure Surrogates where
  start : Nat
  codes : List Nat
  deriving DecidableEq

/-- The text of the error of surrogates. -/
def Surrogates.message (s : Surrogates) : String :=
  let last := s.start + s.codes.length - 1
  let what := match s.codes with
    | [code] =>
      "character '\\u" ++ String.ofList (Nat.toDigits 16 code) ++ "' in position " ++
        toString s.start
    | _ => "characters in position " ++ toString s.start ++ "-" ++ toString last
  "'utf-8' codec can't encode " ++ what ++ ": surrogates not allowed"

/-- The bytes of a text. None is refused, as a `String` holds no surrogates. -/
def encode (text : String) : Except Surrogates ByteArray := .ok text.toUTF8

end Fabric.Text.Utf8
