/-!
# Base64

Bytes written with 64 characters, each of which stands for six bits. Reading is lenient: characters
outside the alphabet are passed over, and all that follows a complete padding is left unread. What
remains must not end inside a byte, and a last group that is not full must be padded.
-/

namespace Fabric.Text.Base64

/-- The six bits that a character stands for. -/
def bits? (c : Char) : Option Nat :=
  if 'A' ≤ c && c ≤ 'Z' then some (c.toNat - 'A'.toNat)
  else if 'a' ≤ c && c ≤ 'z' then some (c.toNat - 'a'.toNat + 26)
  else if c.isDigit then some (c.toNat - '0'.toNat + 52)
  else if c == '+' then some 62
  else if c == '/' then some 63
  else none

/-- What was read of a group of four characters: how many of them, the bits that fill no byte yet,
and the padding after them. -/
structure Group where
  count : Nat := 0
  pending : Nat := 0
  padding : Nat := 0

/-- The group after six more bits, and the byte that they complete, if they do. -/
def Group.push (g : Group) (bits : Nat) : Group × Option UInt8 :=
  match g.count with
  | 0 => ({ count := 1, pending := bits }, none)
  | 1 => ({ count := 2, pending := bits % 16 }, some (UInt8.ofNat (4 * g.pending + bits / 16)))
  | 2 => ({ count := 3, pending := bits % 4 }, some (UInt8.ofNat (16 * g.pending + bits / 4)))
  | _ => ({}, some (UInt8.ofNat (64 * g.pending + bits)))

/-- Reads from within a group. -/
def decodeFrom (g : Group) : List Char → Option (List UInt8)
  | [] => if g.count = 0 then some [] else none
  | c :: rest =>
    if c = '=' then
      let padding := g.padding + 1
      if g.count < 2 then decodeFrom g rest
      else if g.count + padding ≥ 4 then some []
      else decodeFrom { g with padding } rest
    else match bits? c with
      | none => decodeFrom g rest
      | some bits =>
        let (g, byte) := g.push bits
        (decodeFrom g rest).map (byte.toList ++ ·)

/-- The bytes that a text stands for. -/
def decode? (text : List Char) : Option (List UInt8) := decodeFrom {} text

end Fabric.Text.Base64
