import BitTorrent.Bytes.Basic

/-!
# Hexadecimal text of byte strings

Digests, peer ids and wire messages are shown as two lower-case hex digits per byte.
Reading accepts either case, and refuses odd lengths and non-hex characters.

## Main definitions

* `Bytes.toHex`: two lower-case digits per byte.
* `Bytes.ofHex?`: the bytes a hex text denotes, if it denotes any.
-/

namespace BitTorrent

namespace Bytes

/-- The lower-case hex digit of a value below 16. -/
def hexDigit (n : Nat) : Char :=
  if n < 10 then Char.ofNat (48 + n) else Char.ofNat (87 + n)

/-- The two lower-case hex digits of one byte, high nibble first. -/
def byteHex (b : UInt8) : List Char := [hexDigit (b.toNat / 16), hexDigit (b.toNat % 16)]

/-- Two lower-case hex digits per byte. -/
def toHex (b : Bytes) : String := String.ofList (b.flatMap byteHex)

/-- The value of one hex digit of either case. -/
def hexValue? (c : Char) : Option Nat :=
  if '0' ≤ c ∧ c ≤ '9' then some (c.toNat - 48)
  else if 'a' ≤ c ∧ c ≤ 'f' then some (c.toNat - 87)
  else if 'A' ≤ c ∧ c ≤ 'F' then some (c.toNat - 55)
  else none

/-- The bytes denoted by a list of hex digits, two per byte. -/
def ofHexChars? : List Char → Option Bytes
  | [] => some []
  | [_] => none
  | h :: l :: rest => do
    let hi ← hexValue? h
    let lo ← hexValue? l
    let tail ← ofHexChars? rest
    pure ((hi * 16 + lo).toUInt8 :: tail)

/-- The bytes a hex text denotes: an even number of hex digits of either case. -/
def ofHex? (s : String) : Option Bytes := ofHexChars? s.toList

end Bytes

end BitTorrent
