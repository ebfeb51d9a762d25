import BitTorrent.Bytes.Basic
import BitTorrent.Text.Utf8
import BitTorrent.Text.Quoted

/-!
# Why a buffer is not bencode

Reading fails as a whole: no partly read tree is ever returned. Each failure names its
cause, and `DecodeError.message` gives its text. A misplaced byte is shown as the character
with the byte's value as code point, quoted as a single character.
-/

namespace BitTorrent

namespace Bencode

/-- The reasons a buffer is not a bencode value. -/
inductive DecodeError where
  /-- The input ended inside a value. -/
  | unexpectedEof
  /-- An integer is empty, has leading zeros or a negative zero, or leaves 64 bits; the
  text says which (`"empty"`, `"leading zeros"`, or the digits). -/
  | invalidInteger (reason : String)
  /-- A string length is empty, has leading zeros, or leaves 64 bits. -/
  | invalidStringLength
  /-- A byte that no value may have at this position. -/
  | unexpectedChar (found : UInt8) (pos : Nat)
  /-- A dictionary holds the key twice. -/
  | duplicateKey (key : Bytes)
  /-- Under strict key order, a key that sorts before the one before it. -/
  | unsortedKeys (key : Bytes)
  /-- A complete value ends at `pos`, and bytes follow it. -/
  | trailingData (pos : Nat)
  /-- Lists and dictionaries nest deeper than allowed. -/
  | nestingTooDeep
deriving DecidableEq, Repr

namespace DecodeError

/-- The name of the cause. -/
def name : DecodeError → String
  | unexpectedEof => "UnexpectedEof"
  | invalidInteger _ => "InvalidInteger"
  | invalidStringLength => "InvalidStringLength"
  | unexpectedChar .. => "UnexpectedChar"
  | duplicateKey _ => "DuplicateKey"
  | unsortedKeys _ => "UnsortedKeys"
  | trailingData _ => "TrailingData"
  | nestingTooDeep => "NestingTooDeep"

/-- The text of the failure. -/
def message : DecodeError → String
  | unexpectedEof => "unexpected end of input"
  | invalidInteger r => "invalid integer: " ++ r
  | invalidStringLength => "invalid string length"
  | unexpectedChar b pos =>
    "unexpected character " ++ Text.quoteChar (Char.ofNat b.toNat) ++ " at offset " ++
      toString pos
  | duplicateKey k => "duplicate dictionary key: " ++ Utf8.decodeLossy k
  | unsortedKeys k => "dictionary key out of order: " ++ Utf8.decodeLossy k
  | trailingData pos => "trailing data after value at offset " ++ toString pos
  | nestingTooDeep => "nesting too deep"

end DecodeError

end Bencode

end BitTorrent
