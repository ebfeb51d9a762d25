import BitTorrent.Bytes.Basic
import BitTorrent.Peer.Error

/-!
# Bitfields

A bitfield says which pieces a peer has: bit `i` is piece `i`, counted from the high bit of
the first byte. It occupies `⌈len / 8⌉` bytes and the spare bits after position `len` in the
last byte are zero (`Bitfield.WellFormed`). Reading and writing positions past `len` do
nothing: such a position reads as unset.

## Main definitions

* `Bitfield.new`, `Bitfield.full`, `Bitfield.ofBools`, `Bitfield.parse`.
* `Bitfield.get`, `Bitfield.set`, `Bitfield.clear`.
* `Bitfield.toList`: the bits as booleans, the view the operations are described by.
-/

namespace BitTorrent

namespace Peer

/-- A packed bit vector of `len` bits, high bit of the first byte first. -/
structure Bitfield where
  bytes : Bytes
  len : Nat
deriving DecidableEq, Repr

namespace Bitfield

/-- The number of bytes that hold `len` bits. -/
def byteCount (len : Nat) : Nat := (len + 7) / 8

/-- The mask of the bit for position `i` within its byte. -/
def bitMask (i : Nat) : UInt8 := (1 : UInt8) <<< (7 - i % 8).toUInt8

/-- The mask of the spare bits in the last byte of a field of `len` bits. -/
def spareMask (len : Nat) : UInt8 :=
  if len % 8 = 0 then 0 else (0xFF : UInt8) >>> (len % 8).toUInt8

/-- The spare bits of the last byte that are set. -/
def spareBits (b : Bitfield) : UInt8 :=
  match b.bytes.getLast? with
  | some last => last &&& spareMask b.len
  | none => 0

/-- The representation rule: `⌈len / 8⌉` bytes, spare bits clear. -/
def WellFormed (b : Bitfield) : Prop := b.bytes.length = byteCount b.len ∧ b.spareBits = 0

/-- A field of `len` unset bits. -/
def new (len : Nat) : Bitfield := ⟨List.replicate (byteCount len) 0, len⟩

/-- Clears the spare bits of the last byte. -/
def clearSpare (b : Bitfield) : Bitfield :=
  match b.bytes.getLast? with
  | some last => ⟨b.bytes.dropLast ++ [last &&& ~~~(spareMask b.len)], b.len⟩
  | none => b

/-- A field of `len` set bits. -/
def full (len : Nat) : Bitfield := clearSpare ⟨List.replicate (byteCount len) 0xFF, len⟩

/-- Whether bit `i` is set; positions past `len` read as unset. -/
def get (b : Bitfield) (i : Nat) : Bool :=
  if i < b.len then ((b.bytes.getD (i / 8) 0) &&& bitMask i) != 0 else false

/-- Sets bit `i`; positions past `len` are ignored. -/
def set (b : Bitfield) (i : Nat) : Bitfield :=
  if i < b.len then ⟨b.bytes.modify (i / 8) (· ||| bitMask i), b.len⟩ else b

/-- Clears bit `i`; positions past `len` are ignored. -/
def clear (b : Bitfield) (i : Nat) : Bitfield :=
  if i < b.len then ⟨b.bytes.modify (i / 8) (· &&& ~~~(bitMask i)), b.len⟩ else b

/-- A field holding the given bits in order. -/
def ofBools (bs : List Bool) : Bitfield :=
  (bs.zipIdx).foldl (fun b (bit, i) => if bit then b.set i else b) (new bs.length)

/-- The bits in order, as booleans. -/
def toList (b : Bitfield) : List Bool := (List.range b.len).map b.get

/-- The number of set bits in a byte. -/
def popCount (x : UInt8) : Nat := ((List.range 8).filter fun i => (x >>> i.toUInt8) &&& 1 == 1).length

/-- The number of set bits. -/
def countOnes (b : Bitfield) : Nat := (b.bytes.map popCount).foldr (· + ·) 0

/-- Whether every bit is set. -/
def isComplete (b : Bitfield) : Bool := b.countOnes == b.len

/-- Whether the field has no bits at all. -/
def isEmpty (b : Bitfield) : Bool := b.len == 0

/-- Reads a payload as a field of `len` bits: exactly `⌈len / 8⌉` bytes, spare bits clear. -/
def parse (payload : Bytes) (len : Nat) : Except PeerError Bitfield :=
  let expected := byteCount len
  if payload.length ≠ expected then
    .error (.invalidBitfield ("expected " ++ toString expected ++ " bytes for " ++ toString len ++
      " bits, got " ++ toString payload.length))
  else
    let b : Bitfield := ⟨payload, len⟩
    if b.spareBits ≠ 0 then .error (.invalidBitfield "padding bits are set") else .ok b

end Bitfield

end Peer

end BitTorrent
