import BitTorrent.Bytes.Basic
import BitTorrent.Peer.Bitfield

/-!
# Peer-wire messages

The ten messages of the base peer protocol in their unframed form: one id byte, then a
payload whose layout the id fixes. Numbers are big-endian; `have`, `request` and `cancel`
carry 32-bit words, `port` a 16-bit one. A `bitfield` carries the packed bits and a `piece`
whatever follows its 9-byte header. Reading demands the exact layout length of every
fixed-size kind, and a bitfield sized for the torrent's piece count.

## Main definitions

* `Message`, `Message.id`, `Message.kindName`.
* `Message.encode`, `Message.expectedSize`.
* `Message.parse`: one unframed message, given the torrent's piece count.
-/

namespace BitTorrent

namespace Peer

/-- A peer-wire message without its length prefix. -/
inductive Message where
  | choke
  | unchoke
  | interested
  | notInterested
  /-- The sender has completed piece `piece`. -/
  | havePiece (piece : UInt32)
  /-- The pieces the sender has. -/
  | bitfield (bits : Bitfield)
  /-- A request for `length` bytes of piece `index` from offset `begin`. -/
  | request (index begin length : UInt32)
  /-- A block of piece `index` starting at offset `begin`. -/
  | piece (index begin : UInt32) (block : Bytes)
  /-- Withdraws a request. -/
  | cancel (index begin length : UInt32)
  /-- The sender's DHT port. -/
  | port (port : UInt16)
deriving DecidableEq, Repr

namespace Message

/-- The id byte of each kind. -/
def id : Message → UInt8
  | choke => 0
  | unchoke => 1
  | interested => 2
  | notInterested => 3
  | havePiece _ => 4
  | bitfield _ => 5
  | request .. => 6
  | piece .. => 7
  | cancel .. => 8
  | port _ => 9

/-- The name of the kind with a given id, for ids 0 to 9. -/
def nameOfId (i : UInt8) : String :=
  match i.toNat with
  | 0 => "choke"
  | 1 => "unchoke"
  | 2 => "interested"
  | 3 => "not interested"
  | 4 => "have"
  | 5 => "bitfield"
  | 6 => "request"
  | 7 => "piece"
  | 8 => "cancel"
  | _ => "port"

/-- The name of a message's kind. -/
def kindName (m : Message) : String := nameOfId m.id

/-- The largest 32-bit number; sizes stop growing there. -/
def sizeLimit : Nat := Nat.pow 2 32 - 1

/-- The encoded size, id byte included and length prefix excluded, held at `2^32 - 1`. -/
def expectedSize : Message → Nat
  | choke | unchoke | interested | notInterested => 1
  | havePiece _ => 5
  | bitfield b => min (b.bytes.length + 1) sizeLimit
  | request .. | cancel .. => 13
  | piece _ _ block => min (block.length + 9) sizeLimit
  | port _ => 3

/-- The four big-endian bytes of a word. -/
def word (w : UInt32) : Bytes := Bytes.ofNatBE 4 w.toNat

/-- The payload after the id byte. -/
def payload : Message → Bytes
  | choke | unchoke | interested | notInterested => []
  | havePiece p => word p
  | bitfield b => b.bytes
  | request i b l | cancel i b l => word i ++ word b ++ word l
  | piece i b block => word i ++ word b ++ block
  | port p => Bytes.ofNatBE 2 p.toNat

/-- The id byte followed by the payload. -/
def encode (m : Message) : Bytes := m.id :: m.payload

/-- The big-endian word at the start of some bytes. -/
def wordAt (b : Bytes) : UInt32 := (Bytes.toNatBE (b.take 4)).toUInt32

/-- Reads one unframed message. `bitCount` is the torrent's number of pieces and only
matters for bitfields. -/
def parse (data : Bytes) (bitCount : Nat) : Except PeerError Message :=
  match data with
  | [] => .error (.invalidMessage "empty message")
  | i :: body =>
    let total := data.length
    let exact (len : Nat) (m : Message) : Except PeerError Message :=
      if total = len then .ok m else .error (.invalidLength (nameOfId i) total)
    match i.toNat with
    | 0 => exact 1 choke
    | 1 => exact 1 unchoke
    | 2 => exact 1 interested
    | 3 => exact 1 notInterested
    | 4 => exact 5 (havePiece (wordAt body))
    | 5 =>
      if total = 1 + Bitfield.byteCount bitCount then
        bitfield <$> Bitfield.parse body bitCount
      else .error (.invalidLength "bitfield" total)
    | 6 => exact 13 (request (wordAt body) (wordAt (body.drop 4)) (wordAt (body.drop 8)))
    | 7 =>
      if total < 9 then .error (.invalidLength "piece" total)
      else .ok (piece (wordAt body) (wordAt (body.drop 4)) (body.drop 8))
    | 8 => exact 13 (cancel (wordAt body) (wordAt (body.drop 4)) (wordAt (body.drop 8)))
    | 9 => exact 3 (port (Bytes.toNatBE (body.take 2)).toUInt16)
    | _ => .error (.invalidMessageId i)

end Message

end Peer

end BitTorrent
