import BitTorrent.Peer.Message

/-!
# Framing on a byte stream

On a connection each message travels as a 4-byte big-endian length and that many bytes; a
length of zero is a keep-alive with no body. The frame decoder buffers what arrives and hands
out whole frames. A length above the decoder's limit is refused as soon as the four length
bytes are in, and the offending bytes stay buffered, so the refusal repeats.

## Main definitions

* `Frame`, `Message.encodeFrame`, `Frame.keepAliveBytes`.
* `FrameDecoder.extend`, `FrameDecoder.decode`.
-/

namespace BitTorrent

namespace Peer

/-- One unit read off the stream. -/
inductive Frame where
  | keepAlive
  /-- An unframed message body. -/
  | message (body : Bytes)
deriving DecidableEq, Repr

/-- The bytes of a keep-alive: a zero length. -/
def Frame.keepAliveBytes : Bytes := [0, 0, 0, 0]

/-- A message with its length prefix. -/
def Message.encodeFrame (m : Message) : Bytes := Bytes.ofNatBE 4 m.expectedSize ++ m.encode

/-- The default frame limit: a 16 MiB block and the 9-byte piece header. -/
def defaultMaxFrame : Nat := 16 * 1024 * 1024 + 9

/-- Bytes received and not yet handed out, and the largest frame accepted. -/
structure FrameDecoder where
  buffer : Bytes := []
  maxLen : Nat := defaultMaxFrame
deriving DecidableEq, Repr

namespace FrameDecoder

/-- Appends received bytes. -/
def extend (d : FrameDecoder) (data : Bytes) : FrameDecoder := { d with buffer := d.buffer ++ data }

/-- The number of bytes received and not yet handed out. -/
def buffered (d : FrameDecoder) : Nat := d.buffer.length

/-- The next whole frame and the decoder after it; `none` when more bytes are needed. A
refusal or a `none` leaves the decoder as it was. -/
def decode (d : FrameDecoder) : Except PeerError (Option Frame) × FrameDecoder :=
  if d.buffer.length < 4 then (.ok none, d)
  else
    let len := Bytes.toNatBE (d.buffer.take 4)
    if d.maxLen < len then (.error (.frameTooLarge len d.maxLen), d)
    else if d.buffer.length < 4 + len then (.ok none, d)
    else
      let rest := d.buffer.drop 4
      if len = 0 then (.ok (some .keepAlive), { d with buffer := rest })
      else (.ok (some (.message (rest.take len))), { d with buffer := rest.drop len })

end FrameDecoder

end Peer

end BitTorrent
