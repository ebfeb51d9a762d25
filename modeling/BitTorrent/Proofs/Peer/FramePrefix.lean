import BitTorrent.Proofs.Peer.Chunking
import BitTorrent.Proofs.Peer.MessageCodec

/-!
# The length prefix of a framed message

A message goes on the wire as its size in four big-endian bytes followed by its encoding
(`Message.encodeFrame`). The size is not measured on the encoding but computed from the
message by `expectedSize`; for every kind it is the length of the encoding, held at the
largest 32-bit number (`expectedSize_eq_min`). So the prefix always announces the length of
what follows it, held at `2^32 - 1` (`announced_encodeFrame`).

While the encoding fits that bound, the frame is exactly what a frame decoder reads: the prefix
announces the encoding, whose first byte is the id, a decoder whose limit admits it hands the
encoding out as one frame, and reading the encoding gives the message back. Past the bound the
prefix stays at `2^32 - 1` while the whole encoding is still written
(`encodeFrame_prefix_matches`), as for a bitfield of `2^32 - 1` bytes
(`oversized_bitfield_prefix_saturates`).

## Main statements

* `expectedSize_eq_min`, `announced_encodeFrame`.
* `encodeFrame_prefix_matches`.
* `oversized_bitfield_prefix_saturates`.
-/

namespace BitTorrent.Peer.Message

theorem length_encode (m : Message) : m.encode.length = m.payload.length + 1 := List.length_cons

/-- The announced size of every kind is the length of its encoding, held at `2^32 - 1`. -/
theorem expectedSize_eq_min (m : Message) : m.expectedSize = min m.encode.length sizeLimit := by
  rw [length_encode]
  -- the fixed layouts are far below the bound; the two of any length are held at it
  cases m <;> simp [expectedSize, payload, sizeLimit, Bytes.length_ofNatBE]
  all_goals omega

theorem expectedSize_le (m : Message) : m.expectedSize ≤ sizeLimit := by
  rw [expectedSize_eq_min]
  exact Nat.min_le_right _ _

/-- What the prefix can announce is below `2 ^ 32`, so it fits four bytes. -/
theorem lt_of_le_sizeLimit {n : Nat} (h : n ≤ sizeLimit) : n < 2 ^ 32 := by
  unfold sizeLimit at h
  simp only [Nat.pow_eq] at h
  omega

theorem take_encodeFrame (m : Message) : m.encodeFrame.take 4 = Bytes.ofNatBE 4 m.expectedSize :=
  List.take_left' (Bytes.length_ofNatBE 4 _)

theorem drop_encodeFrame (m : Message) : m.encodeFrame.drop 4 = m.encode :=
  List.drop_left' (Bytes.length_ofNatBE 4 _)

/-- The prefix announces the length of what follows it, held at `2^32 - 1`. -/
theorem announced_encodeFrame (m : Message) :
    Bytes.toNatBE (m.encodeFrame.take 4) = min (m.encodeFrame.drop 4).length sizeLimit := by
  have hlt : m.expectedSize < 256 ^ 4 := lt_of_le_sizeLimit (expectedSize_le m)
  rw [take_encodeFrame, Bytes.toNatBE_ofNatBE, Nat.mod_eq_of_lt hlt, drop_encodeFrame,
    expectedSize_eq_min]

/-- An encoding that fits the prefix is one frame on the wire. -/
theorem encodeFrame_eq_bytes {m : Message} (hfit : m.encode.length ≤ sizeLimit) :
    m.encodeFrame = (Frame.message m.encode).bytes := by
  rw [encodeFrame, Frame.bytes, Frame.size, Frame.body, expectedSize_eq_min,
    Nat.min_eq_left hfit]

/-- The length prefix of a framed message. A message whose encoding fits the four-byte prefix
is framed as the decoder reads it: the prefix announces exactly the bytes that follow, the first
of which is the id, so `expectedSize` is the length of the encoding. A decoder whose limit
admits that length hands out the encoding as one frame, whatever follows it, and reading the
encoding gives the message back, a bitfield when it is well formed and the piece count is its
length. A longer encoding is still written whole after the prefix, while `expectedSize` and the
prefix stay at `2^32 - 1`. -/
theorem encodeFrame_prefix_matches (m : Message) :
    (m.encode.length ≤ sizeLimit →
      Bytes.toNatBE (m.encodeFrame.take 4) = (m.encodeFrame.drop 4).length ∧
      m.expectedSize = m.encode.length ∧
      (m.encodeFrame.drop 4).head? = some m.id ∧
      (∀ (maxLen : Nat) (rest : Bytes), m.encode.length ≤ maxLen →
        ({ buffer := m.encodeFrame ++ rest, maxLen } : FrameDecoder).decode =
          (.ok (some (.message m.encode)), { buffer := rest, maxLen })) ∧
      (∀ c, (∀ b, m = .bitfield b → b.WellFormed ∧ b.len = c) → parse m.encode c = .ok m)) ∧
    (sizeLimit < m.encode.length →
      Bytes.toNatBE (m.encodeFrame.take 4) = sizeLimit ∧ m.expectedSize = sizeLimit ∧
      m.encodeFrame.drop 4 = m.encode) := by
  have hbody : (m.encodeFrame.drop 4).length = m.encode.length := by rw [drop_encodeFrame]
  refine ⟨fun hfit => ?_, fun hover => ?_⟩
  · refine ⟨?_, ?_, by rw [drop_encodeFrame]; rfl, fun maxLen rest hmax => ?_,
      fun c hc => parse_encode m c hc⟩
    · rw [announced_encodeFrame, hbody, Nat.min_eq_left hfit]
    · rw [expectedSize_eq_min, Nat.min_eq_left hfit]
    · -- an encoding has its id byte, so the frame is a message and never a keep-alive
      have hfits : (Frame.message m.encode).Fits maxLen :=
        ⟨by rw [length_encode]; omega, hmax, lt_of_le_sizeLimit hfit⟩
      exact FrameDecoder.decode_frame_append hfits (by rw [encodeFrame_eq_bytes hfit])
  · -- past the bound both the size and the prefix are held at it
    refine ⟨?_, ?_, drop_encodeFrame m⟩
    · rw [announced_encodeFrame, hbody, Nat.min_eq_right hover.le]
    · rw [expectedSize_eq_min, Nat.min_eq_right hover.le]

/-- A request for a 16 KiB block is a frame of 13 bytes that a default decoder reads whole. -/
theorem request_frame_matches :
    (request 1 0 16384).encode.length ≤ sizeLimit ∧
    Bytes.toNatBE ((request 1 0 16384).encodeFrame.take 4) =
      ((request 1 0 16384).encodeFrame.drop 4).length ∧
    (request 1 0 16384).expectedSize = (request 1 0 16384).encode.length ∧
    ({ buffer := (request 1 0 16384).encodeFrame ++ [], maxLen := defaultMaxFrame } :
      FrameDecoder).decode =
        (.ok (some (.message (request 1 0 16384).encode)), { buffer := [], maxLen := defaultMaxFrame }) :=
  have h := (encodeFrame_prefix_matches (request 1 0 16384)).1 (by decide)
  ⟨by decide, h.1, h.2.1, h.2.2.2.1 defaultMaxFrame [] (by decide)⟩

/-- A bitfield of `2^32 - 1` bytes (`8 * (2^32 - 2) + 1` pieces) is encoded in `2^32` bytes,
but its frame announces `2^32 - 1`. -/
theorem oversized_bitfield_prefix_saturates :
    Bytes.toNatBE ((bitfield (Bitfield.new 34359738353)).encodeFrame.take 4) = 4294967295 ∧
    ((bitfield (Bitfield.new 34359738353)).encodeFrame.drop 4).length = 4294967296 := by
  have hlen : (bitfield (Bitfield.new 34359738353)).encode.length = 4294967296 := by
    -- computed on lengths: the 4 GiB of bytes are never built
    simp only [length_encode, payload, Bitfield.new, List.length_replicate, Bitfield.byteCount]
  rw [announced_encodeFrame, drop_encodeFrame, hlen]
  exact ⟨by simp only [sizeLimit, Nat.pow_eq]; rfl, rfl⟩

end BitTorrent.Peer.Message
