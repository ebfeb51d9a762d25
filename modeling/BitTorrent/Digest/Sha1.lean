import BitTorrent.Bytes.Basic

/-!
# SHA-1

The digest of FIPS 180-4 over a byte string: the message is padded with a one bit, zeros
and its bit length to whole 64-byte blocks, and each block is folded into five 32-bit words
by eighty rounds. Torrents are named by the SHA-1 of their info dictionary and pieces are
checked against SHA-1 digests.

## Main definitions

* `Sha1.pad`: the padded message, a whole number of blocks.
* `Sha1.compress`: one block folded into the state.
* `Sha1.digest`: the 20-byte digest, with `Sha1.length_digest`.
-/

namespace BitTorrent

namespace Sha1

/-- Left rotation of a word by `n` bits, `0 < n < 32`. -/
def rotl (x : UInt32) (n : UInt32) : UInt32 := (x <<< n) ||| (x >>> (32 - n))

/-- The message followed by a one bit, zeros up to 56 bytes modulo 64, and its length in
bits as a 64-bit big-endian number. -/
def pad (msg : Bytes) : Bytes :=
  msg ++ [0x80] ++ List.replicate ((119 - msg.length % 64) % 64) 0 ++
    Bytes.ofNatBE 8 (msg.length * 8)

/-- A padded message cut into 64-byte blocks. -/
def blocks (b : Bytes) : List Bytes :=
  if b.length ≤ 64 then (if b.isEmpty then [] else [b])
  else b.take 64 :: blocks (b.drop 64)
termination_by b.length
decreasing_by simp; omega

/-- The sixteen big-endian words of a block. -/
def words (block : Bytes) : List UInt32 :=
  (List.range 16).map fun i => (Bytes.toNatBE ((block.drop (4 * i)).take 4)).toUInt32

/-- The eighty-word schedule: the block's words, then each next word the one-bit rotation of
the exclusive or of the words 3, 8, 14 and 16 places before it. -/
def schedule (block : Bytes) : Array UInt32 :=
  (List.range 64).foldl
    (fun w i =>
      let j := i + 16
      w.push (rotl (w[j - 3]! ^^^ w[j - 8]! ^^^ w[j - 14]! ^^^ w[j - 16]!) 1))
    (words block).toArray

/-- The round function and constant of round `i`. -/
def roundMix (i : Nat) (b c d : UInt32) : UInt32 × UInt32 :=
  if i < 20 then ((b &&& c) ||| (~~~b &&& d), 0x5A827999)
  else if i < 40 then (b ^^^ c ^^^ d, 0x6ED9EBA1)
  else if i < 60 then ((b &&& c) ||| (b &&& d) ||| (c &&& d), 0x8F1BBCDC)
  else (b ^^^ c ^^^ d, 0xCA62C1D6)

/-- The five working words. -/
structure Words where
  a : UInt32
  b : UInt32
  c : UInt32
  d : UInt32
  e : UInt32

/-- Folds one 64-byte block into the state. -/
def compress (h : Words) (block : Bytes) : Words :=
  let w := schedule block
  let v := (List.range 80).foldl
    (fun (v : Words) i =>
      let (f, k) := roundMix i v.b v.c v.d
      let t := rotl v.a 5 + f + v.e + k + w[i]!
      ⟨t, v.a, rotl v.b 30, v.c, v.d⟩)
    h
  ⟨h.a + v.a, h.b + v.b, h.c + v.c, h.d + v.d, h.e + v.e⟩

/-- The SHA-1 digest of a byte string: the five final words, big-endian. -/
def digest (msg : Bytes) : Bytes :=
  let h := (blocks (pad msg)).foldl compress
    ⟨0x67452301, 0xEFCDAB89, 0x98BADCFE, 0x10325476, 0xC3D2E1F0⟩
  [h.a, h.b, h.c, h.d, h.e].flatMap fun x => Bytes.ofNatBE 4 x.toNat

theorem length_digest (msg : Bytes) : (digest msg).length = 20 := by
  simp [digest, Bytes.length_ofNatBE]

end Sha1

end BitTorrent
