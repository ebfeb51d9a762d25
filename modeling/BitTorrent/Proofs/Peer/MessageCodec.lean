import BitTorrent.Peer.Message
import BitTorrent.Proofs.BigEndian

/-!
# Reading a message accepts exactly its encoding

A peer-wire message is written as its id byte and its payload, and reading demands of each
kind its exact layout. The two directions meet: reading a byte string `d`, for a torrent of
`c` pieces, returns the message `m` exactly when `d` is the encoding of `m` and, for a
bitfield, the field has `c` bits (`Message.parse_eq_ok_iff_encode`). So every message but a
bitfield reads back from its encoding whatever the piece count, and a read message, written
again, gives back the bytes it was read from.

The bitfields in question are well formed (`Bitfield.WellFormed`): `⌈len / 8⌉` bytes with the
spare bits clear. Reading never returns another kind of bitfield, and the encoding of such a
field is refused.

## Main statements

* `Bitfield.parse_eq_ok_iff`: a payload is read as a field exactly when it is well formed.
* `Message.parse_encode`: every message reads back from its encoding.
* `Message.encode_of_parse`: a message read is the one its bytes encode.
* `Message.parse_eq_ok_iff_encode`: the two together.
-/

namespace BitTorrent

namespace Peer

namespace Bitfield

/-- A payload is read as the field of its own bytes exactly when that field is well formed. -/
theorem parse_eq_ok_iff {payload : Bytes} {len : Nat} {b : Bitfield} :
    parse payload len = .ok b ↔ b = ⟨payload, len⟩ ∧ b.WellFormed := by
  constructor
  · intro h
    unfold parse at h
    dsimp only at h
    split_ifs at h with hlen hspare
    cases h
    exact ⟨rfl, not_not.1 hlen, not_not.1 hspare⟩
  · rintro ⟨rfl, hlen, hspare⟩
    simp [parse, hlen, hspare]

end Bitfield

namespace Message

/-! ## Section 1: Words and ports written and read -/

@[simp] theorem length_word (w : UInt32) : (word w).length = 4 := Bytes.length_ofNatBE 4 _

@[simp] theorem wordAt_word_append (w : UInt32) (rest : Bytes) : wordAt (word w ++ rest) = w := by
  have hw : w.toNat < 256 ^ 4 := UInt32.toNat_lt w
  rw [wordAt, List.take_left' (length_word w), word, Bytes.toNatBE_ofNatBE, Nat.mod_eq_of_lt hw]
  exact UInt32.ofNat_toNat

@[simp] theorem wordAt_word (w : UInt32) : wordAt (word w) = w := by
  simpa using wordAt_word_append w []

@[simp] theorem drop_word_append (w : UInt32) (rest : Bytes) : (word w ++ rest).drop 4 = rest :=
  List.drop_left' (length_word w)

@[simp] theorem drop_two_words_append (w w' : UInt32) (rest : Bytes) :
    (word w ++ (word w' ++ rest)).drop 8 = rest := by
  rw [← List.append_assoc]
  exact List.drop_left' (by simp)

@[simp] theorem toUInt16_toNatBE_ofNatBE (p : UInt16) :
    (Bytes.toNatBE ((Bytes.ofNatBE 2 p.toNat).take 2)).toUInt16 = p := by
  have hp : p.toNat < 256 ^ 2 := UInt16.toNat_lt p
  rw [List.take_of_length_le (by simp [Bytes.length_ofNatBE]), Bytes.toNatBE_ofNatBE,
    Nat.mod_eq_of_lt hp]
  exact UInt16.ofNat_toNat

/-- Four bytes read as a word and written again are the same four bytes. -/
theorem word_wordAt_append_drop {b : Bytes} (h : 4 ≤ b.length) : word (wordAt b) ++ b.drop 4 = b := by
  -- four bytes hold a number below `2 ^ 32`, which the word keeps whole
  have hlt : Bytes.toNatBE (b.take 4) < 2 ^ 32 := by
    have := Bytes.toNatBE_lt (b.take 4)
    rwa [List.length_take_of_le h] at this
  have hword : word (wordAt b) = b.take 4 := by
    rw [word, wordAt, UInt32.toNat_ofNat_of_lt' hlt]
    conv => rhs; rw [← Bytes.ofNatBE_toNatBE (b.take 4)]
    rw [List.length_take_of_le h]
  rw [hword, List.take_append_drop]

theorem word_wordAt {b : Bytes} (h : b.length = 4) : word (wordAt b) = b := by
  have := word_wordAt_append_drop (b := b) (by omega)
  rwa [List.drop_eq_nil_of_le (by omega), List.append_nil] at this

/-- The two words that head a piece, read and written again. -/
theorem two_words_append_drop {b : Bytes} (h : 8 ≤ b.length) :
    word (wordAt b) ++ word (wordAt (b.drop 4)) ++ b.drop 8 = b := by
  have h4 : 4 ≤ (b.drop 4).length := by simp; omega
  calc word (wordAt b) ++ word (wordAt (b.drop 4)) ++ b.drop 8
      = word (wordAt b) ++ (word (wordAt (b.drop 4)) ++ (b.drop 4).drop 4) := by
        simp [List.drop_drop]
    _ = word (wordAt b) ++ b.drop 4 := by rw [word_wordAt_append_drop h4]
    _ = b := word_wordAt_append_drop (by omega)

/-- The three words of a request or a cancel, read and written again. -/
theorem three_words {b : Bytes} (h : b.length = 12) :
    word (wordAt b) ++ word (wordAt (b.drop 4)) ++ word (wordAt (b.drop 8)) = b := by
  have h8 : (b.drop 8).length = 4 := by simp; omega
  rw [word_wordAt h8]
  exact two_words_append_drop (by omega)

/-- Two bytes read as a port and written again. -/
theorem port_bytes {b : Bytes} (h : b.length = 2) :
    Bytes.ofNatBE 2 (Bytes.toNatBE (b.take 2)).toUInt16.toNat = b := by
  have hlt : Bytes.toNatBE (b.take 2) < 2 ^ 16 := by
    have := Bytes.toNatBE_lt (b.take 2)
    rwa [List.length_take_of_le (by omega)] at this
  rw [UInt16.toNat_ofNat_of_lt' hlt, List.take_of_length_le (by omega)]
  conv => rhs; rw [← Bytes.ofNatBE_toNatBE b]
  rw [h]

/-! ## Section 2: The two directions -/

/-- A message is written as its id byte and then its payload. -/
theorem cons_eq_encode {i : UInt8} {body : Bytes} {m : Message} (hi : i.toNat = m.id.toNat)
    (hb : body = m.payload) : i :: body = m.encode := by
  rw [encode, ← hb, UInt8.toNat_inj.mp hi]

/-- Every message reads back from its encoding; a bitfield needs to be well formed and sized
for the piece count. -/
theorem parse_encode (m : Message) (c : Nat)
    (hm : ∀ b, m = .bitfield b → b.WellFormed ∧ b.len = c) : parse m.encode c = .ok m := by
  cases m with
  | choke | unchoke | interested | notInterested => rfl
  | havePiece p => simp [parse, encode, id, payload]
  | bitfield b =>
    obtain ⟨hwf, rfl⟩ := hm b rfl
    have hlen := hwf.1
    simp [parse, encode, id, payload, hlen, Bitfield.parse_eq_ok_iff.2 ⟨rfl, hwf⟩]
    omega
  | request i b l => simp [parse, encode, id, payload]
  | piece i b block =>
    simp [parse, encode, id, payload]
    omega
  | cancel i b l => simp [parse, encode, id, payload]
  | port p => simp [parse, encode, id, payload, Bytes.length_ofNatBE]

/-- A layout of fixed length whose check passed gives back the message its bytes encode. -/
theorem encode_of_exact {p : Prop} [Decidable p] {i : UInt8} {body : Bytes} {c : Nat}
    {x m : Message} {e : PeerError}
    (h : (if p then Except.ok x else Except.error e) = Except.ok m)
    (hi : i.toNat = x.id.toNat) (hpay : p → body = x.payload) (hx : ∀ b, x ≠ .bitfield b) :
    i :: body = m.encode ∧ ∀ b, m = .bitfield b → b.WellFormed ∧ b.len = c := by
  by_cases hp : p
  · rw [if_pos hp] at h
    cases h
    exact ⟨cons_eq_encode hi (hpay hp), fun b hb => absurd hb (hx b)⟩
  · rw [if_neg hp] at h
    cases h

/-- A message read from some bytes is the message they encode, and a bitfield read is well
formed and sized for the piece count. -/
theorem encode_of_parse {d : Bytes} {c : Nat} {m : Message} (h : parse d c = .ok m) :
    d = m.encode ∧ ∀ b, m = .bitfield b → b.WellFormed ∧ b.len = c := by
  obtain _ | ⟨i, body⟩ := d
  · cases h
  unfold parse at h
  dsimp only at h
  -- the id byte picks the layout, and the layout fixes the length of the body
  split at h
  next _ hi => exact encode_of_exact h hi (fun hl => by simpa [payload] using hl) (fun _ => nofun)
  next _ hi => exact encode_of_exact h hi (fun hl => by simpa [payload] using hl) (fun _ => nofun)
  next _ hi => exact encode_of_exact h hi (fun hl => by simpa [payload] using hl) (fun _ => nofun)
  next _ hi => exact encode_of_exact h hi (fun hl => by simpa [payload] using hl) (fun _ => nofun)
  next _ hi =>
    exact encode_of_exact h hi (fun hl => (word_wordAt (by simpa using hl)).symm) (fun _ => nofun)
  next _ hi =>
    -- a bitfield: the length is checked against the piece count, then the padding
    split_ifs at h with hl
    rcases hp : Bitfield.parse body c with e | b <;> rw [hp] at h <;> cases h
    obtain ⟨rfl, hwf⟩ := Bitfield.parse_eq_ok_iff.1 hp
    exact ⟨cons_eq_encode hi rfl, fun b' hb' => by cases hb'; exact ⟨hwf, rfl⟩⟩
  next _ hi =>
    exact encode_of_exact h hi (fun hl => (three_words (by simpa using hl)).symm) (fun _ => nofun)
  next _ hi =>
    -- a piece: its block is whatever follows the two header words
    split_ifs at h with hl
    cases h
    exact ⟨cons_eq_encode hi (two_words_append_drop (by simp at hl; omega)).symm,
      fun _ hb => nomatch hb⟩
  next _ hi =>
    exact encode_of_exact h hi (fun hl => (three_words (by simpa using hl)).symm) (fun _ => nofun)
  next _ hi =>
    exact encode_of_exact h hi (fun hl => (port_bytes (by simpa using hl)).symm) (fun _ => nofun)
  next => cases h

/-- Reading accepts exactly the encodings of messages: for every message whose bitfield, if it
has one, is well formed, reading `d` for `c` pieces gives the message exactly when `d` is its
encoding and a bitfield has `c` bits. -/
theorem parse_eq_ok_iff_encode {d : Bytes} {c : Nat} {m : Message}
    (hm : ∀ b, m = .bitfield b → b.WellFormed) :
    parse d c = .ok m ↔ d = m.encode ∧ ∀ b, m = .bitfield b → b.len = c := by
  constructor
  · intro h
    obtain ⟨hd, hb⟩ := encode_of_parse h
    exact ⟨hd, fun b hmb => (hb b hmb).2⟩
  · rintro ⟨rfl, hc⟩
    exact parse_encode m c fun b hmb => ⟨hm b hmb, hc b hmb⟩

/-- The bitfield `101` of a three-piece torrent is the byte `0xA0` after the id 5. -/
theorem parse_three_bit_field : parse [5, 0xA0] 3 = .ok (.bitfield ⟨[0xA0], 3⟩) :=
  (parse_eq_ok_iff_encode fun _ hb => by cases hb; exact ⟨rfl, by decide⟩).2
    ⟨rfl, fun _ hb => by cases hb; rfl⟩

end Message

end Peer

end BitTorrent
