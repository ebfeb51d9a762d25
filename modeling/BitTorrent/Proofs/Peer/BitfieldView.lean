import BitTorrent.Proofs.Peer.MessageCodec
import Mathlib.Data.List.Basic

/-!
# Bitfields behave as lists of booleans

A bitfield packs its bits high bit first, eight to a byte. Reading the packed bytes bit by bit,
spare bits included (`rawBit`), turns each operation into a statement about single bits:
`get` reads a raw bit below `len`, `set` and `clear` change exactly the bit they name, and
`countOnes` counts every raw bit that is set. The representation rule (`WellFormed`) is then
the number of bytes together with `ZeroPadding`: no raw bit at or past `len` is set.

Every field built by the public operations keeps that rule (`Reachable.wellFormed`), and a
field that keeps it behaves as the list `toList` of its bits (`ActsAsBools`): `set` and
`clear` write one entry of the list, positions past the end read as unset, `countOnes`
counts the set entries, and the field reads back from its own bytes.

## Main statements

* `get_eq_rawBit`, `rawBit_modify_or`, `rawBit_modify_and_not`: the operations on raw bits.
* `countOnes_eq_countP`: `countOnes` counts raw bits, spare bits included.
* `wellFormed_iff`: the representation rule as zero padding.
* `Reachable.wellFormed`, `WellFormed.actsAsBools`.
* `reachable_acts_as_bools`.
-/

namespace BitTorrent.Peer.Bitfield

/-! ## Section 1: Bits of a byte -/

theorem bitMask_toBitVec (i : Nat) : (bitMask i).toBitVec = BitVec.twoPow 8 (7 - i % 8) := by
  rw [bitMask, UInt8.toBitVec_shiftLeft]
  have h : (7 - i % 8) % 8 = 7 - i % 8 := Nat.mod_eq_of_lt (by omega)
  simp [h, BitVec.twoPow_eq]

/-- Masking with the bit of position `i` tests that bit. -/
theorem and_bitMask_ne_zero (x : UInt8) (i : Nat) :
    (x &&& bitMask i != 0) = x.toBitVec.getLsbD (7 - i % 8) := by
  have hlt : 7 - i % 8 < 8 := by omega
  have nonzero : BitVec.twoPow 8 (7 - i % 8) ≠ 0#8 := by
    intro h0
    have := congrArg (fun v => v.getLsbD (7 - i % 8)) h0
    simp [hlt] at this
  rw [Bool.eq_iff_iff]
  simp only [bne_iff_ne, ne_eq, ← UInt8.toBitVec_inj, UInt8.toBitVec_and, bitMask_toBitVec,
    BitVec.and_twoPow, UInt8.toBitVec_zero]
  cases x.toBitVec.getLsbD (7 - i % 8) <;> simp [nonzero]

theorem getLsbD_or_bitMask (x : UInt8) (i j : Nat) :
    (x ||| bitMask i).toBitVec.getLsbD j = (x.toBitVec.getLsbD j || decide (j = 7 - i % 8)) := by
  have hlt : 7 - i % 8 < 8 := by omega
  simp [bitMask_toBitVec, hlt, eq_comm]

theorem getLsbD_and_not_bitMask (x : UInt8) (i : Nat) {j : Nat} (hj : j < 8) :
    (x &&& ~~~bitMask i).toBitVec.getLsbD j = (x.toBitVec.getLsbD j && !decide (j = 7 - i % 8)) := by
  simp [bitMask_toBitVec, hj]

/-- The spare-bit mask of a field whose last byte is partly used covers the low
`8 - len % 8` bits. -/
theorem getLsbD_spareMask {len : Nat} (h : len % 8 ≠ 0) (j : Nat) :
    (spareMask len).toBitVec.getLsbD j = decide (j + len % 8 < 8) := by
  have h255 : ∀ k, Nat.testBit 255 k = decide (k < 8) := Nat.testBit_two_pow_sub_one 8
  simp [spareMask, h, BitVec.getLsbD_ofNat, h255]
  omega

theorem shiftRight_and_one (x : UInt8) {i : Nat} (hi : i < 8) :
    ((x >>> i.toUInt8) &&& 1 == 1) = x.toBitVec.getLsbD i := by
  have hmod : i.toUInt8.toNat % 8 = i := by simp; omega
  have h : ((x >>> i.toUInt8) &&& 1).toNat = x.toNat / 2 ^ i % 2 := by
    rw [UInt8.toNat_and, UInt8.toNat_shiftRight, hmod, Nat.shiftRight_eq_div_pow]
    simp [Nat.and_one_is_mod]
  rw [Bool.eq_iff_iff, beq_iff_eq, ← UInt8.toNat_inj, h, BitVec.getLsbD,
    Nat.testBit_eq_decide_div_mod_eq]
  simp

/-- `popCount` counts the bits of a byte low bit first; counted high bit first they are the
same bits. -/
theorem popCount_eq_countP (x : UInt8) :
    popCount x = (List.range 8).countP fun k => x.toBitVec.getLsbD (7 - k) := by
  have hrev : (List.range 8).map (7 - ·) = (List.range 8).reverse := by decide
  have hcomp : (List.range 8).countP (fun k => x.toBitVec.getLsbD (7 - k)) =
      ((List.range 8).map (7 - ·)).countP x.toBitVec.getLsbD := by
    rw [List.countP_map]
    rfl
  rw [hcomp, hrev, List.countP_reverse, popCount, ← List.countP_eq_length_filter]
  apply List.countP_congr
  intro i hi
  simp [shiftRight_and_one x (List.mem_range.1 hi)]

/-! ## Section 2: The raw bits of packed bytes -/

/-- Bit `i` of packed bytes, high bit of the first byte first. Spare bits are read too, and a
position past the last byte reads as clear. -/
def rawBit (bytes : Bytes) (i : Nat) : Bool := (bytes.getD (i / 8) 0).toBitVec.getLsbD (7 - i % 8)

theorem rawBit_of_length_le {bytes : Bytes} {i : Nat} (h : bytes.length ≤ i / 8) :
    rawBit bytes i = false := by
  simp [rawBit, List.getD_eq_getElem?_getD, List.getElem?_eq_none h]

theorem rawBit_cons_of_lt (x : UInt8) (bytes : Bytes) {i : Nat} (h : i < 8) :
    rawBit (x :: bytes) i = x.toBitVec.getLsbD (7 - i) := by
  have h8 : i / 8 = 0 := Nat.div_eq_of_lt h
  simp [rawBit, h8, Nat.mod_eq_of_lt h]

theorem rawBit_cons_add (x : UInt8) (bytes : Bytes) (i : Nat) :
    rawBit (x :: bytes) (8 + i) = rawBit bytes i := by
  have h8 : (8 + i) / 8 = i / 8 + 1 := by omega
  simp [rawBit, h8, Nat.add_mod_left]

theorem rawBit_concat_of_div_eq {init : Bytes} {last : UInt8} {i : Nat} (h : i / 8 = init.length) :
    rawBit (init ++ [last]) i = last.toBitVec.getLsbD (7 - i % 8) := by
  simp [rawBit, h, List.getD_eq_getElem?_getD]

/-- `get` reads the raw bit below `len`, and nothing at or past it. -/
theorem get_eq_rawBit (b : Bitfield) (i : Nat) : b.get i = (decide (i < b.len) && rawBit b.bytes i) := by
  unfold get rawBit
  by_cases h : i < b.len
  · simp [h, and_bitMask_ne_zero]
  · simp [h]

/-- The byte at `i / 8` after `f` is applied to it. -/
theorem getD_modify_self {bytes : Bytes} {i : Nat} (hi : i / 8 < bytes.length) (f : UInt8 → UInt8) :
    (bytes.modify (i / 8) f).getD (i / 8) 0 = f bytes[i / 8] := by
  simp [List.getD_eq_getElem?_getD, List.getElem?_modify_eq, List.getElem?_eq_getElem hi]

/-- Or-ing the mask of position `i` into its byte sets that raw bit and no other. -/
theorem rawBit_modify_or {bytes : Bytes} {i : Nat} (hi : i / 8 < bytes.length) (j : Nat) :
    rawBit (bytes.modify (i / 8) (· ||| bitMask i)) j = (rawBit bytes j || decide (j = i)) := by
  by_cases same : i / 8 = j / 8
  · -- the same byte: positions in it differ by their offset alone
    have sameBit : 7 - j % 8 = 7 - i % 8 ↔ j = i := by omega
    rw [rawBit, rawBit, ← same, getD_modify_self hi, getLsbD_or_bitMask,
      List.getD_eq_getElem?_getD, List.getElem?_eq_getElem hi, Option.getD_some]
    simp only [sameBit]
  · have hne : j ≠ i := fun h => same (h ▸ rfl)
    simp [rawBit, List.getD_eq_getElem?_getD, List.getElem?_modify_ne _ _ same, hne]

/-- And-ing the complement of the mask of position `i` clears that raw bit and no other. -/
theorem rawBit_modify_and_not {bytes : Bytes} {i : Nat} (hi : i / 8 < bytes.length) (j : Nat) :
    rawBit (bytes.modify (i / 8) (· &&& ~~~bitMask i)) j = (rawBit bytes j && !decide (j = i)) := by
  by_cases same : i / 8 = j / 8
  · have sameBit : 7 - j % 8 = 7 - i % 8 ↔ j = i := by omega
    rw [rawBit, rawBit, ← same, getD_modify_self hi, getLsbD_and_not_bitMask _ _ (by omega),
      List.getD_eq_getElem?_getD, List.getElem?_eq_getElem hi, Option.getD_some]
    simp only [sameBit]
  · have hne : j ≠ i := fun h => same (h ▸ rfl)
    simp [rawBit, List.getD_eq_getElem?_getD, List.getElem?_modify_ne _ _ same, hne]

/-- The number of set bits of packed bytes counts every raw bit, spare bits included. -/
theorem sum_popCount_eq_countP (bytes : Bytes) :
    (bytes.map popCount).foldr (· + ·) 0 = (List.range (8 * bytes.length)).countP (rawBit bytes) := by
  induction bytes with
  | nil => rfl
  | cons x bytes ih =>
    -- the first byte holds raw bits 0 to 7, the rest follow eight places on
    have hsplit : List.range (8 * (x :: bytes).length) =
        List.range 8 ++ (List.range (8 * bytes.length)).map (8 + ·) := by
      rw [List.length_cons, Nat.mul_succ, Nat.add_comm, List.range_add]
    have hfirst : (List.range 8).countP (rawBit (x :: bytes)) = popCount x := by
      rw [popCount_eq_countP]
      exact List.countP_congr fun k hk => by rw [rawBit_cons_of_lt x bytes (List.mem_range.1 hk)]
    have hrest : ((List.range (8 * bytes.length)).map (8 + ·)).countP (rawBit (x :: bytes)) =
        (List.range (8 * bytes.length)).countP (rawBit bytes) := by
      rw [List.countP_map]
      exact List.countP_congr fun k _ => by simp [rawBit_cons_add]
    rw [List.map_cons, List.foldr_cons, ih, hsplit, List.countP_append, hfirst, hrest]

theorem countOnes_eq_countP (b : Bitfield) :
    b.countOnes = (List.range (8 * b.bytes.length)).countP (rawBit b.bytes) :=
  sum_popCount_eq_countP b.bytes

/-! ## Section 3: The representation rule -/

/-- No raw bit at or past position `len` is set: the spare bits of the last byte are clear. -/
def ZeroPadding (b : Bitfield) : Prop := ∀ i, b.len ≤ i → rawBit b.bytes i = false

/-- A byte and the spare-bit mask of a field whose last byte is partly used share no bit
exactly when the bits of the byte from offset `len % 8` on are clear. -/
theorem and_spareMask_eq_zero_iff (x : UInt8) {len : Nat} (h : len % 8 ≠ 0) :
    x &&& spareMask len = 0 ↔ ∀ k, len % 8 ≤ k → k < 8 → x.toBitVec.getLsbD (7 - k) = false := by
  rw [← UInt8.toBitVec_inj, UInt8.toBitVec_and, UInt8.toBitVec_zero]
  constructor
  · intro hz k hk hk8
    have := congrArg (fun v => v.getLsbD (7 - k)) hz
    simp only [BitVec.getLsbD_and, getLsbD_spareMask h, BitVec.getLsbD_zero] at this
    simpa [show 7 - k + len % 8 < 8 by omega] using this
  · intro hk
    apply BitVec.eq_of_getLsbD_eq
    intro j hj
    simp only [BitVec.getLsbD_and, getLsbD_spareMask h, BitVec.getLsbD_zero]
    by_cases hin : j + len % 8 < 8
    · have := hk (7 - j) (by omega) (by omega)
      rw [show 7 - (7 - j) = j by omega] at this
      simp [this]
    · simp [hin]

/-- With the right number of bytes, the spare bits are clear exactly when no raw bit at or
past `len` is set. -/
theorem spareBits_eq_zero_iff {b : Bitfield} (hlen : b.bytes.length = byteCount b.len) :
    b.spareBits = 0 ↔ b.ZeroPadding := by
  obtain ⟨bytes, len⟩ := b
  simp only [byteCount] at hlen
  unfold ZeroPadding
  dsimp only
  rcases List.eq_nil_or_concat bytes with rfl | ⟨init, last, rfl⟩
  · exact ⟨fun _ i _ => rawBit_of_length_le (by simp), fun _ => rfl⟩
  simp only [List.concat_eq_append, List.length_append, List.length_singleton] at hlen
  simp only [spareBits, List.getLast?_concat, List.concat_eq_append]
  by_cases hm : len % 8 = 0
  · -- a whole last byte: no spare bits, and every position past `len` is past the bytes
    simp only [spareMask, hm, if_true, UInt8.and_zero, true_iff]
    intro i hi
    exact rawBit_of_length_le (by simp; omega)
  · rw [and_spareMask_eq_zero_iff last hm]
    constructor
    · intro hk i hi
      by_cases hlast : i / 8 = init.length
      · rw [rawBit_concat_of_div_eq hlast]
        exact hk (i % 8) (by omega) (Nat.mod_lt _ (by decide))
      · exact rawBit_of_length_le (by simp; omega)
    · intro hpad k hk hk8
      have := hpad (8 * init.length + k) (by omega)
      rwa [rawBit_concat_of_div_eq (by omega), show (8 * init.length + k) % 8 = k by omega] at this

theorem wellFormed_iff {b : Bitfield} :
    b.WellFormed ↔ b.bytes.length = byteCount b.len ∧ b.ZeroPadding :=
  ⟨fun h => ⟨h.1, (spareBits_eq_zero_iff h.1).1 h.2⟩, fun h => ⟨h.1, (spareBits_eq_zero_iff h.1).2 h.2⟩⟩

/-! ## Section 4: The list of bits -/

@[simp] theorem length_toList (b : Bitfield) : b.toList.length = b.len := by simp [toList]

@[simp] theorem getElem_toList (b : Bitfield) {j : Nat} (h : j < b.toList.length) :
    b.toList[j] = b.get j := by simp [toList]

/-- Below `len`, the list of bits is the raw bits. -/
theorem getElem_toList_eq_rawBit (b : Bitfield) {j : Nat} (h : j < b.toList.length) :
    b.toList[j] = rawBit b.bytes j := by
  have hj : j < b.len := by simpa using h
  simp [get_eq_rawBit, hj]

theorem rawBit_replicate (m : Nat) (x : UInt8) (j : Nat) :
    rawBit (List.replicate m x) j = (decide (j / 8 < m) && x.toBitVec.getLsbD (7 - j % 8)) := by
  by_cases h : j / 8 < m
  · simp [rawBit, List.getD_eq_getElem?_getD, h]
  · simp [rawBit_of_length_le (show (List.replicate m x).length ≤ j / 8 by simp; omega), h]

theorem rawBit_append_of_lt {init : Bytes} (rest : Bytes) {j : Nat} (h : j / 8 < init.length) :
    rawBit (init ++ rest) j = rawBit init j := by
  simp [rawBit, List.getD_eq_getElem?_getD, List.getElem?_append_left h]

theorem getLsbD_255 {k : Nat} (hk : k < 8) : (255#8).getLsbD k = true := by
  have h255 : Nat.testBit 255 k = decide (k < 8) := Nat.testBit_two_pow_sub_one 8 k
  simp [BitVec.getLsbD_ofNat, h255, hk]

variable {b : Bitfield}

theorem WellFormed.index_lt (h : b.WellFormed) {i : Nat} (hi : i < b.len) : i / 8 < b.bytes.length := by
  rw [h.1, byteCount]
  omega

@[simp] theorem len_set (b : Bitfield) (i : Nat) : (b.set i).len = b.len := by
  unfold Bitfield.set
  split <;> rfl

@[simp] theorem len_clear (b : Bitfield) (i : Nat) : (b.clear i).len = b.len := by
  unfold Bitfield.clear
  split <;> rfl

/-! ## Section 5: Each operation keeps the rule and acts on the list -/

theorem wellFormed_set (h : b.WellFormed) (i : Nat) : (b.set i).WellFormed := by
  unfold Bitfield.set
  split
  · next hi =>
    obtain ⟨hlen, hpad⟩ := wellFormed_iff.1 h
    refine wellFormed_iff.2 ⟨by simpa using hlen, fun j hj => ?_⟩
    change b.len ≤ j at hj
    -- the bit set lies below `len`, so the padding is untouched
    rw [rawBit_modify_or (h.index_lt hi), hpad j hj]
    simp
    omega
  · exact h

theorem wellFormed_clear (h : b.WellFormed) (i : Nat) : (b.clear i).WellFormed := by
  unfold Bitfield.clear
  split
  · next hi =>
    obtain ⟨hlen, hpad⟩ := wellFormed_iff.1 h
    refine wellFormed_iff.2 ⟨by simpa using hlen, fun j hj => ?_⟩
    change b.len ≤ j at hj
    rw [rawBit_modify_and_not (h.index_lt hi), hpad j hj, Bool.false_and]
  · exact h

/-- Setting position `i` writes `true` at `i` in the list of bits; past the end it changes
nothing, as writing past the end of a list does. -/
theorem toList_set (h : b.WellFormed) (i : Nat) : (b.set i).toList = b.toList.set i true := by
  by_cases hi : i < b.len
  · apply List.ext_getElem (by simp)
    intro j h₁ h₂
    rw [getElem_toList_eq_rawBit, List.getElem_set, getElem_toList_eq_rawBit]
    simp only [Bitfield.set, hi, if_true, rawBit_modify_or (h.index_lt hi)]
    by_cases hij : i = j
    · simp [hij]
    · simp [hij, Ne.symm hij]
  · rw [Bitfield.set, if_neg hi, List.set_eq_of_length_le (by simp; omega)]

theorem toList_clear (h : b.WellFormed) (i : Nat) : (b.clear i).toList = b.toList.set i false := by
  by_cases hi : i < b.len
  · apply List.ext_getElem (by simp)
    intro j h₁ h₂
    rw [getElem_toList_eq_rawBit, List.getElem_set, getElem_toList_eq_rawBit]
    simp only [Bitfield.clear, hi, if_true, rawBit_modify_and_not (h.index_lt hi)]
    by_cases hij : i = j
    · simp [hij]
    · simp [hij, Ne.symm hij]
  · rw [Bitfield.clear, if_neg hi, List.set_eq_of_length_le (by simp; omega)]

/-- Below `len` every raw bit is a bit of the list, and past it none is set, so counting the
raw bits counts the list. -/
theorem countOnes_eq_count (h : b.WellFormed) : b.countOnes = b.toList.count true := by
  obtain ⟨hlen, hpad⟩ := wellFormed_iff.1 h
  have hsplit : List.range (8 * b.bytes.length) =
      List.range b.len ++ (List.range (8 * b.bytes.length - b.len)).map (b.len + ·) := by
    rw [← List.range_add, hlen, byteCount]
    congr 1
    omega
  have hpadding : ((List.range (8 * b.bytes.length - b.len)).map (b.len + ·)).countP
      (rawBit b.bytes) = 0 := by
    simp only [List.countP_eq_zero, List.mem_map]
    rintro _ ⟨k, -, rfl⟩
    simp [hpad (b.len + k) (Nat.le_add_right _ _)]
  have hbits : (List.range b.len).countP (rawBit b.bytes) = b.toList.count true := by
    rw [toList, List.count, List.countP_map]
    exact List.countP_congr fun j hj => by simp [get_eq_rawBit, List.mem_range.1 hj]
  rw [countOnes_eq_countP, hsplit, List.countP_append, hpadding, Nat.add_zero, hbits]

theorem isComplete_iff (h : b.WellFormed) : b.isComplete = true ↔ ∀ x ∈ b.toList, x = true := by
  rw [isComplete, beq_iff_eq, countOnes_eq_count h, ← length_toList, List.count_eq_length]
  exact forall₂_congr fun _ _ => eq_comm

theorem wellFormed_new (n : Nat) : (new n).WellFormed := by
  refine wellFormed_iff.2 ⟨by simp [new], fun j _ => ?_⟩
  simp [new, rawBit_replicate]

theorem toList_new (n : Nat) : (new n).toList = List.replicate n false := by
  apply List.ext_getElem (by simp [new])
  intro j h₁ _
  rw [getElem_toList_eq_rawBit]
  simp [new, rawBit_replicate]

/-- The bytes of a full field of `n > 0` bits: whole bytes of ones, then a last byte with its
spare bits cleared. -/
theorem bytes_full {n : Nat} (hn : 0 < n) :
    (full n).bytes = List.replicate (byteCount n - 1) 0xFF ++ [0xFF &&& ~~~(spareMask n)] := by
  have hk : byteCount n ≠ 0 := by unfold byteCount; omega
  simp [full, clearSpare, List.getLast?_replicate, hk, List.dropLast_replicate]

/-- A full field of `n` bits has exactly its first `n` raw bits set. -/
theorem rawBit_full (n j : Nat) : rawBit (full n).bytes j = decide (j < n) := by
  rcases Nat.eq_zero_or_pos n with rfl | hn
  · simp [full, clearSpare, byteCount, rawBit_of_length_le]
  rw [bytes_full hn]
  have hoff : 7 - j % 8 < 8 := by omega
  have hk : byteCount n - 1 = (n + 7) / 8 - 1 := rfl
  rcases Nat.lt_trichotomy (j / 8) (byteCount n - 1) with hlt | heq | hgt
  · -- a whole byte of ones, below `n`
    have hj : j < n := by omega
    rw [rawBit_append_of_lt _ (by simpa using hlt), rawBit_replicate]
    simp [getLsbD_255 hoff, hlt, hj]
  · -- the last byte: its bits below `n % 8` are kept, the spare ones cleared
    rw [rawBit_concat_of_div_eq (by simpa using heq)]
    by_cases hm : n % 8 = 0
    · have hj : j < n := by omega
      simp [spareMask, hm, getLsbD_255 hoff, hj]
    · simp [getLsbD_spareMask hm, getLsbD_255 hoff]
      rw [Bool.eq_iff_iff]
      simp
      omega
  · have hj : ¬j < n := by omega
    rw [rawBit_of_length_le (by simp; omega)]
    simp [hj]

@[simp] theorem len_full (n : Nat) : (full n).len = n := by
  unfold full clearSpare
  cases (List.replicate (byteCount n) (0xFF : UInt8)).getLast? <;> rfl

theorem wellFormed_full (n : Nat) : (full n).WellFormed := by
  have hlen : (full n).bytes.length = byteCount n := by
    rcases Nat.eq_zero_or_pos n with rfl | hn
    · rfl
    · rw [bytes_full hn]
      simp
      unfold byteCount
      omega
  refine wellFormed_iff.2 ⟨by rw [len_full]; exact hlen, fun j hj => ?_⟩
  rw [len_full] at hj
  simp only [rawBit_full, decide_eq_false_iff_not, Nat.not_lt]
  exact hj

theorem toList_full (n : Nat) : (full n).toList = List.replicate n true := by
  apply List.ext_getElem (by simp)
  intro j h₁ h₂
  have hj : j < n := by simpa using h₂
  rw [getElem_toList_eq_rawBit]
  simp [rawBit_full, hj]

/-- Building a field bit by bit: from a field whose list is `pre` followed by unset bits,
writing the bits `xs` at the positions after `pre` gives the list `pre ++ xs`. -/
theorem foldl_set_zipIdx {f : Bitfield → Bool × Nat → Bitfield}
    (hf : ∀ b bit i, f b (bit, i) = if bit then b.set i else b) (xs pre : List Bool) (b : Bitfield)
    (hwf : b.WellFormed) (hb : b.toList = pre ++ List.replicate xs.length false) :
    ((xs.zipIdx pre.length).foldl f b).WellFormed ∧
      ((xs.zipIdx pre.length).foldl f b).toList = pre ++ xs := by
  induction xs generalizing pre b with
  | nil =>
    simp only [List.length_nil, List.replicate_zero, List.append_nil] at hb
    simpa using And.intro hwf hb
  | cons x xs ih =>
    -- position `pre.length` is still unset, so writing `x` there makes it `x`
    have hstep : (f b (x, pre.length)).WellFormed ∧
        (f b (x, pre.length)).toList = (pre ++ [x]) ++ List.replicate xs.length false := by
      rw [hf]
      cases x
      · simpa [List.replicate_succ] using And.intro hwf hb
      · simp [wellFormed_set hwf, toList_set hwf, hb, List.replicate_succ]
    obtain ⟨hwf', hb'⟩ := hstep
    have := ih (pre ++ [x]) _ hwf' hb'
    simpa using this

theorem wellFormed_ofBools_toList (bs : List Bool) :
    (ofBools bs).WellFormed ∧ (ofBools bs).toList = bs := by
  have hnew : (new bs.length).toList = [] ++ List.replicate bs.length false := by
    simp [toList_new]
  unfold ofBools
  refine foldl_set_zipIdx ?_ bs [] (new bs.length) (wellFormed_new _) hnew
  intro b bit i
  rfl

/-! ## Section 6: Fields reachable through the public operations -/

/-- The fields a holder can obtain: from `new`, `full`, `ofBools` or a successful `parse`, then
any sequence of `set` and `clear` at any positions. -/
inductive Reachable : Bitfield → Prop
  | new (n : Nat) : Reachable (new n)
  | full (n : Nat) : Reachable (full n)
  | ofBools (bs : List Bool) : Reachable (ofBools bs)
  | parse {payload : Bytes} {n : Nat} {b : Bitfield} : parse payload n = .ok b → Reachable b
  | set {b : Bitfield} (i : Nat) : Reachable b → Reachable (b.set i)
  | clear {b : Bitfield} (i : Nat) : Reachable b → Reachable (b.clear i)

/-- Every reachable field keeps the representation rule. -/
theorem Reachable.wellFormed (h : Reachable b) : b.WellFormed := by
  induction h with
  | new n => exact wellFormed_new n
  | full n => exact wellFormed_full n
  | ofBools bs => exact (wellFormed_ofBools_toList bs).1
  | parse hp => exact (Bitfield.parse_eq_ok_iff.1 hp).2
  | set i _ ih => exact wellFormed_set ih i
  | clear i _ ih => exact wellFormed_clear ih i

/-- How a field behaves as the list of its bits: its bytes are as many as its bits need, with
the padding clear, and read back as the field; positions past the end read as unset; `set` and
`clear` keep the length and write one entry of the list; and the counts are counts of the list. -/
structure ActsAsBools (b : Bitfield) : Prop where
  length_bytes : b.bytes.length = byteCount b.len
  zeroPadding : b.ZeroPadding
  parse_bytes : parse b.bytes b.len = .ok b
  get_of_le : ∀ i, b.len ≤ i → b.get i = false
  len_set : ∀ i, (b.set i).len = b.len
  len_clear : ∀ i, (b.clear i).len = b.len
  toList_set : ∀ i, (b.set i).toList = b.toList.set i true
  toList_clear : ∀ i, (b.clear i).toList = b.toList.set i false
  countOnes_eq : b.countOnes = b.toList.count true
  isComplete_iff : b.isComplete = true ↔ ∀ x ∈ b.toList, x = true

theorem WellFormed.actsAsBools (h : b.WellFormed) : b.ActsAsBools where
  length_bytes := h.1
  zeroPadding := (wellFormed_iff.1 h).2
  parse_bytes := Bitfield.parse_eq_ok_iff.2 ⟨rfl, h⟩
  get_of_le i hi := by simp [get_eq_rawBit, Nat.not_lt.2 hi]
  len_set := len_set b
  len_clear := len_clear b
  toList_set := toList_set h
  toList_clear := toList_clear h
  countOnes_eq := countOnes_eq_count h
  isComplete_iff := isComplete_iff h

/-- Every field reachable through the public operations keeps its representation and acts as
the list of its bits, and the constructors give the lists they promise: `n` unset bits, `n` set
bits, and the given bits. -/
theorem reachable_acts_as_bools :
    (∀ b, Reachable b → ActsAsBools b) ∧
    (∀ n, (new n).toList = List.replicate n false) ∧
    (∀ n, (full n).toList = List.replicate n true) ∧
    (∀ bs, (ofBools bs).toList = bs) :=
  ⟨fun _ h => h.wellFormed.actsAsBools, toList_new, toList_full,
    fun bs => (wellFormed_ofBools_toList bs).2⟩

/-- Ten unset bits with bits 3 and 9 set afterwards: the second byte is partly used. -/
theorem ten_bits_set_twice_act_as_bools :
    Reachable (((new 10).set 3).set 9) ∧ ActsAsBools (((new 10).set 3).set 9) :=
  ⟨.set 9 (.set 3 (.new 10)), reachable_acts_as_bools.1 _ (.set 9 (.set 3 (.new 10)))⟩

example : (full 3).bytes = [0xE0] ∧ (ofBools [true, false, true]).bytes = [0xA0] := by decide

end BitTorrent.Peer.Bitfield
