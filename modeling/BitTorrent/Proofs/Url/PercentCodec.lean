import BitTorrent.Url.Percent
import BitTorrent.Proofs.Decimal

/-!
# Percent-encoding read back

What a percent-encoding library documents fixes the codec: its decoder is `unescape` on every
input, and under `queryValue` its encoder leaves alone exactly the unreserved bytes, the ones the
strict grammar reads as characters. So for every library `Percent.encode` writes each byte as
one character or as `%` and two upper-case hex digits, all of them ASCII. On bytes this is
`escapedBytes`, one to three bytes per byte, each either unreserved or `%`. Strict decoding
accepts every such text and gives back the bytes, and no delimiter of a URL (`&`, `=`, `?`,
`#`) can appear in it.

## Main definitions

* `Percent.hexByte`: the byte of an upper-case hex digit.
* `Percent.escapedBytes`: the bytes `escapeWith queryValue` writes for one byte.

## Main statements

* `Percent.escapes_queryValue`: the query set escapes exactly the bytes that are not unreserved.
* `Percent.Library.percentDecode_eq_unescape`: every library decodes as `unescape`.
* `Percent.ofString_encode`: the bytes of an encoded text.
* `Percent.decode?_encode`: decoding undoes encoding.
* `Percent.delimiter_not_mem_encode`: encoded text holds no URL delimiter.
-/

namespace BitTorrent.Percent

open Bytes

/-! ## Section 1: What a library's documentation fixes -/

/-- The query set escapes exactly the bytes that are not unreserved: removing `-._~` from the
non-alphanumeric ASCII bytes leaves what the strict grammar cannot read as a character. -/
theorem escapes_queryValue (b : UInt8) : queryValue.escapes b = !isUnreserved b := by
  have hb : b.toNat < 256 := UInt8.toNat_lt_size b
  rw [Bool.eq_iff_iff]
  simp [AsciiSet.escapes, queryValue, nonAlphanumeric, AsciiSet.remove, isUnreserved, isAlnum,
    UInt8.le_iff_toNat_le, UInt8.ext_iff]
  omega

theorem escapeWith_queryValue (b : UInt8) :
    escapeWith queryValue b = if isUnreserved b then [Char.ofNat b.toNat]
      else ['%', upperHexDigit (b.toNat / 16), upperHexDigit (b.toNat % 16)] := by
  rw [escapeWith, escapes_queryValue]
  cases isUnreserved b <;> rfl

/-- Bytes that do not open an escape with two hex digits. -/
theorem startsEscape_eq_false {b : UInt8} {rest : Bytes}
    (h : ∀ h l t, b = 37 → rest = h :: l :: t → False) : startsEscape (b :: rest) = false := by
  unfold startsEscape
  split
  · next h' l t heq =>
    obtain ⟨hb, hr⟩ := List.cons.inj heq
    exact (h h' l t hb hr).elim
  · rfl

/-- A library's decoder is `unescape`: its documented cases fix it on every input. -/
theorem Library.percentDecode_eq_unescape (L : Library) (b : Bytes) :
    L.percentDecode b = unescape b := by
  -- one case per equation of `unescape`, each a documented case of the decoder
  fun_induction unescape b with
  | case1 => exact L.percentDecode_nil
  | case2 h l rest hhex ih =>
    rw [Bool.and_eq_true] at hhex
    rw [L.percentDecode_escape h l rest hhex.1 hhex.2, ih]
  | case3 h l rest hhex ih =>
    rw [L.percentDecode_keep 37 _ (by simp [startsEscape, hhex]), ih]
  | case4 b rest hnot ih =>
    rw [L.percentDecode_keep b rest (startsEscape_eq_false hnot), ih]

section

variable (L : Library)

theorem toList_encode (b : Bytes) : (encode L b).toList = b.flatMap (escapeWith queryValue) :=
  L.toList_percentEncode queryValue b

theorem decode?_eq (s : String) :
    decode? L s = if isEncoded s then some (unescape (ofString s)) else none := by
  rw [decode?, L.percentDecode_eq_unescape]

end

/-! ## Section 2: The bytes of an encoded text -/

/-- The byte of the upper-case hex digit of `n`. -/
def hexByte (n : Nat) : UInt8 := (upperHexDigit n).toNat.toUInt8

/-- The bytes `escapeWith queryValue` writes for one byte: the byte itself if unreserved, else
`%` and its two upper-case hex digits. -/
def escapedBytes (b : UInt8) : Bytes :=
  if isUnreserved b then [b] else [37, hexByte (b.toNat / 16), hexByte (b.toNat % 16)]

theorem utf8EncodeChar_upperHexDigit {n : Nat} (h : n < 16) :
    String.utf8EncodeChar (upperHexDigit n) = [hexByte n] := by
  have key : ∀ n < 16, String.utf8EncodeChar (upperHexDigit n) = [hexByte n] := by decide
  exact key n h

theorem isHexDigit_hexByte {n : Nat} (h : n < 16) : isHexDigit (hexByte n) = true := by
  have key : ∀ n < 16, isHexDigit (hexByte n) = true := by decide
  exact key n h

theorem isUnreserved_hexByte {n : Nat} (h : n < 16) : isUnreserved (hexByte n) = true := by
  have key : ∀ n < 16, isUnreserved (hexByte n) = true := by decide
  exact key n h

theorem hexDigitValue_hexByte {n : Nat} (h : n < 16) : hexDigitValue (hexByte n) = n := by
  have key : ∀ n < 16, hexDigitValue (hexByte n) = n := by decide
  exact key n h

theorem utf8EncodeChar_ofNat {n : Nat} (h : n < 128) :
    String.utf8EncodeChar (Char.ofNat n) = [n.toUInt8] := by
  have key : ∀ n < 128, String.utf8EncodeChar (Char.ofNat n) = [n.toUInt8] := by decide
  exact key n h

/-- Unreserved bytes are ASCII, and `%` is not one of them. -/
theorem isUnreserved_bounds {b : UInt8} (h : isUnreserved b = true) :
    b.toNat < 128 ∧ b ≠ 37 := by
  simp [isUnreserved, isAlnum, UInt8.le_iff_toNat_le, UInt8.ext_iff] at h
  simp only [ne_eq, UInt8.ext_iff, UInt8.reduceToNat]
  omega

theorem escapeWith_bytes (b : UInt8) :
    (escapeWith queryValue b).flatMap String.utf8EncodeChar = escapedBytes b := by
  have hb : b.toNat < 256 := UInt8.toNat_lt_size b
  have hhi : b.toNat / 16 < 16 := by omega
  have hlo : b.toNat % 16 < 16 := by omega
  rw [escapeWith_queryValue]
  unfold escapedBytes
  split
  · -- an unreserved byte is an ASCII character, one byte long
    next hu =>
    simp [utf8EncodeChar_ofNat (isUnreserved_bounds hu).1]
  · have hpct : String.utf8EncodeChar '%' = [37] := by decide
    simp [hpct, utf8EncodeChar_upperHexDigit hhi, utf8EncodeChar_upperHexDigit hlo]

theorem ofString_encode (L : Library) (b : Bytes) :
    ofString (encode L b) = b.flatMap escapedBytes := by
  rw [← String.ofList_toList (s := encode L b), toList_encode]
  simp [ofString_ofList, List.flatMap_assoc, escapeWith_bytes]

/-! ## Section 3: Decoding undoes encoding -/

/-- `unescape` keeps a byte other than `%` and goes on after it. -/
theorem unescape_cons {b : UInt8} (h : b ≠ 37) (rest : Bytes) :
    unescape (b :: rest) = b :: unescape rest := by
  match rest with
  | [] => simp [unescape]
  | [_] => simp [unescape]
  | _ :: _ :: _ => simp [unescape, h]

theorem isEncodedBytes_escaped (b : UInt8) (rest : Bytes) :
    isEncodedBytes (escapedBytes b ++ rest) = isEncodedBytes rest := by
  have hb : b.toNat < 256 := UInt8.toNat_lt_size b
  unfold escapedBytes
  split
  · next hu =>
    simp [isEncodedBytes, (isUnreserved_bounds hu).2, hu]
  · simp [isEncodedBytes, isHexDigit_hexByte (show b.toNat / 16 < 16 by omega),
      isHexDigit_hexByte (show b.toNat % 16 < 16 by omega)]

theorem unescape_escaped (b : UInt8) (rest : Bytes) :
    unescape (escapedBytes b ++ rest) = b :: unescape rest := by
  have hb : b.toNat < 256 := UInt8.toNat_lt_size b
  have hhi : b.toNat / 16 < 16 := by omega
  have hlo : b.toNat % 16 < 16 := by omega
  unfold escapedBytes
  split
  · next hu => exact unescape_cons (isUnreserved_bounds hu).2 rest
  · -- the two digits give back the byte's value
    have hval : (b.toNat / 16 * 16 + b.toNat % 16).toUInt8 = b := by
      rw [Nat.div_add_mod']
      exact UInt8.ofNat_toNat
    simp [unescape, isHexDigit_hexByte hhi, isHexDigit_hexByte hlo, hexDigitValue_hexByte hhi,
      hexDigitValue_hexByte hlo, hval]

theorem isEncodedBytes_flatMap (bs rest : Bytes) :
    isEncodedBytes (bs.flatMap escapedBytes ++ rest) = isEncodedBytes rest := by
  induction bs with
  | nil => rfl
  | cons b bs ih => rw [List.flatMap_cons, List.append_assoc, isEncodedBytes_escaped, ih]

theorem unescape_flatMap (bs rest : Bytes) :
    unescape (bs.flatMap escapedBytes ++ rest) = bs ++ unescape rest := by
  induction bs with
  | nil => rfl
  | cons b bs ih =>
    rw [List.flatMap_cons, List.append_assoc, unescape_escaped, ih, List.cons_append]

/-- Percent-encoding is undone by strict decoding: every byte string comes back. -/
theorem decode?_encode (L : Library) (b : Bytes) : decode? L (encode L b) = some b := by
  have henc : ofString (encode L b) = b.flatMap escapedBytes ++ [] := by
    rw [ofString_encode, List.append_nil]
  have hvalid : isEncoded (encode L b) = true := by
    rw [isEncoded, henc, isEncodedBytes_flatMap]
    rfl
  rw [decode?_eq, if_pos hvalid, henc, unescape_flatMap]
  simp [unescape]

example : decode? .reference (encode .reference [0, 37, 65, 255]) = some [0, 37, 65, 255] := by
  decide +kernel

/-! ## Section 4: No delimiter in an encoded text -/

theorem mem_escapedBytes {b x : UInt8} (h : x ∈ escapedBytes b) :
    isUnreserved x = true ∨ x = 37 := by
  have hb : b.toNat < 256 := UInt8.toNat_lt_size b
  unfold escapedBytes at h
  split at h
  · next hu =>
    rw [List.mem_singleton] at h
    exact .inl (h ▸ hu)
  · simp only [List.mem_cons, List.not_mem_nil, or_false] at h
    rcases h with h | h | h
    · exact .inr h
    · exact .inl (h ▸ isUnreserved_hexByte (by omega))
    · exact .inl (h ▸ isUnreserved_hexByte (by omega))

/-- An ASCII character of a text is one byte of it. -/
theorem mem_ofString_of_ascii {s : String} {c : Char} (hc : c ∈ s.toList) (h : c.val < 128) :
    c.val.toUInt8 ∈ ofString s := by
  have hsize : c.utf8Size = 1 := by
    rw [Char.utf8Size_eq_one_iff]
    rw [UInt32.lt_iff_toNat_lt] at h
    rw [UInt32.le_iff_toNat_le]
    simpa using Nat.le_of_lt_succ h
  rw [← String.ofList_toList (s := s), ofString_ofList, List.mem_flatMap]
  exact ⟨c, hc, by simp [String.utf8EncodeChar_eq_singleton hsize]⟩

/-- Percent-encoded text holds only unreserved characters and `%`, so none of the delimiters
`&`, `=`, `?` and `#` of a URL. -/
theorem delimiter_not_mem_encode (L : Library) (b : Bytes) {c : Char}
    (hc : c ∈ ['&', '=', '?', '#']) : c ∉ (encode L b).toList := by
  -- each delimiter is an ASCII byte that is neither unreserved nor `%`
  have hdelim : c.val < 128 ∧ isUnreserved c.val.toUInt8 = false ∧ c.val.toUInt8 ≠ 37 := by
    simp only [List.mem_cons, List.not_mem_nil, or_false] at hc
    rcases hc with rfl | rfl | rfl | rfl <;> decide
  obtain ⟨hascii, hres, hpct⟩ := hdelim
  intro hmem
  have hbyte := mem_ofString_of_ascii hmem hascii
  rw [ofString_encode, List.mem_flatMap] at hbyte
  obtain ⟨x, -, hx⟩ := hbyte
  rcases mem_escapedBytes hx with hu | h37
  · rw [hres] at hu
    exact Bool.false_ne_true hu
  · exact hpct h37

end BitTorrent.Percent
