import BitTorrent.Bencode.Write
import Mathlib.Data.List.Induction

/-!
# Decimal numerals as bytes

Bencode writes integers and string lengths in plain decimal. This module gives the bytes of
`Bytes.decimal n` digit by digit (`Bytes.decimal_eq`, the last digit coming off the end), and
shows that decimal writing and `Bytes.digitsValue` are inverse on canonical numerals: every
non-empty run of digits with no leading zero, and `0` itself, is the decimal numeral of its
value, and of no other number.

## Main statements

* `Bytes.digitsValue_decimal`: reading a numeral back gives the number.
* `Bytes.decimal_digitsValue`: a canonical run of digits is the numeral of its value.
* `Bytes.ofString_toString_int`: the text of a signed integer.
-/

namespace BitTorrent

theorem ByteArray.toList_eq_toList_data (b : ByteArray) : b.toList = b.data.toList := by
  suffices h : ∀ i r, ByteArray.toList.loop b i r = r.reverse ++ b.data.toList.drop i by
    rw [ByteArray.toList]
    simpa using h 0 []
  intro i r
  fun_induction ByteArray.toList.loop b i r with
  | case1 i r h ih =>
    have hi : i < b.data.toList.length := by simpa using h
    rw [ih, List.drop_eq_getElem_cons hi]
    simp [ByteArray.get!, getElem!_pos b.data i h]
  | case2 i r h =>
    have hi : b.data.toList.length ≤ i := by simpa using h
    simp [List.drop_eq_nil_of_le hi]

namespace Bytes

/-! ## Section 1: The bytes of a text -/

theorem ofString_append (s t : String) : ofString (s ++ t) = ofString s ++ ofString t := by
  simp [ofString, ByteArray.toList_eq_toList_data, String.toByteArray_append]

theorem ofString_ofList (cs : List Char) :
    ofString (String.ofList cs) = cs.flatMap String.utf8EncodeChar := by
  simp [ofString, ByteArray.toList_eq_toList_data, List.utf8Encode]

theorem isDigit_iff {b : UInt8} : isDigit b = true ↔ 48 ≤ b.toNat ∧ b.toNat ≤ 57 := by
  simp [isDigit, UInt8.le_iff_toNat_le]

/-- The byte of the decimal digit `d`. -/
def digitByte (d : Nat) : UInt8 := (48 + d).toUInt8

theorem utf8EncodeChar_digitChar {d : Nat} (h : d < 10) :
    String.utf8EncodeChar (Nat.digitChar d) = [digitByte d] := by
  have key : ∀ d < 10, String.utf8EncodeChar (Nat.digitChar d) = [digitByte d] := by decide
  exact key d h

theorem isDigit_digitByte {d : Nat} (h : d < 10) : isDigit (digitByte d) = true := by
  have key : ∀ d < 10, isDigit (digitByte d) = true := by decide
  exact key d h

theorem toNat_digitByte {d : Nat} (h : d < 10) : (digitByte d).toNat = 48 + d := by
  have key : ∀ d < 10, (digitByte d).toNat = 48 + d := by decide
  exact key d h

/-! ## Section 2: Decimal writing -/

/-- The last digit comes off the end. -/
theorem decimal_eq (n : Nat) :
    decimal n = (if n < 10 then [] else decimal (n / 10)) ++ [digitByte (n % 10)] := by
  simp only [decimal, toString, Nat.repr_eq_ofList_toDigits, ofString_ofList]
  rw [Nat.toDigits_eq_if (by omega)]
  split
  · rename_i h
    simp [utf8EncodeChar_digitChar h, Nat.mod_eq_of_lt h]
  · simp [utf8EncodeChar_digitChar (Nat.mod_lt n (by omega : 10 > 0))]

theorem decimal_of_lt {n : Nat} (h : n < 10) : decimal n = [digitByte n] := by
  rw [decimal_eq, if_pos h, Nat.mod_eq_of_lt h]
  rfl

theorem decimal_of_ge {n : Nat} (h : 10 ≤ n) :
    decimal n = decimal (n / 10) ++ [digitByte (n % 10)] := by
  rw [decimal_eq, if_neg (by omega)]

theorem decimal_ne_nil (n : Nat) : decimal n ≠ [] := by
  rw [decimal_eq]
  simp

theorem isDigit_of_mem_decimal {n : Nat} {b : UInt8} (h : b ∈ decimal n) : isDigit b = true := by
  induction n using Nat.strongRecOn with
  | ind n ih =>
    rw [decimal_eq] at h
    rcases List.mem_append.1 h with h | h
    · split at h
      · simp at h
      · exact ih (n / 10) (by omega) h
    · rw [List.mem_singleton.1 h]
      exact isDigit_digitByte (Nat.mod_lt n (by omega))

/-! ## Section 3: Reading numerals back -/

theorem digitsValue_append_singleton (ds : Bytes) (d : UInt8) :
    digitsValue (ds ++ [d]) = digitsValue ds * 10 + (d.toNat - 48) := by
  simp [digitsValue]

theorem digitsValue_decimal (n : Nat) : digitsValue (decimal n) = n := by
  induction n using Nat.strongRecOn with
  | ind n ih =>
    have hd : (digitByte (n % 10)).toNat - 48 = n % 10 := by
      rw [toNat_digitByte (Nat.mod_lt n (by omega))]
      omega
    rw [decimal_eq, digitsValue_append_singleton, hd]
    split
    · simp [digitsValue]
      omega
    · rw [ih (n / 10) (by omega)]
      omega

/-- The numeral of a nonzero number does not start with `0`. -/
theorem eq_zero_of_head?_decimal {n : Nat} (h : (decimal n).head? = some 48) : n = 0 := by
  induction n using Nat.strongRecOn with
  | ind n ih =>
    by_cases hn : n < 10
    · rw [decimal_of_lt hn] at h
      have hb : (digitByte n).toNat = 48 := by
        simp only [List.head?_cons, Option.some.injEq] at h
        rw [h]
        rfl
      rw [toNat_digitByte hn] at hb
      omega
    · -- the lead digit of `n` is the lead digit of `n / 10`
      have hhead : (decimal (n / 10)).head? = some 48 := by
        rw [decimal_of_ge (by omega)] at h
        cases hq : decimal (n / 10) with
        | nil => exact absurd hq (decimal_ne_nil _)
        | cons x xs => simpa [hq] using h
      have := ih (n / 10) (by omega) hhead
      omega

theorem le_foldl_digits (acc : Nat) (ds : Bytes) :
    acc ≤ ds.foldl (fun acc d => acc * 10 + (d.toNat - 48)) acc := by
  induction ds generalizing acc with
  | nil => exact Nat.le_refl _
  | cons d ds ih =>
    calc acc ≤ acc * 10 + (d.toNat - 48) := by omega
      _ ≤ _ := ih _

/-- A run of digits led by a nonzero digit has a positive value. -/
theorem digitsValue_pos {c : UInt8} {ds : Bytes} (hc : isDigit c = true) (h0 : c ≠ 48) :
    0 < digitsValue (c :: ds) := by
  have hc' : 48 < c.toNat := by
    have hne : c.toNat ≠ 48 := fun h => h0 (UInt8.toNat_inj.1 h)
    have := isDigit_iff.1 hc
    omega
  show 0 < ds.foldl _ (0 * 10 + (c.toNat - 48))
  exact Nat.lt_of_lt_of_le (by omega) (le_foldl_digits _ ds)

/-- A run of digits without a leading zero, or the single digit `0`, is the numeral of its
value. -/
theorem decimal_digitsValue {ds : Bytes} (hne : ds ≠ []) (hdig : ∀ b ∈ ds, isDigit b = true)
    (hzero : ds.head? = some 48 → ds.length = 1) : decimal (digitsValue ds) = ds := by
  induction ds using List.reverseRecOn with
  | nil => exact absurd rfl hne
  | append_singleton ds d ih =>
    have hd : isDigit d = true := hdig d (by simp)
    have hd' := isDigit_iff.1 hd
    have hdigit : digitByte (d.toNat - 48) = d := by
      apply UInt8.toNat_inj.1
      rw [toNat_digitByte (by omega)]
      omega
    rw [digitsValue_append_singleton]
    cases ds with
    | nil =>
      simp only [digitsValue, List.foldl_nil, Nat.zero_mul, Nat.zero_add]
      rw [decimal_of_lt (by omega), hdigit]
      rfl
    | cons c rest =>
      -- a numeral of two or more digits has a nonzero lead, so its prefix is canonical too
      have hc : isDigit c = true := hdig c (by simp)
      have hc0 : c ≠ 48 := by
        rintro rfl
        have := hzero rfl
        simp at this
      have hpos : 0 < digitsValue (c :: rest) := digitsValue_pos hc hc0
      have hprefix : decimal (digitsValue (c :: rest)) = c :: rest :=
        ih (by simp) (fun b hb => hdig b (List.mem_append_left _ hb))
          (fun h => by simp at h; exact absurd h hc0)
      rw [decimal_of_ge (by omega)]
      have hdiv : (digitsValue (c :: rest) * 10 + (d.toNat - 48)) / 10 = digitsValue (c :: rest) := by
        omega
      have hmod : (digitsValue (c :: rest) * 10 + (d.toNat - 48)) % 10 = d.toNat - 48 := by
        omega
      rw [hdiv, hmod, hprefix, hdigit]

/-! ## Section 4: Signed integers -/

theorem ofString_minus : ofString "-" = [45] := by decide +kernel

/-- The text of a signed integer: a minus sign before the numeral of a negative one. -/
theorem ofString_toString_int (v : Int) :
    ofString (toString v) = if 0 ≤ v then decimal v.toNat else 45 :: decimal (-v).toNat := by
  rw [Int.toString_eq_repr, Int.repr_eq_if]
  split
  · rfl
  · rw [ofString_append, ofString_minus]
    rfl

end Bytes

end BitTorrent
