import BitTorrent.Bytes.Basic
import Mathlib.Data.List.Induction
import Mathlib.Tactic.Ring

/-!
# Big-endian fields

Tracker datagrams and peer-wire messages carry their numbers as fixed-width big-endian fields.
Writing a number into a field of `w` bytes and reading it back gives it modulo `256 ^ w`, and
a field of bytes read as a number and written again gives the bytes back.

## Main statements

* `Bytes.toNatBE_lt`: a field of `w` bytes holds a number below `256 ^ w`.
* `Bytes.toNatBE_ofNatBE`, `Bytes.ofNatBE_toNatBE`: big-endian fields read back.
-/

namespace BitTorrent

namespace Bytes

theorem toNatBE_append_singleton (b : Bytes) (x : UInt8) :
    toNatBE (b ++ [x]) = toNatBE b * 256 + x.toNat := by
  simp [toNatBE, List.foldl_append]

theorem toNatBE_lt (b : Bytes) : toNatBE b < 256 ^ b.length := by
  induction b using List.reverseRecOn with
  | nil => simp [toNatBE]
  | append_singleton b x ih =>
    rw [toNatBE_append_singleton, List.length_append, List.length_singleton, Nat.pow_succ]
    have hx := UInt8.toNat_lt_size x
    have : UInt8.size = 256 := rfl
    calc toNatBE b * 256 + x.toNat < toNatBE b * 256 + 256 := by omega
      _ = (toNatBE b + 1) * 256 := by ring
      _ ≤ 256 ^ b.length * 256 := Nat.mul_le_mul_right _ ih

theorem toNatBE_ofNatBE (width n : Nat) : toNatBE (ofNatBE width n) = n % 256 ^ width := by
  induction width generalizing n with
  | zero => simp [ofNatBE, toNatBE, Nat.mod_one]
  | succ width ih =>
    have hx : ((n % 256).toUInt8).toNat = n % 256 := by simp
    rw [ofNatBE, toNatBE_append_singleton, ih, hx, Nat.pow_succ, Nat.mul_comm (256 ^ width),
      Nat.mod_mul]
    omega

/-- A number that fits its field reads back whole. -/
theorem toNatBE_ofNatBE_of_lt {w n : Nat} (h : n < 256 ^ w) : toNatBE (ofNatBE w n) = n := by
  rw [toNatBE_ofNatBE, Nat.mod_eq_of_lt h]

theorem ofNatBE_toNatBE (b : Bytes) : ofNatBE b.length (toNatBE b) = b := by
  induction b using List.reverseRecOn with
  | nil => rfl
  | append_singleton b x ih =>
    have hx := UInt8.toNat_lt_size x
    have : UInt8.size = 256 := rfl
    have hdiv : (toNatBE b * 256 + x.toNat) / 256 = toNatBE b := by omega
    have hmod : (toNatBE b * 256 + x.toNat) % 256 = x.toNat := by omega
    rw [toNatBE_append_singleton, List.length_append, List.length_singleton, ofNatBE, hdiv, ih,
      hmod]
    simp

end Bytes

end BitTorrent
