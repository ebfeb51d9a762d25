/-!
# Byte strings

Every message this library reads or writes is a byte string: a list of octets, first byte
first. This module fixes the order the protocol puts on byte strings (dictionary keys and
scrape files are listed in it) and the conversions between byte strings, text and numbers.

## Main definitions

* `Bytes.compareLex`: lexicographic order by byte value, a proper prefix first.
* `Bytes.insertKeyed`: insertion into a list kept in key order.
* `Bytes.ofString`: the UTF-8 bytes of a text.
* `Bytes.ofNatBE`, `Bytes.toNatBE`: fixed-width big-endian numbers.
-/

namespace BitTorrent

/-- A byte string: the octets of a message, key or digest, first byte first. -/
abbrev Bytes := List UInt8

namespace Bytes

/-- The UTF-8 encoding of a text. -/
def ofString (s : String) : Bytes := s.toUTF8.toList

/-- Lexicographic comparison by byte value. A proper prefix sorts before every extension
of it, so the empty string is the least key. -/
def compareLex : Bytes → Bytes → Ordering
  | [], [] => .eq
  | [], _ :: _ => .lt
  | _ :: _, [] => .gt
  | a :: as, b :: bs =>
    if a < b then .lt else if b < a then .gt else compareLex as bs

/-- `a` sorts strictly before `b`. -/
def lexLt (a b : Bytes) : Bool := compareLex a b == .lt

/-- Inserts a keyed entry into a list kept in ascending key order; an entry with an equal key
is replaced. -/
def insertKeyed {α : Type} (k : Bytes) (v : α) : List (Bytes × α) → List (Bytes × α)
  | [] => [(k, v)]
  | (k', v') :: es =>
    match compareLex k k' with
    | .lt => (k, v) :: (k', v') :: es
    | .eq => (k, v) :: es
    | .gt => (k', v') :: insertKeyed k v es

/-- The `width` low-order bytes of `n`, most significant first. -/
def ofNatBE : Nat → Nat → Bytes
  | 0, _ => []
  | width + 1, n => ofNatBE width (n / 256) ++ [(n % 256).toUInt8]

/-- Reads a byte string as one unsigned big-endian number. -/
def toNatBE (b : Bytes) : Nat := b.foldl (fun acc x => acc * 256 + x.toNat) 0

/-- The decimal digits of a natural number, as ASCII bytes. -/
def decimal (n : Nat) : Bytes := ofString (toString n)

/-- ASCII decimal digit. -/
def isDigit (b : UInt8) : Bool := 48 ≤ b && b ≤ 57

/-- The value of a run of ASCII decimal digits, read most significant first. -/
def digitsValue (ds : Bytes) : Nat := ds.foldl (fun acc d => acc * 10 + (d.toNat - 48)) 0

/-- The text of a run of ASCII bytes, one character per byte. -/
def asciiText (b : Bytes) : String := String.ofList (b.map fun x => Char.ofNat x.toNat)

theorem compareLex_self (a : Bytes) : compareLex a a = .eq := by
  induction a with
  | nil => rfl
  | cons x xs ih => simp [compareLex, ih]

theorem length_ofNatBE (width n : Nat) : (ofNatBE width n).length = width := by
  induction width generalizing n with
  | zero => rfl
  | succ w ih => simp [ofNatBE, ih]

end Bytes

end BitTorrent
