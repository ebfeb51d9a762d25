/-!
# Unsigned numerals

The usual reading of an unsigned number from text: an optional single `+`, then one or more
digits of the radix (letters of either case for digits above nine), with a value that fits
the target width. A lone sign, a `-`, an empty text or any other character refuses it.
-/

namespace BitTorrent

namespace Text

/-- The value of a digit in radices up to 36. -/
def digitValue? (c : Char) : Option Nat :=
  if '0' ≤ c ∧ c ≤ '9' then some (c.toNat - 48)
  else if 'a' ≤ c ∧ c ≤ 'z' then some (c.toNat - 87)
  else if 'A' ≤ c ∧ c ≤ 'Z' then some (c.toNat - 55)
  else none

/-- The value of a non-empty run of digits of the radix. -/
def digitsValue? (radix : Nat) (cs : List Char) : Option Nat :=
  if cs.isEmpty then none
  else cs.foldlM (fun acc c => do
    let d ← digitValue? c
    if d < radix then some (acc * radix + d) else none) 0

/-- An unsigned numeral in the radix, at most `bound`. -/
def parseUnsigned? (radix bound : Nat) (s : String) : Option Nat :=
  let cs := match s.toList with
    | '+' :: rest => rest
    | all => all
  match digitsValue? radix cs with
  | some v => if v ≤ bound then some v else none
  | none => none

end Text

end BitTorrent
