import BitTorrent.Bytes.Basic

/-!
# Reading UTF-8

Byte strings from the wire become text in two ways: strictly, where any ill-formed byte
refuses the whole string, and lossily, where each ill-formed stretch becomes one U+FFFD.
Both read the same sequence of units: a well-formed character, or the longest ill-formed
prefix that could still have begun a character (the "maximal subpart" of the Unicode
standard, chapter 3), which is what makes the lossy reading replace exactly one character
per such stretch.

## Main definitions

* `Utf8.units`: the characters and ill-formed stretches of a byte string, in order.
* `Utf8.decode?`: the text, if every unit is a character.
* `Utf8.decodeLossy`: the text with U+FFFD for every ill-formed stretch.
-/

namespace BitTorrent

namespace Utf8

/-- A continuation byte `10xxxxxx`. -/
def isCont (b : UInt8) : Bool := 0x80 ≤ b && b ≤ 0xBF

/-- Whether `b` may follow the lead byte `lead` as its first continuation byte. The lead
bytes E0, ED, F0 and F4 narrow the range to refuse overlong forms, surrogates and values
past U+10FFFF. -/
def secondOk (lead b : UInt8) : Bool :=
  if lead = 0xE0 then 0xA0 ≤ b && b ≤ 0xBF
  else if lead = 0xED then 0x80 ≤ b && b ≤ 0x9F
  else if lead = 0xF0 then 0x90 ≤ b && b ≤ 0xBF
  else if lead = 0xF4 then 0x80 ≤ b && b ≤ 0x8F
  else isCont b

/-- The low six bits of a continuation byte. -/
def low6 (b : UInt8) : Nat := b.toNat % 64

/-- Reads the byte string as characters (`some`) and ill-formed stretches (`none`). -/
def units : Bytes → List (Option Char)
  | [] => []
  | a :: rest =>
    if a < 0x80 then some (Char.ofNat a.toNat) :: units rest
    else if 0xC2 ≤ a && a ≤ 0xDF then
      match rest with
      | b :: r1 =>
        if isCont b then some (Char.ofNat ((a.toNat % 32) * 64 + low6 b)) :: units r1
        else none :: units (b :: r1)
      | [] => [none]
    else if 0xE0 ≤ a && a ≤ 0xEF then
      match rest with
      | b :: r1 =>
        if secondOk a b then
          match r1 with
          | c :: r2 =>
            if isCont c then
              some (Char.ofNat ((a.toNat % 16) * 4096 + low6 b * 64 + low6 c)) :: units r2
            else none :: units (c :: r2)
          | [] => [none]
        else none :: units (b :: r1)
      | [] => [none]
    else if 0xF0 ≤ a && a ≤ 0xF4 then
      match rest with
      | b :: r1 =>
        if secondOk a b then
          match r1 with
          | c :: r2 =>
            if isCont c then
              match r2 with
              | d :: r3 =>
                if isCont d then
                  some (Char.ofNat ((a.toNat % 8) * 262144 + low6 b * 4096 + low6 c * 64
                    + low6 d)) :: units r3
                else none :: units (d :: r3)
              | [] => [none]
            else none :: units (c :: r2)
          | [] => [none]
        else none :: units (b :: r1)
      | [] => [none]
    else none :: units rest
termination_by b => b.length

/-- The text of a byte string that is well-formed UTF-8 throughout. -/
def decode? (b : Bytes) : Option String :=
  (units b).mapM id |>.map String.ofList

/-- The text of a byte string, with U+FFFD standing for each ill-formed stretch. -/
def decodeLossy (b : Bytes) : String :=
  String.ofList ((units b).map fun u => u.getD '�')

/-- Whether a byte string is well-formed UTF-8. -/
def isValid (b : Bytes) : Bool := (decode? b).isSome

end Utf8

end BitTorrent
