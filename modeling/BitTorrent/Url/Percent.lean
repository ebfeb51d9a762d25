import BitTorrent.Bytes.Hex

/-!
# Percent-encoding of query values

Tracker URLs carry raw binary values (info hashes, peer ids) in their query strings. A byte
in the unreserved set of RFC 3986 (`A-Z a-z 0-9 - . _ ~`) is written as itself; every other
byte as `%` and two upper-case hex digits. Reading is strict: the text must consist of
unreserved characters and `%` escapes with two hex digits of either case.

The escaping and unescaping are left to a percent-encoding library, which the codec takes as a
parameter (`Percent.Library`): an encoder under a set of bytes to escape and a decoder, with
what the library documents of them. The codec escapes the set `queryValue`, every ASCII byte but
a letter, a digit, `-`, `.`, `_` and `~`. `Percent.Library.reference` builds a library from
`escapeWith` and `unescape`, the one the program runs with.

## Main definitions

* `Percent.AsciiSet`, `Percent.queryValue`: sets of bytes to escape.
* `Percent.Library`: a percent-encoding library, and `Percent.Library.reference`.
* `Percent.encode`: bytes to escaped text.
* `Percent.isEncoded`: the strict grammar.
* `Percent.decode?`: escaped text to bytes, for texts of the grammar.
* `Percent.encodeHex?`: a hex digest straight to its escaped form, keeping its case.
-/

namespace BitTorrent

namespace Percent

/-- ASCII letter or digit. -/
def isAlnum (b : UInt8) : Bool :=
  (48 ≤ b && b ≤ 57) || (65 ≤ b && b ≤ 90) || (97 ≤ b && b ≤ 122)

/-- A byte that is written as itself: a letter, a digit, `-`, `.`, `_` or `~`. -/
def isUnreserved (b : UInt8) : Bool :=
  isAlnum b || b == 45 || b == 46 || b == 95 || b == 126

/-- An ASCII hex digit of either case. -/
def isHexDigit (b : UInt8) : Bool :=
  (48 ≤ b && b ≤ 57) || (65 ≤ b && b ≤ 70) || (97 ≤ b && b ≤ 102)

/-- The upper-case hex digit of a value below 16. -/
def upperHexDigit (n : Nat) : Char :=
  if n < 10 then Char.ofNat (48 + n) else Char.ofNat (55 + n)

/-- A set of ASCII bytes for an encoder to escape. -/
structure AsciiSet where
  mem : UInt8 → Bool

namespace AsciiSet

/-- The set without the byte `c`. -/
def remove (s : AsciiSet) (c : UInt8) : AsciiSet := ⟨fun b => b != c && s.mem b⟩

/-- Whether an encoder escapes a byte under the set: every byte of the set, and every byte
that is not ASCII whatever the set. -/
def escapes (s : AsciiSet) (b : UInt8) : Bool := 128 ≤ b || s.mem b

end AsciiSet

/-- Every ASCII byte but the letters and digits. -/
def nonAlphanumeric : AsciiSet := ⟨fun b => !isAlnum b⟩

/-- The bytes escaped in a query value: those of `nonAlphanumeric` but `-`, `.`, `_` and `~`. -/
def queryValue : AsciiSet := (((nonAlphanumeric.remove 45).remove 46).remove 95).remove 126

/-- How one byte is written under a set: `%` and two upper-case hex digits if the set escapes
it, else its own character. -/
def escapeWith (s : AsciiSet) (b : UInt8) : List Char :=
  if s.escapes b then ['%', upperHexDigit (b.toNat / 16), upperHexDigit (b.toNat % 16)]
  else [Char.ofNat b.toNat]

/-- The value of an ASCII hex digit. -/
def hexDigitValue (b : UInt8) : Nat :=
  if b ≤ 57 then b.toNat - 48 else if b ≤ 70 then b.toNat - 55 else b.toNat - 87

/-- Whether the bytes are unreserved bytes and `%` escapes with two hex digits. -/
def isEncodedBytes : Bytes → Bool
  | [] => true
  | 37 :: h :: l :: rest => isHexDigit h && isHexDigit l && isEncodedBytes rest
  | 37 :: _ => false
  | b :: rest => isUnreserved b && isEncodedBytes rest

/-- Whether a text consists only of unreserved characters and well-formed `%XX` escapes. -/
def isEncoded (s : String) : Bool := isEncodedBytes (Bytes.ofString s)

/-- Whether the bytes begin with `%` and two hex digits. -/
def startsEscape : Bytes → Bool
  | 37 :: h :: l :: _ => isHexDigit h && isHexDigit l
  | _ => false

/-- Replaces every `%` followed by two hex digits by the byte they denote; every other byte
is kept as it is. -/
def unescape : Bytes → Bytes
  | [] => []
  | 37 :: h :: l :: rest =>
    if isHexDigit h && isHexDigit l then
      (hexDigitValue h * 16 + hexDigitValue l).toUInt8 :: unescape rest
    else 37 :: unescape (h :: l :: rest)
  | b :: rest => b :: unescape rest

/-- A percent-encoding library: an encoder of bytes under a set of bytes to escape, a decoder
of the bytes of a text, and what the library documents of the two. The encoder writes the
bytes one after another, each as `escapeWith` writes it; the decoder replaces `%` and two hex
digits of either case by the byte they spell, and keeps every other byte. -/
structure Library where
  percentEncode : AsciiSet → Bytes → String
  percentDecode : Bytes → Bytes
  toList_percentEncode : ∀ s b, (percentEncode s b).toList = b.flatMap (escapeWith s)
  percentDecode_nil : percentDecode [] = []
  percentDecode_escape : ∀ h l rest, isHexDigit h = true → isHexDigit l = true →
    percentDecode (37 :: h :: l :: rest) =
      (hexDigitValue h * 16 + hexDigitValue l).toUInt8 :: percentDecode rest
  percentDecode_keep : ∀ b rest, startsEscape (b :: rest) = false →
    percentDecode (b :: rest) = b :: percentDecode rest

/-- The library the program runs with: `escapeWith` byte by byte, and `unescape`. -/
def Library.reference : Library where
  percentEncode s b := String.ofList (b.flatMap (escapeWith s))
  percentDecode := unescape
  toList_percentEncode _ _ := String.toList_ofList
  percentDecode_nil := rfl
  percentDecode_escape h l rest hh hl := by simp [unescape, hh, hl]
  percentDecode_keep b rest h := by
    -- a `%` before two bytes is kept only when they are not both hex digits
    by_cases hopen : ∃ h' l t, b = 37 ∧ rest = h' :: l :: t
    · obtain ⟨h', l, t, rfl, rfl⟩ := hopen
      simp only [startsEscape] at h
      simp [unescape, h]
    · exact unescape.eq_3 b rest fun h' l t hb hr => hopen ⟨h', l, t, hb, hr⟩

section

variable (L : Library)

/-- Percent-encodes arbitrary bytes for use as a query value. -/
def encode (b : Bytes) : String := L.percentEncode queryValue b

/-- The bytes of a strictly percent-encoded text; `none` for a truncated or non-hex escape
or a character outside the unreserved set. -/
def decode? (s : String) : Option Bytes :=
  if isEncoded s then some (L.percentDecode (Bytes.ofString s)) else none

end

/-- A hex digest written as escapes, `%` before each pair of digits, keeping their case;
`none` unless the text is an even number of hex digits. -/
def encodeHex? (s : String) : Option String :=
  let b := Bytes.ofString s
  if b.length % 2 != 0 || !b.all isHexDigit then none
  else some (String.ofList (pairs s.toList))
where
  /-- `%` before each pair of characters. -/
  pairs : List Char → List Char
    | a :: c :: rest => '%' :: a :: c :: pairs rest
    | _ => []

end Percent

end BitTorrent
