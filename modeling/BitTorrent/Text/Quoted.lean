import BitTorrent.Text.Printable
import BitTorrent.Text.GraphemeExtend
import BitTorrent.Bytes.Hex

/-!
# Quoted text for display

Texts and single characters are shown between quotes with an escape for everything that
would not read back unambiguously: the NUL, tab, carriage return and line feed as `\0`,
`\t`, `\r`, `\n`; the backslash and the enclosing quote with a backslash before them; grapheme
extenders and non-printable characters as `\u{h}` with the code point in lower-case hex
without leading zeros; every other character as itself.

## Main definitions

* `Text.escapeChar`: how one character is written between the given quotes.
* `Text.quote`: a text between double quotes.
* `Text.quoteChar`: a character between single quotes.
-/

namespace BitTorrent

namespace Text

/-- Whether a character is printable (see `printableRanges`). -/
def isPrintable (c : Char) : Bool := inRanges printableRanges c.toNat

/-- Whether a character extends the grapheme before it (see `graphemeExtendRanges`). -/
def isGraphemeExtend (c : Char) : Bool := inRanges graphemeExtendRanges c.toNat

/-- Lower-case hex digits of a number, without leading zeros (`0` for zero). -/
def hexNat (n : Nat) : String := String.ofList ((Nat.toDigits 16 n))

/-- The escape `\u{h}` of a character's code point. -/
def unicodeEscape (c : Char) : String := "\\u\x7b" ++ hexNat c.toNat ++ "\x7d"

/-- How one character is written between quotes `q`. -/
def escapeChar (q : Char) (c : Char) : String :=
  if c = '\x00' then "\\0"
  else if c = '\t' then "\\t"
  else if c = '\r' then "\\r"
  else if c = '\n' then "\\n"
  else if c = '\\' then "\\\\"
  else if c = q then "\\" ++ c.toString
  else if isGraphemeExtend c then unicodeEscape c
  else if isPrintable c then c.toString
  else unicodeEscape c

/-- A text between double quotes, each character escaped as `escapeChar` says. -/
def quote (s : String) : String :=
  "\"" ++ String.join (s.toList.map (escapeChar '"')) ++ "\""

/-- A character between single quotes, escaped as `escapeChar` says. -/
def quoteChar (c : Char) : String :=
  "\x27" ++ escapeChar '\x27' c ++ "\x27"

end Text

end BitTorrent
