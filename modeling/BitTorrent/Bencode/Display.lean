import BitTorrent.Bencode.Node
import BitTorrent.Text.Quoted

/-!
# Showing bencode values

The display form of a tree, for people: integers in decimal, byte strings of at most 50
bytes of well-formed UTF-8 quoted (`Text.quote`), longer or binary ones as
`<string of length n>`, lists as `[ a b ]` and dictionaries as `{ "k": v; }`, with `[]` and
`{}` for empty ones.
-/

namespace BitTorrent

namespace Bencode

/-- Byte strings longer than this are shown by their length only. -/
def displayLimit : Nat := 50

/-- A byte string for display: quoted text if short and UTF-8, else its length. -/
def displayBytes (b : Bytes) : String :=
  match Utf8.decode? b with
  | some s => if b.length ≤ displayLimit then Text.quote s else "<string of length " ++ toString b.length ++ ">"
  | none => "<string of length " ++ toString b.length ++ ">"

namespace Node

mutual
/-- The display form of a tree. -/
def display : Node → String
  | int v _ => toString v
  | str b _ => displayBytes b
  | list [] _ => "[]"
  | list items _ => "[" ++ displayItems items ++ " ]"
  | dict [] _ => "\x7b\x7d"
  | dict es _ => "\x7b" ++ displayEntries es ++ " \x7d"

/-- Each item after a space. -/
def displayItems : List Node → String
  | [] => ""
  | n :: ns => " " ++ display n ++ displayItems ns

/-- Each entry as ` key: value;`. -/
def displayEntries : List (Bytes × Node) → String
  | [] => ""
  | (k, v) :: es => " " ++ displayBytes k ++ ": " ++ display v ++ ";" ++ displayEntries es
end

end Node

end Bencode

end BitTorrent
