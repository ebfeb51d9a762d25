import BitTorrent.Bencode.Node

/-!
# Writing bencode

Every tree has one canonical encoding: integers in plain decimal, byte strings behind their
decimal length and a colon, lists and dictionaries between their opening letter and `e`, and
dictionary entries in the order the tree keeps them, which is ascending key order. Lengths
are computed afresh, so the output never depends on the buffer a tree was read from.
-/

namespace BitTorrent

namespace Bencode

/-- A byte string behind its decimal length and a colon. -/
def encodeStr (b : Bytes) : Bytes := Bytes.decimal b.length ++ [58] ++ b

/-- An integer in plain decimal between `i` and `e`. -/
def encodeInt (v : Int) : Bytes := [105] ++ Bytes.ofString (toString v) ++ [101]

namespace Node

mutual
/-- The canonical encoding of a tree. -/
def encode : Node → Bytes
  | int v _ => encodeInt v
  | str b _ => encodeStr b
  | list items _ => [108] ++ encodeItems items ++ [101]
  | dict es _ => [100] ++ encodeEntries es ++ [101]

/-- The encodings of list items, one after another. -/
def encodeItems : List Node → Bytes
  | [] => []
  | n :: ns => encode n ++ encodeItems ns

/-- Each entry as its key string followed by its value. -/
def encodeEntries : List (Bytes × Node) → Bytes
  | [] => []
  | (k, v) :: es => encodeStr k ++ encode v ++ encodeEntries es
end

end Node

end Bencode

end BitTorrent
