import BitTorrent.Bytes.Basic
import BitTorrent.Text.Utf8

/-!
# Bencode values

A bencode value is a signed 64-bit integer, a byte string, a list of values, or a
dictionary from byte-string keys to values. A node read from a buffer also remembers the
span of bytes it came from, so that a consumer can digest the exact source bytes of a
sub-value; a node built in code has no span.

Dictionaries are kept as lists of entries in ascending key order (`Bytes.compareLex`) with
no key twice, whatever order the keys had on the wire. Equality of values, `Node.sameValue`,
ignores spans: a sub-slice read again on its own compares equal to the node it came from.

## Main definitions

* `Node`: the value tree, each node with an optional `Span`.
* `Dict.insert`: sorted insertion, the later of two equal keys winning.
* `Node.erase`: the same tree without spans.
* `Node.sameValue`: equality of the trees with spans ignored.
* `Node.raw?`: the bytes a node was read from.
-/

namespace BitTorrent

namespace Bencode

/-- The half-open range `[start, stop)` of byte positions a node was read from. -/
structure Span where
  start : Nat
  stop : Nat
deriving DecidableEq, Repr

/-- A bencode value, each node with the span it was read from, if it was read. -/
inductive Node where
  /-- An integer (the format allows the signed 64-bit range). -/
  | int (value : Int) (span : Option Span)
  /-- A byte string, not necessarily UTF-8. -/
  | str (bytes : Bytes) (span : Option Span)
  /-- A list of values in order. -/
  | list (items : List Node) (span : Option Span)
  /-- A dictionary: entries in ascending key order, no key twice. -/
  | dict (entries : List (Bytes × Node)) (span : Option Span)

/-- The entries of a dictionary, in ascending key order. -/
abbrev Dict := List (Bytes × Node)

namespace Dict

/-- Inserts an entry at its place in key order; an entry with an equal key is replaced. -/
def insert (k : Bytes) (v : Node) (d : Dict) : Dict := Bytes.insertKeyed k v d

/-- The value under a key. -/
def find? (k : Bytes) : Dict → Option Node
  | [] => none
  | (k', v) :: es => if k = k' then some v else find? k es

/-- Whether some entry has the key. -/
def contains (k : Bytes) (d : Dict) : Bool := (find? k d).isSome

/-- A dictionary from entries in any order; of two equal keys the later wins. -/
def ofList (es : List (Bytes × Node)) : Dict := es.foldl (fun d e => insert e.1 e.2 d) []

end Dict

namespace Node

/-- The span a node was read from; `none` for a node built in code. -/
def span : Node → Option Span
  | int _ s | str _ s | list _ s | dict _ s => s

/-- A one-word name of the node's kind, used in messages. -/
def kind : Node → String
  | int .. => "integer"
  | str .. => "string"
  | list .. => "list"
  | dict .. => "dictionary"

mutual
/-- The same tree with every span dropped. -/
def erase : Node → Node
  | int v _ => int v none
  | str b _ => str b none
  | list items _ => list (eraseItems items) none
  | dict es _ => dict (eraseEntries es) none

/-- `erase` on each item of a list. -/
def eraseItems : List Node → List Node
  | [] => []
  | n :: ns => erase n :: eraseItems ns

/-- `erase` on each value of a dictionary. -/
def eraseEntries : List (Bytes × Node) → List (Bytes × Node)
  | [] => []
  | (k, v) :: es => (k, erase v) :: eraseEntries es
end

mutual
/-- Equality of values with spans ignored. -/
def sameValue : Node → Node → Bool
  | int a _, int b _ => a == b
  | str a _, str b _ => a == b
  | list as _, list bs _ => sameItems as bs
  | dict as _, dict bs _ => sameEntries as bs
  | _, _ => false

/-- `sameValue` item by item. -/
def sameItems : List Node → List Node → Bool
  | [], [] => true
  | a :: as, b :: bs => sameValue a b && sameItems as bs
  | _, _ => false

/-- Equal keys and `sameValue` values, entry by entry. -/
def sameEntries : List (Bytes × Node) → List (Bytes × Node) → Bool
  | [], [] => true
  | (k, a) :: as, (k', b) :: bs => k == k' && sameValue a b && sameEntries as bs
  | _, _ => false
end

instance : BEq Node := ⟨sameValue⟩

/-- The integer, if the node is one. -/
def asInt? : Node → Option Int
  | int v _ => some v
  | _ => none

/-- The byte string, if the node is one. -/
def asBytes? : Node → Option Bytes
  | str b _ => some b
  | _ => none

/-- The byte string as text, if the node is a byte string of well-formed UTF-8. -/
def asText? (n : Node) : Option String := n.asBytes? >>= Utf8.decode?

/-- The items, if the node is a list. -/
def asList? : Node → Option (List Node)
  | list items _ => some items
  | _ => none

/-- The entries, if the node is a dictionary. -/
def asDict? : Node → Option Dict
  | dict es _ => some es
  | _ => none

/-- The value under a key, if the node is a dictionary holding the key. -/
def get? (n : Node) (k : Bytes) : Option Node := n.asDict? >>= Dict.find? k

/-- The exact source bytes of a node: the part of `buffer` its span covers, if it has a span
that lies inside `buffer`. -/
def raw? (n : Node) (buffer : Bytes) : Option Bytes :=
  match n.span with
  | some sp =>
    if sp.start ≤ sp.stop ∧ sp.stop ≤ buffer.length then
      some ((buffer.drop sp.start).take (sp.stop - sp.start))
    else none
  | none => none

/-- A byte string node without span, from text. -/
def text (s : String) : Node := str (Bytes.ofString s) none

end Node

end Bencode

end BitTorrent
