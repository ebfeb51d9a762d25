import BitTorrent.Bencode.Node
import BitTorrent.Bencode.Error

/-!
# Reading bencode

The reader takes one value from a buffer, starting at a given position, and returns it with
the position just past it. It works on the unread suffix of the buffer and the absolute
position of that suffix's first byte, so every node's span is given in positions of the
whole buffer. Each read step returns the unread input together with a proof that it is
shorter than what the step began with; that proof is what makes the reader total.

Lists and dictionaries below the root sit one level deeper than their container, and a
value whose level exceeds `ReadOptions.maxDepth` is refused before any of its bytes is
looked at. Dictionary keys may come in any order unless `strictKeyOrder` is set; they are
stored sorted either way, and a key given twice is refused.

## Main definitions

* `ReadOptions`: the depth limit (64 by default) and the key-order switch (off).
* `readValue`, `readItems`, `readEntries`: the mutually recursive reader.
* `Node.decodePrefix`: one value from a position; `Node.decode`: a whole buffer.
-/

namespace BitTorrent

namespace Bencode

/-- How strictly a buffer is read. -/
structure ReadOptions where
  /-- The deepest level a value may sit at; the root is at level 0. -/
  maxDepth : Nat := 64
  /-- Refuse dictionaries whose keys are not in ascending order. -/
  strictKeyOrder : Bool := false
deriving Repr

/-- The input left after a read step that consumed at least one byte of `s`. -/
abbrev Rest (s : Bytes) := { r : Bytes // r.length < s.length }

/-- The ASCII codes the grammar is built from. -/
def byteI : UInt8 := 105
/-- `l`, which opens a list. -/
def byteL : UInt8 := 108
/-- `d`, which opens a dictionary. -/
def byteD : UInt8 := 100
/-- `e`, which closes an integer, list or dictionary. -/
def byteE : UInt8 := 101
/-- `:`, which ends a string length. -/
def byteColon : UInt8 := 58
/-- `-`, the sign of a negative integer. -/
def byteMinus : UInt8 := 45
/-- `0`, which may not lead a number of more than one digit. -/
def byteZero : UInt8 := 48

/-- The least integer a value may hold, `-2^63`. -/
def intMin : Int := -Int.ofNat (Nat.pow 2 63)

/-- The greatest integer a value may hold, `2^63 - 1`. -/
def intMax : Int := Int.ofNat (Nat.pow 2 63) - 1

/-- A byte string length must stay below `2^64`. -/
def lengthBound : Nat := Nat.pow 2 64

theorem length_dropWhile_le (p : UInt8 → Bool) (s : Bytes) : (s.dropWhile p).length ≤ s.length :=
  (List.dropWhile_suffix p).length_le

/-- Reads the body of an integer, after its `i`: an optional minus sign, decimal digits
without leading zeros (and no `-0`), then `e`. The value must fit in 64 bits. `pos` is the
position of the first byte of `s`. -/
def readIntBody (pos : Nat) (s : Bytes) : Except DecodeError (Int × Rest s) :=
  match s with
  | [] => .error .unexpectedEof
  | c :: t =>
    let negative := c == byteMinus
    let u : Bytes := if negative then t else c :: t
    let ds := u.takeWhile Bytes.isDigit
    match h : u.dropWhile Bytes.isDigit with
    | [] => .error .unexpectedEof
    | term :: r =>
      let termPos := (if negative then pos + 1 else pos) + ds.length
      if term != byteE then .error (.unexpectedChar term termPos)
      else if ds.isEmpty then .error (.invalidInteger "empty")
      else if ds.head? == some byteZero && (ds.length > 1 || negative) then
        .error (.invalidInteger "leading zeros")
      else
        let magnitude : Int := Bytes.digitsValue ds
        let v : Int := if negative then -magnitude else magnitude
        if v < intMin || intMax < v then .error (.invalidInteger (Bytes.asciiText ds))
        else .ok (v, ⟨r, by
          have h1 := length_dropWhile_le Bytes.isDigit u
          rw [h] at h1
          have h2 : u.length ≤ (c :: t).length := by
            simp only [u]; split <;> simp
          simp at h1 h2 ⊢
          omega⟩)

/-- Reads a byte string: its decimal length without leading zeros, `:`, then that many
bytes. `pos` is the position of the first byte of `s`. -/
def readStr (pos : Nat) (s : Bytes) : Except DecodeError (Bytes × Rest s) :=
  let ds := s.takeWhile Bytes.isDigit
  match h : s.dropWhile Bytes.isDigit with
  | [] => .error .unexpectedEof
  | c :: t =>
    if c != byteColon then .error (.unexpectedChar c (pos + ds.length))
    else if ds.isEmpty || (ds.head? == some byteZero && ds.length > 1) then
      .error .invalidStringLength
    else
      let n := Bytes.digitsValue ds
      if lengthBound ≤ n then .error .invalidStringLength
      else if t.length < n then .error .unexpectedEof
      else .ok (t.take n, ⟨t.drop n, by
        have h1 := length_dropWhile_le Bytes.isDigit s
        rw [h] at h1
        simp at h1 ⊢
        omega⟩)

/-- The span of a read that began at `pos` on input `s` and left `r` unread. -/
def spanOf (pos : Nat) (s r : Bytes) : Option Span := some ⟨pos, pos + (s.length - r.length)⟩

mutual
/-- Reads one value at level `depth`. `pos` is the position of the first byte of `s`. -/
def readValue (o : ReadOptions) (depth pos : Nat) (s : Bytes) :
    Except DecodeError (Node × Rest s) :=
  if o.maxDepth < depth then .error .nestingTooDeep
  else
    match s with
    | [] => .error .unexpectedEof
    | c :: t =>
      if c = byteI then
        match readIntBody (pos + 1) t with
        | .error e => .error e
        | .ok (v, ⟨r, hr⟩) => .ok (.int v (spanOf pos (c :: t) r), ⟨r, by simp; omega⟩)
      else if c = byteL then
        match readItems o depth (pos + 1) t with
        | .error e => .error e
        | .ok (items, ⟨r, hr⟩) => .ok (.list items (spanOf pos (c :: t) r), ⟨r, by simp; omega⟩)
      else if c = byteD then
        match readEntries o depth (pos + 1) t [] none with
        | .error e => .error e
        | .ok (es, ⟨r, hr⟩) => .ok (.dict es (spanOf pos (c :: t) r), ⟨r, by simp; omega⟩)
      else if Bytes.isDigit c then
        match readStr pos (c :: t) with
        | .error e => .error e
        | .ok (b, ⟨r, hr⟩) => .ok (.str b (spanOf pos (c :: t) r), ⟨r, hr⟩)
      else .error (.unexpectedChar c pos)
termination_by (s.length, 0)

/-- Reads the items of a list at level `depth` up to and including its closing `e`. -/
def readItems (o : ReadOptions) (depth pos : Nat) (s : Bytes) :
    Except DecodeError (List Node × Rest s) :=
  match s with
  | [] => .error .unexpectedEof
  | c :: t =>
    if c = byteE then .ok ([], ⟨t, by simp⟩)
    else
      match readValue o (depth + 1) pos (c :: t) with
      | .error e => .error e
      | .ok (n, ⟨r, hr⟩) =>
        match readItems o depth (pos + ((c :: t).length - r.length)) r with
        | .error e => .error e
        | .ok (ns, ⟨r', hr'⟩) => .ok (n :: ns, ⟨r', Nat.lt_trans hr' hr⟩)
termination_by (s.length, 1)

/-- Reads the entries of a dictionary at level `depth` up to and including its closing
`e`, adding them to `acc`. `last` is the key read before, for the key-order check. A value
is read before its key is checked against the keys so far. -/
def readEntries (o : ReadOptions) (depth pos : Nat) (s : Bytes) (acc : Dict)
    (last : Option Bytes) : Except DecodeError (Dict × Rest s) :=
  match s with
  | [] => .error .unexpectedEof
  | c :: t =>
    if c = byteE then .ok (acc, ⟨t, by simp⟩)
    else if !Bytes.isDigit c then .error (.unexpectedChar c pos)
    else
      match readStr pos (c :: t) with
      | .error e => .error e
      | .ok (key, ⟨r1, h1⟩) =>
        match readValue o (depth + 1) (pos + ((c :: t).length - r1.length)) r1 with
        | .error e => .error e
        | .ok (v, ⟨r2, h2⟩) =>
          -- a fault inside the value is reported before a repeated or misplaced key
          if acc.contains key then .error (.duplicateKey key)
          else if o.strictKeyOrder && last.any (fun k => Bytes.lexLt key k) then
            .error (.unsortedKeys key)
          else
            have _ : r2.length < t.length + 1 := by simp at h1; omega
            match readEntries o depth (pos + ((c :: t).length - r2.length)) r2
                (Dict.insert key v acc) (some key) with
            | .error e => .error e
            | .ok (d, ⟨r3, h3⟩) => .ok (d, ⟨r3, by omega⟩)
termination_by (s.length, 1)
end

namespace Node

/-- Reads one value starting at position `offset` of `data` and returns it with the position
just past it. Spans are positions in `data`. -/
def decodePrefix (data : Bytes) (offset : Nat) (o : ReadOptions := {}) :
    Except DecodeError (Node × Nat) :=
  match readValue o 0 offset (data.drop offset) with
  | .error e => .error e
  | .ok (n, r) => .ok (n, data.length - r.1.length)

/-- Reads a whole buffer as one value; bytes after the value are refused. -/
def decode (data : Bytes) (o : ReadOptions := {}) : Except DecodeError Node :=
  match decodePrefix data 0 o with
  | .error e => .error e
  | .ok (n, stop) => if stop = data.length then .ok n else .error (.trailingData stop)

end Node

end Bencode

end BitTorrent
