import BitTorrent.Proofs.Bencode.Spans

/-!
# Reading any buffer

The reader is a total function: on every buffer, from every position and under every option
it returns a tree and a stop position or one of its errors, and it ends because each read
step returns input shorter than it was given. What it returns stays within bounds, whatever
the buffer holds.

A read that succeeds has read at least one byte and none past the end of the buffer; no node
of its tree lies below the depth limit; every node covers a nonempty part of what was read;
every integer is a 64-bit value whose own bytes are its canonical text, and every byte string
and every key is cut from the buffer right after its length and colon (`ReadInBounds`). Where
the reader cannot read, it says why: a position at or past the end is the end of input, a
string length of `2^64` or more is an invalid length before any of its bytes is looked at, an
integer outside 64 bits is an invalid integer named by its digits, and lists opened deeper
than the limit are refused as too deep at the first level past it, whatever follows
(`decodePrefix_safe`).

## Main statements

* `readValue_openers_too_deep`: nesting is cut at the first level past the limit.
* `decodePrefix_in_bounds`: what a successful read returns.
* `decodePrefix_safe`.
-/

namespace BitTorrent

namespace Bencode

open Bytes

variable {o : ReadOptions}

/-! ## Section 1: Refusals at the start of a value -/

/-- A run of `k` list openers read from level `depth` reaches a level past the limit, and is
refused there as too deep, whatever follows it. -/
theorem readValue_openers_too_deep : ∀ (k depth pos : Nat) (rest : Bytes),
    o.maxDepth + 1 < depth + k →
    plain (readValue o depth pos (List.replicate k byteL ++ rest)) = .error .nestingTooDeep
  | 0, depth, pos, rest, h => plain_readValue_deep o pos (by omega) _
  | k + 1, depth, pos, rest, h => by
    by_cases hd : o.maxDepth < depth
    · exact plain_readValue_deep o pos hd _
    -- a list within the limit: its first item is the next opener, one level down
    obtain ⟨k', rfl⟩ : ∃ k', k = k' + 1 := ⟨k - 1, by omega⟩
    rw [List.replicate_succ, List.cons_append, plain_readValue_list o pos (by omega)]
    rw [plain_readItems_cons o (pos + 1) (c := byteL) (by simp [List.replicate_succ]) (by decide)]
    rw [readValue_openers_too_deep (k' + 1) (depth + 1) (pos + 1) rest (by omega)]
    rfl

/-- A value refused at its start refuses the read from that position. -/
theorem decodePrefix_of_error {data : Bytes} {offset : Nat} {e : DecodeError}
    (h : plain (readValue o 0 offset (data.drop offset)) = .error e) :
    Node.decodePrefix data offset o = .error e := by
  rw [Node.decodePrefix_eq_map, h]
  rfl

theorem decodePrefix_past_end {data : Bytes} {offset : Nat} (h : data.length ≤ offset) :
    Node.decodePrefix data offset o = .error .unexpectedEof := by
  apply decodePrefix_of_error
  rw [List.drop_eq_nil_of_le h]
  exact plain_readValue_nil o offset (Nat.zero_le _)

theorem decodePrefix_length_too_large {data rest : Bytes} {offset len : Nat}
    (hlen : lengthBound ≤ len) (hdata : data.drop offset = decimal len ++ byteColon :: rest) :
    Node.decodePrefix data offset o = .error .invalidStringLength := by
  apply decodePrefix_of_error
  obtain ⟨d, ds, hds⟩ := List.exists_cons_of_ne_nil (decimal_ne_nil len)
  have hd : isDigit d = true := isDigit_of_mem_decimal (hds ▸ List.mem_cons_self)
  rw [hdata, hds, List.cons_append, plain_readValue_str o offset (Nat.zero_le _) hd,
    ← List.cons_append, ← hds, plain_readStr_numeral, if_pos hlen]
  rfl

theorem decodePrefix_integer_out_of_range {data rest : Bytes} {offset : Nat} {v : Int}
    (hv : v < intMin ∨ intMax < v) (hdata : data.drop offset = encodeInt v ++ rest) :
    Node.decodePrefix data offset o = .error (.invalidInteger (asciiText (decimal v.natAbs))) := by
  apply decodePrefix_of_error
  have hform : encodeInt v ++ rest = byteI :: (ofString (toString v) ++ byteE :: rest) := by
    simp [encodeInt, byteI, byteE]
  rw [hdata, hform, plain_readValue_int o offset (Nat.zero_le _), plain_readIntBody_text,
    if_neg (by omega)]
  rfl

theorem decodePrefix_nested_too_deep {data rest : Bytes} {offset : Nat}
    (hdata : data.drop offset = List.replicate (o.maxDepth + 2) byteL ++ rest) :
    Node.decodePrefix data offset o = .error .nestingTooDeep := by
  apply decodePrefix_of_error
  rw [hdata]
  exact readValue_openers_too_deep _ 0 offset rest (by omega)

/-! ## Section 2: What a successful read returns -/

/-- A node read from part of a source lying in the buffer has that part as its raw bytes. -/
theorem Source.raw?_of_split {data src r pre src' post : Bytes} {offset d : Nat} {m : Node}
    (hdata : data.drop offset = src ++ r) (hsplit : src = pre ++ src' ++ post)
    (hm : Source o d (offset + pre.length) m src') : m.raw? data = some src' := by
  have hdrop : data.drop (offset + pre.length) = src' ++ (post ++ r) :=
    drop_add_length (by rw [hdata, hsplit]; simp)
  have hlen := hm.length_eq_of_drop hdrop
  rw [Node.raw?_eq hm.span_eq (by omega) (by simp at hlen; omega), Nat.add_sub_cancel_left, hdrop,
    List.take_left]

/-- Every subtree of a tree read from the buffer has the bytes it was read from as its raw
bytes there. -/
theorem Source.subtree_raw? {data src r : Bytes} {offset : Nat} {n m : Node}
    (hsrc : Source o 0 offset n src) (hdata : data.drop offset = src ++ r) (hm : m ∈ n.subtrees) :
    ∃ d pos src', Source o d pos m src' ∧ m.raw? data = some src' := by
  obtain ⟨d, pre, src', post, -, hsplit, hm'⟩ := hsrc.subtree _ hm
  exact ⟨d, _, src', hm', Source.raw?_of_split hdata hsplit hm'⟩

/-- What a read of the tree `n` from `offset` up to `stop` in `data`, with options `o`, stays
within. -/
structure ReadInBounds (data : Bytes) (offset : Nat) (o : ReadOptions) (n : Node) (stop : Nat) :
    Prop where
  /-- At least one byte was read, and none past the end of the buffer. -/
  offset_lt : offset < stop
  stop_le : stop ≤ data.length
  /-- No node lies below the depth limit. -/
  height_le : n.height ≤ o.maxDepth
  /-- Every node was read from a nonempty part of what was read. -/
  nodes : ∀ m ∈ n.subtrees, ∃ b e, m.span = some ⟨b, e⟩ ∧ offset ≤ b ∧ b < e ∧ e ≤ stop
  /-- Every integer fits in 64 bits and was read from its own canonical text. -/
  ints : ∀ v sp, Node.int v sp ∈ n.subtrees →
    intMin ≤ v ∧ v ≤ intMax ∧ (Node.int v sp).raw? data = some (encodeInt v)
  /-- Every byte string is shorter than `2^64` bytes and was cut from the buffer after its
  length and colon. -/
  strs : ∀ b sp, Node.str b sp ∈ n.subtrees →
    b.length < lengthBound ∧ (Node.str b sp).raw? data = some (encodeStr b)
  /-- So was every dictionary key, after the position read from. -/
  keys : ∀ es sp, Node.dict es sp ∈ n.subtrees → ∀ k v, (k, v) ∈ es →
    k.length < lengthBound ∧
      ∃ kb, offset < kb ∧ (data.drop kb).take (encodeStr k).length = encodeStr k

theorem decodePrefix_in_bounds {data : Bytes} {offset : Nat} {n : Node} {stop : Nat}
    (h : Node.decodePrefix data offset o = .ok (n, stop)) : ReadInBounds data offset o n stop := by
  have hnodes := decodePrefix_node_span h
  obtain ⟨src, ⟨r, hdata⟩, hsrc, rfl⟩ := decodePrefix_eq_ok_iff.1 h
  have hlen := hsrc.length_eq_of_drop hdata.symm
  have hpos := hsrc.length_pos
  refine ⟨by omega, by omega, by simpa using hsrc.valid_and_height_le.2, ?_, ?_, ?_, ?_⟩
  · intro m hm
    obtain ⟨b, e, hsp, hb, hbe, he, -⟩ := hnodes m hm
    exact ⟨b, e, hsp, hb, hbe, he⟩
  · -- a leaf is read from its own bytes, the whole text of the value
    intro v sp hm
    obtain ⟨d, pos, src', hm', hraw⟩ := hsrc.subtree_raw? hdata.symm hm
    cases hm' with
    | int _ hmin hmax => exact ⟨hmin, hmax, hraw⟩
  · intro b sp hm
    obtain ⟨d, pos, src', hm', hraw⟩ := hsrc.subtree_raw? hdata.symm hm
    cases hm' with
    | str _ hb => exact ⟨hb, hraw⟩
  · -- a key lies inside its dictionary, whose span begins at or after `offset`
    intro es sp hm k v hkv
    obtain ⟨d, pre, src', post, -, hsplit, hm'⟩ := hsrc.subtree _ hm
    have hvalid := (Node.validEntries_iff.1 hm'.valid_and_height_le.1.2 (k, v) hkv).1
    have hdrop : data.drop (offset + pre.length) = src' ++ (post ++ r) :=
      drop_add_length (by rw [← hdata, hsplit]; simp)
    obtain ⟨b, e, kb, ve, hsp, -, hbk, -, hkey⟩ := hm'.dict_frame hdrop hkv
    obtain ⟨b', e', hsp', hb', -, -⟩ := hnodes _ hm
    simp only [Node.span, hsp, Option.some.injEq, Span.mk.injEq] at hsp'
    exact ⟨hvalid, kb, by omega, hkey⟩

/-! ## Section 3: Any buffer, any position, any options -/

/-- Reading is safe on any input. For every buffer, position and options: a successful read
stays in bounds; a position at or past the end is refused as the end of input; a string length
of `2^64` or more is refused as an invalid length, and an integer outside 64 bits as an invalid
integer, instead of being read as another number; and lists nested past the depth limit are
refused as too deep at the first level past it, whatever follows. -/
theorem decodePrefix_safe (data : Bytes) (offset : Nat) (o : ReadOptions) :
    (∀ n stop, Node.decodePrefix data offset o = .ok (n, stop) →
      ReadInBounds data offset o n stop) ∧
    (data.length ≤ offset → Node.decodePrefix data offset o = .error .unexpectedEof) ∧
    (∀ len rest, lengthBound ≤ len → data.drop offset = decimal len ++ byteColon :: rest →
      Node.decodePrefix data offset o = .error .invalidStringLength) ∧
    (∀ v rest, (v < intMin ∨ intMax < v) → data.drop offset = encodeInt v ++ rest →
      Node.decodePrefix data offset o = .error (.invalidInteger (asciiText (decimal v.natAbs)))) ∧
    (∀ rest, data.drop offset = List.replicate (o.maxDepth + 2) byteL ++ rest →
      Node.decodePrefix data offset o = .error .nestingTooDeep) :=
  ⟨fun _ _ h => decodePrefix_in_bounds h, decodePrefix_past_end,
    fun _ _ hlen hdata => decodePrefix_length_too_large hlen hdata,
    fun _ _ hv hdata => decodePrefix_integer_out_of_range hv hdata,
    fun _ hdata => decodePrefix_nested_too_deep hdata⟩

end Bencode

end BitTorrent
