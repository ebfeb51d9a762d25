import BitTorrent.Proofs.Bencode.Spans

/-!
# Values delimit themselves

A bencode value says where it ends, and the reader takes exactly its bytes: it never looks
before the position it starts at, nor past the value's last byte. So the bytes of a value read
from any position of any buffer give the tree they give when read alone, with every span moved
on by that position (`Node.shift`).

## Main statements

* `Source.shift`, `Source.unshift`: the same bytes are a source at every position, their tree
  moved with them.
* `decodePrefix_append`: a whole buffer's value, found after any prefix and before any suffix.
* `decodePrefix_eq_ok_iff_slice`: a value read from a position is the whole buffer's value of
  the bytes it spans.
* `decode_append_trailing`: bytes after a value are refused as trailing data.
* `decodePrefix_in_turn`: reading value after value, each from where the last one stopped,
  splits a concatenation of values back into them.
* `decodePrefix_self_delimiting`: the four together.
-/

namespace BitTorrent

namespace Bencode

open Bytes

variable {o : ReadOptions}

/-! ## Section 1: Moving spans -/

/-- The span moved `off` positions on. -/
def Span.shift (off : Nat) (sp : Span) : Span := ⟨sp.start + off, sp.stop + off⟩

namespace Node

mutual
/-- The same tree with every span moved `off` positions on. -/
def shift (off : Nat) : Node → Node
  | int v sp => int v (sp.map (Span.shift off))
  | str b sp => str b (sp.map (Span.shift off))
  | list items sp => list (shiftItems off items) (sp.map (Span.shift off))
  | dict es sp => dict (shiftEntries off es) (sp.map (Span.shift off))

/-- `shift` on each item of a list. -/
def shiftItems (off : Nat) : List Node → List Node
  | [] => []
  | n :: ns => shift off n :: shiftItems off ns

/-- `shift` on each value of a dictionary. -/
def shiftEntries (off : Nat) : List (Bytes × Node) → List (Bytes × Node)
  | [] => []
  | (k, v) :: es => (k, shift off v) :: shiftEntries off es
end

theorem shiftEntries_eq_map (off : Nat) (es : List (Bytes × Node)) :
    shiftEntries off es = es.map fun e => (e.1, e.2.shift off) := by
  induction es with
  | nil => rfl
  | cons e es ih => simp [shiftEntries, ih]

theorem keys_shiftEntries (off : Nat) (es : List (Bytes × Node)) :
    (shiftEntries off es).map Prod.fst = es.map Prod.fst := by
  rw [shiftEntries_eq_map, List.map_map]
  rfl

/-- Building a dictionary and moving spans commute: insertion looks at keys only. -/
theorem shiftEntries_ofList (off : Nat) (es : List (Bytes × Node)) :
    shiftEntries off (Dict.ofList es) = Dict.ofList (shiftEntries off es) := by
  rw [shiftEntries_eq_map, shiftEntries_eq_map, Dict.ofList_map]

mutual
/-- Moving spans changes nothing but spans. -/
theorem erase_shift (off : Nat) : ∀ n : Node, (n.shift off).erase = n.erase
  | int .. | str .. => rfl
  | list items _ => by simp [shift, erase, eraseItems_shiftItems off items]
  | dict es _ => by simp [shift, erase, eraseEntries_shiftEntries off es]

theorem eraseItems_shiftItems (off : Nat) :
    ∀ ns : List Node, eraseItems (shiftItems off ns) = eraseItems ns
  | [] => rfl
  | n :: ns => by simp [shiftItems, eraseItems, erase_shift off n, eraseItems_shiftItems off ns]

theorem eraseEntries_shiftEntries (off : Nat) :
    ∀ es : List (Bytes × Node), eraseEntries (shiftEntries off es) = eraseEntries es
  | [] => rfl
  | (_, v) :: es => by
    simp [shiftEntries, eraseEntries, erase_shift off v, eraseEntries_shiftEntries off es]
end

end Node

theorem map_shift_span (pos len off : Nat) :
    (some (⟨pos, pos + len⟩ : Span)).map (Span.shift off) = some ⟨pos + off, pos + off + len⟩ := by
  simp only [Option.map_some, Span.shift, Option.some.injEq, Span.mk.injEq, true_and]
  omega

/-! ## Section 2: Sources read from another position -/

mutual
/-- The bytes of a source read from `off` positions further on give the same tree with its
spans moved on by `off`. -/
theorem Source.shift (off : Nat) {depth pos : Nat} {n : Node} {src : Bytes} :
    Source o depth pos n src → Source o depth (pos + off) (n.shift off) src
  | .int hd hmin hmax => by
    rw [Node.shift, map_shift_span]
    exact .int hd hmin hmax
  | .str hd hb => by
    rw [Node.shift, map_shift_span]
    exact .str hd hb
  | .list hd hitems => by
    rw [Node.shift, map_shift_span]
    refine .list hd ?_
    rw [Nat.add_right_comm]
    exact SourceItems.shift off hitems
  | @Source.dict _ depth pos es body hd hentries hnodup hsorted => by
    rw [Node.shift, map_shift_span, Node.shiftEntries_ofList]
    -- the keys are those read, so both key checks pass as before
    have hkeys := Node.keys_shiftEntries off es
    refine .dict hd ?_ (hkeys ▸ hnodup) fun hs => SortedKeys.of_keys_eq hkeys.symm (hsorted hs)
    rw [Nat.add_right_comm]
    exact SourceEntries.shift off hentries

theorem SourceItems.shift (off : Nat) {depth pos : Nat} {items : List Node} {body : Bytes} :
    SourceItems o depth pos items body →
      SourceItems o depth (pos + off) (Node.shiftItems off items) body
  | .nil => .nil
  | @SourceItems.cons _ depth pos n ns b bs hn hns => by
    refine .cons (Source.shift off hn) ?_
    rw [Nat.add_right_comm]
    exact SourceItems.shift off hns

theorem SourceEntries.shift (off : Nat) {depth pos : Nat} {es : List (Bytes × Node)}
    {body : Bytes} : SourceEntries o depth pos es body →
      SourceEntries o depth (pos + off) (Node.shiftEntries off es) body
  | .nil => .nil
  | @SourceEntries.cons _ depth pos k v es b bs hk hv hes => by
    refine .cons hk ?_ ?_
    · rw [Nat.add_right_comm]
      exact Source.shift off hv
    · rw [Nat.add_right_comm pos off, Nat.add_right_comm (pos + _) off]
      exact SourceEntries.shift off hes
end

/-- The reader is a function: the same bytes, read at one level and position, are the source
of one tree only. -/
theorem Source.unique {depth pos : Nat} {n n' : Node} {src : Bytes}
    (h : Source o depth pos n src) (h' : Source o depth pos n' src) : n = n' := by
  have hsame := (h.read []).symm.trans (h'.read [])
  simp only [Except.ok.injEq, Prod.mk.injEq, and_true] at hsame
  exact hsame

/-- Every tree read from `off` positions further on is a tree read from the nearer position
with its spans moved on by `off`. -/
theorem Source.unshift {off depth pos : Nat} {n' : Node} {src : Bytes}
    (h : Source o depth (pos + off) n' src) : ∃ n, Source o depth pos n src ∧ n' = n.shift off := by
  obtain ⟨n, hn, -⟩ := h.rebase pos (Nat.le_refl depth)
  exact ⟨n, hn, h.unique (hn.shift off)⟩

/-! ## Section 3: Values in a buffer -/

/-- A whole buffer's value, put after any prefix and before any suffix, is read from the end
of the prefix as the same tree with its spans moved on by the prefix's length, and the reader
stops at its last byte. -/
theorem decodePrefix_append {p x y : Bytes} {n : Node} (h : Node.decode x o = .ok n) :
    Node.decodePrefix (p ++ x ++ y) p.length o = .ok (n.shift p.length, p.length + x.length) := by
  have hsrc : Source o 0 p.length (n.shift p.length) x := by
    simpa using (decode_eq_ok_iff.1 h).shift p.length
  exact decodePrefix_eq_ok_iff.2 ⟨x, ⟨y, by simp⟩, hsrc, rfl⟩

/-- A value read from position `off` of a buffer is, spans moved back by `off`, the whole
buffer's value of the bytes it spans, which lie inside the buffer and are not empty. -/
theorem decodePrefix_eq_ok_iff_slice {data : Bytes} {off stop : Nat} {n' : Node} :
    Node.decodePrefix data off o = .ok (n', stop) ↔
      off < stop ∧ stop ≤ data.length ∧
        ∃ n, Node.decode ((data.drop off).take (stop - off)) o = .ok n ∧ n' = n.shift off := by
  rw [decodePrefix_eq_ok_iff]
  constructor
  · rintro ⟨src, hpre, hsrc, rfl⟩
    have hpos := hsrc.length_pos
    have hlen : src.length ≤ data.length - off := by
      simpa using hpre.length_le
    have hslice : (data.drop off).take (off + src.length - off) = src := by
      rw [Nat.add_sub_cancel_left]
      exact (List.prefix_iff_eq_take.1 hpre).symm
    have hsrc0 : Source o 0 (0 + off) n' src := by rwa [Nat.zero_add]
    obtain ⟨n, hn, rfl⟩ := Source.unshift hsrc0
    refine ⟨by omega, by omega, n, ?_, rfl⟩
    rw [hslice]
    exact decode_eq_ok_iff.2 hn
  · rintro ⟨hlt, hle, n, hn, rfl⟩
    -- the bytes spanned, read from `off`, are a source of the moved tree
    have hsrc := (decode_eq_ok_iff.1 hn).shift off
    rw [Nat.zero_add] at hsrc
    refine ⟨_, List.take_prefix _ _, hsrc, ?_⟩
    simp only [List.length_take, List.length_drop]
    omega

/-- Bytes after a whole buffer's value make the buffer fail, at the position where they
start. -/
theorem decode_append_trailing {x y : Bytes} {n : Node} (h : Node.decode x o = .ok n)
    (hy : y ≠ []) : Node.decode (x ++ y) o = .error (.trailingData x.length) := by
  have hread : Node.decodePrefix (x ++ y) 0 o = .ok (n.shift 0, x.length) := by
    simpa using @decodePrefix_append o [] x y n h
  have hstop : x.length ≠ (x ++ y).length := by
    have : y.length ≠ 0 := by simpa using hy
    simp only [List.length_append]
    omega
  unfold Node.decode
  rw [hread]
  simp [hy]

/-- Values written one after another are read back one after another: the `i`-th read,
started where the one before it stopped, gives the `i`-th value with its spans moved on by
the length of the values before it, and stops where the next one starts. -/
theorem decodePrefix_in_turn {xs : List (Bytes × Node)}
    (h : ∀ e ∈ xs, Node.decode e.1 o = .ok e.2) (i : Nat) (hi : i < xs.length) :
    Node.decodePrefix (xs.map Prod.fst).flatten ((xs.take i).map Prod.fst).flatten.length o =
      .ok (xs[i].2.shift ((xs.take i).map Prod.fst).flatten.length,
        ((xs.take (i + 1)).map Prod.fst).flatten.length) := by
  -- the buffer is the values before the `i`-th, the `i`-th, and the values after it
  have hsplit : (xs.map Prod.fst).flatten =
      ((xs.take i).map Prod.fst).flatten ++ xs[i].1 ++ ((xs.drop (i + 1)).map Prod.fst).flatten := by
    have hxs : xs = xs.take i ++ xs[i] :: xs.drop (i + 1) := by
      rw [List.getElem_cons_drop, List.take_append_drop]
    conv_lhs => rw [hxs]
    simp only [List.map_append, List.map_cons, List.flatten_append, List.flatten_cons,
      List.append_assoc]
  have hstop : ((xs.take (i + 1)).map Prod.fst).flatten.length =
      ((xs.take i).map Prod.fst).flatten.length + xs[i].1.length := by
    simp only [List.take_add_one, List.getElem?_eq_getElem hi, Option.toList_some, List.map_append,
      List.map_cons, List.map_nil, List.flatten_append, List.flatten_cons, List.flatten_nil,
      List.append_nil, List.length_append]
  rw [hsplit, hstop]
  exact decodePrefix_append (h _ (List.getElem_mem hi))

/-- Bencode values delimit themselves, and reading them does not depend on where they are.
A whole buffer's value, put anywhere in a larger buffer, is read from where it starts as the
same tree with every span moved on by that position, and the reader stops at its end.
Conversely every value read from a position is of this kind, the bytes it spans being the
whole buffer. Bytes after a value therefore make a whole buffer fail as trailing data, and
values written one after another are read back one by one, each read starting where the last
one stopped. -/
theorem decodePrefix_self_delimiting (o : ReadOptions) :
    (∀ (p x y : Bytes) (n : Node), Node.decode x o = .ok n →
      Node.decodePrefix (p ++ x ++ y) p.length o = .ok (n.shift p.length, p.length + x.length)) ∧
    (∀ (data : Bytes) (off : Nat) (n' : Node) (stop : Nat),
      Node.decodePrefix data off o = .ok (n', stop) →
      ∃ n, data = data.take off ++ (data.drop off).take (stop - off) ++ data.drop stop ∧
        off < stop ∧ Node.decode ((data.drop off).take (stop - off)) o = .ok n ∧
        n' = n.shift off) ∧
    (∀ (x y : Bytes) (n : Node), Node.decode x o = .ok n → y ≠ [] →
      Node.decode (x ++ y) o = .error (.trailingData x.length)) ∧
    (∀ xs : List (Bytes × Node), (∀ e ∈ xs, Node.decode e.1 o = .ok e.2) →
      ∀ (i : Nat) (hi : i < xs.length),
        Node.decodePrefix (xs.map Prod.fst).flatten ((xs.take i).map Prod.fst).flatten.length o =
          .ok (xs[i].2.shift ((xs.take i).map Prod.fst).flatten.length,
            ((xs.take (i + 1)).map Prod.fst).flatten.length)) := by
  refine ⟨fun p x y n h => decodePrefix_append h, ?_, fun x y n h hy => decode_append_trailing h hy,
    fun xs h i hi => decodePrefix_in_turn h i hi⟩
  intro data off n' stop h
  obtain ⟨hlt, hle, n, hn, rfl⟩ := decodePrefix_eq_ok_iff_slice.1 h
  refine ⟨n, ?_, hlt, hn, rfl⟩
  -- the buffer is what comes before the value, the value, and what comes after it
  have hdrop : (data.drop off).drop (stop - off) = data.drop stop := by
    rw [List.drop_drop]
    congr 1
    omega
  rw [List.append_assoc, ← hdrop, List.take_append_drop, List.take_append_drop]

end Bencode

end BitTorrent
