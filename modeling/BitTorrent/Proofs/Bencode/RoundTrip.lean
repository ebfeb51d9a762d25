import BitTorrent.Proofs.Bencode.Readable

/-!
# Reading inverts writing

The two directions of the reader and the writer put together.

The lenient reader with depth limit `d` accepts a byte string as a valid tree `n`, up to spans,
exactly when the bytes are a written form of `n` (its encoding with the entries of any of its
dictionaries in any order) and `n` has no node below level `d`
(`decode_lenient_eq_ok_iff_written`). So reading the encoding of a tree gives the tree back,
and a tree deeper than the limit is refused as too deep.

The strict reader is the lenient one restricted to canonical input: it returns a tree exactly
when the lenient reader returns the same tree, spans included, and the tree's encoding is the
input (`decode_strict_eq_ok_iff`).
-/

namespace BitTorrent

namespace Bencode

open Bytes

variable {o : ReadOptions}

/-! ## Section 1: Lenient reading -/

/-- A tree read from a buffer is valid, within the depth limit, and the buffer is a written form
of it. -/
theorem written_of_decode {b : Bytes} {m : Node} (h : Node.decode b o = .ok m) :
    Written m b ∧ m.Valid ∧ m.height ≤ o.maxDepth := by
  have hsrc := decode_eq_ok_iff.1 h
  obtain ⟨hvalid, hheight⟩ := hsrc.valid_and_height_le
  exact ⟨hsrc.written, hvalid, by simpa using hheight⟩

/-- The lenient reader reads every written form of a valid tree within its depth limit. -/
theorem decode_of_written (hs : o.strictKeyOrder = false) {n : Node} {b : Bytes} (hn : n.Valid)
    (hw : Written n b) (hd : n.height ≤ o.maxDepth) :
    ∃ m, Node.decode b o = .ok m ∧ (m == n) = true := by
  obtain ⟨m, hm, he⟩ := Written.source hs hw hn 0 0 (by simpa using hd)
  exact ⟨m, decode_eq_ok_iff.2 hm, Node.beq_iff_erase_eq.2 he⟩

/-- The canonical encoding of a valid tree with a node below the depth limit is refused as too
deep, by either reader. -/
theorem decode_encode_too_deep {n : Node} (hn : n.Valid) (hd : o.maxDepth < n.height) :
    Node.decode n.encode o = .error .nestingTooDeep := by
  apply decode_eq_error
  have h := readValue_encode_too_deep n hn 0 0 [] (by simpa using hd)
  rwa [List.append_nil] at h

/-- The lenient reader accepts exactly the written forms of a valid tree that lie within its
depth limit, and gives the tree back up to spans. In particular the default reader reads back
the encoding of every tree at most 64 levels deep, and refuses the encoding of a deeper one. -/
theorem decode_lenient_eq_ok_iff_written {n : Node} (hn : n.Valid) (d : Nat) (b : Bytes) :
    ((∃ m, Node.decode b { maxDepth := d, strictKeyOrder := false } = .ok m ∧ (m == n) = true) ↔
      Written n b ∧ n.height ≤ d) ∧
    (n.height ≤ 64 → ∃ m, Node.decode n.encode = .ok m ∧ (m == n) = true) ∧
    (64 < n.height → Node.decode n.encode = .error .nestingTooDeep) := by
  refine ⟨⟨?_, ?_⟩, ?_, ?_⟩
  · rintro ⟨m, hm, hbeq⟩
    obtain ⟨hw, -, hheight⟩ := written_of_decode hm
    -- the tree read and `n` agree up to spans, so have the same written forms and height
    have he := Node.beq_iff_erase_eq.1 hbeq
    exact ⟨hw.of_erase_eq he, Node.height_eq_of_erase_eq he ▸ hheight⟩
  · rintro ⟨hw, hd⟩
    exact decode_of_written rfl hn hw hd
  · intro hd
    exact decode_of_written rfl hn (written_encode n) hd
  · intro hd
    exact decode_encode_too_deep hn hd

/-- The dictionary `d1:ai1e1:bl1:xee` written with its keys out of order is read back by the
lenient reader. -/
theorem decode_lenient_reordered_dictionary :
    ∃ m, Node.decode (ofString "d1:bl1:xe1:ai1ee") { maxDepth := 2, strictKeyOrder := false } =
        .ok m ∧ (m == .dict [([97], .int 1 none), ([98], .list [.str [120] none] none)] none) = true := by
  refine (decode_lenient_eq_ok_iff_written ?valid 2 _).1.2 ⟨?written, by decide⟩
  case valid =>
    simp only [Node.Valid, Node.ValidEntries, Node.ValidItems, SortedKeys]
    decide
  case written =>
    -- the entry under `b` comes first, then the one under `a`
    have hbytes : ofString "d1:bl1:xe1:ai1ee" =
        [100] ++ (encodeStr [98] ++ ([108] ++ (encodeStr [120] ++ []) ++ [101]) ++
          (encodeStr [97] ++ encodeInt 1 ++ [])) ++ [101] := by
      decide +kernel
    rw [hbytes]
    exact .dict none (List.Perm.swap _ _ _)
      (.cons (.list none (.cons (.str _ none) .nil)) (.cons (.int 1 none) .nil))

/-! ## Section 2: Strict reading -/

/-- The strict reader reads a source exactly when the lenient reader reads it and the source is
the canonical encoding of the tree read. -/
theorem source_strict_iff {d depth pos : Nat} {n : Node} {src : Bytes} :
    Source { maxDepth := d, strictKeyOrder := true } depth pos n src ↔
      Source { maxDepth := d, strictKeyOrder := false } depth pos n src ∧ n.encode = src := by
  constructor
  · intro h
    exact ⟨h.mono (Nat.le_refl d) (fun h => by cases h), h.encode_eq rfl⟩
  · rintro ⟨h, hencode⟩
    obtain ⟨hvalid, hheight⟩ := h.valid_and_height_le
    -- the strict reader reads the canonical encoding as some tree equal up to spans ...
    obtain ⟨m, hm, -⟩ :=
      @source_encode { maxDepth := d, strictKeyOrder := true } n hvalid depth pos hheight
    rw [hencode] at hm
    -- ... which the lenient reader reads too, and it reads only one tree from the same bytes
    have hm' : Source { maxDepth := d, strictKeyOrder := false } depth pos m src :=
      hm.mono (Nat.le_refl d) (fun h => by cases h)
    have hsame := (h.read []).symm.trans (hm'.read [])
    simp only [Except.ok.injEq, Prod.mk.injEq, and_true] at hsame
    rw [hsame]
    exact hm

/-- Strict reading is lenient reading restricted to canonical input: the strict reader returns
a tree exactly when the lenient one returns the same tree, spans included, and that tree
encodes to the input. So a tree read leniently encodes back to the input exactly when every
dictionary of the input lists its keys in strictly ascending order, which is what the strict
source relation adds. -/
theorem decode_strict_eq_ok_iff (d : Nat) (b : Bytes) (n : Node) :
    (Node.decode b { maxDepth := d, strictKeyOrder := true } = .ok n ↔
      Node.decode b { maxDepth := d, strictKeyOrder := false } = .ok n ∧ n.encode = b) ∧
    (Node.decode b { maxDepth := d, strictKeyOrder := false } = .ok n →
      (n.encode = b ↔ Source { maxDepth := d, strictKeyOrder := true } 0 0 n b)) := by
  refine ⟨?_, ?_⟩
  · rw [decode_eq_ok_iff, decode_eq_ok_iff]
    exact source_strict_iff
  · intro h
    rw [source_strict_iff, ← decode_eq_ok_iff]
    simp [h]

end Bencode

end BitTorrent
