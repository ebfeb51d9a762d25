import BitTorrent.Proofs.Bencode.RoundTrip
import BitTorrent.Proofs.Bencode.Spans
import BitTorrent.Torrent.Validation

/-!
# The bytes an info hash digests

A torrent is named by the digest of the bytes its info value was read from. For every buffer
read as a tree whose `info` entry is a dictionary, those bytes are exactly the part of the
buffer under the info value's span: `Metainfo.infoHash` never fails for such a tree, so
`Metainfo.fromBytes` succeeds whenever `Metainfo.parse` does. The digested bytes are the
canonical encoding of the info value, the bytes `Metainfo.infoHashReencoded` digests, exactly
when the strict reader accepts them, that is when every dictionary inside the info value lists
its keys in ascending order. All of this holds for every `Hasher`: nothing is assumed of the
digest but the length of its results.
-/

namespace BitTorrent

open Bencode Bytes

namespace Bencode

/-- A value of a dictionary is a node of the dictionary's tree. -/
theorem mem_subtrees_of_get? {root v : Node} {k : Bytes} (h : root.get? k = some v) :
    v ∈ root.subtrees := by
  cases root with
  | dict es sp =>
    have hmem : (k, v) ∈ es := Dict.find?_mem h
    simp only [Node.subtrees, List.mem_cons]
    exact .inr (Node.mem_subtreesEntries.2 ⟨(k, v), hmem, Node.mem_subtrees_self v⟩)
  | _ => cases h

/-- Bytes read back alone by the lenient reader as a tree equal to `n` up to spans are the
canonical encoding of `n` exactly when the strict reader accepts them. -/
theorem eq_encode_iff_decode_strict {raw : Bytes} {m n : Node} {d : Nat}
    (h : Node.decode raw { maxDepth := d, strictKeyOrder := false } = .ok m) (he : (m == n) = true) :
    raw = n.encode ↔ ∃ n', Node.decode raw { maxDepth := d, strictKeyOrder := true } = .ok n' := by
  -- the canonical encoding does not see spans
  have hencode : m.encode = n.encode := Node.encode_eq_of_erase_eq (Node.beq_iff_erase_eq.1 he)
  have hsrc := decode_eq_ok_iff.1 h
  constructor
  · intro hraw
    refine ⟨m, decode_eq_ok_iff.2 (source_strict_iff.2 ⟨hsrc, ?_⟩)⟩
    rw [hencode, hraw]
  · rintro ⟨n', hn'⟩
    obtain ⟨hlenient, hcanon⟩ := source_strict_iff.1 (decode_eq_ok_iff.1 hn')
    -- the lenient reader reads one tree from the bytes, so the strict reader's is `m`
    have hsame : n' = m := by
      have h' := decode_eq_ok_iff.2 hlenient
      rw [h] at h'
      exact (Except.ok.inj h').symm
    rw [← hencode, ← hcanon, hsame]

end Bencode

namespace Torrent

namespace Metainfo

/-- The info value of a tree whose `info` entry is a dictionary. -/
theorem infoNode_eq {root : Node} {es : Dict} {sp : Option Span}
    (h : root.get? (ofString "info") = some (.dict es sp)) : infoNode root = .ok (.dict es sp) := by
  cases root with
  | dict top tsp =>
    have hfind : Dict.find? (ofString "info") top = some (.dict es sp) := h
    simp only [infoNode, rootFields, Fields.wrap, Node.asDict?, Fields.child, Fields.required,
      Fields.find?, bind, Except.bind, hfind]
  | _ => cases h

section Digest

variable (H : Hasher)

theorem infoHash_eq {root : Node} {es : Dict} {sp : Option Span} {data raw : Bytes}
    (h : root.get? (ofString "info") = some (.dict es sp))
    (hraw : (Node.dict es sp).raw? data = some raw) :
    infoHash H root data = .ok (InfoHash.ofInfoBytes H raw) := by
  simp only [infoHash, infoNode_eq h, bind, Except.bind, hraw]

theorem infoHashReencoded_eq {root : Node} {es : Dict} {sp : Option Span}
    (h : root.get? (ofString "info") = some (.dict es sp)) :
    infoHashReencoded H root = .ok (InfoHash.ofInfoBytes H (Node.dict es sp).encode) := by
  simp only [infoHashReencoded, infoNode_eq h, bind, Except.bind]

/-- Reading a torrent file fails only in decoding, validating or naming it. -/
theorem fromBytes_eq {data : Bytes} {root : Node} {m : Metainfo} {h : InfoHash}
    (hdecode : Node.decode data = .ok root) (hparse : parse root = .ok m)
    (hhash : infoHash H root data = .ok h) : fromBytes H data = .ok (m, h) := by
  simp only [fromBytes, hdecode, hparse, hhash, bind, Except.bind, pure, Except.pure]

/-- Whatever the digest, the info hash digests exactly the bytes under the info value's span, so
naming a torrent never fails once it is read and validated; those bytes are the info value's
canonical encoding exactly when the strict reader accepts them. -/
theorem infoHash_eq_digest_of_span {data : Bytes} {root : Node} {es : Dict} {sp : Option Span}
    (h : Node.decode data = .ok root) (hinfo : root.get? (ofString "info") = some (.dict es sp)) :
    ∃ b e, sp = some ⟨b, e⟩ ∧
      infoHash H root data = .ok (InfoHash.ofInfoBytes H ((data.drop b).take (e - b))) ∧
      (∀ m, parse root = .ok m →
        fromBytes H data = .ok (m, InfoHash.ofInfoBytes H ((data.drop b).take (e - b)))) ∧
      infoHashReencoded H root = .ok (InfoHash.ofInfoBytes H (Node.dict es sp).encode) ∧
      ((data.drop b).take (e - b) = (Node.dict es sp).encode ↔
        ∃ n, Node.decode ((data.drop b).take (e - b)) { strictKeyOrder := true } = .ok n) := by
  -- the info value is a node of the tree read, so its span is exact
  obtain ⟨b, e, hspan, -, -, -, hraw, m', hm', hbeq⟩ :=
    decodePrefix_node_span (decode_eq_ok_iff_decodePrefix.1 h) _ (mem_subtrees_of_get? hinfo)
  have hhash := infoHash_eq H hinfo hraw
  refine ⟨b, e, hspan, hhash, fun m hm => fromBytes_eq H h hm hhash, infoHashReencoded_eq H hinfo,
    ?_⟩
  exact eq_encode_iff_decode_strict hm' hbeq

end Digest

/-- The torrent `d4:infod1:ai1eee` is named by the digest of the bytes under its info value's
span. -/
theorem infoHash_small_torrent :
    ∃ root es sp, Node.decode (ofString "d4:infod1:ai1eee") = .ok root ∧
      root.get? (ofString "info") = some (.dict es sp) ∧
      ∃ b e, sp = some ⟨b, e⟩ ∧ infoHash .sha1 root (ofString "d4:infod1:ai1eee") =
        .ok (InfoHash.ofInfoBytes .sha1 (((ofString "d4:infod1:ai1eee").drop b).take (e - b))) := by
  obtain ⟨root, es, sp, hdecode, hinfo⟩ : ∃ root es sp,
      Node.decode (ofString "d4:infod1:ai1eee") = .ok root ∧
        root.get? (ofString "info") = some (.dict es sp) := by
    -- the root holds one entry, `info`, whose value holds one entry, `a`
    rw [show ofString "d4:infod1:ai1eee" = [byteD] ++ (encodeStr [105, 110, 102, 111] ++
        ([byteD] ++ (encodeStr [97] ++ encodeInt 1 ++ []) ++ [byteE]) ++ []) ++ [byteE] by
      decide +kernel]
    rw [show ofString "info" = [105, 110, 102, 111] by decide +kernel]
    have hinner : Source {} 1 (1 + (encodeStr [105, 110, 102, 111]).length) _
        ([byteD] ++ (encodeStr [97] ++ encodeInt 1 ++ []) ++ [byteE]) :=
      .dict (by decide) (.cons (by decide) (.int (by decide) (by decide) (by decide)) .nil)
        (by decide) (fun h => by cases h)
    exact ⟨_, _, _, decode_eq_ok_iff.2 (.dict (by decide) (.cons (by decide) hinner .nil)
      (by decide) (fun h => by cases h)), rfl⟩
  obtain ⟨b, e, hsp, hhash, -⟩ := infoHash_eq_digest_of_span .sha1 hdecode hinfo
  exact ⟨root, es, sp, hdecode, hinfo, b, e, hsp, hhash⟩

end Metainfo

end Torrent

end BitTorrent
