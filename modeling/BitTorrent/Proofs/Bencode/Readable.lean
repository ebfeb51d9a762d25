import BitTorrent.Proofs.Bencode.ReadTrees

/-!
# Trees that are read back

Which bytes the reader accepts, seen from the trees. Every valid tree that lies within the
depth limit is read back from its canonical encoding by every reader (`source_encode`), and
from any written form of it by the lenient reader (`Written.source`), in both cases as the
same tree up to spans. A valid tree deeper than the limit is refused from its canonical
encoding as too deep (`readValue_encode_too_deep`), since nothing before its first node below
the limit fails.
-/

namespace BitTorrent

namespace Bencode

open Bytes

variable {o : ReadOptions}

/-! ## Section 1: Dictionaries from their entries -/

/-- Entries read in an order that is a permutation, up to spans, of the entries of a sorted
dictionary are stored as that dictionary. -/
theorem Source.dict_of_perm {depth pos : Nat} {es es' : List (Bytes × Node)} {body : Bytes}
    (sp : Option Span) (hd : depth ≤ o.maxDepth)
    (hentries : SourceEntries o depth (pos + 1) es' body)
    (hperm : (Node.eraseEntries es').Perm (Node.eraseEntries es)) (hsorted : SortedKeys es)
    (hstrict : o.strictKeyOrder = true → SortedKeys es') :
    ∃ m, Source o depth pos m ([byteD] ++ body ++ [byteE]) ∧ m.erase = (Node.dict es sp).erase := by
  have hkeys : (es'.map Prod.fst).Perm (es.map Prod.fst) := by
    rw [← Node.keys_eraseEntries es', ← Node.keys_eraseEntries es]
    exact hperm.map Prod.fst
  have hnodup : (es'.map Prod.fst).Nodup := hkeys.nodup_iff.2 hsorted.nodup_keys
  refine ⟨_, .dict hd hentries hnodup hstrict, ?_⟩
  -- sorting the entries read gives back the dictionary's own order
  have hsorted' : SortedKeys (Node.eraseEntries es) :=
    SortedKeys.of_keys_eq (Node.keys_eraseEntries es).symm hsorted
  simp only [Node.erase, Node.eraseEntries_ofList, Dict.ofList_eq_of_perm hperm hsorted']

/-- The first byte of an encoding is never the `e` that ends a list or a dictionary. -/
theorem head_encode_ne_byteE (n : Node) (r : Bytes) :
    ∃ c, (n.encode ++ r).head? = some c ∧ c ≠ byteE := by
  cases n with
  | int v sp => exact ⟨byteI, rfl, by decide⟩
  | str b sp =>
    obtain ⟨c, hc, hdig⟩ := head_encodeStr b r
    refine ⟨c, hc, ?_⟩
    rintro rfl
    rw [isDigit_byteE] at hdig
    cases hdig
  | list items sp => exact ⟨byteL, rfl, by decide⟩
  | dict es sp => exact ⟨byteD, rfl, by decide⟩

/-! ## Section 2: Canonical encodings are read by every reader -/

mutual
/-- Every reader reads a valid tree back from its canonical encoding when the tree lies within
its depth limit. -/
theorem source_encode : ∀ n : Node, n.Valid → ∀ depth pos, depth + n.height ≤ o.maxDepth →
    ∃ m, Source o depth pos m n.encode ∧ m.erase = n.erase
  | .int v sp, hv, depth, pos, hd => ⟨_, .int (Nat.le_of_add_right_le hd) hv.1 hv.2, rfl⟩
  | .str b sp, hv, depth, pos, hd => ⟨_, .str (Nat.le_of_add_right_le hd) hv, rfl⟩
  | .list items sp, hv, depth, pos, hd => by
    obtain ⟨items', hitems, he⟩ := sourceItems_encodeItems items hv depth (pos + 1) hd
    exact ⟨_, .list (Nat.le_of_add_right_le hd) hitems, by simp [Node.erase, he]⟩
  | .dict es sp, hv, depth, pos, hd => by
    obtain ⟨hsorted, hvalid⟩ := hv
    obtain ⟨es', hentries, he⟩ := sourceEntries_encodeEntries es hvalid depth (pos + 1) hd
    -- the entries come in the dictionary's own order, which the strict reader accepts
    have hkeys : es.map Prod.fst = es'.map Prod.fst := by
      rw [← Node.keys_eraseEntries es', he, Node.keys_eraseEntries]
    exact Source.dict_of_perm sp (Nat.le_of_add_right_le hd) hentries (he ▸ List.Perm.refl _)
      hsorted fun _ => SortedKeys.of_keys_eq hkeys hsorted

theorem sourceItems_encodeItems : ∀ ns : List Node, Node.ValidItems ns →
    ∀ depth pos, depth + Node.heightItems ns ≤ o.maxDepth →
      ∃ ms, SourceItems o depth pos ms (Node.encodeItems ns) ∧
        Node.eraseItems ms = Node.eraseItems ns
  | [], _, depth, pos, _ => ⟨[], .nil, rfl⟩
  | n :: ns, hv, depth, pos, hd => by
    have hmax := Node.heightItems_cons n ns
    obtain ⟨m, hm, he⟩ := source_encode n hv.1 (depth + 1) pos (by omega)
    obtain ⟨ms, hms, hes⟩ :=
      sourceItems_encodeItems ns hv.2 depth (pos + n.encode.length) (by omega)
    exact ⟨m :: ms, .cons hm hms, by simp [Node.eraseItems, he, hes]⟩

theorem sourceEntries_encodeEntries : ∀ es : List (Bytes × Node), Node.ValidEntries es →
    ∀ depth pos, depth + Node.heightEntries es ≤ o.maxDepth →
      ∃ es', SourceEntries o depth pos es' (Node.encodeEntries es) ∧
        Node.eraseEntries es' = Node.eraseEntries es
  | [], _, depth, pos, _ => ⟨[], .nil, rfl⟩
  | (k, v) :: es, hv, depth, pos, hd => by
    obtain ⟨hk, hvv, hves⟩ := hv
    have hmax := Node.heightEntries_cons k v es
    obtain ⟨m, hm, he⟩ := source_encode v hvv (depth + 1) (pos + (encodeStr k).length) (by omega)
    obtain ⟨es', hes', hes⟩ := sourceEntries_encodeEntries es hves depth
      (pos + (encodeStr k).length + v.encode.length) (by omega)
    exact ⟨(k, m) :: es', .cons hk hm hes', by simp [Node.eraseEntries, he, hes]⟩
end

/-! ## Section 3: Written forms are read by the lenient reader -/

mutual
/-- A reader that does not check key order reads a valid tree back from any of its written
forms, when the tree lies within its depth limit. -/
theorem Written.source (hs : o.strictKeyOrder = false) {n : Node} {b : Bytes} :
    Written n b → n.Valid → ∀ depth pos, depth + n.height ≤ o.maxDepth →
      ∃ m, Source o depth pos m b ∧ m.erase = n.erase
  | .int v sp, hv, depth, pos, hd => ⟨_, .int (Nat.le_of_add_right_le hd) hv.1 hv.2, rfl⟩
  | .str s sp, hv, depth, pos, hd => ⟨_, .str (Nat.le_of_add_right_le hd) hv, rfl⟩
  | .list sp hitems, hv, depth, pos, hd => by
    obtain ⟨items', hitems', he⟩ := WrittenItems.source hs hitems hv depth (pos + 1) hd
    exact ⟨_, .list (Nat.le_of_add_right_le hd) hitems', by simp [Node.erase, he]⟩
  | @Written.dict es es' body sp hperm hentries, hv, depth, pos, hd => by
    obtain ⟨hsorted, hvalid⟩ := hv
    -- the entries as written are as valid and as deep as the dictionary's own
    have hvalid' : Node.ValidEntries es' := (Node.validEntries_perm hperm).2 hvalid
    have hd' : depth + Node.heightEntries es' ≤ o.maxDepth := by
      rw [Node.heightEntries_perm hperm]
      exact hd
    obtain ⟨es'', hentries', he⟩ := WrittenEntries.source hs hentries hvalid' depth (pos + 1) hd'
    have hperm' : (Node.eraseEntries es'').Perm (Node.eraseEntries es) := by
      rw [he, Node.eraseEntries_eq_map, Node.eraseEntries_eq_map]
      exact hperm.map _
    exact Source.dict_of_perm sp (Nat.le_of_add_right_le hd) hentries' hperm' hsorted
      fun h => absurd h (by simp [hs])

theorem WrittenItems.source (hs : o.strictKeyOrder = false) {items : List Node} {body : Bytes} :
    WrittenItems items body → Node.ValidItems items →
      ∀ depth pos, depth + Node.heightItems items ≤ o.maxDepth →
        ∃ items', SourceItems o depth pos items' body ∧
          Node.eraseItems items' = Node.eraseItems items
  | .nil, _, depth, pos, _ => ⟨[], .nil, rfl⟩
  | @WrittenItems.cons n ns b bs hn hns, hv, depth, pos, hd => by
    have hmax := Node.heightItems_cons n ns
    obtain ⟨m, hm, he⟩ := Written.source hs hn hv.1 (depth + 1) pos (by omega)
    obtain ⟨ms, hms, hes⟩ := WrittenItems.source hs hns hv.2 depth (pos + b.length) (by omega)
    exact ⟨m :: ms, .cons hm hms, by simp [Node.eraseItems, he, hes]⟩

theorem WrittenEntries.source (hs : o.strictKeyOrder = false) {es : List (Bytes × Node)}
    {body : Bytes} : WrittenEntries es body → Node.ValidEntries es →
      ∀ depth pos, depth + Node.heightEntries es ≤ o.maxDepth →
        ∃ es', SourceEntries o depth pos es' body ∧ Node.eraseEntries es' = Node.eraseEntries es
  | .nil, _, depth, pos, _ => ⟨[], .nil, rfl⟩
  | @WrittenEntries.cons k v es b bs hv hes, hvalid, depth, pos, hd => by
    obtain ⟨hk, hvv, hves⟩ := hvalid
    have hmax := Node.heightEntries_cons k v es
    obtain ⟨m, hm, he⟩ :=
      Written.source hs hv hvv (depth + 1) (pos + (encodeStr k).length) (by omega)
    obtain ⟨es', hes', hes''⟩ :=
      WrittenEntries.source hs hes hves depth (pos + (encodeStr k).length + b.length) (by omega)
    exact ⟨(k, m) :: es', .cons hk hm hes', by simp [Node.eraseEntries, he, hes'']⟩
end

/-! ## Section 4: Trees deeper than the limit -/

mutual
/-- The canonical encoding of a valid tree deeper than the limit is refused as too deep: the
reader goes through the nodes in source order, every node before the first one below the
limit is read, and that one is refused before any of its bytes is looked at. -/
theorem readValue_encode_too_deep : ∀ n : Node, n.Valid → ∀ depth pos r,
    o.maxDepth < depth + n.height →
      plain (readValue o depth pos (n.encode ++ r)) = .error .nestingTooDeep
  | .int v sp, _, depth, pos, r, hd => plain_readValue_deep o pos hd _
  | .str b sp, _, depth, pos, r, hd => plain_readValue_deep o pos hd _
  | .list items sp, hv, depth, pos, r, hd => by
    by_cases hdeep : o.maxDepth < depth
    · exact plain_readValue_deep o pos hdeep _
    have hsrc : (Node.list items sp).encode ++ r =
        byteL :: (Node.encodeItems items ++ byteE :: r) := by
      simp [Node.encode, byteL, byteE]
    rw [hsrc, plain_readValue_list o pos (Nat.not_lt.1 hdeep),
      readItems_encode_too_deep items hv depth (pos + 1) r (Nat.not_lt.1 hdeep) hd]
    rfl
  | .dict es sp, hv, depth, pos, r, hd => by
    by_cases hdeep : o.maxDepth < depth
    · exact plain_readValue_deep o pos hdeep _
    obtain ⟨hsorted, hvalid⟩ := hv
    have hfit : KeysFit o [] none es := keysFit_nil_none.2 ⟨hsorted.nodup_keys, fun _ => hsorted⟩
    have hsrc : (Node.dict es sp).encode ++ r =
        byteD :: (Node.encodeEntries es ++ byteE :: r) := by
      simp [Node.encode, byteD, byteE]
    rw [hsrc, plain_readValue_dict o pos (Nat.not_lt.1 hdeep),
      readEntries_encode_too_deep es hvalid depth (pos + 1) r hfit (Nat.not_lt.1 hdeep) hd]
    rfl

theorem readItems_encode_too_deep : ∀ ns : List Node, Node.ValidItems ns →
    ∀ depth pos r, depth ≤ o.maxDepth → o.maxDepth < depth + Node.heightItems ns →
      plain (readItems o depth pos (Node.encodeItems ns ++ byteE :: r)) = .error .nestingTooDeep
  | [], _, depth, pos, r, hdepth, hd => absurd hd (by simpa [Node.heightItems] using hdepth)
  | n :: ns, hv, depth, pos, r, hdepth, hd => by
    have hmax := Node.heightItems_cons n ns
    obtain ⟨c, hc, hce⟩ := head_encode_ne_byteE n (Node.encodeItems ns ++ byteE :: r)
    rw [Node.encodeItems, List.append_assoc, plain_readItems_cons o pos hc hce]
    by_cases hn : o.maxDepth < depth + 1 + n.height
    · rw [readValue_encode_too_deep n hv.1 (depth + 1) pos _ (by omega)]
      rfl
    · -- this item is read, and the node below the limit comes later
      obtain ⟨m, hm, -⟩ := @source_encode o n hv.1 (depth + 1) pos (by omega)
      rw [hm.read]
      simp only [Except.bind, length_append_sub_length]
      rw [readItems_encode_too_deep ns hv.2 depth (pos + n.encode.length) r hdepth (by omega)]
      rfl

theorem readEntries_encode_too_deep : ∀ es : List (Bytes × Node), Node.ValidEntries es →
    ∀ {acc : Dict} {last : Option Bytes} depth pos r, KeysFit o acc last es →
      depth ≤ o.maxDepth → o.maxDepth < depth + Node.heightEntries es →
        plain (readEntries o depth pos (Node.encodeEntries es ++ byteE :: r) acc last) =
          .error .nestingTooDeep
  | [], _, _, _, depth, pos, r, _, hdepth, hd =>
    absurd hd (by simpa [Node.heightEntries] using hdepth)
  | (k, v) :: es, hv, acc, last, depth, pos, r, hfit, hdepth, hd => by
    obtain ⟨hk, hvv, hves⟩ := hv
    obtain ⟨hfresh, hord, hfit'⟩ := hfit.of_cons
    have hmax := Node.heightEntries_cons k v es
    obtain ⟨c, hc, hdig⟩ := head_encodeStr k (v.encode ++ (Node.encodeEntries es ++ byteE :: r))
    rw [Node.encodeEntries, List.append_assoc, List.append_assoc,
      plain_readEntries_key o pos hc hdig, readStr_complete hk]
    simp only [Except.bind, length_append_sub_length]
    by_cases hn : o.maxDepth < depth + 1 + v.height
    · -- the value is refused before its key is checked
      rw [readValue_encode_too_deep v hvv (depth + 1) _ _ (by omega)]
    · obtain ⟨m, hm, -⟩ :=
        @source_encode o v hvv (depth + 1) (pos + (encodeStr k).length) (by omega)
      rw [hm.read]
      simp only
      rw [if_neg (by simp [hfresh]), if_neg (by simp [hord]), length_append_append_sub_length,
        ← Nat.add_assoc]
      exact readEntries_encode_too_deep es hves _ _ r (hfit' m) hdepth (by omega)
end

end Bencode

end BitTorrent
