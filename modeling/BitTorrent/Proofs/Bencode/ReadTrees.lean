import BitTorrent.Proofs.Bencode.Source

/-!
# Trees that are read

What a read says about the tree it returns, each read off the source relation by one
recursion over it:

* the tree is valid and lies within the depth limit (`Source.valid_and_height_le`);
* the bytes read are a written form of the tree, each dictionary's entries in the order they
  came (`Source.written`);
* the strict reader returns only trees whose canonical encoding is the bytes read
  (`Source.encode_eq`);
* a read stays a read for a reader with a larger depth limit or without the key-order check
  (`Source.mono`), and the same bytes read at a shallower level or from another position give
  the same tree up to spans (`Source.rebase`).
-/

namespace BitTorrent

namespace Bencode

open Bytes

variable {o o' : ReadOptions}

/-! ## Section 1: Validity and depth -/

mutual
theorem Source.valid_and_height_le {depth pos : Nat} {n : Node} {src : Bytes} :
    Source o depth pos n src → n.Valid ∧ depth + n.height ≤ o.maxDepth
  | .int hd hmin hmax => ⟨⟨hmin, hmax⟩, hd⟩
  | .str hd hb => ⟨hb, hd⟩
  | @Source.list _ depth pos items body hd hitems => by
    have hall := hitems.valid_and_height_le
    refine ⟨Node.validItems_iff.2 fun n hn => (hall n hn).1, ?_⟩
    -- every item lies one level below the list and within the limit
    have hle : Node.heightItems items ≤ o.maxDepth - depth := by
      apply Node.heightItems_le_iff.2
      intro n hn
      have := (hall n hn).2
      omega
    show depth + Node.heightItems items ≤ o.maxDepth
    omega
  | @Source.dict _ depth pos es body hd hentries hnodup _ => by
    have hall := hentries.valid_and_height_le
    -- the stored dictionary holds the entries read, sorted by key
    have hsub : ∀ e ∈ Dict.ofList es, e ∈ es := fun e he => Dict.mem_ofList he
    refine ⟨⟨Dict.ofList_sorted es, Node.validEntries_iff.2 fun e he => ?_⟩, ?_⟩
    · obtain ⟨hk, hv, -⟩ := hall e (hsub e he)
      exact ⟨hk, hv⟩
    · have hle : Node.heightEntries (Dict.ofList es) ≤ o.maxDepth - depth := by
        apply Node.heightEntries_le_iff.2
        intro e he
        have := (hall e (hsub e he)).2.2
        omega
      show depth + Node.heightEntries (Dict.ofList es) ≤ o.maxDepth
      omega

theorem SourceItems.valid_and_height_le {depth pos : Nat} {items : List Node} {body : Bytes} :
    SourceItems o depth pos items body →
      ∀ n ∈ items, n.Valid ∧ depth + 1 + n.height ≤ o.maxDepth
  | .nil => by simp
  | .cons hn hns => by
    have hhead := hn.valid_and_height_le
    have htail := hns.valid_and_height_le
    intro m hm
    rcases List.mem_cons.1 hm with rfl | hm
    · exact hhead
    · exact htail m hm

theorem SourceEntries.valid_and_height_le {depth pos : Nat} {es : List (Bytes × Node)}
    {body : Bytes} : SourceEntries o depth pos es body →
      ∀ e ∈ es, e.1.length < lengthBound ∧ e.2.Valid ∧ depth + 1 + e.2.height ≤ o.maxDepth
  | .nil => by simp
  | .cons hk hv hes => by
    have hhead := hv.valid_and_height_le
    have htail := hes.valid_and_height_le
    intro e he
    rcases List.mem_cons.1 he with rfl | he
    · exact ⟨hk, hhead⟩
    · exact htail e he
end

/-! ## Section 2: Written forms -/

mutual
/-- The bytes read are a written form of the tree read: the dictionary stores the entries
sorted, and they were written in the order read. -/
theorem Source.written {depth pos : Nat} {n : Node} {src : Bytes} :
    Source o depth pos n src → Written n src
  | .int .. => .int _ _
  | .str .. => .str _ _
  | .list _ hitems => .list _ hitems.written
  | .dict _ hentries hnodup _ => .dict _ (Dict.ofList_perm hnodup).symm hentries.written

theorem SourceItems.written {depth pos : Nat} {items : List Node} {body : Bytes} :
    SourceItems o depth pos items body → WrittenItems items body
  | .nil => .nil
  | .cons hn hns => .cons hn.written hns.written

theorem SourceEntries.written {depth pos : Nat} {es : List (Bytes × Node)} {body : Bytes} :
    SourceEntries o depth pos es body → WrittenEntries es body
  | .nil => .nil
  | .cons _ hv hes => .cons hv.written hes.written
end

/-! ## Section 3: The strict reader reads canonical encodings only -/

mutual
theorem Source.encode_eq (hs : o.strictKeyOrder = true) {depth pos : Nat} {n : Node}
    {src : Bytes} : Source o depth pos n src → n.encode = src
  | .int .. => rfl
  | .str .. => rfl
  | .list _ hitems => by
    rw [Node.encode, SourceItems.encode_eq hs hitems]
    rfl
  | @Source.dict _ depth pos es body _ hentries _ hsorted => by
    -- the keys came in ascending order, so the stored order is the order read
    rw [Node.encode, Dict.ofList_eq_of_perm (List.Perm.refl es) (hsorted hs),
      SourceEntries.encode_eq hs hentries]
    rfl

theorem SourceItems.encode_eq (hs : o.strictKeyOrder = true) {depth pos : Nat}
    {items : List Node} {body : Bytes} : SourceItems o depth pos items body →
      Node.encodeItems items = body
  | .nil => rfl
  | .cons hn hns => by
    rw [Node.encodeItems, Source.encode_eq hs hn, SourceItems.encode_eq hs hns]

theorem SourceEntries.encode_eq (hs : o.strictKeyOrder = true) {depth pos : Nat}
    {es : List (Bytes × Node)} {body : Bytes} : SourceEntries o depth pos es body →
      Node.encodeEntries es = body
  | .nil => rfl
  | .cons _ hv hes => by
    rw [Node.encodeEntries, Source.encode_eq hs hv, SourceEntries.encode_eq hs hes]
end

/-! ## Section 4: Laxer readers -/

mutual
/-- A reader with a depth limit at least as large, that checks key order only if this one
does, reads the same trees from the same bytes. -/
theorem Source.mono (hd : o.maxDepth ≤ o'.maxDepth)
    (hs : o'.strictKeyOrder = true → o.strictKeyOrder = true) {depth pos : Nat} {n : Node}
    {src : Bytes} : Source o depth pos n src → Source o' depth pos n src
  | .int h hmin hmax => .int (Nat.le_trans h hd) hmin hmax
  | .str h hb => .str (Nat.le_trans h hd) hb
  | .list h hitems => .list (Nat.le_trans h hd) (SourceItems.mono hd hs hitems)
  | .dict h hentries hnodup hsorted =>
    .dict (Nat.le_trans h hd) (SourceEntries.mono hd hs hentries) hnodup fun h' => hsorted (hs h')

theorem SourceItems.mono (hd : o.maxDepth ≤ o'.maxDepth)
    (hs : o'.strictKeyOrder = true → o.strictKeyOrder = true) {depth pos : Nat}
    {items : List Node} {body : Bytes} :
    SourceItems o depth pos items body → SourceItems o' depth pos items body
  | .nil => .nil
  | .cons hn hns => .cons (Source.mono hd hs hn) (SourceItems.mono hd hs hns)

theorem SourceEntries.mono (hd : o.maxDepth ≤ o'.maxDepth)
    (hs : o'.strictKeyOrder = true → o.strictKeyOrder = true) {depth pos : Nat}
    {es : List (Bytes × Node)} {body : Bytes} :
    SourceEntries o depth pos es body → SourceEntries o' depth pos es body
  | .nil => .nil
  | .cons hk hv hes => .cons hk (Source.mono hd hs hv) (SourceEntries.mono hd hs hes)
end

/-! ## Section 5: The same bytes elsewhere -/

mutual
/-- Read at a level no deeper, or from another position, the same bytes give the same tree up
to spans. -/
theorem Source.rebase {depth' : Nat} (pos' : Nat) {depth pos : Nat} {n : Node} {src : Bytes}
    (hd : depth' ≤ depth) : Source o depth pos n src →
      ∃ n', Source o depth' pos' n' src ∧ n'.erase = n.erase
  | .int h hmin hmax => ⟨_, .int (Nat.le_trans hd h) hmin hmax, rfl⟩
  | .str h hb => ⟨_, .str (Nat.le_trans hd h) hb, rfl⟩
  | .list h hitems => by
    obtain ⟨items', hitems', he⟩ := SourceItems.rebase (pos' + 1) hd hitems
    exact ⟨_, .list (Nat.le_trans hd h) hitems', by simp [Node.erase, he]⟩
  | @Source.dict _ depth pos es body h hentries hnodup hsorted => by
    obtain ⟨es', hentries', he⟩ := SourceEntries.rebase (pos' + 1) hd hentries
    -- the keys are the same, so the key checks pass again
    have hkeys : es'.map Prod.fst = es.map Prod.fst := by
      rw [← Node.keys_eraseEntries es', he, Node.keys_eraseEntries]
    refine ⟨_, .dict (Nat.le_trans hd h) hentries' (hkeys ▸ hnodup)
      (fun hs => SortedKeys.of_keys_eq hkeys.symm (hsorted hs)), ?_⟩
    simp only [Node.erase, Node.eraseEntries_ofList, he]

theorem SourceItems.rebase {depth' : Nat} (pos' : Nat) {depth pos : Nat} {items : List Node}
    {body : Bytes} (hd : depth' ≤ depth) : SourceItems o depth pos items body →
      ∃ items', SourceItems o depth' pos' items' body ∧
        Node.eraseItems items' = Node.eraseItems items
  | .nil => ⟨[], .nil, rfl⟩
  | @SourceItems.cons _ depth pos n ns b bs hn hns => by
    obtain ⟨n', hn', he⟩ := Source.rebase pos' (Nat.succ_le_succ hd) hn
    obtain ⟨ns', hns', hes⟩ := SourceItems.rebase (pos' + b.length) hd hns
    exact ⟨n' :: ns', .cons hn' hns', by simp [Node.eraseItems, he, hes]⟩

theorem SourceEntries.rebase {depth' : Nat} (pos' : Nat) {depth pos : Nat}
    {es : List (Bytes × Node)} {body : Bytes} (hd : depth' ≤ depth) :
    SourceEntries o depth pos es body →
      ∃ es', SourceEntries o depth' pos' es' body ∧
        Node.eraseEntries es' = Node.eraseEntries es
  | .nil => ⟨[], .nil, rfl⟩
  | @SourceEntries.cons _ depth pos k v es b bs hk hv hes => by
    obtain ⟨v', hv', he⟩ := Source.rebase (pos' + (encodeStr k).length) (Nat.succ_le_succ hd) hv
    obtain ⟨es', hes', hes⟩ :=
      SourceEntries.rebase (pos' + (encodeStr k).length + b.length) hd hes
    exact ⟨(k, v') :: es', .cons hk hv' hes', by simp [Node.eraseEntries, he, hes]⟩
end

end Bencode

end BitTorrent
