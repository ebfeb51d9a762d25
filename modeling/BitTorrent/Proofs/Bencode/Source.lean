import BitTorrent.Proofs.Bencode.ReadSteps

/-!
# What the reader reads

`Source o depth pos n src` says that the reader, with options `o`, reading a value at level
`depth` whose first byte is at position `pos`, takes exactly the bytes `src` and returns the
tree `n`. The relation is the grammar of bencode with the reader's own limits written in:
integers in 64 bits, lengths below `2^64` written without leading zeros, no node below the
level `o.maxDepth`, no key twice in one dictionary and, when `o.strictKeyOrder` is set, keys
in ascending order. It also gives the spans the reader attaches, each the positions of the
node's own bytes, and the dictionary it builds, `Dict.ofList` of the entries in the order read.

## Main statements

* `Source.read`: every source is read, whatever follows it.
* `readValue_sound`: whatever is read is a source.
* `readValue_eq_ok_iff`, `decodePrefix_eq_ok_iff`, `decode_eq_ok_iff`: reading succeeds exactly
  on sources.
-/

namespace BitTorrent

namespace Bencode

open Bytes

/-! ## Section 1: Sources -/

mutual
/-- `Source o depth pos n src`: read at level `depth` from position `pos`, the bytes `src`
give the tree `n`. -/
inductive Source (o : ReadOptions) : Nat → Nat → Node → Bytes → Prop
  | int {depth pos : Nat} {v : Int} : depth ≤ o.maxDepth → intMin ≤ v → v ≤ intMax →
      Source o depth pos (.int v (some ⟨pos, pos + (encodeInt v).length⟩)) (encodeInt v)
  | str {depth pos : Nat} {b : Bytes} : depth ≤ o.maxDepth → b.length < lengthBound →
      Source o depth pos (.str b (some ⟨pos, pos + (encodeStr b).length⟩)) (encodeStr b)
  | list {depth pos : Nat} {items : List Node} {body : Bytes} : depth ≤ o.maxDepth →
      SourceItems o depth (pos + 1) items body →
      Source o depth pos (.list items (some ⟨pos, pos + (body.length + 2)⟩))
        ([byteL] ++ body ++ [byteE])
  | dict {depth pos : Nat} {es : List (Bytes × Node)} {body : Bytes} : depth ≤ o.maxDepth →
      SourceEntries o depth (pos + 1) es body → (es.map Prod.fst).Nodup →
      (o.strictKeyOrder = true → SortedKeys es) →
      Source o depth pos (.dict (Dict.ofList es) (some ⟨pos, pos + (body.length + 2)⟩))
        ([byteD] ++ body ++ [byteE])

/-- The items of a list at level `depth`, each one level below it, one after another. -/
inductive SourceItems (o : ReadOptions) : Nat → Nat → List Node → Bytes → Prop
  | nil {depth pos : Nat} : SourceItems o depth pos [] []
  | cons {depth pos : Nat} {n : Node} {ns : List Node} {b bs : Bytes} :
      Source o (depth + 1) pos n b → SourceItems o depth (pos + b.length) ns bs →
      SourceItems o depth pos (n :: ns) (b ++ bs)

/-- The entries of a dictionary at level `depth` in the order written, each a key string and
then a value one level below the dictionary. -/
inductive SourceEntries (o : ReadOptions) : Nat → Nat → List (Bytes × Node) → Bytes → Prop
  | nil {depth pos : Nat} : SourceEntries o depth pos [] []
  | cons {depth pos : Nat} {k : Bytes} {v : Node} {es : List (Bytes × Node)} {b bs : Bytes} :
      k.length < lengthBound → Source o (depth + 1) (pos + (encodeStr k).length) v b →
      SourceEntries o depth (pos + (encodeStr k).length + b.length) es bs →
      SourceEntries o depth pos ((k, v) :: es) (encodeStr k ++ b ++ bs)
end

variable {o : ReadOptions}

theorem spanOf_append (pos : Nat) (src r : Bytes) :
    spanOf pos (src ++ r) r = some ⟨pos, pos + src.length⟩ := by
  simp [spanOf]

theorem length_append_sub_length (a b : Bytes) : (a ++ b).length - b.length = a.length := by
  simp

theorem add_length_append (pos : Nat) (a b : Bytes) :
    pos + (a ++ b).length = pos + a.length + b.length := by
  rw [List.length_append, Nat.add_assoc]

theorem length_append_append_sub_length (a b c : Bytes) :
    (a ++ (b ++ c)).length - c.length = a.length + b.length := by
  simp
  omega

/-- A source never starts with the `e` that closes a list or a dictionary, so the loops read
it as an item rather than as their end. -/
theorem Source.head_ne_byteE {depth pos : Nat} {n : Node} {src : Bytes}
    (h : Source o depth pos n src) (r : Bytes) :
    ∃ c, (src ++ r).head? = some c ∧ c ≠ byteE := by
  cases h with
  | int => exact ⟨byteI, rfl, by decide⟩
  | str =>
    rename_i b _ _
    obtain ⟨c, ds, hds⟩ := List.exists_cons_of_ne_nil (decimal_ne_nil b.length)
    have hc : isDigit c = true := isDigit_of_mem_decimal (hds ▸ List.mem_cons_self)
    refine ⟨c, by simp [encodeStr, hds], ?_⟩
    rintro rfl
    exact absurd hc (by simp [isDigit_byteE])
  | list => exact ⟨byteL, rfl, by decide⟩
  | dict => exact ⟨byteD, rfl, by decide⟩

/-- A key string starts with a digit, which is how the dictionary loop tells it from its
closing `e`. -/
theorem head_encodeStr (k r : Bytes) : ∃ c, (encodeStr k ++ r).head? = some c ∧ isDigit c = true := by
  obtain ⟨c, ds, hds⟩ := List.exists_cons_of_ne_nil (decimal_ne_nil k.length)
  exact ⟨c, by simp [encodeStr, hds], isDigit_of_mem_decimal (hds ▸ List.mem_cons_self)⟩

/-! ## Section 2: The key checks of the dictionary loop -/

/-- The conditions the dictionary loop puts on the keys `es` it goes on to read, after the
keys of `acc` and with `last` the key read just before: no key twice, none already read, and,
for the strict reader, keys in ascending order after `last`. -/
structure KeysFit (o : ReadOptions) (acc : Dict) (last : Option Bytes)
    (es : List (Bytes × Node)) : Prop where
  nodup : (es.map Prod.fst).Nodup
  fresh : ∀ k ∈ es.map Prod.fst, k ∉ acc.map Prod.fst
  ordered : o.strictKeyOrder = true →
    SortedKeys es ∧ ∀ p ∈ last, ∀ k ∈ es.map Prod.fst, lexLt p k = true

theorem KeysFit.nil (acc : Dict) (last : Option Bytes) : KeysFit o acc last [] :=
  ⟨List.nodup_nil, by simp, fun _ => ⟨List.Pairwise.nil, by simp⟩⟩

/-- A dictionary's own entries fit at its start exactly when they have no key twice and, for
the strict reader, ascending keys. -/
theorem keysFit_nil_none {es : List (Bytes × Node)} :
    KeysFit o [] none es ↔ (es.map Prod.fst).Nodup ∧ (o.strictKeyOrder = true → SortedKeys es) := by
  constructor
  · intro h
    exact ⟨h.nodup, fun hs => (h.ordered hs).1⟩
  · rintro ⟨hnodup, hsorted⟩
    exact ⟨hnodup, by simp, fun hs => ⟨hsorted hs, by simp⟩⟩

/-- The checks look at keys only. -/
theorem KeysFit.of_keys_eq {acc : Dict} {last : Option Bytes} {es es' : List (Bytes × Node)}
    (hkeys : es.map Prod.fst = es'.map Prod.fst) (h : KeysFit o acc last es) :
    KeysFit o acc last es' := by
  obtain ⟨hnodup, hfresh, hordered⟩ := h
  refine ⟨hkeys ▸ hnodup, hkeys ▸ hfresh, fun hs => ?_⟩
  obtain ⟨hsorted, hlast⟩ := hordered hs
  exact ⟨SortedKeys.of_keys_eq hkeys hsorted, hkeys ▸ hlast⟩

/-- The first key passes the loop's two checks, and the rest fit after it, whatever value it
was read with. -/
theorem KeysFit.of_cons {acc : Dict} {last : Option Bytes} {k : Bytes} {v : Node}
    {es : List (Bytes × Node)} (h : KeysFit o acc last ((k, v) :: es)) :
    acc.contains k = false ∧ (o.strictKeyOrder && last.any fun p => lexLt k p) = false ∧
      ∀ v' : Node, KeysFit o (Dict.insert k v' acc) (some k) es := by
  obtain ⟨hnodup, hfresh, hordered⟩ := h
  rw [List.map_cons, List.nodup_cons] at hnodup
  have hk : k ∉ acc.map Prod.fst := hfresh k List.mem_cons_self
  refine ⟨?_, ?_, fun v' => ⟨hnodup.2, ?_, ?_⟩⟩
  · -- a key already read would make the loop refuse a duplicate
    cases hc : acc.contains k
    · rfl
    · exact absurd (Dict.contains_iff.1 hc) hk
  · cases hs : o.strictKeyOrder
    · rfl
    · obtain ⟨-, hlast⟩ := hordered hs
      cases last with
      | none => rfl
      | some p => simpa using lexLt_asymm (hlast p rfl k List.mem_cons_self)
  · intro k' hk'
    rw [Dict.insert_eq_insertKeyed, mem_keys_insertKeyed]
    rintro (rfl | hacc)
    · exact hnodup.1 hk'
    · exact hfresh k' (List.mem_cons_of_mem _ hk') hacc
  · intro hs
    obtain ⟨hsorted, -⟩ := hordered hs
    rw [SortedKeys, List.pairwise_cons] at hsorted
    refine ⟨hsorted.2, ?_⟩
    intro p hp k' hk'
    rw [Option.mem_some_iff] at hp
    subst hp
    obtain ⟨⟨k'', v'⟩, hmem, rfl⟩ := List.mem_map.1 hk'
    exact hsorted.1 _ hmem

/-- Conversely, a key that passes both checks, followed by keys that fit after it, fits. The
key before it must be one already read: a key equal to it is then caught as a duplicate, so
passing the order check means coming strictly after it. -/
theorem KeysFit.cons {acc : Dict} {last : Option Bytes} {k : Bytes} {v : Node}
    {es : List (Bytes × Node)} (hlast : ∀ p ∈ last, p ∈ acc.map Prod.fst)
    (hfresh : acc.contains k = false) (hord : (o.strictKeyOrder && last.any fun p => lexLt k p) = false)
    (h : KeysFit o (Dict.insert k v acc) (some k) es) : KeysFit o acc last ((k, v) :: es) := by
  obtain ⟨hnodup, hfresh', hordered⟩ := h
  have hk : k ∉ acc.map Prod.fst := fun hmem => by
    rw [← Dict.contains_iff] at hmem
    simp [hmem] at hfresh
  have hkeys : ∀ k' ∈ es.map Prod.fst, k' ≠ k ∧ k' ∉ acc.map Prod.fst := by
    intro k' hk'
    have := hfresh' k' hk'
    rw [Dict.insert_eq_insertKeyed, mem_keys_insertKeyed, not_or] at this
    exact this
  refine ⟨?_, ?_, ?_⟩
  · rw [List.map_cons, List.nodup_cons]
    exact ⟨fun hmem => (hkeys k hmem).1 rfl, hnodup⟩
  · intro k' hk'
    rw [List.map_cons, List.mem_cons] at hk'
    rcases hk' with rfl | hk'
    · exact hk
    · exact (hkeys k' hk').2
  · intro hs
    obtain ⟨hsorted, hafter⟩ := hordered hs
    refine ⟨List.Pairwise.cons (fun e he => hafter k rfl e.1 (List.mem_map_of_mem he)) hsorted, ?_⟩
    intro p hp k' hk'
    -- `k` comes after `last`: not before it by the check, and not equal since `last` was read
    have hkp : lexLt p k = true := by
      have hnot : lexLt k p = false := by
        cases last with
        | none => cases hp
        | some q =>
          obtain rfl : q = p := Option.mem_some_iff.1 hp ▸ rfl
          simpa [hs] using hord
      have hne : k ≠ p := fun heq => hk (heq ▸ hlast p hp)
      rcases lexLt_or_lexLt hne with hlt | hlt
      · simp [hlt] at hnot
      · exact hlt
    rw [List.map_cons, List.mem_cons] at hk'
    rcases hk' with rfl | hk'
    · exact hkp
    · exact lexLt_trans hkp (hafter k rfl k' hk')

/-! ## Section 3: Every source is read -/

mutual
/-- Reading at the start of a source takes the source and gives its tree, whatever follows. -/
theorem Source.read {depth pos : Nat} {n : Node} {src : Bytes} :
    Source o depth pos n src → ∀ r, plain (readValue o depth pos (src ++ r)) = .ok (n, r)
  | @Source.int _ depth pos v hd hmin hmax, r => by
    have hsrc : encodeInt v ++ r = byteI :: (ofString (toString v) ++ byteE :: r) := by
      simp [encodeInt, byteI, byteE]
    rw [hsrc, plain_readValue_int o pos hd, readIntBody_complete hmin hmax r, ← hsrc]
    simp only [Except.map, spanOf_append]
  | @Source.str _ depth pos b hd hb, r => by
    obtain ⟨c, hc, hdig⟩ := head_encodeStr b r
    obtain ⟨t, ht⟩ := List.head?_eq_some_iff.1 hc
    rw [ht, plain_readValue_str o pos hd hdig, ← ht, readStr_complete hb r]
    simp only [Except.map, spanOf_append]
  | @Source.list _ depth pos items body hd hitems, r => by
    have hsrc : [byteL] ++ body ++ [byteE] ++ r = byteL :: (body ++ byteE :: r) := by simp
    rw [hsrc, plain_readValue_list o pos hd, hitems.read r, ← hsrc]
    simp only [Except.map, spanOf_append]
    simp
  | @Source.dict _ depth pos es body hd hentries hnodup hsorted, r => by
    have hsrc : [byteD] ++ body ++ [byteE] ++ r = byteD :: (body ++ byteE :: r) := by simp
    rw [hsrc, plain_readValue_dict o pos hd, hentries.read (keysFit_nil_none.2 ⟨hnodup, hsorted⟩) r,
      ← hsrc]
    simp only [Except.map, spanOf_append]
    simp [Dict.ofList_eq_insertAll]

/-- Reading the items of a list takes them all and the closing `e`. -/
theorem SourceItems.read {depth pos : Nat} {items : List Node} {body : Bytes} :
    SourceItems o depth pos items body → ∀ r,
      plain (readItems o depth pos (body ++ byteE :: r)) = .ok (items, r)
  | .nil, r => plain_readItems_end o pos r
  | @SourceItems.cons _ depth pos n ns b bs hn hns, r => by
    obtain ⟨c, hc, hce⟩ := hn.head_ne_byteE (bs ++ byteE :: r)
    rw [List.append_assoc, plain_readItems_cons o pos hc hce, hn.read]
    simp only [Except.bind, length_append_sub_length, hns.read r]
    rfl

/-- Reading the entries of a dictionary whose keys pass the loop's checks takes them all and
the closing `e`, and adds them to the dictionary so far. -/
theorem SourceEntries.read {depth pos : Nat} {es : List (Bytes × Node)} {body : Bytes}
    {acc : Dict} {last : Option Bytes} :
    SourceEntries o depth pos es body → KeysFit o acc last es → ∀ r,
      plain (readEntries o depth pos (body ++ byteE :: r) acc last) = .ok (insertAll acc es, r)
  | .nil, _, r => plain_readEntries_end o pos r acc last
  | @SourceEntries.cons _ depth pos k v es b bs hk hv hes, hfit, r => by
    obtain ⟨hfresh, hord, hfit'⟩ := hfit.of_cons
    obtain ⟨c, hc, hdig⟩ := head_encodeStr k (b ++ (bs ++ byteE :: r))
    rw [List.append_assoc, List.append_assoc, plain_readEntries_key o pos hc hdig,
      readStr_complete hk]
    simp only [Except.bind, length_append_sub_length, hv.read]
    rw [if_neg (by simp [hfresh]), if_neg (by simp [hord]), length_append_append_sub_length,
      ← Nat.add_assoc]
    exact hes.read (hfit' v) r
end

/-! ## Section 4: Whatever is read is a source -/

mutual
/-- A value that is read is a source, and the input is the source and then what is left. -/
theorem readValue_sound {depth pos : Nat} {s : Bytes} {n : Node} {r : Bytes}
    (h : plain (readValue o depth pos s) = .ok (n, r)) :
    ∃ src, s = src ++ r ∧ Source o depth pos n src := by
  by_cases hdeep : o.maxDepth < depth
  · rw [plain_readValue_deep o pos hdeep] at h
    cases h
  have hd : depth ≤ o.maxDepth := Nat.not_lt.1 hdeep
  cases s with
  | nil =>
    rw [plain_readValue_nil o pos hd] at h
    cases h
  | cons c t =>
    -- the first byte says which kind of value follows
    by_cases hi : c = byteI
    · subst hi
      rw [plain_readValue_int o pos hd] at h
      obtain ⟨⟨v, r'⟩, hv, he⟩ := Except.map_eq_ok.1 h
      simp only [Prod.mk.injEq] at he
      obtain ⟨rfl, rfl⟩ := he
      obtain ⟨hmin, hmax, ht⟩ := readIntBody_sound hv
      have hsrc : byteI :: t = encodeInt v ++ r' := by
        rw [ht]
        simp [encodeInt, byteI, byteE]
      rw [hsrc, spanOf_append]
      exact ⟨encodeInt v, rfl, .int hd hmin hmax⟩
    by_cases hl : c = byteL
    · subst hl
      rw [plain_readValue_list o pos hd] at h
      obtain ⟨⟨items, r'⟩, hitems, he⟩ := Except.map_eq_ok.1 h
      simp only [Prod.mk.injEq] at he
      obtain ⟨rfl, rfl⟩ := he
      obtain ⟨body, rfl, hbody⟩ := readItems_sound hitems
      have hsrc : byteL :: (body ++ byteE :: r') = [byteL] ++ body ++ [byteE] ++ r' := by simp
      rw [hsrc, spanOf_append]
      refine ⟨[byteL] ++ body ++ [byteE], rfl, ?_⟩
      simpa using Source.list hd hbody
    by_cases hdc : c = byteD
    · subst hdc
      rw [plain_readValue_dict o pos hd] at h
      obtain ⟨⟨d, r'⟩, hentries, he⟩ := Except.map_eq_ok.1 h
      simp only [Prod.mk.injEq] at he
      obtain ⟨rfl, rfl⟩ := he
      obtain ⟨es, body, rfl, hbody, rfl, hfit⟩ := readEntries_sound (by simp) hentries
      obtain ⟨hnodup, hsorted⟩ := keysFit_nil_none.1 hfit
      have hsrc : byteD :: (body ++ byteE :: r') = [byteD] ++ body ++ [byteE] ++ r' := by simp
      rw [hsrc, spanOf_append, ← Dict.ofList_eq_insertAll]
      refine ⟨[byteD] ++ body ++ [byteE], rfl, ?_⟩
      simpa using Source.dict hd hbody hnodup hsorted
    cases hdig : isDigit c
    · rw [plain_readValue_other o pos hd hi hl hdc hdig] at h
      cases h
    rw [plain_readValue_str o pos hd hdig] at h
    obtain ⟨⟨b, r'⟩, hb, he⟩ := Except.map_eq_ok.1 h
    simp only [Prod.mk.injEq] at he
    obtain ⟨rfl, rfl⟩ := he
    obtain ⟨hlen, hsrc⟩ := readStr_sound hb
    rw [hsrc, spanOf_append]
    exact ⟨encodeStr b, rfl, .str hd hlen⟩
termination_by 2 * s.length

/-- The items read are the items of a source, followed by the closing `e`. -/
theorem readItems_sound {depth pos : Nat} {s : Bytes} {items : List Node} {r : Bytes}
    (h : plain (readItems o depth pos s) = .ok (items, r)) :
    ∃ body, s = body ++ byteE :: r ∧ SourceItems o depth pos items body := by
  cases s with
  | nil =>
    rw [plain_readItems_nil] at h
    cases h
  | cons c t =>
    by_cases hce : c = byteE
    · subst hce
      rw [plain_readItems_end] at h
      simp only [Except.ok.injEq, Prod.mk.injEq] at h
      obtain ⟨rfl, rfl⟩ := h
      exact ⟨[], rfl, .nil⟩
    rw [plain_readItems_cons o pos rfl hce] at h
    obtain ⟨⟨n, r1⟩, hn, h⟩ := Except.bind_eq_ok.1 h
    obtain ⟨⟨ns, r2⟩, hns, he⟩ := Except.map_eq_ok.1 h
    simp only [Prod.mk.injEq] at he
    obtain ⟨rfl, rfl⟩ := he
    have hlt := length_lt_of_plain_eq_ok hn
    obtain ⟨b, hb, hsrc⟩ := readValue_sound hn
    obtain ⟨bs, rfl, hrest⟩ := readItems_sound hns
    rw [hb, length_append_sub_length] at hrest
    exact ⟨b ++ bs, by simp [hb], .cons hsrc hrest⟩
termination_by 2 * s.length + 1

/-- The entries read are the entries of a source, followed by the closing `e`, and their keys
passed the loop's checks. The key before them, if any, is one of the keys read before. -/
theorem readEntries_sound {depth pos : Nat} {s : Bytes} {acc : Dict} {last : Option Bytes}
    {d : Dict} {r : Bytes} (hlast : ∀ p ∈ last, p ∈ acc.map Prod.fst)
    (h : plain (readEntries o depth pos s acc last) = .ok (d, r)) :
    ∃ es body, s = body ++ byteE :: r ∧ SourceEntries o depth pos es body ∧
      d = insertAll acc es ∧ KeysFit o acc last es := by
  cases s with
  | nil =>
    rw [plain_readEntries_nil] at h
    cases h
  | cons c t =>
    by_cases hce : c = byteE
    · subst hce
      rw [plain_readEntries_end] at h
      simp only [Except.ok.injEq, Prod.mk.injEq] at h
      obtain ⟨rfl, rfl⟩ := h
      exact ⟨[], [], rfl, .nil, rfl, KeysFit.nil acc last⟩
    cases hdig : isDigit c
    · rw [plain_readEntries_other o pos hce hdig] at h
      cases h
    rw [plain_readEntries_key o pos rfl hdig] at h
    obtain ⟨⟨k, r1⟩, hk, hafter⟩ := Except.bind_eq_ok.1 h
    obtain ⟨⟨v, r2⟩, hv, hrest⟩ := Except.bind_eq_ok.1 hafter
    dsimp only at hrest
    -- the value was read, and then its key passed the duplicate check and the order check
    split at hrest
    · cases hrest
    rename_i hfresh
    split at hrest
    · cases hrest
    rename_i hord
    have hlt1 := length_lt_of_plain_eq_ok hk
    have hlt2 : r2.length < (c :: t).length := Nat.lt_trans (length_lt_of_plain_eq_ok hv) hlt1
    obtain ⟨hklen, hs⟩ := readStr_sound hk
    obtain ⟨b, rfl, hvsrc⟩ := readValue_sound hv
    have hlast' : ∀ p ∈ some k, p ∈ (Dict.insert k v acc).map Prod.fst := by
      simp [Dict.insert_eq_insertKeyed, mem_keys_insertKeyed]
    obtain ⟨es, bs, rfl, hes, rfl, hfit⟩ := readEntries_sound hlast' hrest
    rw [hs, length_append_sub_length] at hvsrc
    rw [hs, length_append_append_sub_length, ← Nat.add_assoc] at hes
    refine ⟨(k, v) :: es, encodeStr k ++ b ++ bs, by simp [hs], .cons hklen hvsrc hes, rfl, ?_⟩
    exact KeysFit.cons hlast (by simpa using hfresh) (by simpa using hord) hfit
termination_by 2 * s.length + 1
end

/-! ## Section 5: Reading succeeds exactly on sources -/

theorem readValue_eq_ok_iff {depth pos : Nat} {s : Bytes} {n : Node} {r : Bytes} :
    plain (readValue o depth pos s) = .ok (n, r) ↔ ∃ src, s = src ++ r ∧ Source o depth pos n src := by
  constructor
  · exact readValue_sound
  · rintro ⟨src, rfl, h⟩
    exact h.read r

theorem Node.decodePrefix_eq_map (data : Bytes) (offset : Nat) (o : ReadOptions) :
    Node.decodePrefix data offset o =
      (plain (readValue o 0 offset (data.drop offset))).map fun p => (p.1, data.length - p.2.length) := by
  unfold Node.decodePrefix
  cases readValue o 0 offset (data.drop offset) with
  | error e => rfl
  | ok p => rfl

/-- A source found at `offset` in a buffer, with `r` after it, ends `r.length` bytes before the
end of the buffer. Sources are not empty, so `offset` lies inside the buffer. -/
theorem Source.length_eq_of_drop {depth pos : Nat} {n : Node} {src r data : Bytes} {offset : Nat}
    (h : Source o depth pos n src) (hsrc : data.drop offset = src ++ r) :
    data.length = offset + src.length + r.length := by
  have hlen : (data.drop offset).length = src.length + r.length := by rw [hsrc]; simp
  obtain ⟨c, hc, -⟩ := h.head_ne_byteE r
  have hpos : (data.drop offset).length ≠ 0 := by
    rw [hsrc]
    intro h0
    rw [List.length_eq_zero_iff.1 h0] at hc
    cases hc
  simp only [List.length_drop] at hlen hpos
  omega

/-- One value read from `offset` is a source lying in the buffer from `offset` on, and the
reader stops just past it. -/
theorem decodePrefix_eq_ok_iff {data : Bytes} {offset : Nat} {n : Node} {stop : Nat} :
    Node.decodePrefix data offset o = .ok (n, stop) ↔
      ∃ src, src <+: data.drop offset ∧ Source o 0 offset n src ∧ stop = offset + src.length := by
  rw [Node.decodePrefix_eq_map, Except.map_eq_ok]
  constructor
  · rintro ⟨⟨n', r⟩, hread, he⟩
    simp only [Prod.mk.injEq] at he
    obtain ⟨rfl, rfl⟩ := he
    obtain ⟨src, hsrc, h⟩ := readValue_sound hread
    have hlen := h.length_eq_of_drop hsrc
    exact ⟨src, ⟨r, hsrc.symm⟩, h, by omega⟩
  · rintro ⟨src, ⟨r, hsrc⟩, h, rfl⟩
    have hlen := h.length_eq_of_drop hsrc.symm
    refine ⟨(n, r), by rw [← hsrc]; exact h.read r, ?_⟩
    simp only [Prod.mk.injEq, true_and]
    omega

/-- A whole buffer is read when one value is read from its start and stops at its end. -/
theorem decode_eq_ok_iff_decodePrefix {data : Bytes} {n : Node} :
    Node.decode data o = .ok n ↔ Node.decodePrefix data 0 o = .ok (n, data.length) := by
  unfold Node.decode
  cases hp : Node.decodePrefix data 0 o with
  | error e => simp
  | ok p =>
    obtain ⟨n', stop⟩ := p
    by_cases hstop : stop = data.length
    · subst hstop
      simp
    · simp [hstop]

/-- A whole buffer is read exactly when it is a source at level 0 and position 0. -/
theorem decode_eq_ok_iff {data : Bytes} {n : Node} :
    Node.decode data o = .ok n ↔ Source o 0 0 n data := by
  rw [decode_eq_ok_iff_decodePrefix, decodePrefix_eq_ok_iff]
  constructor
  · rintro ⟨src, hpre, h, hstop⟩
    -- a prefix of the buffer as long as the buffer is the buffer
    have heq : src = data := hpre.eq_of_length (by simpa using hstop.symm)
    rw [← heq]
    exact h
  · intro h
    exact ⟨data, List.prefix_refl data, h, by simp⟩

/-- A whole buffer whose read fails is refused for the same reason. -/
theorem decode_eq_error {data : Bytes} {e : DecodeError}
    (h : plain (readValue o 0 0 data) = .error e) : Node.decode data o = .error e := by
  unfold Node.decode
  rw [Node.decodePrefix_eq_map, List.drop_zero, h]
  rfl

end Bencode

end BitTorrent
