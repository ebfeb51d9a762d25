import BitTorrent.Proofs.Bencode.ReadTrees

/-!
# Spans are exact

Every node the reader returns carries the span of its own bytes in the buffer. Read off the
source relation: a node read from position `pos` whose source is `src` spans
`[pos, pos + src.length)` (`Source.span_eq`), every node of a tree read is read again from a
part of the tree's source (`Source.subtree`), the items of a list follow one another from its
`l` to its `e` (`SourceItems.tiles`), and each dictionary value comes right after its key
string (`SourceEntries.mem_value`).

`SpansExact` collects what this gives for a value read from a buffer, and
`decodePrefix_spans_exact` proves it of every successful read.
-/

namespace BitTorrent

namespace Bencode

open Bytes

variable {o : ReadOptions}

/-! ## Section 1: The span of a source -/

theorem Source.span_eq {depth pos : Nat} {n : Node} {src : Bytes} (h : Source o depth pos n src) :
    n.span = some ⟨pos, pos + src.length⟩ := by
  cases h with
  | int => rfl
  | str => rfl
  | list =>
    simp only [Node.span, List.length_append, List.length_singleton]
    congr 2
    omega
  | dict =>
    simp only [Node.span, List.length_append, List.length_singleton]
    congr 2
    omega

theorem Source.length_pos {depth pos : Nat} {n : Node} {src : Bytes}
    (h : Source o depth pos n src) : 0 < src.length := by
  obtain ⟨c, hc, -⟩ := h.head_ne_byteE []
  rw [List.append_nil] at hc
  cases src with
  | nil => cases hc
  | cons => simp

/-- `Tiles start ns stop`: the spans of `ns` follow one another with no gap, the first
starting at `start` and the last ending at `stop`. -/
def Tiles : Nat → List Node → Nat → Prop
  | start, [], stop => start = stop
  | start, n :: ns, stop => ∃ e, n.span = some ⟨start, e⟩ ∧ Tiles e ns stop

/-- The items of a list read from `pos` tile the bytes of its body. -/
theorem SourceItems.tiles {depth pos : Nat} {items : List Node} {body : Bytes}
    (h : SourceItems o depth pos items body) : Tiles pos items (pos + body.length) := by
  induction items generalizing pos body with
  | nil =>
    cases h
    rfl
  | cons n ns ih =>
    cases h with
    | cons hn hns =>
      refine ⟨_, hn.span_eq, ?_⟩
      simpa [Nat.add_assoc] using ih hns

/-- Each value of a dictionary is read right after its key string, inside the body. -/
theorem SourceEntries.mem_value {depth pos : Nat} {es : List (Bytes × Node)} {body : Bytes}
    (h : SourceEntries o depth pos es body) {k : Bytes} {v : Node} (hkv : (k, v) ∈ es) :
    ∃ pre b post, body = pre ++ (encodeStr k ++ b) ++ post ∧
      Source o (depth + 1) (pos + pre.length + (encodeStr k).length) v b := by
  induction es generalizing pos body with
  | nil => cases hkv
  | cons e es ih =>
    cases h with
    | @cons _ _ k' v' _ b bs hk hv hes =>
      rcases List.mem_cons.1 hkv with he | hkv
      · -- the first entry: nothing before its key
        obtain ⟨rfl, rfl⟩ := Prod.mk.inj he
        exact ⟨[], b, bs, by simp, by simpa using hv⟩
      · -- a later entry: the first entry's bytes come before it
        obtain ⟨pre, b', post, hsplit, hv'⟩ := ih hes hkv
        refine ⟨encodeStr k' ++ b ++ pre, b', post, by rw [hsplit]; simp, ?_⟩
        rw [add_length_append, add_length_append]
        exact hv'

/-! ## Section 2: Every node is read from part of the source -/

mutual
/-- Every node of a tree read from `src` is read from an infix of `src`, at the position and a
level no shallower than the tree's. -/
theorem Source.subtree {depth pos : Nat} {n : Node} {src : Bytes} :
    Source o depth pos n src → ∀ m ∈ n.subtrees,
      ∃ d pre src' post, depth ≤ d ∧ src = pre ++ src' ++ post ∧
        Source o d (pos + pre.length) m src'
  | .int hd hmin hmax, m, hm => by
    simp only [Node.subtrees, List.mem_singleton] at hm
    subst hm
    exact ⟨_, [], _, [], Nat.le_refl _, by simp, .int hd hmin hmax⟩
  | .str hd hb, m, hm => by
    simp only [Node.subtrees, List.mem_singleton] at hm
    subst hm
    exact ⟨_, [], _, [], Nat.le_refl _, by simp, .str hd hb⟩
  | @Source.list _ depth pos items body hd hitems, m, hm => by
    have hbelow := SourceItems.subtree hitems
    simp only [Node.subtrees, List.mem_cons] at hm
    rcases hm with rfl | hm
    · exact ⟨_, [], _, [], Nat.le_refl _, by simp, .list hd hitems⟩
    · -- a node inside an item: the `l` comes before it
      obtain ⟨d, pre, src', post, hd, hsplit, hm'⟩ := hbelow m hm
      refine ⟨d, [byteL] ++ pre, src', post ++ [byteE], by omega, by rw [hsplit]; simp, ?_⟩
      rw [add_length_append]
      exact hm'
  | @Source.dict _ depth pos es body hd hentries hnodup hsorted, m, hm => by
    have hbelow := SourceEntries.subtree hentries
    simp only [Node.subtrees, List.mem_cons] at hm
    rcases hm with rfl | hm
    · exact ⟨_, [], _, [], Nat.le_refl _, by simp, .dict hd hentries hnodup hsorted⟩
    · -- the stored entries are the entries read, so the node is inside one of their values
      have hm₀ : m ∈ Node.subtreesEntries es := by
        obtain ⟨e, he, hme⟩ := Node.mem_subtreesEntries.1 hm
        exact Node.mem_subtreesEntries.2 ⟨e, Dict.mem_ofList he, hme⟩
      obtain ⟨d, pre, src', post, hd, hsplit, hm'⟩ := hbelow m hm₀
      refine ⟨d, [byteD] ++ pre, src', post ++ [byteE], by omega, by rw [hsplit]; simp, ?_⟩
      rw [add_length_append]
      exact hm'

theorem SourceItems.subtree {depth pos : Nat} {items : List Node} {body : Bytes} :
    SourceItems o depth pos items body → ∀ m ∈ Node.subtreesItems items,
      ∃ d pre src' post, depth + 1 ≤ d ∧ body = pre ++ src' ++ post ∧
        Source o d (pos + pre.length) m src'
  | .nil, m, hm => by simp [Node.subtreesItems] at hm
  | @SourceItems.cons _ depth pos n ns b bs hn hns, m, hm => by
    have hhead := Source.subtree hn
    have htail := SourceItems.subtree hns
    simp only [Node.subtreesItems, List.mem_append] at hm
    rcases hm with hm | hm
    · obtain ⟨d, pre, src', post, hd, hsplit, hm'⟩ := hhead m hm
      exact ⟨d, pre, src', post ++ bs, hd, by rw [hsplit]; simp, hm'⟩
    · obtain ⟨d, pre, src', post, hd, hsplit, hm'⟩ := htail m hm
      refine ⟨d, b ++ pre, src', post, hd, by rw [hsplit]; simp, ?_⟩
      rw [add_length_append]
      exact hm'

theorem SourceEntries.subtree {depth pos : Nat} {es : List (Bytes × Node)} {body : Bytes} :
    SourceEntries o depth pos es body → ∀ m ∈ Node.subtreesEntries es,
      ∃ d pre src' post, depth + 1 ≤ d ∧ body = pre ++ src' ++ post ∧
        Source o d (pos + pre.length) m src'
  | .nil, m, hm => by simp [Node.subtreesEntries] at hm
  | @SourceEntries.cons _ depth pos k v es b bs _ hv hes, m, hm => by
    have hhead := Source.subtree hv
    have htail := SourceEntries.subtree hes
    simp only [Node.subtreesEntries, List.mem_append] at hm
    rcases hm with hm | hm
    · -- inside the value: its key string comes before it
      obtain ⟨d, pre, src', post, hd, hsplit, hm'⟩ := hhead m hm
      refine ⟨d, encodeStr k ++ pre, src', post ++ bs, hd, by rw [hsplit]; simp, ?_⟩
      rw [add_length_append]
      exact hm'
    · obtain ⟨d, pre, src', post, hd, hsplit, hm'⟩ := htail m hm
      refine ⟨d, encodeStr k ++ b ++ pre, src', post, hd, by rw [hsplit]; simp, ?_⟩
      rw [add_length_append, add_length_append]
      exact hm'
end

/-! ## Section 3: Spans in the buffer -/

theorem drop_add_length {data pre rest : Bytes} {b : Nat} (h : data.drop b = pre ++ rest) :
    data.drop (b + pre.length) = rest := by
  rw [← List.drop_drop, h, List.drop_left]

/-- A node whose span lies in the buffer has the bytes under the span as its raw bytes. -/
theorem Node.raw?_eq {m : Node} {data : Bytes} {b e : Nat} (hspan : m.span = some ⟨b, e⟩)
    (hbe : b ≤ e) (he : e ≤ data.length) : m.raw? data = some ((data.drop b).take (e - b)) := by
  unfold Node.raw?
  rw [hspan]
  dsimp only
  rw [if_pos ⟨hbe, he⟩]

/-- What the reader promises about the spans of a tree `n` that it read from `offset` up to
`stop` in `data`, with options `o`. -/
structure SpansExact (data : Bytes) (offset : Nat) (o : ReadOptions) (n : Node) (stop : Nat) :
    Prop where
  /-- The tree spans exactly what was read, which lies in the buffer. -/
  root : n.span = some ⟨offset, stop⟩
  stop_le : stop ≤ data.length
  /-- Every node spans a nonempty part of what was read: its raw bytes, which read alone give
  the node back. -/
  node : ∀ m ∈ n.subtrees, ∃ b e, m.span = some ⟨b, e⟩ ∧ offset ≤ b ∧ b < e ∧ e ≤ stop ∧
    m.raw? data = some ((data.drop b).take (e - b)) ∧
    ∃ m', Node.decode ((data.drop b).take (e - b)) o = .ok m' ∧ (m' == m) = true
  /-- The items of every list tile the bytes between its `l` and its `e`. -/
  list : ∀ items sp, Node.list items sp ∈ n.subtrees → ∃ b e, sp = some ⟨b, e⟩ ∧
    data[b]? = some byteL ∧ data[e - 1]? = some byteE ∧ Tiles (b + 1) items (e - 1)
  /-- Every value of a dictionary lies inside the dictionary, right after its key string. -/
  dict : ∀ es sp, Node.dict es sp ∈ n.subtrees → ∀ k v, (k, v) ∈ es →
    ∃ b e kb ve, sp = some ⟨b, e⟩ ∧ v.span = some ⟨kb + (encodeStr k).length, ve⟩ ∧
      b < kb ∧ ve < e ∧ (data.drop kb).take (encodeStr k).length = encodeStr k

/-- The spans of a node read from part of a source lying at `offset` in the buffer. -/
theorem Source.node_span {data src r pre src' post : Bytes} {offset d : Nat} {m : Node}
    (hdata : data.drop offset = src ++ r) (hsplit : src = pre ++ src' ++ post)
    (hm : Source o d (offset + pre.length) m src') :
    ∃ b e, m.span = some ⟨b, e⟩ ∧ offset ≤ b ∧ b < e ∧ e ≤ offset + src.length ∧
      m.raw? data = some ((data.drop b).take (e - b)) ∧
      ∃ m', Node.decode ((data.drop b).take (e - b)) o = .ok m' ∧ (m' == m) = true := by
  have hdrop : data.drop (offset + pre.length) = src' ++ (post ++ r) :=
    drop_add_length (by rw [hdata, hsplit]; simp)
  have hslice : (data.drop (offset + pre.length)).take src'.length = src' := by
    rw [hdrop, List.take_left]
  have hlen : data.length = offset + pre.length + src'.length + (post.length + r.length) := by
    have := hm.length_eq_of_drop hdrop
    simpa using this
  have hpos := hm.length_pos
  have hsrc : src.length = pre.length + src'.length + post.length := by
    rw [hsplit]
    simp only [List.length_append]
  have hwidth : offset + pre.length + src'.length - (offset + pre.length) = src'.length := by omega
  refine ⟨offset + pre.length, offset + pre.length + src'.length, hm.span_eq, by omega, by omega,
    by omega, Node.raw?_eq hm.span_eq (by omega) (by omega), ?_⟩
  -- read alone, at level 0 and position 0, the same bytes give the node up to spans
  obtain ⟨m', hm', he⟩ := hm.rebase 0 (Nat.zero_le d)
  refine ⟨m', ?_, Node.beq_iff_erase_eq.2 he⟩
  rw [hwidth, hslice]
  exact decode_eq_ok_iff.2 hm'

/-- A list read at position `q` of a buffer has its `l` at the start of its span and its `e`
at the end, and its items tile what lies between. -/
theorem Source.list_frame {data src rest : Bytes} {q d : Nat} {items : List Node}
    {sp : Option Span} (hdrop : data.drop q = src ++ rest)
    (hm : Source o d q (.list items sp) src) :
    ∃ b e, sp = some ⟨b, e⟩ ∧ data[b]? = some byteL ∧ data[e - 1]? = some byteE ∧
      Tiles (b + 1) items (e - 1) := by
  -- the list was read from an `l`, its items and an `e`
  cases hm with
  | @list _ _ _ body _ hitems =>
    have hclose : data.drop (q + ([byteL] ++ body).length) = [byteE] ++ rest :=
      drop_add_length (by rw [hdrop]; simp)
    have hlast : q + (body.length + 2) - 1 = q + ([byteL] ++ body).length := by
      simp only [List.length_append, List.length_singleton]
      omega
    refine ⟨_, _, rfl, ?_, ?_, ?_⟩
    · rw [← List.head?_drop, hdrop]
      rfl
    · rw [← List.head?_drop, hlast, hclose]
      rfl
    · have hend : q + (body.length + 2) - 1 = q + 1 + body.length := by omega
      rw [hend]
      exact hitems.tiles

/-- Every value of a dictionary read at position `q` of a buffer lies inside the dictionary,
right after its key string. -/
theorem Source.dict_frame {data src rest : Bytes} {q d : Nat} {es : Dict} {sp : Option Span}
    (hdrop : data.drop q = src ++ rest) (hm : Source o d q (.dict es sp) src) {k : Bytes}
    {v : Node} (hkv : (k, v) ∈ es) :
    ∃ b e kb ve, sp = some ⟨b, e⟩ ∧ v.span = some ⟨kb + (encodeStr k).length, ve⟩ ∧
      b < kb ∧ ve < e ∧ (data.drop kb).take (encodeStr k).length = encodeStr k := by
  cases hm with
  | @dict _ _ es' body _ hentries _ _ =>
    -- the entry was read, in the source order, from the dictionary's body
    obtain ⟨pre, b', post, hbody, hv⟩ := hentries.mem_value (Dict.mem_ofList hkv)
    have hkey : data.drop (q + ([byteD] ++ pre).length) =
        encodeStr k ++ (b' ++ post ++ [byteE] ++ rest) :=
      drop_add_length (by rw [hdrop, hbody]; simp)
    have hbodylen : body.length = pre.length + (encodeStr k).length + b'.length + post.length := by
      rw [hbody]
      simp only [List.length_append]
      omega
    refine ⟨_, _, q + 1 + pre.length, _, rfl, hv.span_eq, by omega, by omega, ?_⟩
    have hkb : q + 1 + pre.length = q + ([byteD] ++ pre).length := by
      simp only [List.length_append, List.length_singleton]
      omega
    rw [hkb, hkey, List.take_left]

/-- Every node of a tree read from a buffer spans a nonempty part of what was read, which
read alone gives the node back. -/
theorem decodePrefix_node_span {data : Bytes} {offset : Nat} {n : Node} {stop : Nat}
    (h : Node.decodePrefix data offset o = .ok (n, stop)) :
    ∀ m ∈ n.subtrees, ∃ b e, m.span = some ⟨b, e⟩ ∧ offset ≤ b ∧ b < e ∧ e ≤ stop ∧
      m.raw? data = some ((data.drop b).take (e - b)) ∧
      ∃ m', Node.decode ((data.drop b).take (e - b)) o = .ok m' ∧ (m' == m) = true := by
  obtain ⟨src, ⟨r, hdata⟩, hsrc, rfl⟩ := decodePrefix_eq_ok_iff.1 h
  intro m hm
  obtain ⟨d, pre, src', post, -, hsplit, hm'⟩ := hsrc.subtree m hm
  exact hm'.node_span hdata.symm hsplit

/-- Spans are exact: every node of a tree read from a buffer carries the span of its own
bytes, which read alone give the node back; the items of a list tile its body, and each
dictionary value comes right after its key. -/
theorem decodePrefix_spans_exact {data : Bytes} {offset : Nat} {n : Node} {stop : Nat}
    (h : Node.decodePrefix data offset o = .ok (n, stop)) : SpansExact data offset o n stop := by
  have hnode := decodePrefix_node_span h
  obtain ⟨src, ⟨r, hdata⟩, hsrc, rfl⟩ := decodePrefix_eq_ok_iff.1 h
  have hlen := hsrc.length_eq_of_drop hdata.symm
  -- every node was read from bytes lying at its own position of the buffer
  have hat : ∀ m ∈ n.subtrees, ∃ d q src' rest, data.drop q = src' ++ rest ∧
      Source o d q m src' := by
    intro m hm
    obtain ⟨d, pre, src', post, -, hsplit, hm'⟩ := hsrc.subtree m hm
    exact ⟨d, _, src', post ++ r, drop_add_length (by rw [← hdata, hsplit]; simp), hm'⟩
  refine ⟨hsrc.span_eq, by omega, hnode, ?_, ?_⟩
  · intro items sp hm
    obtain ⟨d, q, src', rest, hdrop, hm'⟩ := hat _ hm
    exact hm'.list_frame hdrop
  · intro es sp hm k v hkv
    obtain ⟨d, q, src', rest, hdrop, hm'⟩ := hat _ hm
    exact hm'.dict_frame hdrop hkv

/-- The list `li1e1:ae` read from position 2 of `xxli1e1:ae` has exact spans. -/
theorem decodePrefix_spans_exact_at_offset :
    ∃ n, Node.decodePrefix (ofString "xxli1e1:ae") 2 = .ok (n, 10) ∧
      SpansExact (ofString "xxli1e1:ae") 2 {} n 10 := by
  obtain ⟨n, hread⟩ : ∃ n, Node.decodePrefix (ofString "xxli1e1:ae") 2 = .ok (n, 10) := by
    refine ⟨_, decodePrefix_eq_ok_iff.2 ⟨[byteL] ++ (encodeInt 1 ++ (encodeStr [97] ++ [])) ++ [byteE],
      ⟨[], ?_⟩, .list ?_ (.cons (.int ?_ ?_ ?_) (.cons (.str ?_ ?_) .nil)), ?_⟩⟩
    all_goals decide +kernel
  exact ⟨n, hread, decodePrefix_spans_exact hread⟩

end Bencode

end BitTorrent
