import BitTorrent.Bencode.Read
import BitTorrent.Bencode.Write
import BitTorrent.Proofs.KeyOrder
import Mathlib.Data.List.Perm.Basic

/-!
# Bencode trees: validity, height and written forms

The notions the reader and the writer are measured against.

* `Node.Valid`: a tree the format can hold. Integers fit in 64 bits, strings and keys are
  shorter than `2^64` bytes, and every dictionary lists its keys in strictly ascending order.
* `Node.height`: the level of the deepest node, the root being at level 0 and the items and
  values of a list or dictionary one level below it.
* `Node.subtrees`: every node of a tree, the tree first.
* `Written n b`: `b` is the encoding of `n` with the entries of each of its dictionaries
  written in some order. `Node.encode` is the written form whose order is the stored one
  (`written_encode`).

Spans are provenance and play no part in any of these: `Node.sameValue`, the equality of
trees, is equality after `Node.erase` (`sameValue_iff`), and the written forms of two trees
equal in that sense are the same (`Written.of_erase_eq`).
-/

namespace BitTorrent

namespace Bencode

open Bytes

/-! ## Section 1: Validity, height and subtrees -/

namespace Node

mutual
/-- A tree the format can hold. -/
def Valid : Node → Prop
  | int v _ => intMin ≤ v ∧ v ≤ intMax
  | str b _ => b.length < lengthBound
  | list items _ => ValidItems items
  | dict es _ => SortedKeys es ∧ ValidEntries es

/-- Every item is valid. -/
def ValidItems : List Node → Prop
  | [] => True
  | n :: ns => Valid n ∧ ValidItems ns

/-- Every key is shorter than `2^64` bytes and every value is valid. -/
def ValidEntries : List (Bytes × Node) → Prop
  | [] => True
  | (k, v) :: es => k.length < lengthBound ∧ Valid v ∧ ValidEntries es
end

mutual
/-- The level of the deepest node, the root being at level 0. -/
def height : Node → Nat
  | int .. | str .. => 0
  | list items _ => heightItems items
  | dict es _ => heightEntries es

/-- The level of the deepest node below a list, its items at level 1. -/
def heightItems : List Node → Nat
  | [] => 0
  | n :: ns => max (height n + 1) (heightItems ns)

/-- The level of the deepest node below a dictionary, its values at level 1. -/
def heightEntries : List (Bytes × Node) → Nat
  | [] => 0
  | (_, v) :: es => max (height v + 1) (heightEntries es)
end

mutual
/-- Every node of a tree, the tree first, then the nodes below it in source order. -/
def subtrees : Node → List Node
  | int v sp => [int v sp]
  | str b sp => [str b sp]
  | list items sp => list items sp :: subtreesItems items
  | dict es sp => dict es sp :: subtreesEntries es

/-- The nodes of the items of a list. -/
def subtreesItems : List Node → List Node
  | [] => []
  | n :: ns => subtrees n ++ subtreesItems ns

/-- The nodes of the values of a dictionary. -/
def subtreesEntries : List (Bytes × Node) → List Node
  | [] => []
  | (_, v) :: es => subtrees v ++ subtreesEntries es
end

theorem validItems_iff {ns : List Node} : ValidItems ns ↔ ∀ n ∈ ns, n.Valid := by
  induction ns with
  | nil => simp [ValidItems]
  | cons n ns ih => simp [ValidItems, ih]

theorem validEntries_iff {es : List (Bytes × Node)} :
    ValidEntries es ↔ ∀ e ∈ es, e.1.length < lengthBound ∧ e.2.Valid := by
  induction es with
  | nil => simp [ValidEntries]
  | cons e es ih =>
    obtain ⟨k, v⟩ := e
    simp [ValidEntries, ih, and_assoc]

theorem heightItems_cons (n : Node) (ns : List Node) :
    heightItems (n :: ns) = max (n.height + 1) (heightItems ns) := rfl

theorem heightEntries_cons (k : Bytes) (v : Node) (es : List (Bytes × Node)) :
    heightEntries ((k, v) :: es) = max (v.height + 1) (heightEntries es) := rfl

/-- A list is at most `h` deep below its own level when each item is at most `h - 1` deep. -/
theorem heightItems_le_iff {ns : List Node} {h : Nat} :
    heightItems ns ≤ h ↔ ∀ n ∈ ns, n.height + 1 ≤ h := by
  induction ns with
  | nil => simp [heightItems]
  | cons n ns ih => rw [heightItems, Nat.max_le, ih, List.forall_mem_cons]

theorem heightEntries_le_iff {es : List (Bytes × Node)} {h : Nat} :
    heightEntries es ≤ h ↔ ∀ e ∈ es, e.2.height + 1 ≤ h := by
  induction es with
  | nil => simp [heightEntries]
  | cons e es ih =>
    obtain ⟨k, v⟩ := e
    rw [heightEntries, Nat.max_le, ih, List.forall_mem_cons]

theorem validEntries_perm {es es' : List (Bytes × Node)} (h : es.Perm es') :
    ValidEntries es ↔ ValidEntries es' := by
  simp only [validEntries_iff, h.mem_iff]

theorem heightEntries_perm {es es' : List (Bytes × Node)} (h : es.Perm es') :
    heightEntries es = heightEntries es' := by
  apply Nat.le_antisymm
  · rw [heightEntries_le_iff]
    intro e he
    exact heightEntries_le_iff.1 (Nat.le_refl _) e (h.mem_iff.1 he)
  · rw [heightEntries_le_iff]
    intro e he
    exact heightEntries_le_iff.1 (Nat.le_refl _) e (h.mem_iff.2 he)

theorem mem_subtrees_self (n : Node) : n ∈ n.subtrees := by
  cases n <;> simp [subtrees]

theorem mem_subtreesEntries {m : Node} {es : List (Bytes × Node)} :
    m ∈ subtreesEntries es ↔ ∃ e ∈ es, m ∈ e.2.subtrees := by
  induction es with
  | nil => simp [subtreesEntries]
  | cons e es ih =>
    obtain ⟨k, v⟩ := e
    simp [subtreesEntries, ih]

theorem eraseEntries_eq_map (es : List (Bytes × Node)) :
    eraseEntries es = es.map fun e => (e.1, e.2.erase) := by
  induction es with
  | nil => rfl
  | cons e es ih => simp [eraseEntries, ih]

/-- Building a dictionary and dropping spans commute. -/
theorem eraseEntries_ofList (es : List (Bytes × Node)) :
    eraseEntries (Dict.ofList es) = Dict.ofList (eraseEntries es) := by
  rw [eraseEntries_eq_map, eraseEntries_eq_map, Dict.ofList_map]

theorem keys_eraseEntries (es : List (Bytes × Node)) :
    (eraseEntries es).map Prod.fst = es.map Prod.fst := by
  rw [eraseEntries_eq_map, List.map_map]
  rfl

/-! ## Section 2: Equality up to spans -/

mutual
theorem sameValue_iff : ∀ m n : Node, m.sameValue n = true ↔ m.erase = n.erase
  | int a _, int b _ => by simp [sameValue, erase]
  | str a _, str b _ => by simp [sameValue, erase]
  | list as _, list bs _ => by simp [sameValue, erase, sameItems_iff as bs]
  | dict as _, dict bs _ => by simp [sameValue, erase, sameEntries_iff as bs]
  | int .., str .. | int .., list .. | int .., dict .. => by simp [sameValue, erase]
  | str .., int .. | str .., list .. | str .., dict .. => by simp [sameValue, erase]
  | list .., int .. | list .., str .. | list .., dict .. => by simp [sameValue, erase]
  | dict .., int .. | dict .., str .. | dict .., list .. => by simp [sameValue, erase]

theorem sameItems_iff : ∀ as bs : List Node,
    sameItems as bs = true ↔ eraseItems as = eraseItems bs
  | [], [] => by simp [sameItems, eraseItems]
  | [], _ :: _ | _ :: _, [] => by simp [sameItems, eraseItems]
  | a :: as, b :: bs => by simp [sameItems, eraseItems, sameValue_iff a b, sameItems_iff as bs]

theorem sameEntries_iff : ∀ as bs : List (Bytes × Node),
    sameEntries as bs = true ↔ eraseEntries as = eraseEntries bs
  | [], [] => by simp [sameEntries, eraseEntries]
  | [], _ :: _ | _ :: _, [] => by simp [sameEntries, eraseEntries]
  | (k, a) :: as, (k', b) :: bs => by
    simp [sameEntries, eraseEntries, sameValue_iff a b, sameEntries_iff as bs, and_assoc]
end

/-- Trees are equal, `==`, exactly when they agree with their spans dropped. -/
theorem beq_iff_erase_eq {m n : Node} : (m == n) = true ↔ m.erase = n.erase :=
  sameValue_iff m n

mutual
theorem height_erase : ∀ n : Node, n.erase.height = n.height
  | int .. | str .. => rfl
  | list items _ => by simp [erase, height, heightItems_erase items]
  | dict es _ => by simp [erase, height, heightEntries_erase es]

theorem heightItems_erase : ∀ ns : List Node, heightItems (eraseItems ns) = heightItems ns
  | [] => rfl
  | n :: ns => by simp [eraseItems, heightItems, height_erase n, heightItems_erase ns]

theorem heightEntries_erase : ∀ es : List (Bytes × Node),
    heightEntries (eraseEntries es) = heightEntries es
  | [] => rfl
  | (_, v) :: es => by simp [eraseEntries, heightEntries, height_erase v, heightEntries_erase es]
end

theorem height_eq_of_erase_eq {m n : Node} (h : m.erase = n.erase) : m.height = n.height := by
  rw [← height_erase m, h, height_erase]

mutual
/-- Spans are not written. -/
theorem encode_erase : ∀ n : Node, n.erase.encode = n.encode
  | int .. | str .. => rfl
  | list items _ => by simp [erase, encode, encodeItems_erase items]
  | dict es _ => by simp [erase, encode, encodeEntries_erase es]

theorem encodeItems_erase : ∀ ns : List Node, encodeItems (eraseItems ns) = encodeItems ns
  | [] => rfl
  | n :: ns => by simp [eraseItems, encodeItems, encode_erase n, encodeItems_erase ns]

theorem encodeEntries_erase : ∀ es : List (Bytes × Node),
    encodeEntries (eraseEntries es) = encodeEntries es
  | [] => rfl
  | (_, v) :: es => by simp [eraseEntries, encodeEntries, encode_erase v, encodeEntries_erase es]
end

theorem encode_eq_of_erase_eq {m n : Node} (h : m.erase = n.erase) : m.encode = n.encode := by
  rw [← encode_erase m, h, encode_erase]

end Node

/-! ## Section 3: Written forms -/

mutual
/-- `Written n b`: `b` is the encoding of `n` with the entries of each dictionary of `n`
written in some order. Lengths are written canonically, and spans play no part. -/
inductive Written : Node → Bytes → Prop
  | int (v : Int) (sp : Option Span) : Written (.int v sp) (encodeInt v)
  | str (b : Bytes) (sp : Option Span) : Written (.str b sp) (encodeStr b)
  | list {items : List Node} {body : Bytes} (sp : Option Span) :
      WrittenItems items body → Written (.list items sp) ([108] ++ body ++ [101])
  | dict {es es' : List (Bytes × Node)} {body : Bytes} (sp : Option Span) :
      es'.Perm es → WrittenEntries es' body → Written (.dict es sp) ([100] ++ body ++ [101])

/-- The items of a list, each written in turn. -/
inductive WrittenItems : List Node → Bytes → Prop
  | nil : WrittenItems [] []
  | cons {n : Node} {ns : List Node} {b bs : Bytes} :
      Written n b → WrittenItems ns bs → WrittenItems (n :: ns) (b ++ bs)

/-- Dictionary entries in the order given, each its key string and then its value. -/
inductive WrittenEntries : List (Bytes × Node) → Bytes → Prop
  | nil : WrittenEntries [] []
  | cons {k : Bytes} {v : Node} {es : List (Bytes × Node)} {b bs : Bytes} :
      Written v b → WrittenEntries es bs → WrittenEntries ((k, v) :: es) (encodeStr k ++ b ++ bs)
end

mutual
/-- The canonical encoding is a written form, with every dictionary in its stored order. -/
theorem written_encode : ∀ n : Node, Written n n.encode
  | .int v sp => .int v sp
  | .str b sp => .str b sp
  | .list items sp => .list sp (writtenItems_encodeItems items)
  | .dict es sp => .dict sp (List.Perm.refl es) (writtenEntries_encodeEntries es)

theorem writtenItems_encodeItems : ∀ ns : List Node, WrittenItems ns (Node.encodeItems ns)
  | [] => .nil
  | n :: ns => .cons (written_encode n) (writtenItems_encodeItems ns)

theorem writtenEntries_encodeEntries :
    ∀ es : List (Bytes × Node), WrittenEntries es (Node.encodeEntries es)
  | [] => .nil
  | (_, v) :: es => .cons (written_encode v) (writtenEntries_encodeEntries es)
end

/-- Entries that agree key by key and value by value, spans apart. -/
def EntriesAlike (x y : Bytes × Node) : Prop := (x.1, x.2.erase) = (y.1, y.2.erase)

theorem forall₂_entriesAlike {es es' : List (Bytes × Node)}
    (h : Node.eraseEntries es = Node.eraseEntries es') : List.Forall₂ EntriesAlike es es' := by
  induction es generalizing es' with
  | nil =>
    cases es' with
    | nil => exact .nil
    | cons => simp [Node.eraseEntries] at h
  | cons e es ih =>
    cases es' with
    | nil => simp [Node.eraseEntries] at h
    | cons e' es' =>
      obtain ⟨k, v⟩ := e
      obtain ⟨k', v'⟩ := e'
      simp only [Node.eraseEntries, List.cons.injEq] at h
      exact .cons h.1 (ih h.2)

mutual
/-- Written forms depend on a tree only up to its spans. -/
theorem Written.of_erase_eq {m n : Node} {b : Bytes} :
    Written m b → m.erase = n.erase → Written n b
  | .int v sp, he => by
    cases n <;> simp [Node.erase] at he
    subst he
    exact .int _ _
  | .str s sp, he => by
    cases n <;> simp [Node.erase] at he
    subst he
    exact .str _ _
  | .list sp hitems, he => by
    cases n <;> simp [Node.erase] at he
    exact .list _ (hitems.of_erase_eq he)
  | .dict sp hperm hentries, he => by
    cases n with
    | dict es' sp' =>
      simp only [Node.erase, Node.dict.injEq, and_true] at he
      -- carry the written order over to the entries of the other tree
      obtain ⟨es'', halike, hperm'⟩ := List.perm_comp_forall₂ hperm (forall₂_entriesAlike he)
      exact .dict _ hperm' (hentries.of_forall₂ halike)
    | _ => simp [Node.erase] at he

theorem WrittenItems.of_erase_eq {ms ns : List Node} {b : Bytes} :
    WrittenItems ms b → Node.eraseItems ms = Node.eraseItems ns → WrittenItems ns b
  | .nil, he => by
    cases ns with
    | nil => exact .nil
    | cons => simp [Node.eraseItems] at he
  | .cons hn hns, he => by
    cases ns with
    | nil => simp [Node.eraseItems] at he
    | cons n ns =>
      simp only [Node.eraseItems, List.cons.injEq] at he
      exact .cons (hn.of_erase_eq he.1) (hns.of_erase_eq he.2)

theorem WrittenEntries.of_forall₂ {es es' : List (Bytes × Node)} {b : Bytes} :
    WrittenEntries es b → List.Forall₂ EntriesAlike es es' → WrittenEntries es' b
  | .nil, he => by
    cases he
    exact .nil
  | .cons hv hes, he => by
    cases he with
    | cons hhead htail =>
      rename_i e' _
      obtain ⟨k', v'⟩ := e'
      simp only [EntriesAlike, Prod.mk.injEq] at hhead
      obtain ⟨rfl, hv'⟩ := hhead
      exact .cons (hv.of_erase_eq hv') (hes.of_forall₂ htail)
end

end Bencode

end BitTorrent
