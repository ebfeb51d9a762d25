import BitTorrent.Bencode.Node

/-!
# The key order and sorted insertion

Dictionary keys and scrape files are kept in ascending byte order. This module shows that
`Bytes.compareLex` is a lawful total order, being the lexicographic `compare` on lists of
bytes, and from that what sorted insertion does: `Bytes.insertKeyed` keeps a list sorted,
and with a key not yet present it only adds the entry. A dictionary built from entries with
distinct keys, in whatever order they come, is therefore the one sorted list of them.

## Main statements

* `Bytes.compareLex_eq_compare`: the key order is the lexicographic `compare`.
* `Bytes.insertKeyed_sorted`, `Bytes.insertKeyed_perm`: sorted insertion.
* `Bytes.insertAll_perm`: inserting fresh keys one by one loses none of them.
* `Bencode.Dict.ofList_eq_of_perm`: a dictionary depends on its entries, not their order.
-/

namespace BitTorrent

namespace Bytes

/-! ## Section 1: A lawful comparison -/

theorem compareLex_eq_compare (a b : Bytes) : compareLex a b = compare a b := by
  induction a generalizing b with
  | nil => cases b <;> rfl
  | cons x xs ih =>
    cases b with
    | nil => rfl
    | cons y ys =>
      rw [List.compare_cons_cons, ← ih, compareLex]
      by_cases hxy : x < y
      · simp [hxy, compare, compareOfLessAndEq]
      · by_cases hyx : y < x
        · have hne : x ≠ y := fun h => hxy (h ▸ hyx)
          simp [hxy, hyx, compare, compareOfLessAndEq, hne]
        · -- bytes are totally ordered, so neither sorting first means they are equal
          have heq : x = y := UInt8.le_antisymm (UInt8.not_lt.mp hyx) (UInt8.not_lt.mp hxy)
          simp [compare, compareOfLessAndEq, heq]

theorem compareLex_eq : compareLex = compare :=
  funext fun a => funext (compareLex_eq_compare a)

instance : Std.TransCmp compareLex := compareLex_eq ▸ inferInstance

instance : Std.LawfulEqCmp compareLex := compareLex_eq ▸ inferInstance

theorem lexLt_iff {a b : Bytes} : lexLt a b = true ↔ compareLex a b = .lt := by
  simp [lexLt]

theorem compareLex_eq_eq_iff {a b : Bytes} : compareLex a b = .eq ↔ a = b :=
  Std.LawfulEqCmp.compare_eq_iff_eq

theorem compareLex_eq_gt_iff {a b : Bytes} : compareLex a b = .gt ↔ lexLt b a = true := by
  rw [lexLt_iff]
  exact Std.OrientedCmp.gt_iff_lt

theorem lexLt_irrefl (a : Bytes) : lexLt a a = false := by
  simp [lexLt, compareLex_self]

theorem lexLt_trans {a b c : Bytes} (hab : lexLt a b = true) (hbc : lexLt b c = true) :
    lexLt a c = true :=
  lexLt_iff.2 (Std.TransCmp.lt_trans (lexLt_iff.1 hab) (lexLt_iff.1 hbc))

theorem lexLt_asymm {a b : Bytes} (hab : lexLt a b = true) : lexLt b a = false := by
  have hba : compareLex b a = .gt := Std.OrientedCmp.gt_of_lt (lexLt_iff.1 hab)
  simp [lexLt, hba]

theorem ne_of_lexLt {a b : Bytes} (h : lexLt a b = true) : a ≠ b := by
  rintro rfl
  simp [lexLt_irrefl] at h

/-- Two different keys are ordered one way or the other. -/
theorem lexLt_or_lexLt {a b : Bytes} (h : a ≠ b) : lexLt a b = true ∨ lexLt b a = true := by
  cases hc : compareLex a b with
  | lt => exact .inl (lexLt_iff.2 hc)
  | eq => exact absurd (compareLex_eq_eq_iff.1 hc) h
  | gt => exact .inr (compareLex_eq_gt_iff.1 hc)

/-! ## Section 2: Sorted insertion -/

section Insert

variable {α β : Type}

/-- Entries in strictly ascending key order, hence with no key twice. -/
def SortedKeys (es : List (Bytes × α)) : Prop := es.Pairwise fun a b => lexLt a.1 b.1 = true

theorem SortedKeys.nodup_keys {es : List (Bytes × α)} (h : SortedKeys es) :
    (es.map Prod.fst).Nodup := by
  rw [List.nodup_iff_pairwise_ne, List.pairwise_map]
  exact h.imp ne_of_lexLt

/-- Key order is a property of the keys alone. -/
theorem SortedKeys.of_keys_eq {es : List (Bytes × α)} {es' : List (Bytes × β)}
    (hkeys : es.map Prod.fst = es'.map Prod.fst) (h : SortedKeys es) : SortedKeys es' := by
  have hk : (es.map Prod.fst).Pairwise fun a b => lexLt a b = true := List.pairwise_map.2 h
  rw [hkeys] at hk
  exact List.pairwise_map.1 hk

theorem mem_insertKeyed {k : Bytes} {v : α} {es : List (Bytes × α)} {e : Bytes × α}
    (h : e ∈ insertKeyed k v es) : e = (k, v) ∨ e ∈ es := by
  induction es with
  | nil => simpa [insertKeyed] using h
  | cons e' es ih =>
    simp only [insertKeyed] at h
    split at h <;> simp only [List.mem_cons] at h
    · rcases h with h | h | h <;> simp [h]
    · rcases h with h | h <;> simp [h]
    · rcases h with h | h
      · simp [h]
      · rcases ih h with h | h <;> simp [h]

theorem mem_keys_insertKeyed {k k' : Bytes} {v : α} {es : List (Bytes × α)} :
    k' ∈ (insertKeyed k v es).map Prod.fst ↔ k' = k ∨ k' ∈ es.map Prod.fst := by
  induction es with
  | nil => simp [insertKeyed]
  | cons e es ih =>
    simp only [insertKeyed]
    split
    · simp
    · -- an equal key is replaced, and it is the same key
      rename_i heq
      have hk : k = e.1 := compareLex_eq_eq_iff.1 heq
      simp only [List.map_cons, List.mem_cons]
      constructor
      · rintro (h | h) <;> simp [h]
      · rintro (h | h | h) <;> simp [h, hk]
    · simp only [List.map_cons, List.mem_cons, ih]
      exact or_left_comm

/-- With a key not present, insertion only adds the entry. -/
theorem insertKeyed_perm {k : Bytes} {v : α} {es : List (Bytes × α)}
    (h : k ∉ es.map Prod.fst) : (insertKeyed k v es).Perm ((k, v) :: es) := by
  induction es with
  | nil => simp [insertKeyed]
  | cons e es ih =>
    simp only [List.map_cons, List.mem_cons, not_or] at h
    simp only [insertKeyed]
    split
    · exact .refl _
    · rename_i heq
      exact absurd (compareLex_eq_eq_iff.1 heq) h.1
    · exact ((ih h.2).cons e).trans (.swap _ _ _)

theorem insertKeyed_sorted {k : Bytes} {v : α} {es : List (Bytes × α)}
    (h : SortedKeys es) : SortedKeys (insertKeyed k v es) := by
  induction es with
  | nil => simp [insertKeyed, SortedKeys]
  | cons e es ih =>
    have hes : SortedKeys es := (List.pairwise_cons.1 h).2
    have hhead : ∀ e' ∈ es, lexLt e.1 e'.1 = true := (List.pairwise_cons.1 h).1
    simp only [insertKeyed]
    split
    · rename_i hlt
      refine List.pairwise_cons.2 ⟨?_, h⟩
      intro e' he'
      rcases List.mem_cons.1 he' with rfl | he'
      · exact lexLt_iff.2 hlt
      · exact lexLt_trans (lexLt_iff.2 hlt) (hhead e' he')
    · rename_i heq
      have hk : k = e.1 := compareLex_eq_eq_iff.1 heq
      exact List.pairwise_cons.2 ⟨fun e' he' => hk ▸ hhead e' he', hes⟩
    · rename_i hgt
      refine List.pairwise_cons.2 ⟨?_, ih hes⟩
      intro e' he'
      rcases mem_insertKeyed he' with rfl | he'
      · exact compareLex_eq_gt_iff.1 hgt
      · exact hhead e' he'

/-- Insertion looks at keys only, so it commutes with a change of the values. -/
theorem map_insertKeyed (f : α → β) (k : Bytes) (v : α) (es : List (Bytes × α)) :
    (insertKeyed k v es).map (fun e => (e.1, f e.2)) =
      insertKeyed k (f v) (es.map fun e => (e.1, f e.2)) := by
  induction es with
  | nil => rfl
  | cons e es ih =>
    simp only [insertKeyed, List.map_cons]
    split <;> simp [*]

/-- Inserting entries one by one, in list order. -/
abbrev insertAll (acc : List (Bytes × α)) (es : List (Bytes × α)) : List (Bytes × α) :=
  es.foldl (fun d e => insertKeyed e.1 e.2 d) acc

theorem insertAll_sorted {acc : List (Bytes × α)} (es : List (Bytes × α))
    (h : SortedKeys acc) : SortedKeys (insertAll acc es) := by
  induction es generalizing acc with
  | nil => exact h
  | cons e es ih => exact ih (insertKeyed_sorted h)

theorem mem_insertAll {acc es : List (Bytes × α)} {x : Bytes × α}
    (h : x ∈ insertAll acc es) : x ∈ es ∨ x ∈ acc := by
  induction es generalizing acc with
  | nil => exact .inr h
  | cons e es ih =>
    rcases ih h with h | h
    · exact .inl (List.mem_cons_of_mem _ h)
    · rcases mem_insertKeyed h with rfl | h
      · exact .inl List.mem_cons_self
      · exact .inr h

/-- Inserting keys that are all fresh keeps every entry. -/
theorem insertAll_perm {acc es : List (Bytes × α)}
    (h : (acc.map Prod.fst ++ es.map Prod.fst).Nodup) : (insertAll acc es).Perm (es ++ acc) := by
  induction es generalizing acc with
  | nil => simp
  | cons e es ih =>
    have hfresh : e.1 ∉ acc.map Prod.fst := by
      intro hm
      exact (List.nodup_append.1 h).2.2 _ hm _ List.mem_cons_self rfl
    have hins : (insertKeyed e.1 e.2 acc).Perm (e :: acc) := insertKeyed_perm hfresh
    have hkeys : ((insertKeyed e.1 e.2 acc).map Prod.fst ++ es.map Prod.fst).Perm
        (acc.map Prod.fst ++ (e :: es).map Prod.fst) := by
      refine ((hins.map Prod.fst).append_right _).trans ?_
      simpa using List.perm_middle.symm
    calc insertAll acc (e :: es)
        = insertAll (insertKeyed e.1 e.2 acc) es := rfl
      List.Perm _ (es ++ insertKeyed e.1 e.2 acc) := ih (hkeys.nodup_iff.2 h)
      List.Perm _ (es ++ e :: acc) := hins.append_left es
      List.Perm _ (e :: es ++ acc) := List.perm_middle

theorem map_insertAll (f : α → β) (acc es : List (Bytes × α)) :
    (insertAll acc es).map (fun e => (e.1, f e.2)) =
      insertAll (acc.map fun e => (e.1, f e.2)) (es.map fun e => (e.1, f e.2)) := by
  induction es generalizing acc with
  | nil => rfl
  | cons e es ih => simp [insertAll, ih, map_insertKeyed]

end Insert

end Bytes

namespace Bencode

namespace Dict

open Bytes

/-! ## Section 3: Dictionaries -/

theorem ofList_eq_insertAll (es : List (Bytes × Node)) : ofList es = insertAll [] es := rfl

theorem ofList_sorted (es : List (Bytes × Node)) : SortedKeys (ofList es) :=
  insertAll_sorted es List.Pairwise.nil

theorem ofList_perm {es : List (Bytes × Node)} (h : (es.map Prod.fst).Nodup) :
    (ofList es).Perm es := by
  rw [ofList_eq_insertAll]
  simpa using @insertAll_perm _ [] es (by simpa using h)

theorem mem_ofList {es : List (Bytes × Node)} {x : Bytes × Node} (h : x ∈ ofList es) : x ∈ es :=
  (mem_insertAll h).resolve_right List.not_mem_nil

/-- A dictionary holding exactly the entries of a sorted list is that list. -/
theorem ofList_eq_of_perm {es d : List (Bytes × Node)} (hp : es.Perm d) (hd : SortedKeys d) :
    ofList es = d := by
  have hnodup : (es.map Prod.fst).Nodup := (hp.map Prod.fst).nodup_iff.2 hd.nodup_keys
  refine List.Perm.eq_of_pairwise ?_ (ofList_sorted es) hd ((ofList_perm hnodup).trans hp)
  intro a b _ _ hab hba
  exact absurd hba (by simp [lexLt_asymm hab])

theorem ofList_map (f : Node → Node) (es : List (Bytes × Node)) :
    (ofList es).map (fun e => (e.1, f e.2)) = ofList (es.map fun e => (e.1, f e.2)) :=
  map_insertAll f [] es

theorem insert_eq_insertKeyed (k : Bytes) (v : Node) (d : Dict) :
    insert k v d = insertKeyed k v d := rfl

theorem find?_mem {k : Bytes} {d : Dict} {v : Node} (h : find? k d = some v) : (k, v) ∈ d := by
  induction d with
  | nil => simp [find?] at h
  | cons e d ih =>
    simp only [find?] at h
    split at h
    · rename_i hk
      cases h
      simp [hk]
    · exact List.mem_cons_of_mem _ (ih h)

theorem contains_iff {k : Bytes} {d : Dict} : d.contains k = true ↔ k ∈ d.map Prod.fst := by
  induction d with
  | nil => simp [contains, find?]
  | cons e d ih =>
    simp only [contains, find?] at ih ⊢
    split
    · rename_i hk
      simp [hk]
    · rename_i hk
      simp [ih, hk]

end Dict

end Bencode

end BitTorrent
