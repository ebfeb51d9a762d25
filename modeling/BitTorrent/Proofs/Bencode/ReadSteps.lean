import BitTorrent.Proofs.Bencode.Tree
import BitTorrent.Proofs.Decimal
import Mathlib.Data.List.Forall2

/-!
# One step of the reader

The reader returns the unread input with a proof that it is shorter than the input, so the
type of a result depends on the input. `plain` forgets that proof. Stated through it, each
branch of `readValue`, `readItems` and `readEntries` becomes an equation between results of
one type (`plain_readValue_int` and the like), and the proofs about whole reads cite these
equations instead of unfolding the reader.

The scalar readers get their specifications here as well: after its `i`, `readIntBody`
takes exactly a canonical 64-bit integer and its `e` (`readIntBody_sound`,
`readIntBody_complete`), and `readStr` exactly a canonical length, a colon and that many
bytes (`readStr_sound`, `readStr_complete`). A canonical numeral too large for its field is
refused as such, never read as a smaller number (`plain_readIntBody_text`,
`plain_readStr_numeral`).
-/

namespace BitTorrent

namespace Bencode

open Bytes

/-! ## Section 1: Results without their proofs -/

section Plain

variable {α β : Type} {s : Bytes}

theorem Except.map_eq_ok {ε : Type} {x : Except ε α} {f : α → β} {b : β} :
    x.map f = .ok b ↔ ∃ a, x = .ok a ∧ f a = b := by
  cases x <;> simp [Except.map]

theorem Except.bind_eq_ok {ε : Type} {x : Except ε α} {f : α → Except ε β} {b : β} :
    x.bind f = .ok b ↔ ∃ a, x = .ok a ∧ f a = .ok b := by
  cases x <;> simp [Except.bind]

/-- A list is read element by element exactly when each element reads as the matching result. -/
theorem mapM_eq_ok_iff {ε : Type} {f : α → Except ε β} :
    ∀ {l : List α} {ys : List β}, l.mapM f = .ok ys ↔ List.Forall₂ (fun x y => f x = .ok y) l ys
  | [], ys => by
    rw [List.mapM_nil, List.forall₂_nil_left_iff]
    exact ⟨fun h => (Except.ok.inj h).symm, fun h => h ▸ rfl⟩
  | a :: l, ys => by
    rw [List.mapM_cons]
    simp only [bind, Except.bind_eq_ok]
    constructor
    · rintro ⟨b, hb, bs, hbs, h⟩
      cases h
      exact .cons hb (mapM_eq_ok_iff.1 hbs)
    · intro h
      obtain ⟨b, bs, hb, hbs, rfl⟩ := List.forall₂_cons_left_iff.1 h
      exact ⟨b, hb, bs, mapM_eq_ok_iff.2 hbs, rfl⟩

/-- A list is read element by element as `R` says, when each element alone reads as `R` says. -/
theorem mapM_eq_ok_iff_of {ε : Type} {f : α → Except ε β} {R : α → β → Prop}
    (h : ∀ x y, f x = .ok y ↔ R x y) {l : List α} {ys : List β} :
    l.mapM f = .ok ys ↔ List.Forall₂ R l ys := by
  rw [mapM_eq_ok_iff]
  exact ⟨fun hf => hf.imp fun x y => (h x y).1, fun hr => hr.imp fun x y => (h x y).2⟩

/-- A read's result, with the unread input as a plain byte string. -/
def plain : Except DecodeError (α × Rest s) → Except DecodeError (α × Bytes)
  | .error e => .error e
  | .ok (a, r) => .ok (a, r.1)

@[simp] theorem plain_error (e : DecodeError) :
    plain (.error e : Except DecodeError (α × Rest s)) = .error e := rfl

@[simp] theorem plain_ok (a : α) (r : Rest s) : plain (.ok (a, r)) = .ok (a, r.1) := rfl

theorem plain_eq_ok {x : Except DecodeError (α × Rest s)} {a : α} {r : Bytes} :
    plain x = .ok (a, r) ↔ ∃ h, x = .ok (a, ⟨r, h⟩) := by
  constructor
  · intro h
    match x, h with
    | .ok (a', ⟨r', hr'⟩), h =>
      simp only [plain, Except.ok.injEq, Prod.mk.injEq] at h
      obtain ⟨rfl, rfl⟩ := h
      exact ⟨hr', rfl⟩
  · rintro ⟨h, rfl⟩
    rfl

/-- Every successful step consumes input. -/
theorem length_lt_of_plain_eq_ok {x : Except DecodeError (α × Rest s)} {a : α} {r : Bytes}
    (h : plain x = .ok (a, r)) : r.length < s.length := by
  obtain ⟨hr, -⟩ := plain_eq_ok.1 h
  exact hr

end Plain

/-! ## Section 2: Numerals at the front of the input -/

theorem numeral_split (u : Bytes) {term : UInt8} {r : Bytes}
    (h : u.dropWhile isDigit = term :: r) : u = u.takeWhile isDigit ++ term :: r := by
  rw [← h, List.takeWhile_append_dropWhile]

theorem isDigit_of_mem_takeWhile {u : Bytes} {b : UInt8} (h : b ∈ u.takeWhile isDigit) :
    isDigit b = true :=
  List.all_eq_true.1 List.all_takeWhile b h

/-- A digit run that passed the reader's checks is the numeral of its value. -/
theorem decimal_takeWhile {u : Bytes} (hne : u.takeWhile isDigit ≠ [])
    (hzero : ¬((u.takeWhile isDigit).head? = some byteZero ∧ 1 < (u.takeWhile isDigit).length)) :
    decimal (digitsValue (u.takeWhile isDigit)) = u.takeWhile isDigit := by
  apply decimal_digitsValue hne (fun b hb => isDigit_of_mem_takeWhile hb)
  intro h0
  have hpos : (u.takeWhile isDigit).length ≠ 0 := by simpa using hne
  have hle : ¬ 1 < (u.takeWhile isDigit).length := fun h1 => hzero ⟨h0, h1⟩
  omega

/-- A digit run led by a nonzero digit has a positive value. -/
theorem digitsValue_takeWhile_pos {u : Bytes} (hne : u.takeWhile isDigit ≠ [])
    (hlead : ¬(u.takeWhile isDigit).head? = some byteZero) : 0 < digitsValue (u.takeWhile isDigit) := by
  obtain ⟨d, ds, hds⟩ := List.exists_cons_of_ne_nil hne
  rw [hds] at hlead ⊢
  have hd : isDigit d = true := isDigit_of_mem_takeWhile (hds ▸ List.mem_cons_self)
  exact digitsValue_pos hd (fun h => hlead (by simp [h, byteZero]))

theorem takeWhile_numeral {ds : Bytes} (hds : ∀ b ∈ ds, isDigit b = true) {c : UInt8}
    (hc : isDigit c = false) (r : Bytes) : (ds ++ c :: r).takeWhile isDigit = ds := by
  rw [List.takeWhile_append_of_pos hds, List.takeWhile_cons_of_neg (by simp [hc]), List.append_nil]

theorem dropWhile_numeral {ds : Bytes} (hds : ∀ b ∈ ds, isDigit b = true) {c : UInt8}
    (hc : isDigit c = false) (r : Bytes) : (ds ++ c :: r).dropWhile isDigit = c :: r := by
  rw [List.dropWhile_append_of_pos hds, List.dropWhile_cons_of_neg (by simp [hc])]

theorem decimal_canonical (n : Nat) :
    ¬((decimal n).head? = some byteZero ∧ 1 < (decimal n).length) := by
  rintro ⟨h0, hlen⟩
  have hn := eq_zero_of_head?_decimal h0
  subst hn
  rw [decimal_of_lt (by omega)] at hlen
  simp at hlen


/-! ## Section 3: Integers and strings -/

theorem isDigit_byteE : isDigit byteE = false := by decide

theorem isDigit_byteMinus : isDigit byteMinus = false := by decide

theorem isDigit_byteColon : isDigit byteColon = false := by decide

/-- After its `i`, the reader takes a 64-bit integer in its canonical text, and its `e`. -/
theorem readIntBody_sound {pos : Nat} {t : Bytes} {v : Int} {r : Bytes}
    (h : plain (readIntBody pos t) = .ok (v, r)) :
    intMin ≤ v ∧ v ≤ intMax ∧ t = ofString (toString v) ++ byteE :: r := by
  replace h := plain_eq_ok.1 h
  obtain ⟨hr, h⟩ := h
  unfold readIntBody at h
  split at h
  · cases h
  rename_i c t'
  dsimp only at h
  by_cases hc : c = byteMinus
  · -- a negative integer: the digits after the sign, without a leading zero
    subst hc
    simp only [beq_self_eq_true, if_true, Bool.or_true, Bool.and_true] at h
    -- each guard of the reader that fails is an error, so on success all of them passed:
    -- the digits end before the input does, at an `e`, there is one at least, with no
    -- leading zero, and the value is in range
    split at h
    · cases h
    rename_i term r' hdrop
    simp only [bne_iff_ne, ne_eq, beq_iff_eq, Bool.or_eq_true, decide_eq_true_eq,
      List.isEmpty_iff] at h
    split at h
    · cases h
    rename_i hterm
    rw [Decidable.not_not] at hterm
    split at h
    · cases h
    rename_i hne
    split at h
    · cases h
    rename_i hlead
    split at h
    · cases h
    rename_i hrange
    simp only [Except.ok.injEq, Prod.mk.injEq, Subtype.mk.injEq] at h
    obtain ⟨rfl, rfl⟩ := h
    -- the digits are then the numeral of the magnitude, and the input is sign, numeral, `e`
    have hpos := digitsValue_takeWhile_pos hne hlead
    have hdec := decimal_takeWhile hne (fun h => hlead h.1)
    have hsplit := numeral_split t' (by simpa using hdrop)
    subst hterm
    refine ⟨by omega, by omega, ?_⟩
    rw [ofString_toString_int, if_neg (by omega)]
    simp only [Int.neg_neg, Int.toNat_natCast, hdec, List.cons_append]
    exact congrArg (byteMinus :: ·) hsplit
  · -- a nonnegative integer: the digits alone, `0` only on its own
    have hc' : (c == byteMinus) = false := by simpa using hc
    simp only [hc', Bool.false_eq_true, if_false, Bool.or_false] at h
    -- the same guards, read off the text from its first byte on
    split at h
    · cases h
    rename_i term r' hdrop
    simp only [bne_iff_ne, ne_eq, beq_iff_eq, Bool.and_eq_true, Bool.or_eq_true,
      decide_eq_true_eq, List.isEmpty_iff] at h
    split at h
    · cases h
    rename_i hterm
    rw [Decidable.not_not] at hterm
    subst hterm
    split at h
    · cases h
    rename_i hne
    split at h
    · cases h
    rename_i hlead
    split at h
    · cases h
    rename_i hrange
    simp only [Except.ok.injEq, Prod.mk.injEq, Subtype.mk.injEq] at h
    obtain ⟨rfl, rfl⟩ := h
    -- the digits are the numeral of the value, and the input is that numeral and its `e`
    have hdec := decimal_takeWhile hne hlead
    have hsplit := numeral_split (c :: t') (by simpa [hc'] using hdrop)
    refine ⟨by omega, by omega, ?_⟩
    rw [ofString_toString_int, if_pos (by omega)]
    simp only [Int.toNat_natCast, hdec]
    exact hsplit

/-- The reader after an `i` meets a canonical integer text and its `e`: it takes the integer if
it fits in 64 bits, and otherwise refuses its digits. -/
theorem plain_readIntBody_text (pos : Nat) (v : Int) (r : Bytes) :
    plain (readIntBody pos (ofString (toString v) ++ byteE :: r)) =
      if intMin ≤ v ∧ v ≤ intMax then .ok (v, r)
      else .error (.invalidInteger (asciiText (decimal v.natAbs))) := by
  by_cases hv : 0 ≤ v
  · -- a nonnegative integer is its numeral alone, whose first byte is a digit and no sign
    rw [ofString_toString_int, if_pos hv]
    have hdig : ∀ b ∈ decimal v.toNat, isDigit b = true := fun b hb => isDigit_of_mem_decimal hb
    obtain ⟨d, ds, hds⟩ := List.exists_cons_of_ne_nil (decimal_ne_nil v.toNat)
    have hd : (d == byteMinus) = false := by
      have hdigit := hdig d (hds ▸ List.mem_cons_self)
      cases h : d == byteMinus
      · rfl
      · rw [beq_iff_eq] at h
        rw [h, isDigit_byteMinus] at hdigit
        cases hdigit
    unfold readIntBody
    rw [hds]
    simp only [List.cons_append, hd, Bool.false_eq_true, if_false, Bool.or_false]
    simp only [← List.cons_append, ← hds, takeWhile_numeral hdig isDigit_byteE]
    -- the digits stop at the `e`, so the input never runs out before it
    split
    · rename_i hcase
      simp only [hd, Bool.false_eq_true, if_false, ← hds,
        dropWhile_numeral hdig isDigit_byteE] at hcase
      cases hcase
    · rename_i term r' hcase
      simp only [hd, Bool.false_eq_true, if_false, ← hds,
        dropWhile_numeral hdig isDigit_byteE] at hcase
      obtain ⟨rfl, rfl⟩ := List.cons.inj hcase
      -- a canonical numeral passes the empty and leading-zero guards, so the range decides
      have hcanon := decimal_canonical v.toNat
      have hcast : ((v.toNat : Nat) : Int) = v := Int.toNat_of_nonneg hv
      have habs : v.toNat = v.natAbs := by omega
      simp only [bne_iff_ne, ne_eq, beq_iff_eq, Bool.and_eq_true, Bool.or_eq_true,
        decide_eq_true_eq, List.isEmpty_iff, digitsValue_decimal, decimal_ne_nil, hcanon,
        not_true_eq_false, if_false, hcast]
      by_cases hrange : intMin ≤ v ∧ v ≤ intMax
      · rw [if_neg (by omega), if_pos hrange]
        rfl
      · rw [if_pos (by omega), if_neg hrange, habs]
        rfl
  · -- a negative integer is its sign and the numeral of its magnitude
    rw [ofString_toString_int, if_neg hv]
    have hdig : ∀ b ∈ decimal (-v).toNat, isDigit b = true :=
      fun b hb => isDigit_of_mem_decimal hb
    have hlead : ¬(decimal (-v).toNat).head? = some byteZero := by
      intro h0
      have := eq_zero_of_head?_decimal h0
      omega
    unfold readIntBody
    simp only [List.cons_append, show ((45 : UInt8) == byteMinus) = true from rfl, if_true]
    -- past the sign the digits stop at the `e` as before
    split
    · rename_i hcase
      simp only [show ((45 : UInt8) == byteMinus) = true from rfl, if_true,
        dropWhile_numeral hdig isDigit_byteE] at hcase
      cases hcase
    · rename_i term r' hcase
      simp only [show ((45 : UInt8) == byteMinus) = true from rfl, if_true,
        dropWhile_numeral hdig isDigit_byteE] at hcase
      obtain ⟨rfl, rfl⟩ := List.cons.inj hcase
      -- the magnitude's numeral has no leading zero, so again only the range decides
      have hcast : (((-v).toNat : Nat) : Int) = -v := Int.toNat_of_nonneg (by omega)
      have habs : (-v).toNat = v.natAbs := by omega
      simp only [takeWhile_numeral hdig isDigit_byteE, bne_iff_ne, ne_eq, beq_iff_eq,
        Bool.and_eq_true, Bool.or_eq_true, decide_eq_true_eq, List.isEmpty_iff,
        digitsValue_decimal, decimal_ne_nil, hlead, not_true_eq_false, if_false, false_and,
        hcast, Int.neg_neg]
      by_cases hrange : intMin ≤ v ∧ v ≤ intMax
      · rw [if_neg (by omega), if_pos hrange]
        rfl
      · rw [if_pos (by omega), if_neg hrange, habs]
        rfl

/-- After its `i`, the reader takes a canonical integer up to its `e` and no further. -/
theorem readIntBody_complete {pos : Nat} {v : Int} (hmin : intMin ≤ v) (hmax : v ≤ intMax)
    (r : Bytes) : plain (readIntBody pos (ofString (toString v) ++ byteE :: r)) = .ok (v, r) := by
  rw [plain_readIntBody_text, if_pos ⟨hmin, hmax⟩]

/-- A string is read from its canonical length, a colon and that many bytes. -/
theorem readStr_sound {pos : Nat} {s b r : Bytes} (h : plain (readStr pos s) = .ok (b, r)) :
    b.length < lengthBound ∧ s = encodeStr b ++ r := by
  replace h := plain_eq_ok.1 h
  obtain ⟨hr, h⟩ := h
  unfold readStr at h
  dsimp only at h
  split at h
  · cases h
  rename_i c t hdrop
  simp only [bne_iff_ne, ne_eq, Bool.or_eq_true, List.isEmpty_iff, Bool.and_eq_true, beq_iff_eq,
    decide_eq_true_eq] at h
  split at h
  · cases h
  rename_i hcolon
  rw [Decidable.not_not] at hcolon
  subst hcolon
  split at h
  · cases h
  rename_i hcanon
  split at h
  · cases h
  rename_i hbound
  split at h
  · cases h
  rename_i hlen
  simp only [Except.ok.injEq, Prod.mk.injEq, Subtype.mk.injEq] at h
  obtain ⟨rfl, rfl⟩ := h
  have hne : s.takeWhile isDigit ≠ [] := fun h => hcanon (.inl h)
  have hdec := decimal_takeWhile hne (fun h => hcanon (.inr h))
  have htake : (t.take (digitsValue (s.takeWhile isDigit))).length = digitsValue (s.takeWhile isDigit) := by
    simp only [List.length_take]
    omega
  refine ⟨by omega, ?_⟩
  rw [encodeStr, htake, hdec]
  conv_lhs => rw [numeral_split s hdrop]
  simp [byteColon]

/-- The reader meets a canonical length and a colon: it refuses a length of `2^64` or more
before looking further, waits for the bytes of a length that the input does not hold, and
otherwise takes that many bytes. -/
theorem plain_readStr_numeral (pos len : Nat) (t : Bytes) :
    plain (readStr pos (decimal len ++ byteColon :: t)) =
      if lengthBound ≤ len then .error .invalidStringLength
      else if t.length < len then .error .unexpectedEof
      else .ok (t.take len, t.drop len) := by
  have hdig : ∀ x ∈ decimal len, isDigit x = true := fun x hx => isDigit_of_mem_decimal hx
  unfold readStr
  simp only [takeWhile_numeral hdig isDigit_byteColon]
  split
  · rename_i hcase
    rw [dropWhile_numeral hdig isDigit_byteColon] at hcase
    cases hcase
  · rename_i c t' hcase
    rw [dropWhile_numeral hdig isDigit_byteColon] at hcase
    obtain ⟨rfl, rfl⟩ := List.cons.inj hcase
    have hcanon := decimal_canonical len
    simp only [bne_self_eq_false, Bool.false_eq_true, if_false, List.isEmpty_iff, decimal_ne_nil,
      beq_iff_eq, Bool.and_eq_true, decide_eq_true_eq, Bool.or_eq_true, false_or, hcanon,
      digitsValue_decimal]
    by_cases hbig : lengthBound ≤ len
    · rw [if_pos hbig, if_pos hbig]
      rfl
    · rw [if_neg hbig, if_neg hbig]
      by_cases hshort : t.length < len
      · rw [if_pos hshort, if_pos hshort]
        rfl
      · rw [if_neg hshort, if_neg hshort]
        rfl

/-- The reader takes a string written canonically and no more. -/
theorem readStr_complete {pos : Nat} {b : Bytes} (hb : b.length < lengthBound) (r : Bytes) :
    plain (readStr pos (encodeStr b ++ r)) = .ok (b, r) := by
  have hform : encodeStr b ++ r = decimal b.length ++ byteColon :: (b ++ r) := by
    simp [encodeStr, byteColon]
  rw [hform, plain_readStr_numeral, if_neg (by omega), if_neg (by simp), List.take_left,
    List.drop_left]

/-! ## Section 4: One step of the reader -/

section Steps

variable (o : ReadOptions) {depth : Nat} (pos : Nat)

theorem plain_readValue_deep (h : o.maxDepth < depth) (s : Bytes) :
    plain (readValue o depth pos s) = .error .nestingTooDeep := by
  rw [readValue.eq_def, if_pos h]
  rfl

theorem plain_readValue_nil (hd : depth ≤ o.maxDepth) :
    plain (readValue o depth pos []) = .error .unexpectedEof := by
  rw [readValue, if_neg (Nat.not_lt.2 hd)]
  rfl

theorem plain_readValue_int (hd : depth ≤ o.maxDepth) (t : Bytes) :
    plain (readValue o depth pos (byteI :: t)) =
      (plain (readIntBody (pos + 1) t)).map
        fun p => (.int p.1 (spanOf pos (byteI :: t) p.2), p.2) := by
  rw [readValue, if_neg (Nat.not_lt.2 hd)]
  simp only [↓reduceIte]
  cases readIntBody (pos + 1) t with
  | error e => rfl
  | ok p => rfl

theorem plain_readValue_list (hd : depth ≤ o.maxDepth) (t : Bytes) :
    plain (readValue o depth pos (byteL :: t)) =
      (plain (readItems o depth (pos + 1) t)).map
        fun p => (.list p.1 (spanOf pos (byteL :: t) p.2), p.2) := by
  rw [readValue, if_neg (Nat.not_lt.2 hd)]
  simp only [if_neg (show byteL ≠ byteI by decide), ↓reduceIte]
  cases readItems o depth (pos + 1) t with
  | error e => rfl
  | ok p => rfl

theorem plain_readValue_dict (hd : depth ≤ o.maxDepth) (t : Bytes) :
    plain (readValue o depth pos (byteD :: t)) =
      (plain (readEntries o depth (pos + 1) t [] none)).map
        fun p => (.dict p.1 (spanOf pos (byteD :: t) p.2), p.2) := by
  rw [readValue, if_neg (Nat.not_lt.2 hd)]
  simp only [if_neg (show byteD ≠ byteI by decide), if_neg (show byteD ≠ byteL by decide),
    ↓reduceIte]
  cases readEntries o depth (pos + 1) t [] none with
  | error e => rfl
  | ok p => rfl

theorem plain_readValue_str (hd : depth ≤ o.maxDepth) {c : UInt8} (hc : isDigit c = true)
    (t : Bytes) :
    plain (readValue o depth pos (c :: t)) =
      (plain (readStr pos (c :: t))).map fun p => (.str p.1 (spanOf pos (c :: t) p.2), p.2) := by
  have hi : c ≠ byteI := by rintro rfl; cases hc
  have hl : c ≠ byteL := by rintro rfl; cases hc
  have hd' : c ≠ byteD := by rintro rfl; cases hc
  rw [readValue, if_neg (Nat.not_lt.2 hd)]
  simp only [if_neg hi, if_neg hl, if_neg hd', hc, if_true]
  cases readStr pos (c :: t) with
  | error e => rfl
  | ok p => rfl

theorem plain_readValue_other (hd : depth ≤ o.maxDepth) {c : UInt8} (hi : c ≠ byteI)
    (hl : c ≠ byteL) (hd' : c ≠ byteD) (hc : isDigit c = false) (t : Bytes) :
    plain (readValue o depth pos (c :: t)) = .error (.unexpectedChar c pos) := by
  rw [readValue, if_neg (Nat.not_lt.2 hd)]
  simp only [if_neg hi, if_neg hl, if_neg hd', hc, Bool.false_eq_true, if_false]
  rfl

theorem plain_readItems_nil : plain (readItems o depth pos []) = .error .unexpectedEof := by
  rw [readItems]
  rfl

theorem plain_readItems_end (t : Bytes) : plain (readItems o depth pos (byteE :: t)) = .ok ([], t) := by
  rw [readItems, if_pos rfl]
  rfl

/-- An item is read one level down, then the rest of the list after it. -/
theorem plain_readItems_cons {s : Bytes} {c : UInt8} (hs : s.head? = some c) (hc : c ≠ byteE) :
    plain (readItems o depth pos s) =
      (plain (readValue o (depth + 1) pos s)).bind fun p =>
        (plain (readItems o depth (pos + (s.length - p.2.length)) p.2)).map
          fun q => (p.1 :: q.1, q.2) := by
  obtain ⟨t, rfl⟩ := List.head?_eq_some_iff.1 hs
  rw [readItems, if_neg hc]
  cases readValue o (depth + 1) pos (c :: t) with
  | error e => rfl
  | ok p =>
    obtain ⟨n, r, hr⟩ := p
    dsimp only [plain_ok, Except.bind]
    cases readItems o depth (pos + ((c :: t).length - r.length)) r with
    | error e => rfl
    | ok q => rfl

theorem plain_readEntries_nil (acc : Dict) (last : Option Bytes) :
    plain (readEntries o depth pos [] acc last) = .error .unexpectedEof := by
  rw [readEntries]
  rfl

theorem plain_readEntries_end (t : Bytes) (acc : Dict) (last : Option Bytes) :
    plain (readEntries o depth pos (byteE :: t) acc last) = .ok (acc, t) := by
  rw [readEntries, if_pos rfl]
  rfl

theorem plain_readEntries_other {c : UInt8} (hce : c ≠ byteE) (hc : isDigit c = false) (t : Bytes)
    (acc : Dict) (last : Option Bytes) :
    plain (readEntries o depth pos (c :: t) acc last) = .error (.unexpectedChar c pos) := by
  rw [readEntries, if_neg hce, if_pos (by simp [hc])]
  rfl

/-- An entry is its key string and its value one level down. The value is read before the key
is checked against the keys so far and against the key before it. -/
theorem plain_readEntries_key {s : Bytes} {c : UInt8} (hs : s.head? = some c)
    (hc : isDigit c = true) (acc : Dict) (last : Option Bytes) :
    plain (readEntries o depth pos s acc last) =
      (plain (readStr pos s)).bind fun p =>
        (plain (readValue o (depth + 1) (pos + (s.length - p.2.length)) p.2)).bind fun q =>
          if acc.contains p.1 then .error (.duplicateKey p.1)
          else if o.strictKeyOrder && last.any (fun k => lexLt p.1 k) then
            .error (.unsortedKeys p.1)
          else
            plain (readEntries o depth (pos + (s.length - q.2.length)) q.2
              (Dict.insert p.1 q.1 acc) (some p.1)) := by
  obtain ⟨t, rfl⟩ := List.head?_eq_some_iff.1 hs
  have hce : c ≠ byteE := by rintro rfl; cases hc
  rw [readEntries, if_neg hce, if_neg (by simp [hc])]
  cases readStr pos (c :: t) with
  | error e => rfl
  | ok p =>
    obtain ⟨key, r1, h1⟩ := p
    dsimp only [plain_ok, Except.bind]
    cases readValue o (depth + 1) (pos + ((c :: t).length - r1.length)) r1 with
    | error e => rfl
    | ok q =>
      obtain ⟨v, r2, h2⟩ := q
      dsimp only [plain_ok, Except.bind]
      split
      · rfl
      split
      · rfl
      cases readEntries o depth (pos + ((c :: t).length - r2.length)) r2
        (Dict.insert key v acc) (some key) with
      | error e => rfl
      | ok d => rfl

end Steps


end Bencode

end BitTorrent
