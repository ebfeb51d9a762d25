import BitTorrent.Torrent.Metainfo

/-!
# What a torrent descriptor answers

Two questions a client asks a `Metainfo` once it is read: the digest of one piece, and the
trackers to try.

A piece's digest is a run of twenty bytes of `pieces`. `pieceHash?` finds it from the piece's
index by multiplying and adding in 64 bits, each step refused on overflow, and by cutting
`pieces` only where it is long enough. For any `pieces` a machine can hold this is exactly the
division-based count: piece `i` has a digest when `i < pieceCount`, and at no other index, even
where `20 * i` leaves the 64-bit range or `pieces` ends in a partial digest.

The tracker list is built by adding the tier URLs one by one to the announce URL, each unless
it is already there. That is `List.eraseDups` of every URL the torrent names: the first
occurrence of each, in order.

## Main definitions

* `Metainfo.trackerUrls`: every tracker URL of a torrent in order, duplicates included.

## Main statements

* `Metainfo.pieceHash_some_iff_below_count`: the digest of piece `i` exists exactly below the count.
* `Metainfo.addNew_eq`: adding URLs not yet present is erasing later duplicates.
* `Metainfo.trackers_first_occurrences`: the trackers are the named URLs, each once, in order
  of first occurrence.
-/

namespace BitTorrent.Torrent

/-! ## Section 1: First occurrences -/

/-- What `eraseDups` recurses on after the head is shorter than the list. -/
theorem length_filter_ne_lt {α : Type} [BEq α] {a : α} {as : List α} {n : Nat}
    (h : (a :: as).length = n) : (as.filter fun b => !b == a).length < n := by
  have := List.length_filter_le (fun b => !b == a) as
  simp only [List.length_cons] at h
  omega

section FirstOccurrences

variable {α : Type} [BEq α] [LawfulBEq α]

theorem idxOf_cons_of_ne {a x : α} {l : List α} (h : a ≠ x) : (a :: l).idxOf x = l.idxOf x + 1 := by
  rw [List.idxOf_cons, beq_false_of_ne h, cond_false]

/-- `eraseDups` keeps no element twice. -/
theorem nodup_eraseDups (l : List α) : l.eraseDups.Nodup := by
  -- the tail after the head is the erasure of a filtered, so shorter, list
  induction h : l.length using Nat.strongRecOn generalizing l with
  | ind n ih =>
    cases l with
    | nil => simp
    | cons a as =>
      have hlen := length_filter_ne_lt h
      rw [List.eraseDups_cons, List.nodup_cons]
      refine ⟨fun ha => ?_, ih _ hlen _ rfl⟩
      have := (List.mem_filter.1 (List.mem_eraseDups.1 ha)).2
      simp at this

/-- Filtering keeps the order of first occurrences of what it keeps. -/
theorem idxOf_lt_of_filter (p : α → Bool) {x y : α} (hx : p x = true) (hy : p y = true) :
    ∀ l : List α, (l.filter p).idxOf x < (l.filter p).idxOf y → l.idxOf x < l.idxOf y
  | [], h => by simp at h
  | c :: cs, h => by
    by_cases hc : p c = true
    · rw [List.filter_cons_of_pos hc] at h
      by_cases hcx : c = x
      · -- `x` is first on both sides, and `y` is not `x`
        subst hcx
        have hyx : y ≠ c := by
          rintro rfl
          exact Nat.lt_irrefl _ h
        rw [List.idxOf_cons_self, idxOf_cons_of_ne (Ne.symm hyx)]
        exact Nat.succ_pos _
      · have hcy : c ≠ y := by
          rintro rfl
          rw [List.idxOf_cons_self] at h
          exact Nat.not_lt_zero _ h
        rw [idxOf_cons_of_ne hcx, idxOf_cons_of_ne hcy] at h ⊢
        exact Nat.succ_lt_succ (idxOf_lt_of_filter p hx hy cs (Nat.lt_of_succ_lt_succ h))
    · have hcx : c ≠ x := by rintro rfl; exact hc hx
      have hcy : c ≠ y := by rintro rfl; exact hc hy
      rw [List.filter_cons_of_neg hc] at h
      rw [idxOf_cons_of_ne hcx, idxOf_cons_of_ne hcy]
      exact Nat.succ_lt_succ (idxOf_lt_of_filter p hx hy cs h)

/-- `eraseDups` lists elements in the order of their first occurrences. -/
theorem pairwise_idxOf_eraseDups (l : List α) :
    l.eraseDups.Pairwise fun x y => l.idxOf x < l.idxOf y := by
  induction h : l.length using Nat.strongRecOn generalizing l with
  | ind n ih =>
    cases l with
    | nil => simp
    | cons a as =>
      have hlen := length_filter_ne_lt h
      -- every later element differs from the head `a`
      have hne : ∀ y ∈ (as.filter fun b => !b == a).eraseDups, (!y == a) = true := fun y hy =>
        (List.mem_filter.1 (List.mem_eraseDups.1 hy)).2
      rw [List.eraseDups_cons, List.pairwise_cons]
      refine ⟨fun y hy => ?_, ?_⟩
      · have hya : y ≠ a := by simpa using hne y hy
        rw [List.idxOf_cons_self, idxOf_cons_of_ne (Ne.symm hya)]
        exact Nat.succ_pos _
      · refine (ih _ hlen _ rfl).imp_of_mem fun {x y} hx hy hxy => ?_
        have hxa : x ≠ a := by simpa using hne x hx
        have hya : y ≠ a := by simpa using hne y hy
        rw [idxOf_cons_of_ne (Ne.symm hxa), idxOf_cons_of_ne (Ne.symm hya)]
        exact Nat.succ_lt_succ (idxOf_lt_of_filter (fun b => !b == a) (hne x hx) (hne y hy) as hxy)

end FirstOccurrences

namespace Metainfo

/-! ## Section 2: Piece digests -/

theorem wordBound_eq : wordBound = 18446744073709551616 := rfl

/-- The digest of piece `i` exists exactly when `i` is below the piece count, and is then the
`i`-th run of twenty bytes of `pieces`. A byte vector holds fewer than `2^64` bytes, so every
index whose position overflows 64 bits is past the count as well. -/
theorem pieceHash_some_iff_below_count {m : Metainfo} (hlen : m.pieces.length < wordBound) (i : Nat)
    (h : Bytes) :
    m.pieceHash? i = some h ↔ i < m.pieceCount ∧ h = (m.pieces.drop (20 * i)).take 20 := by
  -- the checked product and sum stay below `2^64` for every index below the count
  have hbounds : (i * 20 + 20 < wordBound ∧ i * 20 + 20 ≤ m.pieces.length) ↔
      i < m.pieces.length / 20 := by
    rw [wordBound_eq] at hlen ⊢
    omega
  unfold pieceHash? pieceCount
  dsimp only
  rw [Nat.mul_comm 20 i]
  split
  · next hin => simp [hbounds.1 hin, eq_comm]
  · next hout =>
    have hi : ¬i < m.pieces.length / 20 := fun hi => hout (hbounds.2 hi)
    simp [hi]

/-- Forty-one bytes of `pieces` hold two digests; the second is bytes 20 to 40. -/
theorem second_of_two_piece_hashes :
    (⟨"n", 20, List.replicate 20 (1 : UInt8) ++ List.replicate 21 2, false, .single, [], "a",
      none, none, none, none, none⟩ : Metainfo).pieces.length < wordBound ∧
    ((⟨"n", 20, List.replicate 20 (1 : UInt8) ++ List.replicate 21 2, false, .single, [], "a",
      none, none, none, none, none⟩ : Metainfo).pieceHash? 1 = some (List.replicate 20 2) ↔
      1 < (⟨"n", 20, List.replicate 20 (1 : UInt8) ++ List.replicate 21 2, false, .single, [],
        "a", none, none, none, none, none⟩ : Metainfo).pieceCount ∧
      List.replicate 20 2 =
        ((List.replicate 20 (1 : UInt8) ++ List.replicate 21 2).drop (20 * 1)).take 20) :=
  ⟨by decide, pieceHash_some_iff_below_count (by decide) 1 _⟩

/-! ## Section 3: Trackers -/

/-- Every tracker URL a torrent names, in order and with repeats: the announce URL, then the
URLs of each tier. -/
def trackerUrls (m : Metainfo) : List String := m.announce :: (m.announceTiers.getD []).flatten

/-- Adding the URLs not yet present appends, in order, the first occurrence of each new URL. -/
theorem addNew_eq (seen urls : List String) :
    addNew seen urls = seen ++ (urls.removeAll seen).eraseDups := by
  induction urls generalizing seen with
  | nil => simp [addNew, List.removeAll]
  | cons u us ih =>
    have hstep : addNew seen (u :: us) =
        addNew (if seen.contains u then seen else seen ++ [u]) us := rfl
    rw [hstep]
    by_cases hu : u ∈ seen
    · -- a URL already present is skipped
      have hdrop : (u :: us).removeAll seen = us.removeAll seen := by
        simp [List.removeAll, hu]
      simp only [List.contains_iff_mem, hu, if_true, ih, hdrop]
    · -- a new URL is appended, and no later copy of it is
      have hkeep : (u :: us).removeAll seen =
          u :: us.removeAll seen := by
        simp [List.removeAll, hu]
      have hrest : us.removeAll (seen ++ [u]) =
          (us.removeAll seen).filter fun b => !b == u := by
        simp only [List.removeAll, List.filter_filter]
        apply List.filter_congr
        intro x _
        by_cases hx : x = u <;> simp [hx]
      simp only [List.contains_iff_mem, hu, if_false, ih, hkeep, hrest, List.eraseDups_cons,
        List.append_assoc, List.singleton_append]

/-- The trackers are every URL the torrent names with each later repeat erased. -/
theorem trackers_eq_eraseDups (m : Metainfo) : m.trackers = m.trackerUrls.eraseDups := by
  have hfirst : (m.announceTiers.getD []).flatten.removeAll [m.announce] =
      (m.announceTiers.getD []).flatten.filter fun b => !b == m.announce := by
    apply List.filter_congr
    intro x _
    by_cases hx : x = m.announce <;> simp [hx]
  rw [trackers, addNew_eq, hfirst, trackerUrls, List.eraseDups_cons, List.singleton_append]

/-- The trackers of a torrent: the announce URL first, then every URL of its tiers that has not
occurred before, in order. So the list is every URL the torrent names with each later repeat
erased; it starts with the announce URL, holds no URL twice, holds exactly the URLs named, and
lists them in the order in which each first occurs. -/
theorem trackers_first_occurrences (m : Metainfo) :
    m.trackers = m.trackerUrls.eraseDups ∧
    m.trackers.head? = some m.announce ∧
    m.trackers.Nodup ∧
    (∀ u, u ∈ m.trackers ↔ u = m.announce ∨ ∃ t ∈ m.announceTiers.getD [], u ∈ t) ∧
    m.trackers.Pairwise fun u v => m.trackerUrls.idxOf u < m.trackerUrls.idxOf v := by
  have htr := trackers_eq_eraseDups m
  refine ⟨htr, ?_, ?_, fun u => ?_, ?_⟩
  · rw [htr, trackerUrls, List.eraseDups_cons]
    rfl
  · rw [htr]
    exact nodup_eraseDups _
  · rw [htr, List.mem_eraseDups, trackerUrls, List.mem_cons, List.mem_flatten]
  · rw [htr]
    exact pairwise_idxOf_eraseDups _

end Metainfo

end BitTorrent.Torrent
