import BitTorrent.Proofs.KeyOrder
import BitTorrent.Proofs.Tracker.CompactPeers
import BitTorrent.Proofs.Tracker.Fields
import BitTorrent.Proofs.Tracker.Packets

/-!
# Reading the answers of a UDP tracker

An announce answer is the 8-byte header, then interval, leechers and seeders as 32-bit fields,
then compact IPv4 peers; a scrape answer is the header, then one 12-byte record per info hash
asked for, in the order asked: seeders, completed downloads, leechers. Reading is exact. An
announce answer is read exactly when it has the three counts and whole peer records, and then
gives the counts at their offsets and the peers the compact reader gives for the rest. A scrape
answer is read exactly when it has one record per hash; with distinct hashes its files are then
the hashes each paired with its own record, in ascending hash order (`Bytes.SortedKeys`).

Both answers are read through a packet reader over the bytes after the header, one 32-bit read
after another. Each read takes the field at the front and leaves the reader four bytes further
on, so the reads meet the fields at fixed offsets (`announceFields_run`,
`foldlM_scrapeFileStep_run`).

## Main definitions

* `scrapeRecord`: the counts in the `i`-th record of a scrape answer.

## Main statements

* `announceFields_run`, `foldlM_scrapeFileStep_run`: the reads meet the fields at their offsets.
* `announceReply_eq_ok_iff`: what an announce answer reads as.
* `scrapeReply_ok_iff`, `scrapeReply_files`: when a scrape answer reads, and its files.
* `udp_replies_parsed_exactly`: both readings are exact.
-/

namespace BitTorrent.Tracker

open Bytes

/-! ## Section 1: Fields of records -/

theorem u32At_drop (d : Bytes) (m pos : Nat) : u32At (d.drop m) pos = u32At d (m + pos) := by
  simp only [u32At, List.drop_drop]

/-- Record `i` of a string cut into records of `n` bytes starts at byte `n * i`. -/
theorem getElem_records {n : Nat} :
    ∀ {b : Bytes} {i : Nat} (h : i < (records n b).length),
      (records n b)[i] = (b.drop (n * i)).take n
  | b, i, h => by
    -- a record at all means the first one was cut off
    have hcut : 0 < n ∧ n ≤ b.length := by
      by_contra hno
      simp [records_of_not hno] at h
    have hb := records_of_le hcut.1 hcut.2
    cases i with
    | zero => simp only [hb, List.getElem_cons_zero, Nat.mul_zero, List.drop_zero]
    | succ i =>
      have hi : i < (records n (b.drop n)).length := by
        rw [hb, List.length_cons] at h
        omega
      simp only [hb, List.getElem_cons_succ, getElem_records hi, List.drop_drop, Nat.mul_succ,
        Nat.add_comm]

/-- A 32-bit read takes the field at the front of the reader. -/
theorem readUInt_four_run {b : Bytes} (h : 4 ≤ b.length) :
    (PacketReader.readUInt 4).run.run ⟨b⟩ = (.ok (u32At b 0), ⟨b.drop 4⟩) :=
  PacketReader.readUInt_run_of_le h

/-- Three 32-bit reads in turn take the fields at bytes 0, 4 and 8 and leave the reader past
them, whatever is read after. -/
theorem readUInt_three_run {α : Type} {b : Bytes} (h : 12 ≤ b.length)
    (f : Nat → Nat → Nat → PacketReader.Method α) :
    (do
      let x ← PacketReader.readUInt 4
      let y ← PacketReader.readUInt 4
      let z ← PacketReader.readUInt 4
      f x y z).run.run ⟨b⟩ = (f (u32At b 0) (u32At b 4) (u32At b 8)).run.run ⟨b.drop 12⟩ := by
  -- each read leaves the reader four bytes further on
  have h₁ : 4 ≤ (b.drop 4).length := by simp; omega
  have h₂ : 4 ≤ (b.drop 8).length := by simp; omega
  simp only [PacketReader.run_bind, readUInt_four_run (by omega : 4 ≤ b.length),
    readUInt_four_run h₁, List.drop_drop, readUInt_four_run h₂, u32At_drop]

/-- The three counts of an announce answer are read in turn at the front of the reader, and
what follows them is taken whole as peer records. -/
theorem announceFields_run {b : Bytes} (h : 12 ≤ b.length) :
    announceFields.run.run ⟨b⟩ = (.ok (u32At b 0, u32At b 4, u32At b 8, b.drop 12), ⟨[]⟩) := by
  rw [announceFields, readUInt_three_run h]
  rfl

/-! ## Section 2: Announce answers -/

/-- Read through the packet reader, an announce answer of 20 bytes or more gives the counts at
bytes 8, 12 and 16 and the compact records after them. -/
theorem announceReply_eq (d : Bytes) : announceReply d =
    if d.length < 20 then
      .error (.invalidResponse ("announce reply too short: " ++ toString d.length ++ " bytes"))
    else if (d.drop 20).length % 6 ≠ 0 then
      .error (.invalidResponse ("announce reply has " ++ toString ((d.drop 20).length % 6) ++
        " trailing bytes"))
    else
      .ok { interval := u32At d 8, incomplete := some (u32At d 12), complete := some (u32At d 16),
            peers := (records 6 (d.drop 20)).filterMap PeerInfo.ofCompactV4 } := by
  unfold announceReply
  by_cases hlen : d.length < 20
  · rw [if_pos hlen, if_pos hlen]
  · rw [if_neg hlen, if_neg hlen, announceFields_run (by simp; omega)]
    simp only [u32At_drop, List.drop_drop]
    rfl

/-- An announce answer reads exactly when it holds the three counts, and then gives the interval
in bytes 8 to 12, the leechers in bytes 12 to 16 and the seeders in bytes 16 to 20, and the peers
the compact reader reads from the rest. -/
theorem announceReply_eq_ok_iff (d : Bytes) (info : AnnounceInfo) :
    announceReply d = .ok info ↔ 20 ≤ d.length ∧ ∃ ps, compactPeers (d.drop 20) = .ok ps ∧
      info = { interval := u32At d 8, incomplete := some (u32At d 12),
               complete := some (u32At d 16), peers := ps } := by
  rw [announceReply_eq]
  by_cases hlen : d.length < 20
  · simp only [if_pos hlen, reduceCtorEq, false_iff, not_and]
    omega
  · rw [if_neg hlen]
    by_cases hmod : (d.drop 20).length % 6 = 0
    · simp only [if_neg (not_not.2 hmod), Except.ok.injEq, compactPeers, compactWith_of_mod hmod]
      constructor
      · rintro rfl
        exact ⟨by omega, _, rfl, rfl⟩
      · rintro ⟨-, ps, hps, rfl⟩
        rw [← hps]
    · simp only [if_pos hmod, reduceCtorEq, false_iff, not_and, not_exists]
      intro _ ps hps
      exact absurd (compactWith_ok_iff.1 ⟨ps, hps⟩) hmod

/-- An announce answer reads exactly when it holds the three counts and whole peer records. -/
theorem announceReply_ok_iff (d : Bytes) :
    (∃ info, announceReply d = .ok info) ↔ 20 ≤ d.length ∧ (d.length - 20) % 6 = 0 := by
  constructor
  · rintro ⟨info, h⟩
    obtain ⟨hlen, ps, hps, -⟩ := (announceReply_eq_ok_iff d info).1 h
    simpa using And.intro hlen (compactWith_ok_iff.1 ⟨ps, hps⟩)
  · rintro ⟨hlen, hmod⟩
    have hmod' : (d.drop 20).length % 6 = 0 := by simpa using hmod
    obtain ⟨ps, hps⟩ : ∃ ps, compactPeers (d.drop 20) = .ok ps := compactWith_ok_iff.2 hmod'
    exact ⟨_, (announceReply_eq_ok_iff d _).2 ⟨hlen, ps, hps, rfl⟩⟩

/-! ## Section 3: Scrape answers -/

/-- The counts in record `i` of a scrape answer: seeders, completed downloads and leechers, each
a 32-bit field, with no name. -/
def scrapeRecord (d : Bytes) (i : Nat) : ScrapeFile where
  complete := u32At d (8 + 12 * i)
  downloaded := u32At d (12 + 12 * i)
  incomplete := u32At d (16 + 12 * i)
  name := none

/-- The counts one record holds, read as the scrape reader reads them. -/
def recordFile (r : Bytes) : ScrapeFile :=
  { complete := u32At r 0, downloaded := u32At r 4, incomplete := u32At r 8, name := none }

/-- Only the first twelve bytes of a record are read. -/
theorem recordFile_take (b : Bytes) : recordFile (b.take 12) = recordFile b := by
  simp only [recordFile, u32At_take b (by decide : 0 + 4 ≤ 12), u32At_take b (by decide : 4 + 4 ≤ 12),
    u32At_take b (by decide : 8 + 4 ≤ 12)]

/-- One step of the scrape loop reads a record at the front of the reader and files the hash
under its counts. -/
theorem scrapeFileStep_run {b : Bytes} (h : 12 ≤ b.length) (files : List (Bytes × ScrapeFile))
    (k : Bytes) :
    (scrapeFileStep files k).run.run ⟨b⟩ = (.ok (insertKeyed k (recordFile b) files), ⟨b.drop 12⟩) := by
  rw [scrapeFileStep, PacketReader.run_bind, scrapeRecordFields, readUInt_three_run h]
  rfl

/-- The scrape loop reads one record per hash, in order, filing each hash under its own record,
and leaves nothing unread. The induction is on the hashes, with the files so far and the unread
records free. -/
theorem foldlM_scrapeFileStep_run :
    ∀ (hashes : List Bytes) (files : List (Bytes × ScrapeFile)) (b : Bytes),
      b.length = hashes.length * 12 →
      (hashes.foldlM scrapeFileStep files).run.run ⟨b⟩ =
        (.ok ((hashes.zip (records 12 b)).foldl
          (fun acc x => insertKeyed x.1 (recordFile x.2) acc) files), ⟨[]⟩)
  | [], files, b, h => by
    have hb : b = [] := List.length_eq_zero_iff.1 (by simpa using h)
    subst hb
    rfl
  | k :: hashes, files, b, h => by
    have h12 : 12 ≤ b.length := by simp at h; omega
    have hrest : (b.drop 12).length = hashes.length * 12 := by simp at h ⊢; omega
    rw [List.foldlM_cons, PacketReader.run_bind, scrapeFileStep_run h12]
    dsimp only
    rw [foldlM_scrapeFileStep_run hashes _ _ hrest, records_of_le (by decide) h12,
      List.zip_cons_cons, List.foldl_cons, recordFile_take]

/-- A scrape answer with one record per hash inserts each hash with its record, in order. -/
theorem scrapeReply_of_length {d : Bytes} {hashes : List Bytes}
    (h : (d.drop 8).length = hashes.length * 12) :
    scrapeReply d hashes =
      .ok ⟨insertAll [] ((hashes.zip (records 12 (d.drop 8))).map fun x => (x.1, recordFile x.2)),
        none⟩ := by
  rw [scrapeReply, if_neg (not_not.2 h), foldlM_scrapeFileStep_run hashes [] _ h, insertAll,
    List.foldl_map]
  rfl

/-- Paired with the records of the answer, hash `i` gets the counts of record `i`. -/
theorem zip_records_eq_mapIdx {d : Bytes} {hashes : List Bytes}
    (h : (d.drop 8).length = hashes.length * 12) :
    (hashes.zip (records 12 (d.drop 8))).map (fun x => (x.1, recordFile x.2)) =
      hashes.mapIdx fun i k => (k, scrapeRecord d i) := by
  have hrec : (records 12 (d.drop 8)).length = hashes.length := by
    rw [length_records, h, Nat.mul_div_cancel _ (by decide)]
  apply List.ext_getElem
  · simp [hrec]
  · intro i h₁ h₂
    have hi : i < (records 12 (d.drop 8)).length := by
      rw [hrec]
      simpa using h₂
    simp only [List.getElem_map, List.getElem_zip, List.getElem_mapIdx, getElem_records hi,
      recordFile, scrapeRecord, Prod.mk.injEq, true_and]
    -- each count lies inside the record, at its offset from byte 8 + 12 i
    rw [u32At_take _ (by decide), u32At_take _ (by decide), u32At_take _ (by decide),
      u32At_drop, u32At_drop, u32At_drop, u32At_drop, u32At_drop, u32At_drop]
    simp only [ScrapeFile.mk.injEq, and_true]
    refine ⟨congrArg (u32At d) ?_, congrArg (u32At d) ?_, congrArg (u32At d) ?_⟩ <;> omega

/-- A scrape answer of at least eight bytes reads exactly when it has one record per hash. -/
theorem scrapeReply_ok_iff {d : Bytes} (hd : 8 ≤ d.length) (hashes : List Bytes) :
    (∃ s, scrapeReply d hashes = .ok s) ↔ d.length = 8 + 12 * hashes.length := by
  have hlen : (d.drop 8).length = hashes.length * 12 ↔ d.length = 8 + 12 * hashes.length := by
    rw [List.length_drop]
    omega
  by_cases h : (d.drop 8).length = hashes.length * 12
  · exact ⟨fun _ => hlen.1 h, fun _ => ⟨_, scrapeReply_of_length h⟩⟩
  · simp only [scrapeReply, if_pos h, reduceCtorEq, exists_false, false_iff]
    exact fun h' => h (hlen.2 h')

/-- The files of a scrape answer for distinct hashes: each hash with the counts of its own record,
in ascending hash order, and nothing else. -/
theorem scrapeReply_files {d : Bytes} {hashes : List Bytes} (hnd : hashes.Nodup)
    {s : ScrapeInfo} (h : scrapeReply d hashes = .ok s) :
    s.minRequestInterval = none ∧ SortedKeys s.files ∧
      s.files.Perm (hashes.mapIdx fun i k => (k, scrapeRecord d i)) := by
  have hlen : (d.drop 8).length = hashes.length * 12 := by
    by_contra hne
    simp only [scrapeReply, if_pos hne, reduceCtorEq] at h
  rw [scrapeReply_of_length hlen, Except.ok.injEq] at h
  subst h
  rw [zip_records_eq_mapIdx hlen]
  have hkeys : (hashes.mapIdx fun i k => (k, scrapeRecord d i)).map Prod.fst = hashes := by
    apply List.ext_getElem <;> simp
  have hperm : (insertAll [] (hashes.mapIdx fun i k => (k, scrapeRecord d i))).Perm
      ((hashes.mapIdx fun i k => (k, scrapeRecord d i)) ++ []) :=
    insertAll_perm (by simpa [hkeys] using hnd)
  exact ⟨rfl, insertAll_sorted _ List.Pairwise.nil, by simpa using hperm⟩

/-- UDP answers are read exactly. An announce answer reads exactly when it has 20 bytes or more
and whole 6-byte peer records after them; it then gives the interval, leechers and seeders of
bytes 8 to 20 and the peers the compact reader gives for the rest, one per record. For distinct
hashes, a scrape answer that `classify` accepts reads exactly when it has one 12-byte record per
hash; its files are then each hash with the counts of its own record, as many as hashes, in
ascending hash order. -/
theorem udp_replies_parsed_exactly :
    (∀ d : Bytes,
      ((∃ info, announceReply d = .ok info) ↔ 20 ≤ d.length ∧ (d.length - 20) % 6 = 0) ∧
      ∀ info, announceReply d = .ok info ↔ 20 ≤ d.length ∧ ∃ ps,
        compactPeers (d.drop 20) = .ok ps ∧ ps.length = (d.length - 20) / 6 ∧
        info = { interval := u32At d 8, incomplete := some (u32At d 12),
                 complete := some (u32At d 16), peers := ps }) ∧
    (∀ (d : Bytes) (tid : Nat) (hashes : List Bytes),
      classify d tid actionScrape = some (.data d) → hashes.Nodup →
      ((∃ s, scrapeReply d hashes = .ok s) ↔ d.length = 8 + 12 * hashes.length) ∧
      ∀ s, scrapeReply d hashes = .ok s →
        s.minRequestInterval = none ∧ SortedKeys s.files ∧ s.files.length = hashes.length ∧
        ∀ i (hi : i < hashes.length), (hashes[i], scrapeRecord d i) ∈ s.files) := by
  refine ⟨fun d => ⟨announceReply_ok_iff d, fun info => ?_⟩,
    fun d tid hashes hd hnd => ⟨?_, fun s hs => ?_⟩⟩
  · rw [announceReply_eq_ok_iff]
    -- the peer count is the compact reader's own: one peer per record
    refine and_congr_right fun _ => exists_congr fun ps => ⟨?_, fun ⟨hps, _, hinfo⟩ => ⟨hps, hinfo⟩⟩
    rintro ⟨hps, hinfo⟩
    have hcount := ((compactWith_eq_ok_iff recordCodec_v4).1 hps).length_eq
    exact ⟨hps, by simpa using hcount, hinfo⟩
  · exact scrapeReply_ok_iff (classify_eq_some hd).1 hashes
  · obtain ⟨hnone, hsorted, hperm⟩ := scrapeReply_files hnd hs
    refine ⟨hnone, hsorted, by simpa using hperm.length_eq, fun i hi => ?_⟩
    exact hperm.mem_iff.2 (List.mem_iff_getElem.2 ⟨i, by simpa using hi, by simp⟩)

/-- A scrape answer with one record, for one hash, is read, and the hash gets that record. -/
theorem scrape_answer_one_hash_read :
    classify [0, 0, 0, 2, 0, 0, 0, 7, 0, 0, 0, 5, 0, 0, 0, 9, 0, 0, 0, 1] 7 actionScrape =
      some (.data [0, 0, 0, 2, 0, 0, 0, 7, 0, 0, 0, 5, 0, 0, 0, 9, 0, 0, 0, 1]) ∧
    [List.replicate 20 (0xab : UInt8)].Nodup ∧
    ∃ s, scrapeReply [0, 0, 0, 2, 0, 0, 0, 7, 0, 0, 0, 5, 0, 0, 0, 9, 0, 0, 0, 1]
        [List.replicate 20 0xab] = .ok s ∧
      (List.replicate 20 0xab, ⟨5, 9, 1, none⟩) ∈ s.files := by
  have hd : classify [0, 0, 0, 2, 0, 0, 0, 7, 0, 0, 0, 5, 0, 0, 0, 9, 0, 0, 0, 1] 7 actionScrape =
      some (.data [0, 0, 0, 2, 0, 0, 0, 7, 0, 0, 0, 5, 0, 0, 0, 9, 0, 0, 0, 1]) := by decide
  have hnd : [List.replicate 20 (0xab : UInt8)].Nodup := by decide
  obtain ⟨hok, hfiles⟩ := udp_replies_parsed_exactly.2 _ 7 _ hd hnd
  obtain ⟨s, hs⟩ := hok.2 (by decide)
  exact ⟨hd, hnd, s, hs, (hfiles s hs).2.2.2 0 (by decide)⟩

end BitTorrent.Tracker
