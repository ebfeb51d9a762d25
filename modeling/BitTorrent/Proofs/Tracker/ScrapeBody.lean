import BitTorrent.Proofs.Tracker.AnnounceBody

/-!
# Reading a decoded scrape answer

A scrape answer is a dictionary. Its `failure reason` is read exactly as in an announce answer:
a byte string ends the reading with the tracker's refusal, whatever else the answer holds, and a
reason of another kind makes the answer malformed. Otherwise an optional `flags` dictionary may
carry `min_request_interval`, and the answer must hold a `files` dictionary whose every key is a
20-byte info hash and whose every value is a dictionary with `complete`, `downloaded` and
`incomplete` in the 32-bit unsigned range and an optional UTF-8 `name`. Reading succeeds exactly
on such answers (`ScrapeBody`), with one counted file per entry of `files`, under the entry's own
key and in the entry's place: no entry is dropped, merged or moved.

## Main definitions

* `ScrapeEntry`, `FlagsEntry`, `ScrapeBody`: what the fields of a scrape answer say.
* `flagsEntry`, `countFiles`, `scrapeSuccess`: the reading past the failure reason, in parts.

## Main statements

* `parseScrape_eq`: the reading in its parts.
* `parseScrape_eq_failure_iff`, `parseScrape_eq_success_iff`, `failsInvalid_parseScrape`.
* `scrape_files_kept`: the reading is exact and keeps every entry of `files`.
-/

namespace BitTorrent.Tracker

open Bencode

/-! ## Section 1: What the fields of a scrape answer say -/

/-- One entry of `files` read as the counts `f`: a 20-byte key and a dictionary holding the three
counts in the 32-bit unsigned range and, optionally, a UTF-8 name. -/
structure ScrapeEntry (key : Bytes) (stats : Node) (f : ScrapeFile) : Prop where
  key_length : key.length = 20
  dict : ∃ d, stats.asDict? = some d
  complete : CountEntry stats "complete" (some f.complete)
  downloaded : CountEntry stats "downloaded" (some f.downloaded)
  incomplete : CountEntry stats "incomplete" (some f.incomplete)
  name : TextEntry stats "name" f.name

/-- The `flags` entry of an answer, read as `v`: absent and no interval, or a dictionary whose
optional `min_request_interval` count is `v`. -/
def FlagsEntry (root : Node) (v : Option Nat) : Prop :=
  (field? root "flags" = none ∧ v = none) ∨
  ∃ x d, field? root "flags" = some x ∧ x.asDict? = some d ∧ CountEntry x "min_request_interval" v

/-- A scrape answer that reads as `s`: a dictionary with no failure reason, whose flags give
`s`'s interval, and whose `files` dictionary lists, entry by entry and in order, the keys of
`s.files` with values read as their counts. -/
structure ScrapeBody (root : Node) (s : ScrapeInfo) : Prop where
  dict : ∃ d, root.asDict? = some d
  noFailure : field? root "failure reason" = none
  flags : FlagsEntry root s.minRequestInterval
  files : ∃ x es, field? root "files" = some x ∧ x.asDict? = some es ∧
    List.Forall₂ (fun (e : Bytes × Node) (c : Bytes × ScrapeFile) => e.1 = c.1 ∧ ScrapeEntry e.1 e.2 c.2)
      es s.files

/-- The files of a body are those of its `files` dictionary, key for key. -/
theorem ScrapeBody.keys_eq {root : Node} {s : ScrapeInfo} (h : ScrapeBody root s) :
    ∃ x es, field? root "files" = some x ∧ x.asDict? = some es ∧
      s.files.map Prod.fst = es.map Prod.fst := by
  obtain ⟨x, es, hx, hes, hall⟩ := h.files
  refine ⟨x, es, hx, hes, ?_⟩
  -- the entries correspond one to one, each under its own key
  have hkeys : List.Forall₂ (· = ·) (es.map Prod.fst) (s.files.map Prod.fst) :=
    List.forall₂_map_left_iff.2 (List.forall₂_map_right_iff.2 (hall.imp fun _ _ h => h.1))
  rw [List.forall₂_eq_eq_eq] at hkeys
  exact hkeys.symm

/-! ## Section 2: Reading one entry -/

/-- An entry of `files` reads as the counts it holds, and only as those. -/
theorem scrapeEntry_eq_ok {key : Bytes} {stats : Node} {f : ScrapeFile} :
    scrapeEntry key stats = .ok f ↔ ScrapeEntry key stats f := by
  unfold scrapeEntry
  dsimp only
  by_cases hk : key.length = 20
  · simp only [hk, ne_eq, not_true_eq_false, if_false, bind, Except.bind_eq_ok, pure,
      Except.pure, Except.ok.injEq, expectDict_eq_ok, requiredU32_eq_ok, optionalText_eq_ok]
    constructor
    · rintro ⟨d, hd, c, hc, w, hw, i, hi, n, hn, rfl⟩
      exact ⟨hk, ⟨d, hd⟩, hc, hw, hi, hn⟩
    · rintro ⟨-, ⟨d, hd⟩, hc, hw, hi, hn⟩
      exact ⟨d, hd, _, hc, _, hw, _, hi, _, hn, rfl⟩
  · -- a key of another length is refused before its counts are looked at
    simp only [hk, ne_eq, not_false_eq_true, if_true, bind, Except.bind_eq_ok, throw, throwThe,
      MonadExceptOf.throw, reduceCtorEq, false_and, exists_false, false_iff]
    exact fun h => hk h.key_length

theorem failsInvalid_scrapeEntry (key : Bytes) (stats : Node) :
    FailsInvalid (scrapeEntry key stats) := by
  -- past the key's length, every field is read in turn and fails only as malformed
  have hcounts : FailsInvalid (do
      let _ ← expectDict stats "scrape entry"
      let complete ← requiredU32 stats "complete"
      let downloaded ← requiredU32 stats "downloaded"
      let incomplete ← requiredU32 stats "incomplete"
      let name ← optionalText stats "name"
      pure ({ complete, downloaded, incomplete, name } : ScrapeFile)) := by
    refine (failsInvalid_expectDict stats _).bind fun _ => ?_
    refine (failsInvalid_requiredU32 stats _).bind fun _ => ?_
    refine (failsInvalid_requiredU32 stats _).bind fun _ => ?_
    refine (failsInvalid_requiredU32 stats _).bind fun _ => ?_
    exact (failsInvalid_optionalText stats _).bind fun _ => FailsInvalid.ok _
  unfold scrapeEntry
  dsimp only
  split
  · exact (FailsInvalid.invalid _).bind fun _ => hcounts
  · exact hcounts

/-! ## Section 3: The reading in parts -/

/-- The reading of the `flags` entry. -/
def flagsEntry (root : Node) : Except TrackerError (Option Nat) :=
  match field? root "flags" with
  | none => pure none
  | some flags => do
    let _ ← expectDict flags "'flags'"
    optionalU32 flags "min_request_interval"

/-- Every entry of `files` read as its counts, kept under its key. -/
def countFiles (entries : Dict) : Except TrackerError (List (Bytes × ScrapeFile)) :=
  entries.mapM fun (k, v) => do return (k, ← scrapeEntry k v)

/-- The reading of an answer with no failure reason. -/
def scrapeSuccess (root : Node) : Except TrackerError (Reply ScrapeInfo) := do
  let minRequestInterval ← flagsEntry root
  let files ← match field? root "files" with
    | some f => pure f
    | none => throw (invalid "missing 'files'")
  let entries ← expectDict files "'files'"
  let counted ← countFiles entries
  return .success { files := counted, minRequestInterval }

/-- The reading of an answer is: a dictionary, then its failure reason, and past an absent one
the rest of its fields. -/
theorem parseScrape_eq (root : Node) :
    parseScrape root = expectDict root "scrape response" >>= fun _ =>
      failureReason root >>= fun reason? => match reason? with
        | some reason => pure (.failure reason)
        | none => scrapeSuccess root := by
  unfold parseScrape scrapeSuccess flagsEntry countFiles
  congr 1
  funext d
  congr 1
  funext reason?
  rcases reason? with _ | reason
  · dsimp only
    rcases field? root "flags" with _ | flags
    · rfl
    · exact (bind_assoc _ _ _).symm
  · rfl

theorem flagsEntry_eq_ok {root : Node} {v : Option Nat} :
    flagsEntry root = .ok v ↔ FlagsEntry root v := by
  unfold flagsEntry FlagsEntry
  rcases hf : field? root "flags" with _ | x
  · simp [pure, Except.pure, eq_comm]
  · simp [bind, Except.bind_eq_ok, expectDict_eq_ok, optionalU32_eq_ok]

theorem failsInvalid_flagsEntry (root : Node) : FailsInvalid (flagsEntry root) := by
  unfold flagsEntry
  split
  · exact FailsInvalid.ok _
  · exact (failsInvalid_expectDict _ _).bind fun _ => failsInvalid_optionalU32 _ _

/-- The entries of `files` read as a list of counted files exactly when they correspond one to
one, key for key, each value reading as its counts. -/
theorem countFiles_eq_ok {es : Dict} {out : List (Bytes × ScrapeFile)} :
    countFiles es = .ok out ↔
      List.Forall₂ (fun (e : Bytes × Node) (c : Bytes × ScrapeFile) => e.1 = c.1 ∧ ScrapeEntry e.1 e.2 c.2)
        es out := by
  unfold countFiles
  rw [mapM_eq_ok_iff]
  -- one entry: the key is kept and the value is read as its counts
  have hentry : ∀ (e : Bytes × Node) (c : Bytes × ScrapeFile),
      (do return (e.1, ← scrapeEntry e.1 e.2) : Except TrackerError _) = .ok c ↔
        e.1 = c.1 ∧ ScrapeEntry e.1 e.2 c.2 := by
    rintro ⟨k, v⟩ ⟨k', f⟩
    simp only [bind, Except.bind_eq_ok, pure, Except.pure, Except.ok.injEq, Prod.mk.injEq,
      ← scrapeEntry_eq_ok]
    constructor
    · rintro ⟨f', hf', rfl, rfl⟩
      exact ⟨rfl, hf'⟩
    · rintro ⟨rfl, hf⟩
      exact ⟨f, hf, rfl, rfl⟩
  exact ⟨fun h => h.imp fun e c => (hentry e c).1, fun h => h.imp fun e c => (hentry e c).2⟩

theorem failsInvalid_countFiles (es : Dict) : FailsInvalid (countFiles es) := by
  unfold countFiles
  exact FailsInvalid.mapM (fun e => (failsInvalid_scrapeEntry e.1 e.2).bind fun _ => FailsInvalid.ok _) es

/-- Past an absent failure reason, the reading succeeds exactly when the flags read as some
interval and the `files` dictionary as some counted files, and then with those; it never yields
a refusal. -/
theorem scrapeSuccess_eq_ok {root : Node} {x : Reply ScrapeInfo} :
    scrapeSuccess root = .ok x ↔ ∃ s, x = .success s ∧ FlagsEntry root s.minRequestInterval ∧
      ∃ f es, field? root "files" = some f ∧ f.asDict? = some es ∧
        List.Forall₂ (fun (e : Bytes × Node) (c : Bytes × ScrapeFile) => e.1 = c.1 ∧ ScrapeEntry e.1 e.2 c.2)
          es s.files := by
  unfold scrapeSuccess
  rcases hf : field? root "files" with _ | f
  · simp [bind, Except.bind_eq_ok, throw, throwThe, MonadExceptOf.throw]
  · simp only [bind, Except.bind_eq_ok, pure, Except.pure, Except.ok.injEq, expectDict_eq_ok,
      flagsEntry_eq_ok, countFiles_eq_ok, Option.some.injEq]
    constructor
    · rintro ⟨v, hv, _, rfl, es, hes, out, hout, rfl⟩
      exact ⟨_, rfl, hv, f, es, rfl, hes, hout⟩
    · rintro ⟨s, rfl, hv, _, es, rfl, hes, hout⟩
      exact ⟨_, hv, f, rfl, es, hes, _, hout, rfl⟩

theorem failsInvalid_scrapeSuccess (root : Node) : FailsInvalid (scrapeSuccess root) := by
  unfold scrapeSuccess
  refine (failsInvalid_flagsEntry root).bind fun v => ?_
  -- the reading of the files, once `files` is found
  have hfiles : ∀ f : Node, FailsInvalid (do
      let entries ← expectDict f "'files'"
      let counted ← countFiles entries
      pure (Reply.success ({ files := counted, minRequestInterval := v } : ScrapeInfo))) := fun f =>
    (failsInvalid_expectDict f _).bind fun es => (failsInvalid_countFiles es).bind fun _ =>
      FailsInvalid.ok _
  dsimp only
  split
  · exact hfiles _
  · exact (FailsInvalid.invalid _).bind hfiles

/-! ## Section 4: The reading of a scrape answer -/

/-- An answer is a refusal exactly when it is a dictionary whose failure reason is a byte string,
and the refusal carries that string read lossily, whatever the other fields hold. -/
theorem parseScrape_eq_failure_iff {root : Node} {m : String} :
    parseScrape root = .ok (.failure m) ↔ (∃ d, root.asDict? = some d) ∧
      ∃ x b, field? root "failure reason" = some x ∧ x.asBytes? = some b ∧
        m = Utf8.decodeLossy b := by
  rw [parseScrape_eq]
  simp only [bind, Except.bind_eq_ok, expectDict_eq_ok, failureReason_eq_ok]
  constructor
  · rintro ⟨d, hd, r?, hr, h⟩
    rcases hr with ⟨-, rfl⟩ | ⟨x, b, hx, hb, rfl⟩
    · -- past an absent failure reason the reading never refuses
      obtain ⟨s, hs, -⟩ := scrapeSuccess_eq_ok.1 h
      cases hs
    · cases h
      exact ⟨⟨d, hd⟩, x, b, hx, hb, rfl⟩
  · rintro ⟨⟨d, hd⟩, x, b, hx, hb, rfl⟩
    exact ⟨d, hd, _, .inr ⟨x, b, hx, hb, rfl⟩, rfl⟩

/-- An answer reads as the scrape `s` exactly when it is a body that says `s`. -/
theorem parseScrape_eq_success_iff {root : Node} {s : ScrapeInfo} :
    parseScrape root = .ok (.success s) ↔ ScrapeBody root s := by
  rw [parseScrape_eq]
  simp only [bind, Except.bind_eq_ok, expectDict_eq_ok, failureReason_eq_ok]
  constructor
  · rintro ⟨d, hd, r?, hr, h⟩
    rcases hr with ⟨hnf, rfl⟩ | ⟨x, b, hx, hb, rfl⟩
    · obtain ⟨s', hs', hflags, hfiles⟩ := scrapeSuccess_eq_ok.1 h
      cases hs'
      exact ⟨⟨d, hd⟩, hnf, hflags, hfiles⟩
    · -- a present failure reason always gives a refusal
      cases h
  · rintro ⟨⟨d, hd⟩, hnf, hflags, hfiles⟩
    exact ⟨d, hd, none, .inl ⟨hnf, rfl⟩, scrapeSuccess_eq_ok.2 ⟨s, rfl, hflags, hfiles⟩⟩

/-- Reading a scrape answer fails only as malformed. -/
theorem failsInvalid_parseScrape (root : Node) : FailsInvalid (parseScrape root) := by
  rw [parseScrape_eq]
  refine (failsInvalid_expectDict root _).bind fun _ => (failsInvalid_failureReason root).bind ?_
  rintro (_ | reason)
  · exact failsInvalid_scrapeSuccess root
  · exact FailsInvalid.ok _

/-- A dictionary whose failure reason is not a byte string is malformed, for either reading. -/
theorem parse_failure_reason_not_bytes {root x : Node} (hx : field? root "failure reason" = some x)
    (hb : x.asBytes? = none) :
    parseScrape root = .error (invalid "'failure reason' must be a string") ∧
      parseAnnounce root = .error (invalid "'failure reason' must be a string") := by
  -- only a dictionary has fields
  obtain ⟨d, hd⟩ : ∃ d, root.asDict? = some d := by
    rcases hd : root.asDict? with _ | d
    · simp [field?, Node.get?, hd] at hx
    · exact ⟨d, rfl⟩
  constructor
  · rw [parseScrape_eq, (expectDict_eq_ok).2 hd, failureReason_not_bytes hx hb]
    rfl
  · rw [parseAnnounce_eq, (expectDict_eq_ok).2 hd, failureReason_not_bytes hx hb]
    rfl

/-- The reading of a decoded scrape answer is exact and keeps every file entry. Its failure reason
is handled as in an announce answer: the two readings refuse on the same answers with the same
reason, and a reason that is not a byte string makes both malformed with the same fault. An
answer reads as the scrape `s` exactly when it is a body that says `s`: `flags`, when present, a
dictionary giving `s`'s interval, and `files` a dictionary whose entries are, in order and one for
one, those of `s.files`, each under a 20-byte key with its three 32-bit counts and optional name.
So `s.files` has exactly the keys of `files`, none lost or merged. The reading fails only as
malformed. -/
theorem scrape_files_kept (root : Node) :
    (∀ m, parseScrape root = .ok (.failure m) ↔ parseAnnounce root = .ok (.failure m)) ∧
    (∀ x, field? root "failure reason" = some x → x.asBytes? = none →
      parseScrape root = .error (invalid "'failure reason' must be a string") ∧
      parseAnnounce root = .error (invalid "'failure reason' must be a string")) ∧
    (∀ s, parseScrape root = .ok (.success s) ↔ ScrapeBody root s) ∧
    (∀ s, parseScrape root = .ok (.success s) → ∃ x es, field? root "files" = some x ∧
      x.asDict? = some es ∧ s.files.map Prod.fst = es.map Prod.fst) ∧
    FailsInvalid (parseScrape root) := by
  refine ⟨fun m => ?_, fun x hx hb => parse_failure_reason_not_bytes hx hb,
    fun _ => parseScrape_eq_success_iff, fun s h => (parseScrape_eq_success_iff.1 h).keys_eq,
    failsInvalid_parseScrape root⟩
  rw [parseScrape_eq_failure_iff, parseAnnounce_eq_failure_iff]

/-- An answer with one file entry reads as that file's counts, under the entry's key. -/
theorem one_scrape_entry_kept :
    ∃ x es, field? (.dict [(Bytes.ofString "files", .dict [(List.replicate 20 7,
        .dict [(Bytes.ofString "complete", .int 5 none), (Bytes.ofString "downloaded", .int 9 none),
          (Bytes.ofString "incomplete", .int 2 none)] none)] none)] none) "files" = some x ∧
      x.asDict? = some es ∧
      ([(List.replicate 20 7, ⟨5, 9, 2, none⟩)] : List (Bytes × ScrapeFile)).map Prod.fst =
        es.map Prod.fst :=
  (scrape_files_kept _).2.2.2.1 { files := [(List.replicate 20 7, ⟨5, 9, 2, none⟩)] } (by decide +kernel)

end BitTorrent.Tracker
