import Mathlib.Data.List.Forall2
import BitTorrent.Proofs.Bencode.ReadSteps
import BitTorrent.Proofs.Tracker.CompactPeers

/-!
# Reading a decoded announce answer

An announce answer is a dictionary. A `failure reason` in it ends the reading whatever else it
holds: the answer is the tracker's refusal, with the reason read lossily as UTF-8, and a reason
that is not a byte string makes the answer malformed. Otherwise the answer must hold an
`interval` in the 32-bit unsigned range; each optional count and text is either absent or of
its type and range; `peers` is absent, a compact IPv4 string or a list of peer dictionaries,
each with a byte-string `peer id`, an address literal `ip` and a 16-bit `port`; `peers6` is
absent or a compact IPv6 string; and the two lists of peers joined, in that order, are not
empty. Reading succeeds exactly on such answers, with their values (`AnnounceBody`), and every
other answer is malformed (`invalidResponse`), never refused or failed in another way.

## Main definitions

* `CountEntry`, `TextEntry`, `VerbosePeer`, `PeersEntry`, `Peers6Entry`, `BodyFields`,
  `AnnounceBody`: what the fields of an answer say.
* `FailsInvalid`: a reading that can only fail as malformed.
* `peersEntry`, `peers6Entry`, `announceSuccess`: the reading past the failure reason, in parts.

## Main statements

* `parseAnnounce_eq`: the reading in its parts.
* `parseAnnounce_eq_failure_iff`, `parseAnnounce_eq_success_iff`, `failsInvalid_parseAnnounce`.
* `announce_body_projected`: the reading is exact.
-/

namespace BitTorrent.Tracker

open Bencode

/-! ## Section 1: Readings that fail only as malformed -/

section Invalid

variable {α β : Type}

/-- A reading that, when it fails, fails only because the answer is malformed. -/
def FailsInvalid (x : Except TrackerError α) : Prop :=
  ∀ e, x = .error e → ∃ m, e = .invalidResponse m

theorem FailsInvalid.ok (a : α) : FailsInvalid (.ok a : Except TrackerError α) := by
  intro e h
  cases h

theorem FailsInvalid.invalid (m : String) : FailsInvalid (.error (invalid m) : Except TrackerError α) := by
  intro e h
  cases h
  exact ⟨m, rfl⟩

theorem FailsInvalid.bind {x : Except TrackerError α} {f : α → Except TrackerError β}
    (hx : FailsInvalid x) (hf : ∀ a, FailsInvalid (f a)) : FailsInvalid (x >>= f) := by
  cases x with
  | error e =>
    intro e' h
    cases h
    exact hx e rfl
  | ok a => exact hf a

theorem FailsInvalid.mapM {f : α → Except TrackerError β} (hf : ∀ a, FailsInvalid (f a)) :
    ∀ l : List α, FailsInvalid (l.mapM f)
  | [] => FailsInvalid.ok _
  | a :: l => by
    rw [List.mapM_cons]
    exact (hf a).bind fun b => (FailsInvalid.mapM hf l).bind fun bs => FailsInvalid.ok _

end Invalid

/-! ## Section 2: What the fields of an answer say -/

/-- An optional count entry of a dictionary, read as `v`: absent and `none`, or an integer in the
32-bit unsigned range and its value. -/
def CountEntry (n : Node) (key : String) (v : Option Nat) : Prop :=
  (field? n key = none ∧ v = none) ∨
  ∃ x i, field? n key = some x ∧ x.asInt? = some i ∧ 0 ≤ i ∧ i < 2 ^ 32 ∧ v = some i.toNat

/-- An optional text entry of a dictionary, read as `v`: absent and `none`, or well-formed UTF-8
and its text. -/
def TextEntry (n : Node) (key : String) (v : Option String) : Prop :=
  (field? n key = none ∧ v = none) ∨ ∃ x s, field? n key = some x ∧ x.asText? = some s ∧ v = some s

/-- A peer dictionary read as the peer `p`: a byte-string `peer id`, an address literal `ip` and
a `port` in the 16-bit range. -/
structure VerbosePeer (x : Node) (p : PeerInfo) : Prop where
  dict : ∃ d, x.asDict? = some d
  peerId : ∃ b, (field? x "peer id").bind Node.asBytes? = some b ∧ p.peerId = some b
  ip : ∃ s, (field? x "ip").bind Node.asText? = some s ∧ Net.IpAddr.parse? s = some p.ip
  port : ∃ i, (field? x "port").bind Node.asInt? = some i ∧ 0 ≤ i ∧ i < 2 ^ 16 ∧
    (p.port.toNat : Int) = i

/-- The `peers` entry of an answer, read as `ps`: absent and no peers, a compact IPv4 string and
its peers, or a list of peer dictionaries and their peers in order. -/
def PeersEntry (root : Node) (ps : List PeerInfo) : Prop :=
  (field? root "peers" = none ∧ ps = []) ∨
  (∃ x b, field? root "peers" = some x ∧ x.asBytes? = some b ∧
    CompactList 6 (PeerInfo.CompactOf .v4 4) b ps) ∨
  (∃ x l, field? root "peers" = some x ∧ x.asList? = some l ∧ List.Forall₂ VerbosePeer l ps)

/-- The `peers6` entry of an answer, read as `ps`: absent and no peers, or a compact IPv6 string
and its peers. -/
def Peers6Entry (root : Node) (ps : List PeerInfo) : Prop :=
  (field? root "peers6" = none ∧ ps = []) ∨
  ∃ x b, field? root "peers6" = some x ∧ x.asBytes? = some b ∧
    CompactList 18 (PeerInfo.CompactOf .v6 16) b ps

/-- The fields of an answer past its failure reason, read as `r`: the interval, optional counts
and texts are `r`'s, and the peers, those of `peers` then those of `peers6`, are `r`'s and not
none. -/
structure BodyFields (root : Node) (r : AnnounceInfo) : Prop where
  interval : CountEntry root "interval" (some r.interval)
  warningMessage : TextEntry root "warning message" r.warningMessage
  minInterval : CountEntry root "min interval" r.minInterval
  trackerId : TextEntry root "tracker id" r.trackerId
  complete : CountEntry root "complete" r.complete
  incomplete : CountEntry root "incomplete" r.incomplete
  peers : ∃ ps ps6, PeersEntry root ps ∧ Peers6Entry root ps6 ∧ r.peers = ps ++ ps6
  nonempty : r.peers ≠ []

/-- An announce answer that reads as `r`: a dictionary with no failure reason, whose fields read
as `r`. -/
structure AnnounceBody (root : Node) (r : AnnounceInfo) : Prop extends BodyFields root r where
  dict : ∃ d, root.asDict? = some d
  noFailure : field? root "failure reason" = none

/-! ## Section 3: Reading the fields -/

theorem int_ofNat_pow (k : Nat) : Int.ofNat (Nat.pow 2 k) = 2 ^ k := by
  simp [Nat.pow_eq]

theorem expectDict_eq_ok {n : Node} {what : String} {d : Dict} :
    expectDict n what = .ok d ↔ n.asDict? = some d := by
  rcases h : n.asDict? with _ | d' <;> simp [expectDict, h]

theorem failsInvalid_expectDict (n : Node) (what : String) : FailsInvalid (expectDict n what) := by
  unfold expectDict
  split
  · exact FailsInvalid.ok _
  · exact FailsInvalid.invalid _

theorem failureReason_eq_ok {n : Node} {r? : Option String} :
    failureReason n = .ok r? ↔ (field? n "failure reason" = none ∧ r? = none) ∨
      ∃ x b, field? n "failure reason" = some x ∧ x.asBytes? = some b ∧
        r? = some (Utf8.decodeLossy b) := by
  unfold failureReason
  rcases hf : field? n "failure reason" with _ | x
  · simp [eq_comm]
  · rcases hb : x.asBytes? with _ | b <;> simp [hb, eq_comm]

theorem failureReason_not_bytes {n x : Node} (hf : field? n "failure reason" = some x)
    (hb : x.asBytes? = none) :
    failureReason n = .error (invalid "'failure reason' must be a string") := by
  simp [failureReason, hf, hb]

theorem failsInvalid_failureReason (n : Node) : FailsInvalid (failureReason n) := by
  unfold failureReason
  split
  · exact FailsInvalid.ok _
  · split
    · exact FailsInvalid.ok _
    · exact FailsInvalid.invalid _

theorem optionalU32_eq_ok {n : Node} {key : String} {v : Option Nat} :
    optionalU32 n key = .ok v ↔ CountEntry n key v := by
  unfold optionalU32 CountEntry
  rcases hf : field? n key with _ | x
  · simp [eq_comm]
  · rcases hi : x.asInt? with _ | i
    · simp [hi]
    · by_cases hr : 0 ≤ i ∧ i < 2 ^ 32
      · simp only [hi, int_ofNat_pow, if_pos hr, Except.ok.injEq]
        constructor
        · rintro rfl
          exact .inr ⟨x, i, rfl, hi, hr.1, hr.2, rfl⟩
        · rintro (⟨h, -⟩ | ⟨x', i', hx', hi', -, -, rfl⟩)
          · cases h
          · cases hx'
            rw [hi] at hi'
            cases hi'
            rfl
      · simp only [hi, int_ofNat_pow, if_neg hr, reduceCtorEq, false_iff]
        rintro (⟨h, -⟩ | ⟨x', i', hx', hi', h0, h32, -⟩)
        · cases h
        · cases hx'
          rw [hi] at hi'
          cases hi'
          exact hr ⟨h0, h32⟩

theorem failsInvalid_optionalU32 (n : Node) (key : String) : FailsInvalid (optionalU32 n key) := by
  unfold optionalU32
  split
  · exact FailsInvalid.ok _
  · split
    · split
      · exact FailsInvalid.ok _
      · exact FailsInvalid.invalid _
    · exact FailsInvalid.invalid _

theorem requiredU32_eq_ok {n : Node} {key : String} {v : Nat} :
    requiredU32 n key = .ok v ↔ CountEntry n key (some v) := by
  rw [← optionalU32_eq_ok]
  unfold requiredU32
  rcases optionalU32 n key with e | (_ | w) <;> simp [bind, Except.bind]

theorem failsInvalid_requiredU32 (n : Node) (key : String) : FailsInvalid (requiredU32 n key) := by
  unfold requiredU32
  refine (failsInvalid_optionalU32 n key).bind fun o => ?_
  rcases o with _ | v
  · exact FailsInvalid.invalid _
  · exact FailsInvalid.ok _

theorem optionalText_eq_ok {n : Node} {key : String} {v : Option String} :
    optionalText n key = .ok v ↔ TextEntry n key v := by
  unfold optionalText TextEntry
  rcases hf : field? n key with _ | x
  · simp [eq_comm]
  · rcases ht : x.asText? with _ | s <;> simp [ht, eq_comm]

theorem failsInvalid_optionalText (n : Node) (key : String) : FailsInvalid (optionalText n key) := by
  unfold optionalText
  split
  · exact FailsInvalid.ok _
  · split
    · exact FailsInvalid.ok _
    · exact FailsInvalid.invalid _

/-- A peer dictionary reads as the peer it names, and only as that peer. -/
theorem verbosePeer_eq_ok {x : Node} {p : PeerInfo} : verbosePeer x = .ok p ↔ VerbosePeer x p := by
  constructor
  · intro h
    unfold verbosePeer at h
    -- each field is read in turn; a missing or mistyped one fails the reading
    rcases hd : x.asDict? with _ | d
    · simp [expectDict, hd, bind, Except.bind] at h
    rcases hb : (field? x "peer id").bind Node.asBytes? with _ | b
    · simp [expectDict, hd, hb, bind, Except.bind] at h
    rcases hs : (field? x "ip").bind Node.asText? with _ | s
    · simp [expectDict, hd, hb, hs, bind, Except.bind] at h
    rcases ha : Net.IpAddr.parse? s with _ | a
    · simp [expectDict, hd, hb, hs, ha, bind, Except.bind] at h
    rcases hi : (field? x "port").bind Node.asInt? with _ | i
    · simp [expectDict, hd, hb, hs, ha, hi, bind, Except.bind] at h
    simp only [expectDict, hd, hb, hs, ha, hi, bind, Except.bind, int_ofNat_pow] at h
    split_ifs at h with hr
    cases h
    exact ⟨⟨d, hd⟩, ⟨b, hb, rfl⟩, ⟨s, hs, ha⟩, ⟨i, hi, hr.1, hr.2, by simp; omega⟩⟩
  · rintro ⟨⟨d, hd⟩, ⟨b, hb, hid⟩, ⟨s, hs, ha⟩, ⟨i, hi, h0, h16, hport⟩⟩
    have hr : 0 ≤ i ∧ i < 2 ^ 16 := ⟨h0, h16⟩
    simp only [verbosePeer, expectDict, hd, hb, hs, ha, hi, bind, Except.bind, int_ofNat_pow,
      if_pos hr]
    -- the port, read as a number in range, is the peer's port
    have hp : i.toNat.toUInt16 = p.port := by
      rw [← hport]
      exact UInt16.ofNat_toNat
    rw [hp, ← hid]

theorem failsInvalid_verbosePeer (x : Node) : FailsInvalid (verbosePeer x) := by
  intro e h
  unfold verbosePeer at h
  -- the reading fails at the first field that is missing or mistyped, each time as malformed
  rcases hd : x.asDict? with _ | d
  · simp [expectDict, hd, bind, Except.bind] at h
    exact ⟨_, h.symm⟩
  rcases hb : (field? x "peer id").bind Node.asBytes? with _ | b
  · simp [expectDict, hd, hb, bind, Except.bind] at h
    exact ⟨_, h.symm⟩
  rcases hs : (field? x "ip").bind Node.asText? with _ | s
  · simp [expectDict, hd, hb, hs, bind, Except.bind] at h
    exact ⟨_, h.symm⟩
  rcases ha : Net.IpAddr.parse? s with _ | a
  · simp [expectDict, hd, hb, hs, ha, bind, Except.bind] at h
    exact ⟨_, h.symm⟩
  rcases hi : (field? x "port").bind Node.asInt? with _ | i
  · simp [expectDict, hd, hb, hs, ha, hi, bind, Except.bind] at h
    exact ⟨_, h.symm⟩
  simp only [expectDict, hd, hb, hs, ha, hi, bind, Except.bind, int_ofNat_pow] at h
  split_ifs at h with hr
  cases h
  exact ⟨_, rfl⟩

theorem asList_eq_none_of_asBytes {x : Node} {b : Bytes} (h : x.asBytes? = some b) :
    x.asList? = none := by
  cases x <;> simp_all [Node.asBytes?, Node.asList?]

theorem failsInvalid_compactWith (k : Nat) (ofRecord : Bytes → Option PeerInfo) (data : Bytes) :
    FailsInvalid (compactWith k ofRecord data) := by
  unfold compactWith
  split_ifs
  · exact FailsInvalid.invalid _
  · exact FailsInvalid.ok _

/-! ## Section 4: The reading in parts -/

/-- The reading of the `peers` entry. -/
def peersEntry (root : Node) : Except TrackerError (List PeerInfo) :=
  match field? root "peers" with
  | none => pure []
  | some p =>
    match p.asBytes?, p.asList? with
    | some b, _ => compactPeers b
    | none, some l => l.mapM verbosePeer
    | none, none => throw (invalid "'peers' must be a list or a string")

/-- The reading of the `peers6` entry. -/
def peers6Entry (root : Node) : Except TrackerError (List PeerInfo) :=
  match field? root "peers6" with
  | none => pure []
  | some p =>
    match p.asBytes? with
    | some b => compactPeers6 b
    | none => throw (invalid "'peers6' must be a string")

/-- The reading of an answer with no failure reason. -/
def announceSuccess (root : Node) : Except TrackerError (Reply AnnounceInfo) := do
  let interval ← requiredU32 root "interval"
  let warningMessage ← optionalText root "warning message"
  let minInterval ← optionalU32 root "min interval"
  let trackerId ← optionalText root "tracker id"
  let complete ← optionalU32 root "complete"
  let incomplete ← optionalU32 root "incomplete"
  let peers ← peersEntry root
  let peers6 ← peers6Entry root
  if (peers ++ peers6).isEmpty then throw (invalid "response contains no peers")
  return .success { warningMessage, interval, minInterval, trackerId, complete, incomplete,
                    peers := peers ++ peers6 }

/-- The reading of an answer is: a dictionary, then its failure reason, and past an absent one
the rest of its fields. -/
theorem parseAnnounce_eq (root : Node) :
    parseAnnounce root = expectDict root "announce response" >>= fun _ =>
      failureReason root >>= fun reason? => match reason? with
        | some reason => pure (.failure reason)
        | none => announceSuccess root := by
  unfold parseAnnounce announceSuccess peersEntry peers6Entry
  congr 1
  funext d
  congr 1
  funext reason?
  rcases reason? with _ | reason
  · -- the continuation after the peers was copied into each branch of their reading: inline the
    -- join points, then split on every field the branches read
    dsimp only
    rcases field? root "peers" with _ | p <;> rcases field? root "peers6" with _ | p6
    · rfl
    · dsimp only
      rcases p6.asBytes? <;> rfl
    · dsimp only
      rcases p.asBytes? with _ | b <;> rcases p.asList? with _ | l <;> rfl
    · dsimp only
      rcases p.asBytes? with _ | b <;> rcases p.asList? with _ | l <;> rcases p6.asBytes? <;> rfl
  · rfl

theorem peersEntry_eq_ok {root : Node} {ps : List PeerInfo} :
    peersEntry root = .ok ps ↔ PeersEntry root ps := by
  unfold peersEntry PeersEntry
  rcases hf : field? root "peers" with _ | x
  · simp [pure, Except.pure, eq_comm]
  rcases hb : x.asBytes? with _ | b
  · rcases hl : x.asList? with _ | l
    · simp [hb, hl]
    · -- a list of peer dictionaries, read one by one
      have hmap : l.mapM verbosePeer = .ok ps ↔ List.Forall₂ VerbosePeer l ps :=
        mapM_eq_ok_iff.trans ⟨fun h => h.imp fun _ _ => verbosePeer_eq_ok.1,
          fun h => h.imp fun _ _ => verbosePeer_eq_ok.2⟩
      simp [hb, hl, hmap]
  · have hc : compactPeers b = .ok ps ↔ CompactList 6 (PeerInfo.CompactOf .v4 4) b ps :=
      compactWith_eq_ok_iff recordCodec_v4
    simp [hb, asList_eq_none_of_asBytes hb, hc]

theorem failsInvalid_peersEntry (root : Node) : FailsInvalid (peersEntry root) := by
  unfold peersEntry
  split
  · exact FailsInvalid.ok _
  · split
    · exact failsInvalid_compactWith _ _ _
    · exact FailsInvalid.mapM failsInvalid_verbosePeer _
    · exact FailsInvalid.invalid _

theorem peers6Entry_eq_ok {root : Node} {ps : List PeerInfo} :
    peers6Entry root = .ok ps ↔ Peers6Entry root ps := by
  unfold peers6Entry Peers6Entry
  rcases hf : field? root "peers6" with _ | x
  · simp [pure, Except.pure, eq_comm]
  rcases hb : x.asBytes? with _ | b
  · simp [hb]
  · have hc : compactPeers6 b = .ok ps ↔ CompactList 18 (PeerInfo.CompactOf .v6 16) b ps :=
      compactWith_eq_ok_iff recordCodec_v6
    simp [hb, hc]

theorem failsInvalid_peers6Entry (root : Node) : FailsInvalid (peers6Entry root) := by
  unfold peers6Entry
  split
  · exact FailsInvalid.ok _
  · split
    · exact failsInvalid_compactWith _ _ _
    · exact FailsInvalid.invalid _

/-- Past an absent failure reason, the reading succeeds exactly on the answers whose fields read
as some `r`, and then with `r`; it never yields a refusal. -/
theorem announceSuccess_eq_ok {root : Node} {x : Reply AnnounceInfo} :
    announceSuccess root = .ok x ↔ ∃ r, x = .success r ∧ BodyFields root r := by
  simp only [announceSuccess, bind, Except.bind_eq_ok]
  constructor
  · rintro ⟨iv, hiv, w, hw, mi, hmi, t, ht, c, hc, ic, hic, ps, hps, ps6, hps6, h⟩
    split_ifs at h with he
    · cases h
    · cases h
      refine ⟨_, rfl, requiredU32_eq_ok.1 hiv, optionalText_eq_ok.1 hw, optionalU32_eq_ok.1 hmi,
        optionalText_eq_ok.1 ht, optionalU32_eq_ok.1 hc, optionalU32_eq_ok.1 hic,
        ⟨ps, ps6, peersEntry_eq_ok.1 hps, peers6Entry_eq_ok.1 hps6, rfl⟩, by simpa using he⟩
  · rintro ⟨r, rfl, hiv, hw, hmi, ht, hc, hic, ⟨ps, ps6, hps, hps6, hr⟩, hne⟩
    -- each field reads as `r` says, and the joined peers are not empty, so the reading ends in
    -- the announce rebuilt from `r`'s own fields
    refine ⟨_, requiredU32_eq_ok.2 hiv, _, optionalText_eq_ok.2 hw, _, optionalU32_eq_ok.2 hmi,
      _, optionalText_eq_ok.2 ht, _, optionalU32_eq_ok.2 hc, _, optionalU32_eq_ok.2 hic,
      ps, peersEntry_eq_ok.2 hps, ps6, peers6Entry_eq_ok.2 hps6, ?_⟩
    rw [← hr, if_neg (by simpa using hne)]
    rfl

theorem failsInvalid_announceSuccess (root : Node) : FailsInvalid (announceSuccess root) := by
  unfold announceSuccess
  refine (failsInvalid_requiredU32 root _).bind fun _ => ?_
  refine (failsInvalid_optionalText root _).bind fun _ => ?_
  refine (failsInvalid_optionalU32 root _).bind fun _ => ?_
  refine (failsInvalid_optionalText root _).bind fun _ => ?_
  refine (failsInvalid_optionalU32 root _).bind fun _ => ?_
  refine (failsInvalid_optionalU32 root _).bind fun _ => ?_
  refine (failsInvalid_peersEntry root).bind fun _ => ?_
  refine (failsInvalid_peers6Entry root).bind fun _ => ?_
  split
  · exact (FailsInvalid.invalid _).bind fun _ => FailsInvalid.ok _
  · exact FailsInvalid.ok _

/-! ## Section 5: The reading of an answer -/

/-- An answer is a refusal exactly when it is a dictionary whose failure reason is a byte string,
and the refusal carries that string read lossily, whatever the other fields hold. -/
theorem parseAnnounce_eq_failure_iff {root : Node} {m : String} :
    parseAnnounce root = .ok (.failure m) ↔ (∃ d, root.asDict? = some d) ∧
      ∃ x b, field? root "failure reason" = some x ∧ x.asBytes? = some b ∧
        m = Utf8.decodeLossy b := by
  rw [parseAnnounce_eq]
  simp only [bind, Except.bind_eq_ok, expectDict_eq_ok, failureReason_eq_ok]
  constructor
  · rintro ⟨d, hd, r?, hr, h⟩
    rcases hr with ⟨-, rfl⟩ | ⟨x, b, hx, hb, rfl⟩
    · -- past an absent failure reason the reading never refuses
      obtain ⟨r, hr, -⟩ := announceSuccess_eq_ok.1 h
      cases hr
    · cases h
      exact ⟨⟨d, hd⟩, x, b, hx, hb, rfl⟩
  · rintro ⟨⟨d, hd⟩, x, b, hx, hb, rfl⟩
    exact ⟨d, hd, _, .inr ⟨x, b, hx, hb, rfl⟩, rfl⟩

/-- An answer reads as the announce `r` exactly when it is a body that says `r`. -/
theorem parseAnnounce_eq_success_iff {root : Node} {r : AnnounceInfo} :
    parseAnnounce root = .ok (.success r) ↔ AnnounceBody root r := by
  rw [parseAnnounce_eq]
  simp only [bind, Except.bind_eq_ok, expectDict_eq_ok, failureReason_eq_ok]
  constructor
  · rintro ⟨d, hd, r?, hr, h⟩
    rcases hr with ⟨hnf, rfl⟩ | ⟨x, b, hx, hb, rfl⟩
    · obtain ⟨r', hr', hf⟩ := announceSuccess_eq_ok.1 h
      cases hr'
      exact ⟨hf, ⟨d, hd⟩, hnf⟩
    · -- a present failure reason always gives a refusal
      cases h
  · rintro ⟨hf, ⟨d, hd⟩, hnf⟩
    exact ⟨d, hd, none, .inl ⟨hnf, rfl⟩, announceSuccess_eq_ok.2 ⟨r, rfl, hf⟩⟩

/-- Reading an answer fails only as malformed. -/
theorem failsInvalid_parseAnnounce (root : Node) : FailsInvalid (parseAnnounce root) := by
  rw [parseAnnounce_eq]
  refine (failsInvalid_expectDict root _).bind fun _ => (failsInvalid_failureReason root).bind ?_
  rintro (_ | reason)
  · exact failsInvalid_announceSuccess root
  · exact FailsInvalid.ok _

/-- An answer that is neither a refusal nor a body is malformed. -/
theorem parseAnnounce_malformed {root : Node} (h : ∀ x, parseAnnounce root ≠ .ok x) :
    ∃ m, parseAnnounce root = .error (.invalidResponse m) := by
  rcases hp : parseAnnounce root with e | x
  · obtain ⟨m, rfl⟩ := failsInvalid_parseAnnounce root e hp
    exact ⟨m, rfl⟩
  · exact absurd hp (h x)

/-- The reading of a decoded announce answer is exact. A failure reason in a dictionary wins over
every other field: a byte string is the refusal, read lossily, and anything else is malformed. An
answer reads as the announce `r` exactly when it is a body that says `r`: an `interval` in the
32-bit range, each optional field absent or of its type and range, and the peers of `peers` then
`peers6`, not none, each verbose peer with a byte-string id, an address literal and a 16-bit port.
A dictionary with no failure reason that says no announce is malformed, and the reading fails in
no other way. -/
theorem announce_body_projected (root : Node) :
    (∀ m, parseAnnounce root = .ok (.failure m) ↔ (∃ d, root.asDict? = some d) ∧
      ∃ x b, field? root "failure reason" = some x ∧ x.asBytes? = some b ∧
        m = Utf8.decodeLossy b) ∧
    (∀ d x, root.asDict? = some d → field? root "failure reason" = some x → x.asBytes? = none →
      parseAnnounce root = .error (invalid "'failure reason' must be a string")) ∧
    (∀ r, parseAnnounce root = .ok (.success r) ↔ AnnounceBody root r) ∧
    ((∃ d, root.asDict? = some d) → field? root "failure reason" = none →
      (∀ r, ¬BodyFields root r) → ∃ m, parseAnnounce root = .error (.invalidResponse m)) ∧
    FailsInvalid (parseAnnounce root) := by
  refine ⟨fun _ => parseAnnounce_eq_failure_iff, ?_, fun _ => parseAnnounce_eq_success_iff, ?_,
    failsInvalid_parseAnnounce root⟩
  · intro d x hd hx hb
    rw [parseAnnounce_eq, (expectDict_eq_ok).2 hd, failureReason_not_bytes hx hb]
    rfl
  · rintro ⟨d, hd⟩ hnf hno
    -- no refusal, as the failure reason is absent, and no announce, as no body says one
    refine parseAnnounce_malformed fun x h => ?_
    rcases x with m | r
    · obtain ⟨-, x, -, hx, -⟩ := parseAnnounce_eq_failure_iff.1 h
      rw [hnf] at hx
      cases hx
    · exact hno r (parseAnnounce_eq_success_iff.1 h).toBodyFields

/-- A failure reason that is a number makes the answer malformed, though the rest is empty. -/
theorem failure_reason_number_malformed :
    parseAnnounce (.dict [(Bytes.ofString "failure reason", .int 5 none)] none) =
      .error (invalid "'failure reason' must be a string") :=
  (announce_body_projected _).2.1 _ (.int 5 none) rfl
    (by simp [field?, Node.get?, Node.asDict?, Dict.find?]) rfl

end BitTorrent.Tracker
