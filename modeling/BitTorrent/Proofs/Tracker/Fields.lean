import BitTorrent.Tracker.Datagram
import BitTorrent.Proofs.BigEndian

/-!
# The fields of UDP tracker datagrams

A datagram of the UDP tracker protocol is a run of big-endian fields, which read back as
they were written (`Bytes.toNatBE_ofNatBE`, `Bytes.ofNatBE_toNatBE`). From these, the fields
a client reads in its own requests are those it wrote: the connection id, the action and the
transaction id. And an answer counts (`classify`) only by its first eight bytes, so a receive
buffer of eight bytes or more does not change which datagrams answer.

## Main statements

* `RequestShape`, `announcePacket_shape`, `scrapePacket_shape`: where a request carries its
  connection id, action and transaction id.
* `classify_eq_some`: what a datagram that answers carries.
* `classify_take`: cutting a datagram to eight bytes or more does not change its answer.
-/

namespace BitTorrent

namespace Tracker

/-! ## Fields at positions -/

theorem u32At_lt (d : Bytes) (pos : Nat) : u32At d pos < Nat.pow 2 32 := by
  have h := Bytes.toNatBE_lt ((d.drop pos).take 4)
  calc u32At d pos < 256 ^ ((d.drop pos).take 4).length := h
    _ ≤ 256 ^ 4 := Nat.pow_le_pow_right (by decide) (List.length_take_le _ _)
    _ = Nat.pow 2 32 := rfl

/-- A field past the end of a prefix is read in what follows it. -/
theorem u32At_append_right (a b : Bytes) {pos : Nat} (h : a.length ≤ pos) :
    u32At (a ++ b) pos = u32At b (pos - a.length) := by
  simp [u32At, List.drop_append, List.drop_eq_nil_of_le h]

/-- A field inside the first `n` bytes reads the same after the datagram is cut to them. -/
theorem u32At_take (d : Bytes) {n pos : Nat} (h : pos + 4 ≤ n) : u32At (d.take n) pos = u32At d pos := by
  simp only [u32At, List.drop_take, List.take_take]
  congr 2
  omega

@[simp] theorem u32At_u32_append (x : Nat) (rest : Bytes) :
    u32At (Packet.u32 x ++ rest) 0 = x % Nat.pow 2 32 := by
  rw [u32At, List.drop_zero, Packet.u32, List.take_left' (Bytes.length_ofNatBE 4 x),
    Bytes.toNatBE_ofNatBE]
  rfl

theorem u64_length (x : Nat) : (Packet.u64 x).length = 8 := Bytes.length_ofNatBE 8 x

theorem u32_length (x : Nat) : (Packet.u32 x).length = 4 := Bytes.length_ofNatBE 4 x

/-- A 64-bit field written from eight bytes read as a number is those bytes. -/
theorem u64_toNatBE {b : Bytes} (h : b.length = 8) : Packet.u64 (Bytes.toNatBE b) = b := by
  rw [Packet.u64, ← h, Bytes.ofNatBE_toNatBE]

/-! ## The fields of requests -/

/-- A request that starts with a 64-bit connection id, then a 32-bit action and a 32-bit
transaction id, reads them back. -/
theorem header_fields (cid action tid : Nat) (rest : Bytes) :
    (Packet.u64 cid ++ Packet.u32 action ++ Packet.u32 tid ++ rest).take 8 = Packet.u64 cid ∧
    u32At (Packet.u64 cid ++ Packet.u32 action ++ Packet.u32 tid ++ rest) 8 = action % Nat.pow 2 32 ∧
    u32At (Packet.u64 cid ++ Packet.u32 action ++ Packet.u32 tid ++ rest) 12 = tid % Nat.pow 2 32 := by
  have h8 := u64_length cid
  have h4 := u32_length action
  simp only [List.append_assoc]
  refine ⟨List.take_left' h8, ?_, ?_⟩
  · rw [u32At_append_right _ _ (by omega), h8, Nat.sub_self, u32At_u32_append]
  · rw [u32At_append_right _ _ (by omega), h8, u32At_append_right _ _ (by omega), h4,
      u32At_u32_append]

theorem connectPacket_fields (tid : Nat) :
    u32At (connectPacket tid) 8 = actionConnect ∧ u32At (connectPacket tid) 12 = tid % Nat.pow 2 32 := by
  obtain ⟨-, h8, h12⟩ := header_fields protocolId actionConnect tid []
  simp only [List.append_nil] at h8 h12
  exact ⟨by rw [connectPacket, h8]; rfl, by rw [connectPacket, h12]⟩

/-- How a family of request datagrams, built from a connection id and a transaction id, carries
them: the connection id in bytes 0 to 8, the action in bytes 8 to 12 and the transaction id in
bytes 12 to 16; the action is that of an announce or of a scrape. -/
structure RequestShape (packet : Nat → Nat → Bytes) (action : Nat) : Prop where
  connectionId_eq : ∀ cid tid, (packet cid tid).take 8 = Packet.u64 cid
  action_eq : ∀ cid tid, u32At (packet cid tid) 8 = action
  tid_eq : ∀ cid tid, u32At (packet cid tid) 12 = tid % Nat.pow 2 32
  request : action = actionAnnounce ∨ action = actionScrape

theorem announcePacket_shape (r : Request) (f : AnnounceFields) :
    RequestShape (fun cid tid => announcePacket cid tid r f) actionAnnounce where
  connectionId_eq cid tid := by
    rw [announcePacket]
    simpa only [List.append_assoc] using (header_fields cid actionAnnounce tid _).1
  action_eq cid tid := by
    rw [announcePacket]
    simpa only [List.append_assoc] using
      (header_fields cid actionAnnounce tid _).2.1.trans (Nat.mod_eq_of_lt (by decide))
  tid_eq cid tid := by
    rw [announcePacket]
    simpa only [List.append_assoc] using (header_fields cid actionAnnounce tid _).2.2
  request := .inl rfl

theorem scrapePacket_shape (hashes : List Bytes) :
    RequestShape (fun cid tid => scrapePacket cid tid hashes) actionScrape where
  connectionId_eq cid tid := (header_fields cid actionScrape tid _).1
  action_eq cid tid := (header_fields cid actionScrape tid _).2.1.trans (Nat.mod_eq_of_lt (by decide))
  tid_eq cid tid := (header_fields cid actionScrape tid _).2.2
  request := .inr rfl

/-! ## What an answer carries -/

/-- A datagram answers a request only with eight bytes or more and the request's transaction id
in bytes 4 to 8: a refusal has action 3 and its text after byte 8, and data has the request's
action. -/
theorem classify_eq_some {d : Bytes} {tid action : Nat} {a : Answer}
    (h : classify d tid action = some a) :
    8 ≤ d.length ∧ u32At d 4 = tid ∧
      ((u32At d 0 = actionError ∧ a = .refusal (Utf8.decodeLossy (d.drop 8))) ∨
       (u32At d 0 ≠ actionError ∧ u32At d 0 = action ∧ a = .data d)) := by
  unfold classify at h
  dsimp only at h
  simp only [u32At, List.drop_zero]
  split_ifs at h with hlen htid herr hact <;> cases h
  · exact ⟨by omega, not_not.1 htid, .inl ⟨herr, rfl⟩⟩
  · exact ⟨by omega, not_not.1 htid, .inr ⟨herr, hact, rfl⟩⟩

/-- Cutting a datagram to eight bytes or more keeps whether, and as what, it answers, but for
the data, which is cut too. -/
theorem classify_take (d : Bytes) {n : Nat} (hn : 8 ≤ n) (tid action : Nat) :
    classify (d.take n) tid action =
      (classify d tid action).map fun
        | .data _ => .data (d.take n)
        | .refusal _ => .refusal (Utf8.decodeLossy ((d.take n).drop 8)) := by
  have h0 := @u32At_take d n 0 (by omega)
  have h4 := @u32At_take d n 4 (by omega)
  simp only [u32At, List.drop_zero] at h0 h4
  have hlen : (d.take n).length < 8 ↔ d.length < 8 := by simp; omega
  unfold classify
  simp only [hlen, h0, h4]
  split_ifs <;> rfl

end Tracker

end BitTorrent
