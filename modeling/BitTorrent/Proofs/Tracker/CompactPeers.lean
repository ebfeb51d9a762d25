import BitTorrent.Tracker.Packet
import BitTorrent.Tracker.Response
import BitTorrent.Proofs.Peer.MessageCodec
import Mathlib.Data.List.Basic

/-!
# Compact peer strings lose nothing

A tracker may list its peers as one byte string of fixed-size records: four address octets and a
big-endian port for an IPv4 peer, sixteen octets and a port for an IPv6 peer. Reading such a
string accepts it exactly when its length is a multiple of the record size, and then yields one
peer per record, none dropped, none with a peer id; the record reader may refuse a short
record, but every record it is given is whole. Written back record by record
(`PeerInfo.compactBytes`), the peers give the string byte for byte; and a list of peers of the
family is read back from its compact form. So reading and writing are inverse bijections between
the strings of whole records and the lists of peers of the family (`CompactList`).

Both readers are one construction (`compactWith`) over a reader of one record. What a record
reader must do is stated once (`RecordCodec`), and the IPv4 and IPv6 readers are instances of
it through the shape they share (`recordCodec_of_octets`).

## Main definitions

* `records`' lemmas: a byte string cut into records of `n` bytes.
* `Net.IpAddr.octets`, `PeerInfo.compactBytes`: a peer written as a compact record.
* `PeerInfo.CompactOf`: the peers a compact record can name.
* `RecordCodec`, `CompactList`.

## Main statements

* `flatten_records`, `records_flatMap`: cutting into records and joining them are inverse.
* `compactWith_eq_ok_iff`: a compact string reads as exactly the peers whose records it joins.
* `compact_peers_lossless`: the two compact readers lose nothing.
-/

namespace BitTorrent

namespace Net

/-- The octets of an address, in network order. -/
def IpAddr.octets : IpAddr → Bytes
  | .v4 o => o
  | .v6 o => o

end Net

namespace Tracker

open Net

/-! ## Section 1: Records of a byte string -/

section Records

variable {n : Nat}

theorem records_of_not {b : Bytes} (h : ¬(0 < n ∧ n ≤ b.length)) : records n b = [] := by
  rw [records, if_neg h]

theorem records_of_le {b : Bytes} (hn : 0 < n) (h : n ≤ b.length) :
    records n b = b.take n :: records n (b.drop n) := by
  rw [records, if_pos ⟨hn, h⟩]

/-- A record in front is cut off as it is. -/
theorem records_append {a b : Bytes} (hn : 0 < n) (ha : a.length = n) :
    records n (a ++ b) = a :: records n b := by
  rw [records_of_le hn (by simp [ha]), List.take_left' ha, List.drop_left' ha]

/-- A string of `len` bytes has `len / n` whole records; the short rest is dropped. -/
theorem length_records (b : Bytes) : (records n b).length = b.length / n := by
  fun_induction records n b with
  | case1 b h ih =>
    rw [List.length_cons, ih, List.length_drop, Nat.div_eq_sub_div h.1 h.2]
  | case2 b h =>
    rcases Nat.eq_zero_or_pos n with rfl | hn
    · simp
    · rw [Nat.div_eq_of_lt (by omega)]
      rfl

theorem length_of_mem_records {b r : Bytes} (h : r ∈ records n b) : r.length = n := by
  fun_induction records n b with
  | case1 b hb ih =>
    rcases List.mem_cons.1 h with rfl | h
    · simp only [List.length_take]
      omega
    · exact ih h
  | case2 b hb => simp at h

/-- A string of whole records is the records joined. -/
theorem flatten_records {b : Bytes} (h : b.length % n = 0) : (records n b).flatten = b := by
  fun_induction records n b with
  | case1 b hb ih =>
    -- the rest after one record is again whole records
    have hrest : (b.drop n).length % n = 0 := by
      rw [List.length_drop, Nat.sub_mod_eq_zero_of_mod_eq (by simpa using h)]
    rw [List.flatten_cons, ih hrest, List.take_append_drop]
  | case2 b hb =>
    rw [List.flatten_nil, eq_comm, List.eq_nil_iff_length_eq_zero]
    rcases Nat.eq_zero_or_pos n with rfl | hn
    · simpa using h
    · exact Nat.eq_zero_of_dvd_of_lt (Nat.dvd_of_mod_eq_zero h) (by omega)

/-- Joined records of `n` bytes are cut back into the same records. -/
theorem records_flatMap {α : Type} {f : α → Bytes} (hn : 0 < n) :
    ∀ {xs : List α}, (∀ x ∈ xs, (f x).length = n) → records n (xs.flatMap f) = xs.map f
  | [], _ => records_of_not fun h => by simp at h; omega
  | x :: xs, hf => by
    rw [List.flatMap_cons, records_append hn (hf x List.mem_cons_self),
      records_flatMap hn fun y hy => hf y (List.mem_cons_of_mem _ hy), List.map_cons]

end Records

/-! ## Section 2: Peers as compact records -/

/-- A peer written as a compact record: its address octets, then its port as a big-endian
16-bit number. -/
def PeerInfo.compactBytes (p : PeerInfo) : Bytes := p.ip.octets ++ Packet.u16 p.port.toNat

/-- The peers a compact record of `n` address octets names, `mk` making the address: no peer
id, and an address of `n` octets. -/
def PeerInfo.CompactOf (mk : Bytes → IpAddr) (n : Nat) (p : PeerInfo) : Prop :=
  p.peerId = none ∧ ∃ o, p.ip = mk o ∧ o.length = n

/-- `ofRecord` reads records of `k` bytes as exactly the peers of the family `Fam`: every record
is read, none dropped, as a peer of the family whose compact form is the record, and every peer
of the family is read back from its compact form. -/
structure RecordCodec (k : Nat) (ofRecord : Bytes → Option PeerInfo) (Fam : PeerInfo → Prop) :
    Prop where
  pos : 0 < k
  read : ∀ b, b.length = k → ∃ p, ofRecord b = some p ∧ Fam p ∧ p.compactBytes = b
  write : ∀ p, Fam p → p.compactBytes.length = k ∧ ofRecord p.compactBytes = some p

/-- The two compact readers have one shape: the first `n` bytes are the address, the next two
the port. Such a reader is a codec for the peers its records name. -/
theorem recordCodec_of_octets {n : Nat} {mk : Bytes → IpAddr} (hmk : ∀ o, (mk o).octets = o)
    {ofRecord : Bytes → Option PeerInfo}
    (hrec : ∀ b, ofRecord b = if n + 2 ≤ b.length then
      some ⟨none, mk (b.take n), (Bytes.toNatBE ((b.drop n).take 2)).toUInt16⟩ else none) :
    RecordCodec (n + 2) ofRecord (PeerInfo.CompactOf mk n) where
  pos := Nat.succ_pos _
  read b hb := by
    -- a record of the full length is always read
    refine ⟨_, by rw [hrec, if_pos hb.ge], ⟨rfl, b.take n, rfl, by simp; omega⟩, ?_⟩
    rw [PeerInfo.compactBytes, hmk, Packet.u16,
      Peer.Message.port_bytes (by simp; omega), List.take_append_drop]
  write p hp := by
    obtain ⟨hid, o, hip, ho⟩ := hp
    have hport : (Packet.u16 p.port.toNat).length = 2 := Bytes.length_ofNatBE 2 _
    have hval : (Bytes.toNatBE (Packet.u16 p.port.toNat)).toUInt16 = p.port := by
      have hlt : p.port.toNat < 256 ^ 2 := p.port.toNat_lt.trans_eq (by decide)
      rw [Packet.u16, Bytes.toNatBE_ofNatBE, Nat.mod_eq_of_lt hlt]
      exact UInt16.ofNat_toNat
    have hlen : p.compactBytes.length = n + 2 := by
      rw [PeerInfo.compactBytes, List.length_append, hip, hmk, ho, hport]
    refine ⟨hlen, ?_⟩
    rw [hrec, if_pos hlen.ge, PeerInfo.compactBytes, hip, hmk, List.take_left' ho,
      List.drop_left' ho, List.take_of_length_le (by omega), hval, ← hid, ← hip]

theorem recordCodec_v4 : RecordCodec 6 PeerInfo.ofCompactV4 (PeerInfo.CompactOf .v4 4) :=
  recordCodec_of_octets (fun _ => rfl) fun _ => rfl

theorem recordCodec_v6 : RecordCodec 18 PeerInfo.ofCompactV6 (PeerInfo.CompactOf .v6 16) :=
  recordCodec_of_octets (fun _ => rfl) fun _ => rfl

/-! ## Section 3: Compact strings -/

/-- What a compact string `data` of `k`-byte records lists: one peer per record, each of the
family `Fam`, whose compact forms, in order, are `data`. -/
structure CompactList (k : Nat) (Fam : PeerInfo → Prop) (data : Bytes) (ps : List PeerInfo) :
    Prop where
  length_eq : ps.length = data.length / k
  family : ∀ p ∈ ps, Fam p
  written : ps.flatMap PeerInfo.compactBytes = data

section Compact

variable {k : Nat} {ofRecord : Bytes → Option PeerInfo} {data : Bytes}

theorem compactWith_of_mod (h : data.length % k = 0) :
    compactWith k ofRecord data = .ok ((records k data).filterMap ofRecord) := by
  rw [compactWith, if_neg (not_not.2 h)]

/-- A compact string is read exactly when its length is a multiple of the record size. -/
theorem compactWith_ok_iff : (∃ ps, compactWith k ofRecord data = .ok ps) ↔ data.length % k = 0 := by
  unfold compactWith
  split_ifs with h
  · simp [h]
  · simpa using h

variable {Fam : PeerInfo → Prop}

/-- Records of the codec's length, read and written back, give the records. The induction is
on the records; none is dropped, so each gives its peer. -/
theorem flatMap_compactBytes_filterMap (hc : RecordCodec k ofRecord Fam) :
    ∀ {rs : List Bytes}, (∀ r ∈ rs, r.length = k) →
      (rs.filterMap ofRecord).flatMap PeerInfo.compactBytes = rs.flatten
  | [], _ => rfl
  | r :: rs, hlen => by
    obtain ⟨p, hp, -, hbytes⟩ := hc.read r (hlen r List.mem_cons_self)
    rw [List.filterMap_cons_some hp, List.flatMap_cons, hbytes, List.flatten_cons,
      flatMap_compactBytes_filterMap hc fun r' hr' => hlen r' (List.mem_cons_of_mem _ hr')]

/-- Read records, written back, give the records. -/
theorem flatMap_compactBytes_records (hc : RecordCodec k ofRecord Fam) (h : data.length % k = 0) :
    ((records k data).filterMap ofRecord).flatMap PeerInfo.compactBytes = data := by
  rw [flatMap_compactBytes_filterMap hc fun r hr => length_of_mem_records hr]
  exact flatten_records h

/-- A compact string reads as exactly the peers of the family whose compact forms it joins. -/
theorem compactWith_eq_ok_iff (hc : RecordCodec k ofRecord Fam) {ps : List PeerInfo} :
    compactWith k ofRecord data = .ok ps ↔ CompactList k Fam data ps := by
  constructor
  · intro h
    have hmod : data.length % k = 0 := compactWith_ok_iff.1 ⟨ps, h⟩
    rw [compactWith_of_mod hmod, Except.ok.injEq] at h
    subst h
    -- every record is read, so there is one peer per record
    have hsome : ∀ r ∈ records k data, (ofRecord r).isSome := fun r hr => by
      obtain ⟨p, hp, -⟩ := hc.read r (length_of_mem_records hr)
      simp [hp]
    refine ⟨by rw [List.filterMap_length_eq_length.2 hsome, length_records], fun p hp => ?_,
      flatMap_compactBytes_records hc hmod⟩
    obtain ⟨r, hr, hrp⟩ := List.mem_filterMap.1 hp
    obtain ⟨q, hq, hfam, -⟩ := hc.read r (length_of_mem_records hr)
    rw [hq, Option.some.injEq] at hrp
    exact hrp ▸ hfam
  · rintro ⟨-, hfam, rfl⟩
    -- each peer's record is `k` bytes, so the joined records are cut where they were joined
    have hlen : ∀ p ∈ ps, p.compactBytes.length = k := fun p hp => (hc.write p (hfam p hp)).1
    have hmod : (ps.flatMap PeerInfo.compactBytes).length % k = 0 := by
      rw [List.length_flatMap, List.map_congr_left hlen, List.map_const', List.sum_replicate_nat]
      exact Nat.mul_mod_left _ _
    rw [compactWith_of_mod hmod, records_flatMap hc.pos hlen, List.filterMap_map]
    congr 1
    exact (List.filterMap_congr fun p hp => (hc.write p (hfam p hp)).2).trans
      List.filterMap_some

end Compact

/-- Compact peer strings decode without loss: the IPv4 reader accepts exactly the strings of
whole 6-byte records, the IPv6 reader those of whole 18-byte records, and each reads a string
as exactly the list of peers, one per record, with no peer id and an address of the family,
whose compact forms, written back in order, are the string. -/
theorem compact_peers_lossless (data : Bytes) (ps : List PeerInfo) :
    ((∃ qs, compactPeers data = .ok qs) ↔ data.length % 6 = 0) ∧
    ((∃ qs, compactPeers6 data = .ok qs) ↔ data.length % 18 = 0) ∧
    (compactPeers data = .ok ps ↔ CompactList 6 (PeerInfo.CompactOf .v4 4) data ps) ∧
    (compactPeers6 data = .ok ps ↔ CompactList 18 (PeerInfo.CompactOf .v6 16) data ps) :=
  ⟨compactWith_ok_iff, compactWith_ok_iff, compactWith_eq_ok_iff recordCodec_v4,
    compactWith_eq_ok_iff recordCodec_v6⟩

end Tracker

end BitTorrent
