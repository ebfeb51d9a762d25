import BitTorrent.Proofs.Tracker.Refusals

/-!
# The layout of UDP tracker requests

BEP 15 lays a request out as a run of big-endian fields, read by the tracker in order with a
`PacketReader`. Every request starts with a 64-bit connection id, a 32-bit action and a 32-bit
transaction id. A connect request is that header alone, with the protocol's magic number in
place of a connection id. A scrape adds the 20-byte info hashes in the order asked. An announce
adds the info hash, the peer id, the downloaded, left and uploaded counts (64 bits each), the
event code, the IPv4 address and the key (32 bits each), `numwant` as a signed 32-bit number and
the port (16 bits): 98 bytes in all.

Read back field by field, each request gives exactly the values the client put in, with nothing
left over, once every value fits its field: the sizes the request type gives its fields
(`Request.Fits`), ids of 64 and 32 bits, and the client's own conversions, which always fit.
For an announce these are stated on the request itself (`AnnounceFor`): the event by its code,
the ip by its four octets, the key as `parseKey` reads it or the drawn id, and `numwant` capped
at the largest signed 32-bit number or -1.

## Main definitions

* `readHeader`, `readAnnounce`, `readScrape`: a tracker's reading of requests.
* `Request.Fits`, `AnnounceFor`.

## Main statements

* `readHeader_header`: the header reads back.
* `readAnnounce_announcePacket`, `readScrape_scrapePacket`: the requests read back.
* `announce_fields`: what the announce call puts in its fields.
* `udp_request_layout`: the three requests have the layout of BEP 15.
-/

namespace BitTorrent.Tracker

/-! ## Section 1: Reading fields -/

/-- A 32-bit field read as a signed number in two's complement. -/
def signed32 (v : Nat) : Int := if v < 2 ^ 31 then v else v - 2 ^ 32

theorem readBytes_append {b : Bytes} {n : Nat} (h : b.length = n) (rest : Bytes) :
    PacketReader.readBytes ⟨b ++ rest⟩ n = .ok (b, ⟨rest⟩) := by
  have hneed : PacketReader.need ⟨b ++ rest⟩ n = .ok () := by
    simp [PacketReader.need, h]
  simp only [PacketReader.readBytes, hneed, List.take_left' h, List.drop_left' h]
  rfl

/-- A field of `w` bytes reads back its number modulo `256 ^ w`. -/
theorem readNat_ofNatBE (w x : Nat) (rest : Bytes) :
    PacketReader.readNat ⟨Bytes.ofNatBE w x ++ rest⟩ w = .ok (x % 256 ^ w, ⟨rest⟩) := by
  simp only [PacketReader.readNat, readBytes_append (Bytes.length_ofNatBE w x), Except.ok_bind,
    Bytes.toNatBE_ofNatBE]
  rfl

/-- The last field of a packet reads back with nothing left. -/
theorem readNat_ofNatBE_last (w x : Nat) :
    PacketReader.readNat ⟨Bytes.ofNatBE w x⟩ w = .ok (x % 256 ^ w, ⟨[]⟩) := by
  simpa using readNat_ofNatBE w x []

/-- A signed field reads back every number of the signed 32-bit range. -/
theorem signed32_i32 {n : Int} (h₁ : -2 ^ 31 ≤ n) (h₂ : n < 2 ^ 31) :
    signed32 ((n % Int.ofNat (Nat.pow 2 32)).toNat % 256 ^ 4) = n := by
  have hpow : Int.ofNat (Nat.pow 2 32) = 2 ^ 32 := rfl
  rw [hpow, signed32]
  split_ifs <;> omega

/-! ## Section 2: A tracker's reading of requests -/

/-- The header of every request: connection id, action and transaction id. -/
def readHeader (r : PacketReader) : Except TrackerError ((Nat × Nat × Nat) × PacketReader) := do
  let (connectionId, r) ← r.readNat 8
  let (action, r) ← r.readNat 4
  let (transactionId, r) ← r.readNat 4
  return ((connectionId, action, transactionId), r)

/-- An announce request as a tracker reads it. -/
structure AnnounceRequest where
  connectionId : Nat
  action : Nat
  transactionId : Nat
  infoHash : Bytes
  peerId : Bytes
  downloaded : Nat
  left : Nat
  uploaded : Nat
  event : Nat
  ip : Nat
  key : Nat
  numWant : Int
  port : Nat
deriving DecidableEq, Repr

/-- Reads an announce request in the order of BEP 15: after the header, 20 bytes, 20 bytes,
three 64-bit counts, three 32-bit fields, a signed 32-bit field and a 16-bit field. -/
def readAnnounce (p : Bytes) : Except TrackerError (AnnounceRequest × PacketReader) := do
  let ((connectionId, action, transactionId), r) ← readHeader ⟨p⟩
  let (infoHash, r) ← r.readBytes 20
  let (peerId, r) ← r.readBytes 20
  let (downloaded, r) ← r.readNat 8
  let (left, r) ← r.readNat 8
  let (uploaded, r) ← r.readNat 8
  let (event, r) ← r.readNat 4
  let (ip, r) ← r.readNat 4
  let (key, r) ← r.readNat 4
  let (numWant, r) ← r.readNat 4
  let (port, r) ← r.readNat 2
  return ({ connectionId, action, transactionId, infoHash, peerId, downloaded, left, uploaded,
            event, ip, key, numWant := signed32 numWant, port }, r)

/-- Reads `n` info hashes of 20 bytes each. -/
def readHashes : Nat → PacketReader → Except TrackerError (List Bytes × PacketReader)
  | 0, r => pure ([], r)
  | n + 1, r => do
    let (h, r) ← r.readBytes 20
    let (hs, r) ← readHashes n r
    return (h :: hs, r)

/-- Reads a scrape request for `n` info hashes: the header, then the hashes. -/
def readScrape (n : Nat) (p : Bytes) :
    Except TrackerError (((Nat × Nat × Nat) × List Bytes) × PacketReader) := do
  let (header, r) ← readHeader ⟨p⟩
  let (hashes, r) ← readHashes n r
  return ((header, hashes), r)

/-- A header written reads back, each field modulo its width. -/
theorem readHeader_header (cid action tid : Nat) (rest : Bytes) :
    readHeader ⟨Packet.u64 cid ++ Packet.u32 action ++ Packet.u32 tid ++ rest⟩ =
      .ok ((cid % 256 ^ 8, action % 256 ^ 4, tid % 256 ^ 4), ⟨rest⟩) := by
  simp only [readHeader, Packet.u64, Packet.u32, List.append_assoc, readNat_ofNatBE,
    Except.ok_bind]
  rfl

theorem readHashes_flatten : ∀ {hs : List Bytes}, (∀ h ∈ hs, h.length = 20) → ∀ rest : Bytes,
    readHashes hs.length ⟨hs.flatten ++ rest⟩ = .ok (hs, ⟨rest⟩)
  | [], _, rest => rfl
  | h :: hs, hlen, rest => by
    rw [List.length_cons, readHashes, List.flatten_cons, List.append_assoc,
      readBytes_append (hlen h List.mem_cons_self), Except.ok_bind]
    dsimp only
    rw [readHashes_flatten (fun h' hh' => hlen h' (List.mem_cons_of_mem _ hh')), Except.ok_bind]
    rfl

/-! ## Section 3: The requests read back -/

/-- An announce with a 20-byte info hash and peer id reads back its fields, each modulo its
width, with nothing left over. -/
theorem readAnnounce_announcePacket (cid tid : Nat) (r : Request) (f : AnnounceFields)
    (hh : r.infoHash.length = 20) (hp : r.peerId.length = 20) :
    readAnnounce (announcePacket cid tid r f) = .ok
      ({ connectionId := cid % 256 ^ 8, action := actionAnnounce, transactionId := tid % 256 ^ 4,
         infoHash := r.infoHash, peerId := r.peerId, downloaded := r.downloaded % 256 ^ 8,
         left := r.left % 256 ^ 8, uploaded := r.uploaded % 256 ^ 8,
         event := (r.event.map Event.code).getD 0 % 256 ^ 4, ip := f.ip % 256 ^ 4,
         key := f.key % 256 ^ 4,
         numWant := signed32 ((f.numWant % Int.ofNat (Nat.pow 2 32)).toNat % 256 ^ 4),
         port := r.port % 256 ^ 2 }, ⟨[]⟩) := by
  have hpacket : announcePacket cid tid r f = Packet.u64 cid ++ Packet.u32 actionAnnounce ++
      Packet.u32 tid ++ (r.infoHash ++ (r.peerId ++ (Packet.u64 r.downloaded ++
      (Packet.u64 r.left ++ (Packet.u64 r.uploaded ++ (Packet.u32 ((r.event.map Event.code).getD 0) ++
      (Packet.u32 f.ip ++ (Packet.u32 f.key ++ (Packet.i32 f.numWant ++ Packet.u16 r.port))))))))) := by
    simp only [announcePacket, List.append_assoc]
  rw [readAnnounce, hpacket, readHeader_header, Except.ok_bind]
  simp only [Packet.u64, Packet.u32, Packet.i32, Packet.u16, readBytes_append hh,
    readBytes_append hp, readNat_ofNatBE, readNat_ofNatBE_last, Except.ok_bind]
  rfl

theorem announcePacket_length (cid tid : Nat) (r : Request) (f : AnnounceFields)
    (hh : r.infoHash.length = 20) (hp : r.peerId.length = 20) :
    (announcePacket cid tid r f).length = 98 := by
  simp [announcePacket, Packet.u64, Packet.u32, Packet.i32, Packet.u16, Bytes.length_ofNatBE, hh, hp]

/-- A scrape reads back its header and its 20-byte hashes, with nothing left over. -/
theorem readScrape_scrapePacket (cid tid : Nat) {hashes : List Bytes}
    (hlen : ∀ h ∈ hashes, h.length = 20) :
    readScrape hashes.length (scrapePacket cid tid hashes) =
      .ok (((cid % 256 ^ 8, actionScrape, tid % 256 ^ 4), hashes), ⟨[]⟩) := by
  have hpacket : scrapePacket cid tid hashes =
      Packet.u64 cid ++ Packet.u32 actionScrape ++ Packet.u32 tid ++ (hashes.flatten ++ []) := by
    rw [List.append_nil, scrapePacket]
  rw [readScrape, hpacket, readHeader_header, Except.ok_bind]
  dsimp only
  rw [readHashes_flatten hlen, Except.ok_bind]
  rfl

theorem scrapePacket_length (cid tid : Nat) {hashes : List Bytes}
    (hlen : ∀ h ∈ hashes, h.length = 20) :
    (scrapePacket cid tid hashes).length = 16 + 20 * hashes.length := by
  have hflat : hashes.flatten.length = 20 * hashes.length := by
    rw [List.length_flatten, List.map_congr_left hlen, List.map_const', List.sum_replicate_nat,
      Nat.mul_comm]
  simp only [scrapePacket, List.length_append, u64_length, u32_length, hflat]

/-! ## Section 4: What the announce call puts in its fields -/

/-- A request whose fields have the sizes the request type gives them: a 20-byte info hash and
peer id, a 16-bit port and 64-bit counts. -/
structure Request.Fits (r : Request) : Prop where
  infoHash_length : r.infoHash.length = 20
  peerId_length : r.peerId.length = 20
  port_lt : r.port < 2 ^ 16
  downloaded_lt : r.downloaded < 2 ^ 64
  left_lt : r.left < 2 ^ 64
  uploaded_lt : r.uploaded < 2 ^ 64

/-- What an announce request for `r` under connection id `cid` and transaction id `tid` carries,
as BEP 15 lays it down; `drawn` is the id drawn as the key of a request that has none. -/
structure AnnounceFor (r : Request) (cid tid drawn : Nat) (f : AnnounceRequest) : Prop where
  connectionId : f.connectionId = cid
  action : f.action = 1
  transactionId : f.transactionId = tid
  infoHash : f.infoHash = r.infoHash
  peerId : f.peerId = r.peerId
  downloaded : f.downloaded = r.downloaded
  left : f.left = r.left
  uploaded : f.uploaded = r.uploaded
  /-- 0 for no event, then 1 for completed, 2 for started and 3 for stopped. -/
  event : f.event = match r.event with
    | none => 0
    | some .completed => 1
    | some .started => 2
    | some .stopped => 3
  /-- The four octets of the IPv4 literal as one big-endian number; 0 when unset. -/
  ip : (r.ip = none ∧ f.ip = 0) ∨
    ∃ s o, r.ip = some s ∧ Net.IpAddr.parseV4? s = some o ∧ o.length = 4 ∧ f.ip = Bytes.toNatBE o
  /-- The key as `parseKey` reads it; the drawn id when unset. -/
  key : (r.key = none ∧ f.key = drawn) ∨ ∃ k, r.key = some k ∧ parseKey k = .ok f.key
  /-- Capped at the largest signed 32-bit number; -1 when unset. -/
  numWant : f.numWant = match r.numwant with
    | none => -1
    | some n => min (n : Int) (2 ^ 31 - 1)
  port : f.port = r.port

theorem parseUnsigned_le {radix bound v : Nat} {s : String}
    (h : Text.parseUnsigned? radix bound s = some v) : v ≤ bound := by
  unfold Text.parseUnsigned? at h
  -- whichever sign was dropped, the value passed the bound
  split at h <;>
  · dsimp only at h
    split at h
    · split_ifs at h with hw
      cases h
      exact hw
    · cases h

/-- A key reads as a 32-bit number. -/
theorem parseKey_lt {k : String} {v : Nat} (h : parseKey k = .ok v) : v < 2 ^ 32 := by
  unfold parseKey at h
  split at h
  · cases h
    exact Nat.lt_of_le_of_lt (parseUnsigned_le ‹_›) (by decide)
  · split at h
    · cases h
      exact Nat.lt_of_le_of_lt (parseUnsigned_le ‹_›) (by decide)
    · cases h

/-- An IPv4 literal has four octets. -/
theorem parseV4_length {s : String} {o : Bytes} (h : Net.IpAddr.parseV4? s = some o) :
    o.length = 4 := by
  unfold Net.IpAddr.parseV4? at h
  split at h
  · rename_i o' hread
    cases h
    unfold Net.readV4 at hread
    simp only [Option.bind_eq_bind, Option.bind_eq_some_iff] at hread
    obtain ⟨⟨a, s1⟩, -, ⟨b, s2⟩, -, ⟨c, s3⟩, -, ⟨d, s4⟩, -, hpure⟩ := hread
    simp only [Option.pure_def, Option.some.injEq, Prod.mk.injEq] at hpure
    rw [← hpure.1]
    rfl
  · cases h

/-- What the checks of an announce give for its ip and key fields. -/
theorem announceChecks_fields {r : Request} {target : String × Nat} {ip : Nat}
    {key? : Option Nat} (h : announceChecks r = .ok (target, ip, key?)) :
    ((r.ip = none ∧ ip = 0) ∨
      ∃ s o, r.ip = some s ∧ Net.IpAddr.parseV4? s = some o ∧ o.length = 4 ∧
        ip = Bytes.toNatBE o) ∧
    ((r.key = none ∧ key? = none) ∨ ∃ k v, r.key = some k ∧ parseKey k = .ok v ∧ key? = some v) := by
  unfold announceChecks at h
  rcases hurl : parseUdpUrl r.announce with e | t
  · simp [hurl] at h
  · rcases hip : r.ip with _ | s <;> rcases hkey : r.key with _ | k
    all_goals simp only [hurl, hip, hkey, Except.ok_bind] at h
    · cases h
      exact ⟨.inl ⟨rfl, rfl⟩, .inl ⟨rfl, rfl⟩⟩
    · rcases hk : parseKey k with e | v <;> simp only [hk] at h <;> cases h
      exact ⟨.inl ⟨rfl, rfl⟩, .inr ⟨k, v, rfl, hk, rfl⟩⟩
    · rcases hv4 : Net.IpAddr.parseV4? s with _ | o <;> simp only [hv4] at h <;> cases h
      exact ⟨.inr ⟨s, o, rfl, hv4, parseV4_length hv4, rfl⟩, .inl ⟨rfl, rfl⟩⟩
    · rcases hv4 : Net.IpAddr.parseV4? s with _ | o <;> simp only [hv4] at h
      · cases h
      · rcases hk : parseKey k with e | v <;> simp only [hk] at h <;> cases h
        exact ⟨.inr ⟨s, o, rfl, hv4, parseV4_length hv4, rfl⟩, .inr ⟨k, v, rfl, hk, rfl⟩⟩

/-- The largest signed 32-bit number, where `numwant` is capped. -/
theorem numWantCap_eq : ((numWantCap : Nat) : Int) = 2 ^ 31 - 1 := by decide

/-- The announce call sends, for a request that passes its checks, what BEP 15 asks: it is a
request to the checked tracker whose datagram, under every connection id and transaction id
that fit their fields, is 98 bytes and reads back as `AnnounceFor` says. -/
theorem announce_fields {r : Request} (hr : r.Fits) (w : World)
    {host : String} {port ip : Nat} {key? : Option Nat}
    (h : announceChecks r = .ok ((host, port), ip, key?)) :
    ∃ packet w₀, (announce r).run w =
        (request host port packet actionAnnounce announceReply).run w₀ ∧
      ∀ cid tid, cid < 2 ^ 64 → tid < 2 ^ 32 → (packet cid tid).length = 98 ∧
        ∃ f, readAnnounce (packet cid tid) = .ok (f, ⟨[]⟩) ∧ AnnounceFor r cid tid w.nextId f := by
  have hrun := announce_run r w
  rw [h] at hrun
  refine ⟨_, _, hrun, fun cid tid hcid htid => ⟨announcePacket_length _ _ _ _ hr.infoHash_length
    hr.peerId_length, _, readAnnounce_announcePacket _ _ _ _ hr.infoHash_length hr.peerId_length,
    ?_⟩⟩
  obtain ⟨hip, hkey⟩ := announceChecks_fields h
  -- every value fits its field, so each reads back as written
  have h8 : ∀ x, x < 2 ^ 64 → x % 256 ^ 8 = x := fun x hx => Nat.mod_eq_of_lt (by simpa using hx)
  have h4 : ∀ x, x < 2 ^ 32 → x % 256 ^ 4 = x := fun x hx => Nat.mod_eq_of_lt (by simpa using hx)
  refine ⟨h8 cid hcid, rfl, h4 tid htid, rfl, rfl, h8 _ hr.downloaded_lt, h8 _ hr.left_lt,
    h8 _ hr.uploaded_lt, ?event, ?ip, ?key, ?numWant, Nat.mod_eq_of_lt (by simpa using hr.port_lt)⟩
  case event =>
    rcases r.event with _ | _ | _ | _ <;> rfl
  case ip =>
    rcases hip with ⟨hnone, rfl⟩ | ⟨s, o, hs, ho, hlen, rfl⟩
    · exact .inl ⟨hnone, rfl⟩
    · refine .inr ⟨s, o, hs, ho, hlen, h4 _ ?_⟩
      simpa [hlen] using Bytes.toNatBE_lt o
  case key =>
    rcases hkey with ⟨hnone, rfl⟩ | ⟨k, v, hk, hv, rfl⟩
    · exact .inl ⟨hnone, h4 _ w.nextId_lt⟩
    · exact .inr ⟨k, hk, by rw [Option.getD_some, h4 _ (parseKey_lt hv)]; exact hv⟩
  case numWant =>
    rcases r.numwant with _ | n <;> dsimp only
    · refine signed32_i32 ?_ ?_ <;> decide
    · rw [numWantCap_eq]
      exact signed32_i32 (by omega) (by omega)

/-! ## Section 5: The three requests -/

/-- The scrape call sends, for 20-byte hashes that pass its checks, a request to the checked
tracker whose datagram is the header and the hashes in the order given. -/
theorem scrape_fields {url : String} {hashes : List Bytes} {host : String} {port : Nat}
    (h : scrapeChecks url hashes = .ok (host, port)) (hlen : ∀ h ∈ hashes, h.length = 20)
    (w : World) :
    ∃ packet, (scrape url hashes).run w =
        (request host port packet actionScrape (scrapeReply · hashes)).run w ∧
      ∀ cid tid, cid < 2 ^ 64 → tid < 2 ^ 32 →
        (packet cid tid).length = 16 + 20 * hashes.length ∧
        readScrape hashes.length (packet cid tid) = .ok (((cid, 2, tid), hashes), ⟨[]⟩) := by
  have hrun := scrape_run url hashes w
  rw [h] at hrun
  refine ⟨_, hrun, fun cid tid hcid htid => ⟨scrapePacket_length cid tid hlen, ?_⟩⟩
  have h8 : cid % 256 ^ 8 = cid := Nat.mod_eq_of_lt (by simpa using hcid)
  have h4 : tid % 256 ^ 4 = tid := Nat.mod_eq_of_lt (by simpa using htid)
  rw [readScrape_scrapePacket cid tid hlen, h8, h4]
  rfl

/-- A connect request is 16 bytes: the protocol's magic number, action 0 and the transaction
id. -/
theorem connectPacket_layout {tid : Nat} (htid : tid < 2 ^ 32) :
    (connectPacket tid).length = 16 ∧
      readHeader ⟨connectPacket tid⟩ = .ok ((0x41727101980, 0, tid), ⟨[]⟩) := by
  have hpacket : connectPacket tid =
      Packet.u64 protocolId ++ Packet.u32 actionConnect ++ Packet.u32 tid ++ [] :=
    (List.append_nil _).symm
  have h4 : tid % 256 ^ 4 = tid := Nat.mod_eq_of_lt (by simpa using htid)
  refine ⟨by simp [connectPacket, u64_length, u32_length], ?_⟩
  rw [hpacket, readHeader_header, h4]
  rfl

/-- UDP tracker requests have the layout of BEP 15. For a request that passes the announce checks
and whose fields have the sizes of its type, the announce call is a request to the checked
tracker whose datagram, under every 64-bit connection id and 32-bit transaction id, is 98 bytes
and reads back field by field, with nothing left over, as `AnnounceFor` says. For 20-byte hashes
that pass the scrape checks, the scrape call's datagram is 16 bytes and 20 per hash, and reads
back as the connection id, action 2, the transaction id and the hashes in the order given. Every
connect request is 16 bytes: the magic number `0x41727101980`, action 0 and the transaction id. -/
theorem udp_request_layout :
    (∀ (r : Request) (w : World) (host : String) (port ip : Nat) (key? : Option Nat),
      r.Fits → announceChecks r = .ok ((host, port), ip, key?) →
      ∃ packet w₀, (announce r).run w =
          (request host port packet actionAnnounce announceReply).run w₀ ∧
        ∀ cid tid, cid < 2 ^ 64 → tid < 2 ^ 32 → (packet cid tid).length = 98 ∧
          ∃ f, readAnnounce (packet cid tid) = .ok (f, ⟨[]⟩) ∧ AnnounceFor r cid tid w.nextId f) ∧
    (∀ (url : String) (hashes : List Bytes) (host : String) (port : Nat) (w : World),
      scrapeChecks url hashes = .ok (host, port) → (∀ h ∈ hashes, h.length = 20) →
      ∃ packet, (scrape url hashes).run w =
          (request host port packet actionScrape (scrapeReply · hashes)).run w ∧
        ∀ cid tid, cid < 2 ^ 64 → tid < 2 ^ 32 →
          (packet cid tid).length = 16 + 20 * hashes.length ∧
          readScrape hashes.length (packet cid tid) = .ok (((cid, 2, tid), hashes), ⟨[]⟩)) ∧
    (∀ tid, tid < 2 ^ 32 → (connectPacket tid).length = 16 ∧
      readHeader ⟨connectPacket tid⟩ = .ok ((0x41727101980, 0, tid), ⟨[]⟩)) :=
  ⟨fun _ w _ _ _ _ hr h => announce_fields hr w h,
    fun _ _ _ _ w h hlen => scrape_fields h hlen w,
    fun _ htid => connectPacket_layout htid⟩

/-- An announce to `udp://tracker.example:6969` with key `0x1f`, numwant 50 and no ip, made by a
fresh client, sends a 98-byte datagram under any ids; a scrape of one hash sends 36 bytes; a
connect request is 16 bytes. -/
theorem udp_request_layout_example :
    Request.Fits { announce := "udp://tracker.example:6969", infoHash := List.replicate 20 1,
                   peerId := List.replicate 20 2, port := 6881, key := some "0x1f",
                   numwant := some 50 } ∧
    announceChecks { announce := "udp://tracker.example:6969", infoHash := List.replicate 20 1,
                     peerId := List.replicate 20 2, port := 6881, key := some "0x1f",
                     numwant := some 50 } = .ok (("tracker.example", 6969), 0, some 31) ∧
    scrapeChecks "udp://tracker.example:6969" [List.replicate 20 7] = .ok ("tracker.example", 6969) ∧
    (∃ packet w₀, (announce { announce := "udp://tracker.example:6969",
                              infoHash := List.replicate 20 1, peerId := List.replicate 20 2,
                              port := 6881, key := some "0x1f", numwant := some 50 }).run {} =
        (request "tracker.example" 6969 packet actionAnnounce announceReply).run w₀ ∧
      (packet 77 5).length = 98) ∧
    (∃ packet, (scrape "udp://tracker.example:6969" [List.replicate 20 7]).run {} =
        (request "tracker.example" 6969 packet actionScrape
          (scrapeReply · [List.replicate 20 7])).run {} ∧
      (packet 77 5).length = 36) ∧
    (connectPacket 5).length = 16 := by
  have hfits : Request.Fits
      { announce := "udp://tracker.example:6969", infoHash := List.replicate 20 1,
        peerId := List.replicate 20 2, port := 6881, key := some "0x1f", numwant := some 50 } :=
    ⟨rfl, rfl, by decide, by decide, by decide, by decide⟩
  have hchecks : announceChecks
      { announce := "udp://tracker.example:6969", infoHash := List.replicate 20 1,
        peerId := List.replicate 20 2, port := 6881, key := some "0x1f", numwant := some 50 } =
      .ok (("tracker.example", 6969), 0, some 31) := by
    decide +kernel
  have hscrape : scrapeChecks "udp://tracker.example:6969" [List.replicate 20 7] =
      .ok ("tracker.example", 6969) := by
    decide +kernel
  have hhash : ∀ h ∈ [List.replicate 20 (7 : UInt8)], h.length = 20 := by simp
  obtain ⟨hannounce, hscrapes, hconnect⟩ := udp_request_layout
  obtain ⟨p, w₀, hrun, hp⟩ := hannounce _ {} _ _ _ _ hfits hchecks
  obtain ⟨q, hrun', hq⟩ := hscrapes _ _ _ _ {} hscrape hhash
  exact ⟨hfits, hchecks, hscrape, ⟨p, w₀, hrun, (hp 77 5 (by decide) (by decide)).1⟩,
    ⟨q, hrun', (hq 77 5 (by decide) (by decide)).1⟩, (hconnect 5 (by decide)).1⟩

end BitTorrent.Tracker
