import BitTorrent.Net.Address
import BitTorrent.Text.Numeral
import BitTorrent.Tracker.Packet
import BitTorrent.Tracker.Request
import BitTorrent.Tracker.Response

/-!
# The UDP tracker protocol (BEP 15)

Every datagram starts with a 32-bit action and a 32-bit transaction id. A client first
connects (action 0) with the protocol's magic number and gets a 64-bit connection id, then
sends announces (action 1, 98 bytes) and scrapes (action 2, 16 bytes and 20 per info hash)
under that id. A reply counts only if it carries the transaction id of the request waited on
and that request's action, or action 3, which carries the tracker's refusal as text.

## Main definitions

* `parseUdpUrl`, `parseKey`: the tracker's host and port, and the announce key.
* `connectPacket`, `announcePacket`, `scrapePacket`.
* `classify`: whether a datagram answers a request.
* `announceReply`, `scrapeReply`: the contents of an answer, read field by field with a
  `PacketReader` (`announceFields`, `scrapeRecordFields`, `scrapeFileStep`).
-/

namespace BitTorrent

namespace Tracker

/-- The magic number of a connect request. -/
def protocolId : Nat := 0x41727101980

/-- The action of a connect exchange. -/
def actionConnect : Nat := 0
/-- The action of an announce exchange. -/
def actionAnnounce : Nat := 1
/-- The action of a scrape exchange. -/
def actionScrape : Nat := 2
/-- The action of a refusal. -/
def actionError : Nat := 3

/-- The most info hashes one scrape request may carry. -/
def maxScrapeHashes : Nat := 74

/-- The host and port of `udp://host:port[/path]`; a host in brackets loses them. The
authority ends at the first `/` or `?`, and the port follows its last `:`. -/
def parseUdpUrl (url : String) : Except TrackerError (String × Nat) :=
  let cs := url.toList
  let pre := "udp://".toList
  if !pre.isPrefixOf cs then .error (.invalidUrl url)
  else
    let authority := (cs.drop pre.length).takeWhile fun c => c ≠ '/' ∧ c ≠ '?'
    if !authority.contains ':' then .error (.invalidUrl url)
    else
      -- the port follows the last colon, so an unbracketed IPv6 host keeps its colons
      let portText := authority.reverse.takeWhile (· ≠ ':') |>.reverse
      let hostText := authority.take (authority.length - portText.length - 1)
      match Text.parseUnsigned? 10 0xFFFF (String.ofList portText) with
      | none => .error (.invalidUrl url)
      | some port =>
        let host := match hostText with
          | '[' :: rest => if rest.getLast? = some ']' then rest.dropLast else hostText
          | _ => hostText
        if host.isEmpty then .error (.invalidUrl url) else .ok (String.ofList host, port)

/-- Drops every leading `0x`. -/
def dropHexPrefixes : List Char → List Char
  | '0' :: 'x' :: rest => dropHexPrefixes rest
  | cs => cs

/-- An announce key: a 32-bit decimal number, else a 32-bit hex number after any leading
`0x`s. -/
def parseKey (key : String) : Except TrackerError Nat :=
  match Text.parseUnsigned? 10 0xFFFFFFFF key with
  | some v => .ok v
  | none =>
    match Text.parseUnsigned? 16 0xFFFFFFFF (String.ofList (dropHexPrefixes key.toList)) with
    | some v => .ok v
    | none => .error (.invalidRequest ("key is not a 32-bit number: " ++ key))

/-- A connect request. -/
def connectPacket (tid : Nat) : Bytes :=
  Packet.u64 protocolId ++ Packet.u32 actionConnect ++ Packet.u32 tid

/-- The fields of an announce that come from the request and the client. -/
structure AnnounceFields where
  ip : Nat
  key : Nat
  numWant : Int

/-- An announce request under a connection id. -/
def announcePacket (connectionId tid : Nat) (r : Request) (f : AnnounceFields) : Bytes :=
  Packet.u64 connectionId ++ Packet.u32 actionAnnounce ++ Packet.u32 tid ++
  r.infoHash ++ r.peerId ++ Packet.u64 r.downloaded ++ Packet.u64 r.left ++
  Packet.u64 r.uploaded ++ Packet.u32 ((r.event.map Event.code).getD 0) ++
  Packet.u32 f.ip ++ Packet.u32 f.key ++ Packet.i32 f.numWant ++ Packet.u16 r.port

/-- A scrape request under a connection id. -/
def scrapePacket (connectionId tid : Nat) (hashes : List Bytes) : Bytes :=
  Packet.u64 connectionId ++ Packet.u32 actionScrape ++ Packet.u32 tid ++ hashes.flatten

/-- What a matching datagram says. -/
inductive Answer where
  /-- The whole datagram, whose action is the request's. -/
  | data (datagram : Bytes)
  /-- A refusal, its text read lossily as UTF-8. -/
  | refusal (message : String)
deriving DecidableEq, Repr

/-- Matches a datagram against the request waited on: anything shorter than 8 bytes, with
another transaction id, or with an action other than the request's and 3 is not an answer. -/
def classify (datagram : Bytes) (tid action : Nat) : Option Answer :=
  if datagram.length < 8 then none
  else
    let got := Bytes.toNatBE (datagram.take 4)
    let gotTid := Bytes.toNatBE ((datagram.drop 4).take 4)
    -- the id decides first: an error answer counts only for the request it names
    if gotTid ≠ tid then none
    else if got = actionError then some (.refusal (Utf8.decodeLossy (datagram.drop 8)))
    else if got = action then some (.data datagram)
    else none

/-- A 32-bit field at a position of a datagram. -/
def u32At (d : Bytes) (pos : Nat) : Nat := Bytes.toNatBE ((d.drop pos).take 4)

/-- The counts of an announce answer after its 8-byte header, read in turn: interval, leechers
and seeders; everything after them is taken as peer records. -/
def announceFields : PacketReader.Method (Nat × Nat × Nat × Bytes) := do
  let interval ← PacketReader.readUInt 4
  let leechers ← PacketReader.readUInt 4
  let seeders ← PacketReader.readUInt 4
  let recs ← PacketReader.takeRest
  return (interval, leechers, seeders, recs)

/-- The announce answer in an action-1 datagram: interval, leechers and seeders, then
compact IPv4 peers. -/
def announceReply (d : Bytes) : Except TrackerError AnnounceInfo :=
  if d.length < 20 then
    .error (.invalidResponse ("announce reply too short: " ++ toString d.length ++ " bytes"))
  else do
    let (interval, leechers, seeders, recs) ← (announceFields.run.run ⟨d.drop 8⟩).1
    if recs.length % 6 ≠ 0 then
      .error (.invalidResponse ("announce reply has " ++ toString (recs.length % 6) ++
        " trailing bytes"))
    else
      .ok { interval, incomplete := some leechers, complete := some seeders,
            peers := (records 6 recs).filterMap PeerInfo.ofCompactV4 }

/-- The counts of one scrape record, read in turn: seeders, completed downloads and
leechers. -/
def scrapeRecordFields : PacketReader.Method ScrapeFile := do
  let complete ← PacketReader.readUInt 4
  let downloaded ← PacketReader.readUInt 4
  let incomplete ← PacketReader.readUInt 4
  return { complete, downloaded, incomplete, name := none }

/-- Reads the next record and files the hash `h` under it; a later record for an equal hash
replaces the earlier one. -/
def scrapeFileStep (files : List (Bytes × ScrapeFile)) (h : Bytes) :
    PacketReader.Method (List (Bytes × ScrapeFile)) := do
  let file ← scrapeRecordFields
  return Bytes.insertKeyed h file files

/-- The scrape answer in an action-2 datagram: one 12-byte record per info hash asked for,
in the order asked; of two equal hashes the later record counts. -/
def scrapeReply (d : Bytes) (hashes : List Bytes) : Except TrackerError ScrapeInfo :=
  let recs := d.drop 8
  if recs.length ≠ hashes.length * 12 then
    .error (.invalidResponse ("scrape reply has " ++ toString recs.length ++
      " bytes of records for " ++ toString hashes.length ++ " info hashes"))
  else do
    let files ← ((hashes.foldlM scrapeFileStep []).run.run ⟨recs⟩).1
    return { files }

end Tracker

end BitTorrent
