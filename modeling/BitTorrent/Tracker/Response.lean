import BitTorrent.Bencode.Node
import BitTorrent.Net.Address
import BitTorrent.Url.Percent
import BitTorrent.Tracker.Error

/-!
# What trackers answer

An announce answer lists peers and tells how long to wait; a scrape answer counts seeders,
leechers and completed downloads per torrent. Either may instead be a refusal carrying the
tracker's `failure reason`, which ends reading whatever else the answer holds.

Peers come in two forms: compact strings of 6 bytes per IPv4 peer (18 per IPv6 peer), the
address octets and a big-endian port, or lists of dictionaries with `peer id`, `ip` and
`port`. An announce answer without any peer is refused.

## Main definitions

* `PeerInfo`, `AnnounceInfo`, `ScrapeFile`, `ScrapeInfo`, `Reply`.
* `compactPeers`: the peers of a compact string.
* `parseAnnounce`, `parseScrape`: the answers of a decoded body.
-/

namespace BitTorrent

namespace Tracker

open Bencode Net

/-- A peer named by a tracker. -/
structure PeerInfo where
  /-- Present only in the dictionary form. -/
  peerId : Option Bytes
  ip : IpAddr
  port : UInt16
deriving DecidableEq, Repr

namespace PeerInfo

/-- The peer's socket address. -/
def addr (p : PeerInfo) : SocketAddr := ⟨p.ip, p.port⟩

/-- `peer[addr]`, with `, peer id: <percent-encoded id>` before the bracket if known. -/
def display (L : Percent.Library) (p : PeerInfo) : String :=
  "peer[" ++ p.addr.display ++
    (match p.peerId with
     | some id => ", peer id: " ++ Percent.encode L id
     | none => "") ++ "]"

/-- A compact IPv4 record: four address octets and a big-endian port, read from the first six
bytes; `none` when there are fewer. -/
def ofCompactV4 (b : Bytes) : Option PeerInfo :=
  if 6 ≤ b.length then some ⟨none, .v4 (b.take 4), (Bytes.toNatBE ((b.drop 4).take 2)).toUInt16⟩
  else none

/-- A compact IPv6 record: sixteen address octets and a big-endian port, read from the first
eighteen bytes; `none` when there are fewer. -/
def ofCompactV6 (b : Bytes) : Option PeerInfo :=
  if 18 ≤ b.length then some ⟨none, .v6 (b.take 16), (Bytes.toNatBE ((b.drop 16).take 2)).toUInt16⟩
  else none

end PeerInfo

/-- A successful announce. -/
structure AnnounceInfo where
  warningMessage : Option String := none
  /-- Seconds to wait between announces. -/
  interval : Nat
  minInterval : Option Nat := none
  trackerId : Option String := none
  /-- Seeders. -/
  complete : Option Nat := none
  /-- Leechers. -/
  incomplete : Option Nat := none
  peers : List PeerInfo := []
deriving DecidableEq, Repr

/-- The counts of one torrent in a scrape. -/
structure ScrapeFile where
  complete : Nat
  downloaded : Nat
  incomplete : Nat
  name : Option String
deriving DecidableEq, Repr

/-- A successful scrape: counts per info hash, in ascending hash order. -/
structure ScrapeInfo where
  files : List (Bytes × ScrapeFile) := []
  minRequestInterval : Option Nat := none
deriving DecidableEq, Repr

/-- A tracker's answer: a refusal with its reason, or the information asked for. -/
inductive Reply (α : Type) where
  | failure (reason : String)
  | success (value : α)
deriving DecidableEq, Repr

/-- A protocol fault in words. -/
def invalid (reason : String) : TrackerError := .invalidResponse reason

/-- Cuts bytes into records of `n` bytes; a short last record is dropped. -/
def records (n : Nat) (b : Bytes) : List Bytes :=
  if 0 < n ∧ n ≤ b.length then b.take n :: records n (b.drop n) else []
termination_by b.length
decreasing_by simp; omega

/-- Compact peers of `recordLen` bytes each, read by `ofRecord`, which keeps the records it
reads and drops the others; the length must be a multiple of `recordLen`. -/
def compactWith (recordLen : Nat) (ofRecord : Bytes → Option PeerInfo) (data : Bytes) :
    Except TrackerError (List PeerInfo) :=
  if data.length % recordLen ≠ 0 then
    .error (invalid ("compact peers length " ++ toString data.length ++ " is not a multiple of " ++
      toString recordLen))
  else .ok ((records recordLen data).filterMap ofRecord)

/-- Compact IPv4 peers, 6 bytes each. -/
def compactPeers (data : Bytes) : Except TrackerError (List PeerInfo) :=
  compactWith 6 PeerInfo.ofCompactV4 data

/-- Compact IPv6 peers, 18 bytes each. -/
def compactPeers6 (data : Bytes) : Except TrackerError (List PeerInfo) :=
  compactWith 18 PeerInfo.ofCompactV6 data

/-- The entries of a node that must be a dictionary; `what` names it in the fault. -/
def expectDict (n : Node) (what : String) : Except TrackerError Dict :=
  match n.asDict? with
  | some d => .ok d
  | none => .error (invalid (what ++ " must be a dictionary, found " ++ n.kind))

/-- A field of a dictionary node. -/
def field? (n : Node) (key : String) : Option Node := n.get? (Bytes.ofString key)

/-- A `failure reason`, which must be a byte string, read lossily as UTF-8. -/
def failureReason (n : Node) : Except TrackerError (Option String) :=
  match field? n "failure reason" with
  | none => .ok none
  | some r =>
    match r.asBytes? with
    | some b => .ok (some (Utf8.decodeLossy b))
    | none => .error (invalid "'failure reason' must be a string")

/-- An optional field that must be an integer in the 32-bit unsigned range. -/
def optionalU32 (n : Node) (key : String) : Except TrackerError (Option Nat) :=
  match field? n key with
  | none => .ok none
  | some v =>
    match v.asInt? with
    | some i =>
      if 0 ≤ i ∧ i < Int.ofNat (Nat.pow 2 32) then .ok (some i.toNat)
      else .error (invalid ("'" ++ key ++ "' out of range: " ++ toString i))
    | none => .error (invalid ("'" ++ key ++ "' must be an integer"))

/-- A required field that must be an integer in the 32-bit unsigned range. -/
def requiredU32 (n : Node) (key : String) : Except TrackerError Nat := do
  match ← optionalU32 n key with
  | some v => .ok v
  | none => .error (invalid ("missing '" ++ key ++ "'"))

/-- An optional field that must be a UTF-8 string. -/
def optionalText (n : Node) (key : String) : Except TrackerError (Option String) :=
  match field? n key with
  | none => .ok none
  | some v =>
    match v.asText? with
    | some s => .ok (some s)
    | none => .error (invalid ("'" ++ key ++ "' must be a UTF-8 string"))

/-- A peer in dictionary form: a byte-string `peer id`, an address literal `ip` and a port. -/
def verbosePeer (n : Node) : Except TrackerError PeerInfo := do
  let _ ← expectDict n "peer entry"
  let peerId ← match (field? n "peer id").bind Node.asBytes? with
    | some b => .ok b
    | none => .error (invalid "peer entry missing 'peer id'")
  let ipText ← match (field? n "ip").bind Node.asText? with
    | some s => .ok s
    | none => .error (invalid "peer entry missing 'ip'")
  let ip ← match IpAddr.parse? ipText with
    | some a => .ok a
    | none => .error (invalid ("peer ip is not an address literal: " ++ ipText))
  let port ← match (field? n "port").bind Node.asInt? with
    | some p => .ok p
    | none => .error (invalid "peer entry missing 'port'")
  if 0 ≤ port ∧ port < Int.ofNat (Nat.pow 2 16) then .ok ⟨some peerId, ip, port.toNat.toUInt16⟩
  else .error (invalid ("peer port out of range: " ++ toString port))

/-- Reads a decoded announce answer. -/
def parseAnnounce (root : Node) : Except TrackerError (Reply AnnounceInfo) := do
  let _ ← expectDict root "announce response"
  if let some reason ← failureReason root then return .failure reason
  let interval ← requiredU32 root "interval"
  let warningMessage ← optionalText root "warning message"
  let minInterval ← optionalU32 root "min interval"
  let trackerId ← optionalText root "tracker id"
  let complete ← optionalU32 root "complete"
  let incomplete ← optionalU32 root "incomplete"
  let peers ← match field? root "peers" with
    | none => pure []
    | some p =>
      match p.asBytes?, p.asList? with
      | some b, _ => compactPeers b
      | none, some l => l.mapM verbosePeer
      | none, none => throw (invalid "'peers' must be a list or a string")
  let peers6 ← match field? root "peers6" with
    | none => pure []
    | some p =>
      match p.asBytes? with
      | some b => compactPeers6 b
      | none => throw (invalid "'peers6' must be a string")
  let all := peers ++ peers6
  if all.isEmpty then throw (invalid "response contains no peers")
  return .success { warningMessage, interval, minInterval, trackerId, complete, incomplete,
                    peers := all }

/-- The counts of one scrape entry. -/
def scrapeEntry (key : Bytes) (stats : Node) : Except TrackerError ScrapeFile := do
  if key.length ≠ 20 then
    throw (invalid ("scrape key has length " ++ toString key.length ++ ", expected 20"))
  let _ ← expectDict stats "scrape entry"
  let complete ← requiredU32 stats "complete"
  let downloaded ← requiredU32 stats "downloaded"
  let incomplete ← requiredU32 stats "incomplete"
  let name ← optionalText stats "name"
  return { complete, downloaded, incomplete, name }

/-- Reads a decoded scrape answer. -/
def parseScrape (root : Node) : Except TrackerError (Reply ScrapeInfo) := do
  let _ ← expectDict root "scrape response"
  if let some reason ← failureReason root then return .failure reason
  let minRequestInterval ← match field? root "flags" with
    | none => pure none
    | some flags => do
      let _ ← expectDict flags "'flags'"
      optionalU32 flags "min_request_interval"
  let files ← match field? root "files" with
    | some f => pure f
    | none => throw (invalid "missing 'files'")
  let entries ← expectDict files "'files'"
  let counted ← entries.mapM fun (k, v) => do return (k, ← scrapeEntry k v)
  return .success { files := counted, minRequestInterval }

end Tracker

end BitTorrent
