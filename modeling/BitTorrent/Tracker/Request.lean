import BitTorrent.Url.Percent

/-!
# Announce requests and tracker URLs

An announce tells a tracker which torrent and peer it is about and how far the download
has come. Over HTTP it travels as query parameters in a fixed order: `info_hash`, `peer_id`,
`port`, `uploaded`, `downloaded`, `left`, then whichever of `compact`, `no_peer_id`, `event`,
`ip`, `numwant`, `key` and `trackerid` are set; unset optional parameters are not sent.
Binary and text values are percent-encoded.

A scrape URL exists only for an announce URL whose last path segment begins with
`announce`: that word becomes `scrape` and everything around it is kept.

## Main definitions

* `Event`, `Request`.
* `Request.announceUrl`: the HTTP announce URL.
* `scrapeUrl?`: the scrape URL for some info hashes.
-/

namespace BitTorrent

namespace Tracker

/-- The announce event. -/
inductive Event where
  | started
  | stopped
  | completed
deriving DecidableEq, Repr

namespace Event

/-- The event's name in an HTTP query. -/
def name : Event → String
  | started => "started"
  | stopped => "stopped"
  | completed => "completed"

/-- The event's number in a UDP announce; no event is 0. -/
def code : Event → Nat
  | completed => 1
  | started => 2
  | stopped => 3

end Event

/-- One announce to one tracker. -/
structure Request where
  /-- The tracker's announce URL. -/
  announce : String
  /-- The torrent's info hash, 20 bytes. -/
  infoHash : Bytes
  /-- This client's peer id, 20 bytes. -/
  peerId : Bytes
  /-- The port this client listens on. -/
  port : Nat
  uploaded : Nat := 0
  downloaded : Nat := 0
  left : Nat := 0
  compact : Option Bool := none
  noPeerId : Option Bool := none
  event : Option Event := none
  /-- The address to report instead of the one the tracker sees. -/
  ip : Option String := none
  /-- How many peers to ask for. -/
  numwant : Option Nat := none
  /-- A token identifying this client across address changes. -/
  key : Option String := none
  /-- The id an earlier response asked to be sent back. -/
  trackerid : Option String := none
deriving DecidableEq, Repr

/-- `1` for true, `0` for false. -/
def flag (b : Bool) : String := if b then "1" else "0"

/-- `&name=value` when the value is present. -/
def param {α : Type} (name : String) (render : α → String) : Option α → String
  | some v => "&" ++ name ++ "=" ++ render v
  | none => ""

/-- The separator before the first added parameter: `&` if the URL already has a query. -/
def querySeparator (url : String) : String := if url.contains '?' then "&" else "?"

namespace Request

/-- The HTTP announce URL of a request, its values escaped by `L`. -/
def announceUrl (L : Percent.Library) (r : Request) : String :=
  r.announce ++ querySeparator r.announce ++
  "info_hash=" ++ Percent.encode L r.infoHash ++
  "&peer_id=" ++ Percent.encode L r.peerId ++
  "&port=" ++ toString r.port ++
  "&uploaded=" ++ toString r.uploaded ++
  "&downloaded=" ++ toString r.downloaded ++
  "&left=" ++ toString r.left ++
  param "compact" flag r.compact ++
  param "no_peer_id" flag r.noPeerId ++
  param "event" Event.name r.event ++
  param "ip" (fun s => Percent.encode L (Bytes.ofString s)) r.ip ++
  param "numwant" toString r.numwant ++
  param "key" (fun s => Percent.encode L (Bytes.ofString s)) r.key ++
  param "trackerid" (fun s => Percent.encode L (Bytes.ofString s)) r.trackerid

end Request

/-- The scrape URL of an announce URL, with one `info_hash` parameter per hash in order;
`none` when the text after the last `/` does not begin with `announce`. -/
def scrapeUrl? (L : Percent.Library) (announce : String) (infoHashes : List Bytes) :
    Option String :=
  let cs := announce.toList
  let i := cs.length - (cs.reverse.takeWhile (· ≠ '/')).length
  if cs.contains '/' then
    let before := cs.take i
    let seg := cs.drop i
    if "announce".toList.isPrefixOf seg then
      let base := String.ofList (before ++ "scrape".toList ++ seg.drop 8)
      let sep := querySeparator base
      some (base ++ String.join (infoHashes.zipIdx.map fun (h, k) =>
        (if k = 0 then sep else "&") ++ "info_hash=" ++ Percent.encode L h))
    else none
  else none

end Tracker

end BitTorrent
