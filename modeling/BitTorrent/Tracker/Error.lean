import BitTorrent.Bencode.Error

/-!
# Why talking to a tracker failed

A tracker that answers with a failure reason has answered; that is not an error. These are
the other ways an announce or scrape ends: a transport fault, a body that is not bencode, a
reply that breaks the protocol, no reply in time, or a request that cannot be sent at all.
-/

namespace BitTorrent

namespace Tracker

/-- The ways an announce or scrape fails. -/
inductive TrackerError where
  /-- The transport failed; the text describes how. -/
  | io (reason : String)
  /-- An HTTP body that is not bencode. -/
  | bencode (e : Bencode.DecodeError)
  /-- A reply that breaks the protocol, described in words. -/
  | invalidResponse (reason : String)
  /-- No reply in time. -/
  | timeout
  /-- A tracker URL this client cannot use. -/
  | invalidUrl (url : String)
  /-- A request that cannot be expressed for this tracker, refused before any I/O. -/
  | invalidRequest (reason : String)
  /-- An announce URL from which no scrape URL can be derived. -/
  | scrapeUnsupported (url : String)
deriving DecidableEq, Repr

namespace TrackerError

/-- The name of the cause. -/
def name : TrackerError → String
  | io _ => "Io"
  | bencode _ => "Bencode"
  | invalidResponse _ => "InvalidResponse"
  | timeout => "Timeout"
  | invalidUrl _ => "InvalidUrl"
  | invalidRequest _ => "InvalidRequest"
  | scrapeUnsupported _ => "ScrapeUnsupported"

/-- The text of the failure. -/
def message : TrackerError → String
  | io r => "io error: " ++ r
  | bencode e => "bencode error: " ++ e.message
  | invalidResponse r => "invalid response: " ++ r
  | timeout => "timeout"
  | invalidUrl u => "invalid url: " ++ u
  | invalidRequest r => "invalid request: " ++ r
  | scrapeUnsupported u => "tracker does not support scrape: " ++ u

end TrackerError

end Tracker

end BitTorrent
