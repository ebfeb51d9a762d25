import BitTorrent.Bencode.Read
import BitTorrent.Tracker.Request
import BitTorrent.Tracker.Response

/-!
# Talking to HTTP trackers

An HTTP tracker is asked with one GET of the announce or scrape URL, and its body is read as
bencode. The fetch itself is a parameter: a function from the URL to what the fetch gives,
a body, a transport fault, or nothing before the deadline. A URL that is not `http://` or
`https://`, or an announce URL with no scrape form, is refused before anything is fetched.

## Main definitions

* `Fetched`: what one GET gives.
* `HttpRun`: the URLs fetched and the outcome.
* `httpAnnounce`, `httpScrape`.
-/

namespace BitTorrent

namespace Tracker

open Bencode

/-- What one GET of a URL gives. -/
inductive Fetched where
  /-- The response body. -/
  | body (b : Bytes)
  /-- The transport failed. -/
  | failed (e : TrackerError)
  /-- No answer before the deadline. -/
  | stalled
deriving DecidableEq, Repr

/-- The URLs fetched, in order, and how the exchange ended. -/
structure HttpRun (α : Type) where
  fetched : List String
  result : Except TrackerError α

/-- Refuses URLs that are not `http://` or `https://`. -/
def checkScheme (url : String) : Except TrackerError Unit :=
  if url.startsWith "http://" || url.startsWith "https://" then .ok () else .error (.invalidUrl url)

/-- Fetches `url` and reads the body with `read`. -/
def fetchAndRead {α : Type} (fetch : String → Fetched) (url : String)
    (read : Node → Except TrackerError α) : HttpRun α :=
  ⟨[url], match fetch url with
    | .body b =>
      match Node.decode b with
      | .ok root => read root
      | .error e => .error (.bencode e)
    | .failed e => .error e
    | .stalled => .error .timeout⟩

/-- Announces over HTTP, the URL's values escaped by `L`. -/
def httpAnnounce (L : Percent.Library) (fetch : String → Fetched) (r : Request) :
    HttpRun (Reply AnnounceInfo) :=
  match checkScheme r.announce with
  | .error e => ⟨[], .error e⟩
  | .ok () => fetchAndRead fetch (r.announceUrl L) parseAnnounce

/-- Scrapes over HTTP, the URL's values escaped by `L`. -/
def httpScrape (L : Percent.Library) (fetch : String → Fetched) (announce : String)
    (infoHashes : List Bytes) : HttpRun (Reply ScrapeInfo) :=
  match checkScheme announce with
  | .error e => ⟨[], .error e⟩
  | .ok () =>
    match scrapeUrl? L announce infoHashes with
    | none => ⟨[], .error (.scrapeUnsupported announce)⟩
    | some url => fetchAndRead fetch url parseScrape

end Tracker

end BitTorrent
