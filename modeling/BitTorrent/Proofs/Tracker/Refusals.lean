import BitTorrent.Proofs.Tracker.Calls
import BitTorrent.Tracker.Http

/-!
# Invalid requests are refused before any I/O

Both tracker clients check a request before they touch the network. The UDP client refuses an
announce whose tracker URL it cannot use, whose ip is not an IPv4 address or whose key is not a
32-bit number (`AnnounceRefused`), and a scrape whose URL it cannot use or that names no info
hash or more than 74 (`ScrapeRefused`). Such a call fails with an unusable URL or an
inexpressible request (`TrackerError.IsRefusal`) and leaves the whole world as it was: no
connect call, no datagram, no transaction id or key drawn, the cached session and its open
transport untouched. The HTTP client refuses a URL that is not `http://` or `https://`, and a
scrape URL it cannot derive, without fetching anything, whatever the fetcher would answer.

## Main statements

* `announceChecks_refused`, `scrapeChecks_refused`: the checks refuse these requests.
* `announce_refused_run`, `scrape_refused_run`: a refused call changes nothing.
* `invalid_requests_refused_before_io`.
-/

namespace BitTorrent.Tracker

/-! ## Section 1: What the checks refuse -/

/-- Why a UDP announce is refused: a tracker URL the client cannot use, an ip that is not an
IPv4 address, or a key that is not a 32-bit number. -/
def AnnounceRefused (r : Request) : Prop :=
  (∃ e, parseUdpUrl r.announce = .error e) ∨
  (∃ s, r.ip = some s ∧ Net.IpAddr.parseV4? s = none) ∨
  (∃ k e, r.key = some k ∧ parseKey k = .error e)

/-- Why a UDP scrape is refused: a tracker URL the client cannot use, or no info hash, or more
than 74. -/
def ScrapeRefused (url : String) (hashes : List Bytes) : Prop :=
  (∃ e, parseUdpUrl url = .error e) ∨ hashes = [] ∨ maxScrapeHashes < hashes.length

/-- The errors of a request refused before any I/O: a URL the client cannot use, or a request
it cannot express. -/
def TrackerError.IsRefusal : TrackerError → Prop
  | .invalidUrl _ | .invalidRequest _ => True
  | _ => False

section
variable {ε α β : Type}

@[simp] theorem Except.ok_bind (a : α) (f : α → Except ε β) : (Except.ok a >>= f) = f a := rfl

@[simp] theorem Except.error_bind (e : ε) (f : α → Except ε β) :
    (Except.error e >>= f) = Except.error e := rfl

end

/-- A URL the UDP client cannot use is refused as such, whatever the reason. -/
theorem parseUdpUrl_error {url : String} {e : TrackerError} (h : parseUdpUrl url = .error e) :
    e = .invalidUrl url := by
  unfold parseUdpUrl at h
  dsimp only at h
  -- every check of the URL refuses with the URL itself; only the last branch succeeds
  repeat' split at h
  all_goals cases h <;> rfl

theorem parseKey_error {k : String} {e : TrackerError} (h : parseKey k = .error e) :
    e = .invalidRequest ("key is not a 32-bit number: " ++ k) := by
  unfold parseKey at h
  repeat' split at h
  all_goals cases h <;> rfl

/-! ## Section 2: The checks in order -/

theorem announceChecks_of_url {r : Request} {e : TrackerError}
    (h : parseUdpUrl r.announce = .error e) : announceChecks r = .error e := by
  simp [announceChecks, h]

theorem announceChecks_of_ip {r : Request} {target : String × Nat} {s : String}
    (hu : parseUdpUrl r.announce = .ok target) (hip : r.ip = some s)
    (hv : Net.IpAddr.parseV4? s = none) :
    announceChecks r = .error (.invalidRequest ("ip is not an IPv4 address: " ++ s)) := by
  simp [announceChecks, hu, hip, hv]
  rfl

theorem announceChecks_of_key {r : Request} {target : String × Nat} {k : String}
    {e : TrackerError} (hu : parseUdpUrl r.announce = .ok target)
    (hip : ∀ s, r.ip = some s → ∃ o, Net.IpAddr.parseV4? s = some o) (hk : r.key = some k)
    (hpk : parseKey k = .error e) : announceChecks r = .error e := by
  rcases hr : r.ip with _ | s
  · simp [announceChecks, hu, hr, hk, hpk]
  · obtain ⟨o, hv⟩ := hip s hr
    simp [announceChecks, hu, hr, hv, hk, hpk]

/-- An announce the checks refuse fails them with an unusable URL or an inexpressible request:
the URL is checked first, then the ip, then the key. -/
theorem announceChecks_refused {r : Request} (h : AnnounceRefused r) :
    ∃ e, e.IsRefusal ∧ announceChecks r = .error e := by
  -- a URL refused decides the outcome whatever else the request holds
  rcases hu : parseUdpUrl r.announce with eu | target
  · exact ⟨eu, by rw [parseUdpUrl_error hu]; trivial, announceChecks_of_url hu⟩
  -- an ip refused decides it next
  by_cases hip : ∃ s, r.ip = some s ∧ Net.IpAddr.parseV4? s = none
  · obtain ⟨s, hs, hv⟩ := hip
    refine ⟨_, ?_, announceChecks_of_ip hu hs hv⟩
    trivial
  have hipOk : ∀ s, r.ip = some s → ∃ o, Net.IpAddr.parseV4? s = some o := by
    intro s hs
    rcases hv : Net.IpAddr.parseV4? s with _ | o
    · exact absurd ⟨s, hs, hv⟩ hip
    · exact ⟨o, rfl⟩
  rcases h with ⟨e, he⟩ | hip' | ⟨k, e, hk, hpk⟩
  · rw [hu] at he
    cases he
  · exact absurd hip' hip
  · exact ⟨e, by rw [parseKey_error hpk]; trivial, announceChecks_of_key hu hipOk hk hpk⟩

/-- A scrape the checks refuse fails them with an unusable URL or an inexpressible request. -/
theorem scrapeChecks_refused {url : String} {hashes : List Bytes} (h : ScrapeRefused url hashes) :
    ∃ e, e.IsRefusal ∧ scrapeChecks url hashes = .error e := by
  rcases hu : parseUdpUrl url with eu | target
  · exact ⟨eu, by rw [parseUdpUrl_error hu]; trivial, by simp [scrapeChecks, hu]⟩
  have hcount : hashes.isEmpty || maxScrapeHashes < hashes.length := by
    rcases h with ⟨e, he⟩ | rfl | hlong
    · rw [hu] at he
      cases he
    · rfl
    · simp [hlong]
  refine ⟨_, ?_, by simp [scrapeChecks, hu, hcount]; rfl⟩
  trivial

/-! ## Section 3: A refused call touches nothing -/

/-- A refused announce fails before it touches the network: the whole world is as it was, so
no connect call was made, nothing was sent, no id or key was drawn and the cached session and
its transport are untouched. -/
theorem announce_refused_run {r : Request} (h : AnnounceRefused r) (w : World) :
    ∃ e, e.IsRefusal ∧ (announce r).run w = (.error e, w) := by
  obtain ⟨e, he, hc⟩ := announceChecks_refused h
  exact ⟨e, he, by rw [announce_run, hc]⟩

theorem scrape_refused_run {url : String} {hashes : List Bytes} (h : ScrapeRefused url hashes)
    (w : World) : ∃ e, e.IsRefusal ∧ (scrape url hashes).run w = (.error e, w) := by
  obtain ⟨e, he, hc⟩ := scrapeChecks_refused h
  exact ⟨e, he, by rw [scrape_run, hc]⟩

/-- A URL the HTTP client can use: `http://` or `https://`. -/
def HttpScheme (url : String) : Prop := url.startsWith "http://" ∨ url.startsWith "https://"

theorem checkScheme_of_not {url : String} (h : ¬HttpScheme url) :
    checkScheme url = .error (.invalidUrl url) := by
  simp only [HttpScheme, not_or, Bool.not_eq_true] at h
  simp [checkScheme, h.1, h.2]

/-- Invalid requests are refused before any I/O. A UDP announce or scrape the checks refuse
fails with an unusable URL or an inexpressible request and leaves the whole world as it was: no
connect call, no datagram sent, no transaction id or key drawn, the cached session and its
transport untouched. The HTTP client refuses a URL that is not `http://` or `https://`, and a
scrape with no scrape URL, without fetching anything, whatever the fetcher. -/
theorem invalid_requests_refused_before_io :
    (∀ (r : Request) (w : World), AnnounceRefused r →
      ∃ e, e.IsRefusal ∧ (announce r).run w = (.error e, w)) ∧
    (∀ (url : String) (hashes : List Bytes) (w : World), ScrapeRefused url hashes →
      ∃ e, e.IsRefusal ∧ (scrape url hashes).run w = (.error e, w)) ∧
    (∀ (L : Percent.Library) (fetch : String → Fetched) (r : Request), ¬HttpScheme r.announce →
      httpAnnounce L fetch r = ⟨[], .error (.invalidUrl r.announce)⟩) ∧
    (∀ (L : Percent.Library) (fetch : String → Fetched) (url : String) (hashes : List Bytes),
      ¬HttpScheme url → httpScrape L fetch url hashes = ⟨[], .error (.invalidUrl url)⟩) ∧
    (∀ (L : Percent.Library) (fetch : String → Fetched) (url : String) (hashes : List Bytes),
      HttpScheme url → scrapeUrl? L url hashes = none →
      httpScrape L fetch url hashes = ⟨[], .error (.scrapeUnsupported url)⟩) := by
  refine ⟨fun r w h => announce_refused_run h w, fun url hashes w h => scrape_refused_run h w,
    fun L fetch r h => ?_, fun L fetch url hashes h => ?_, fun L fetch url hashes h hnone => ?_⟩
  · simp [httpAnnounce, checkScheme_of_not h]
  · simp [httpScrape, checkScheme_of_not h]
  · have hok : checkScheme url = .ok () := by
      rcases h with h | h <;> simp [checkScheme, h]
    simp [httpScrape, hok, hnone]

/-- A scrape of no info hashes, made while a session is cached under `reuse`, is refused and
leaves the cached session and its transport in place. -/
theorem empty_scrape_keeps_cached_session :
    ScrapeRefused "udp://tracker.example:1337" [] ∧
    ∃ e, e.IsRefusal ∧
      (scrape "udp://tracker.example:1337" []).run
          { config := { policy := .reuse 60000 },
            session := some ⟨⟨0⟩, "tracker.example", 1337, 42, 0⟩ } =
        (.error e, { config := { policy := .reuse 60000 },
                     session := some ⟨⟨0⟩, "tracker.example", 1337, 42, 0⟩ }) :=
  ⟨.inr (.inl rfl), invalid_requests_refused_before_io.2.1 _ _ _ (.inr (.inl rfl))⟩

end BitTorrent.Tracker
