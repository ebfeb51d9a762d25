import BitTorrent.Tracker.Network

/-!
# The UDP tracker client

The client keeps, between calls, a source of transaction ids, the virtual clock and, under
the `reuse` policy, one session: an open transport, the tracker it talks to and the
connection id the tracker handed out. A call checks its request first and touches nothing
when it is refused. It then takes a session, reusing the cached one when the policy allows,
the tracker is the same and the id is younger than the policy's lifetime, and otherwise
releases it and connects afresh with a connect exchange. After a successful call the session
is cached under `reuse` and released under `perRequest`; after a failed one it is released.

Each exchange sends its request and waits `base * 2^min(k, 8)` after the `k`-th send for an
answer (`classify`), discarding every datagram that does not answer; after `maxRetries`
retransmissions it gives up with `Timeout`. Waiting is the only thing that moves the clock.

The run is a state machine over `World`, the client together with the scripted network
(`Script`); `World.step` performs one call and reports what the network saw. The world logs
what happens on transports (`TransportEvent`): each transport the connector hands out, each
datagram sent on it, each item a receive call on it takes, and its close and drop.

## Main definitions

* `Policy`, `UdpConfig`, `Session`, `World`.
* `receive`, `exchange`, `acquire`, `request`, `announce`, `scrape`.
* `announceChecks`, `scrapeChecks`: what a call checks before it touches the network.
* `UdpOp`, `StepReport`, `World.step`, `World.run`, `World.final`, `World.shutdown`.
-/

namespace BitTorrent

namespace Tracker

/-- Whether connection ids outlive a single call. -/
inductive Policy where
  /-- Connect afresh for every call. -/
  | perRequest
  /-- Keep the transport and id for `ttl` milliseconds after the handshake. -/
  | reuse (ttl : Nat)
deriving DecidableEq, Repr

/-- The client's settings. -/
structure UdpConfig where
  /-- Milliseconds to wait after the first send; doubled on each retransmission. -/
  baseTimeout : Nat := 15000
  /-- Retransmissions after the first send. -/
  maxRetries : Nat := 3
  policy : Policy := .perRequest
  /-- Received datagrams are cut to this many bytes. -/
  recvBufferLen : Nat := 2048
deriving DecidableEq, Repr

/-- An open transport with the connection id obtained on it. -/
structure Session where
  transport : Transport
  host : String
  port : Nat
  connectionId : Nat
  /-- The clock when the handshake completed. -/
  obtainedAt : Nat
deriving DecidableEq, Repr

/-- What happens on transports, in order: the connector hands out a transport, datagrams go
out on it, receive calls on it take items off the queue, and it is closed and dropped. -/
inductive TransportEvent where
  | opened (id : Nat)
  | sent (id : Nat) (packet : Bytes)
  /-- A receive call took this item off the queue; a datagram is logged whole, before it is
  cut to the receive buffer. -/
  | received (id : Nat) (item : Delivery)
  | closed (id : Nat)
  | dropped (id : Nat)
deriving DecidableEq, Repr

/-- A source of transaction ids and generated keys, as the client draws from it: the `n`-th
id drawn is `ids n`, and `drawn` ids have been drawn so far. Any source the client can be
given is such a stream. -/
structure IdSource where
  ids : Nat → UInt32
  drawn : Nat := 0

/-- The id the source gives next. -/
def IdSource.next (s : IdSource) : Nat := (s.ids s.drawn).toNat

/-- The source after one draw. -/
def IdSource.advance (s : IdSource) : IdSource := { s with drawn := s.drawn + 1 }

/-- The client and its scripted network. -/
structure World where
  config : UdpConfig := {}
  idSource : IdSource := { ids := fun n => (n + 1).toUInt32 }
  session : Option Session := none
  /-- Virtual time in milliseconds. -/
  clock : Nat := 0
  script : Script := {}
  /-- The number the next transport gets. -/
  nextTransport : Nat := 0
  events : List TransportEvent := []
  /-- Datagrams sent during the current call. -/
  sent : List Bytes := []
  /-- Connect calls made during the current call. -/
  connectCalls : List (String × Nat) := []
  /-- Items the network has queued for the client, in order, shared by all transports. -/
  inbox : List Delivery := []

/-- The id the client draws next. -/
def World.nextId (w : World) : Nat := w.idSource.next

/-- Every id drawn is a 32-bit number. -/
theorem World.nextId_lt (w : World) : w.nextId < Nat.pow 2 32 := UInt32.toNat_lt _

/-- A computation of the client: it changes the world and may fail. -/
abbrev UdpM := ExceptT TrackerError (StateM World)

/-- Draws the next transaction id from the source. -/
def drawId : UdpM Nat := do
  let w ← get
  set { w with idSource := w.idSource.advance }
  return w.nextId

/-- Lets `ms` milliseconds pass. -/
def wait (ms : Nat) : UdpM Unit := modify fun w => { w with clock := w.clock + ms }

/-- Closes and drops a transport. -/
def release (t : Transport) : UdpM Unit :=
  modify fun w => { w with events := w.events ++ [.closed t.id, .dropped t.id] }

/-- Runs `act`; if it fails, releases `t` and fails the same way. -/
def guarded {α : Type} (t : Transport) (act : UdpM α) : UdpM α :=
  tryCatch act fun e => do release t; throw e

/-- Asks the connector for a transport, which must come within the base timeout. -/
def connect (host : String) (port : Nat) : UdpM Transport := do
  let w ← get
  let (plan, rest) := match w.script.connects with
    | p :: ps => (p, ps)
    | [] => (.accept, [])
  set { w with script := { w.script with connects := rest },
               connectCalls := w.connectCalls ++ [(host, port)] }
  match plan with
  | .accept =>
    let w ← get
    set { w with nextTransport := w.nextTransport + 1,
                 events := w.events ++ [TransportEvent.opened w.nextTransport] }
    return { id := w.nextTransport }
  | .refuse => throw (.io "connection refused")
  | .hang => do wait w.config.baseTimeout; throw .timeout

/-- Sends a datagram on a transport; the items the script answers with are queued for the
client. -/
def send (t : Transport) (packet : Bytes) : UdpM Unit := do
  let w ← get
  let (plan, rest) := match w.script.replies with
    | p :: ps => (p, ps)
    | [] => (w.script.defaultReply, [])
  set { w with script := { w.script with replies := rest } }
  match plan with
  | .sendFault => throw (.io "send failed")
  | .queue items =>
    modify fun w => { w with sent := w.sent ++ [packet], events := w.events ++ [.sent t.id packet],
                             inbox := w.inbox ++ items.map (·.resolve w.script.connectionId packet) }

/-- Receives queued items until one answers the request (`classify`), cutting each datagram
to `bufLen` bytes; a receive fault ends the wait with an error, and an empty queue with
`none`. Returns how the wait ended and the items taken off the queue. -/
def awaitAnswer (bufLen tid action : Nat) :
    List Delivery → Option (Except TrackerError Answer) × List Delivery
  | [] => (none, [])
  | .fault r :: _ => (some (.error (.io r)), [.fault r])
  | .datagram d :: rest =>
    match classify (d.take bufLen) tid action with
    | some a => (some (.ok a), [.datagram d])
    | none =>
      let (got, taken) := awaitAnswer bufLen tid action rest
      (got, .datagram d :: taken)

/-- Receive calls on a transport until an item answers the request: the items taken are logged
on the transport and leave the queue. A receive fault fails; an empty queue gives `none`. -/
def receive (t : Transport) (bufLen tid action : Nat) : UdpM (Option Answer) := do
  let (got, taken) := awaitAnswer bufLen tid action (← get).inbox
  modify fun w => { w with inbox := w.inbox.drop taken.length,
                           events := w.events ++ taken.map (.received t.id) }
  match got with
  | some (.ok a) => return some a
  | some (.error e) => throw e
  | none => return none

/-- Sends `packet` on a transport and waits for its answer, retransmitting up to `maxRetries`
times with the waits doubling from `baseTimeout` (and no longer doubling after the eighth). -/
def exchange (t : Transport) (packet : Bytes) (tid action : Nat) : UdpM Answer := do
  let c := (← get).config
  attempt c 0 (c.maxRetries + 1)
where
  /-- Send number `k` and the waits after it, with `left` sends still allowed. -/
  attempt (c : UdpConfig) (k : Nat) : Nat → UdpM Answer
    | 0 => throw .timeout
    | left + 1 => do
      send t packet
      match ← receive t c.recvBufferLen tid action with
      | some a => return a
      | none =>
        -- nothing answered: the clock runs on to this send's deadline
        wait (c.baseTimeout * Nat.pow 2 (min k 8))
        attempt c (k + 1) left

/-- Connects and performs the connect exchange. -/
def handshake (host : String) (port : Nat) : UdpM Session := do
  let t ← connect host port
  let tid ← drawId
  let a ← guarded t (exchange t (connectPacket tid) tid actionConnect)
  match a with
  | .refusal m =>
    release t
    throw (.invalidResponse ("tracker refused connect: " ++ m))
  | .data d =>
    if d.length < 16 then
      release t
      throw (.invalidResponse ("connect reply too short: " ++ toString d.length ++ " bytes"))
    else
      return { transport := t, host, port, connectionId := Bytes.toNatBE ((d.drop 8).take 8),
               obtainedAt := (← get).clock }

/-- Whether a cached session may serve a call to `host:port` now. -/
def Session.reusable (s : Session) (policy : Policy) (clock : Nat) (host : String) (port : Nat) :
    Bool :=
  match policy with
  | .reuse ttl => clock - s.obtainedAt < ttl && s.host == host && s.port == port
  | .perRequest => false

/-- A session for `host:port`: the cached one if reusable, else a fresh handshake after
releasing the cached one. -/
def acquire (host : String) (port : Nat) : UdpM Session := do
  let w ← get
  match w.session with
  | some s =>
    -- the cached session leaves the cache here: it is either returned or released
    set { w with session := none }
    if s.reusable w.config.policy w.clock host port then return s
    else
      release s.transport
      handshake host port
  | none => handshake host port

/-- Ends a successful call: the session is cached under `reuse` and released otherwise. -/
def finish (s : Session) : UdpM Unit := do
  match (← get).config.policy with
  | .reuse _ => modify fun w => { w with session := some s }
  | .perRequest => release s.transport

/-- Lifts a check that may refuse the call. -/
def check {α : Type} (r : Except TrackerError α) : UdpM α :=
  match r with
  | .ok a => pure a
  | .error e => throw e

/-- The largest signed 32-bit number, where `numwant` is capped. -/
def numWantCap : Nat := Nat.pow 2 31 - 1

/-- The checks an announce passes before it touches the network: the tracker URL, the ip (an
IPv4 address; 0 when unset) and the key (a 32-bit number when set; an unset key is drawn once
the checks pass). Gives the tracker's host and port, the ip and the key. -/
def announceChecks (r : Request) : Except TrackerError ((String × Nat) × Nat × Option Nat) := do
  let target ← parseUdpUrl r.announce
  let ip ← match r.ip with
    | none => pure 0
    | some s =>
      match Net.IpAddr.parseV4? s with
      | some o => pure (Bytes.toNatBE o)
      | none => throw (.invalidRequest ("ip is not an IPv4 address: " ++ s))
  let key ← match r.key with
    | none => pure none
    | some k => some <$> parseKey k
  return (target, ip, key)

/-- The checks a scrape passes before it touches the network: the tracker URL and 1 to 74 info
hashes. Gives the tracker's host and port. -/
def scrapeChecks (url : String) (hashes : List Bytes) : Except TrackerError (String × Nat) := do
  let target ← parseUdpUrl url
  if hashes.isEmpty || maxScrapeHashes < hashes.length then
    throw (.invalidRequest ("scrape takes 1 to " ++ toString maxScrapeHashes ++
      " info hashes, got " ++ toString hashes.length))
  return target

/-- One request to `host:port` on a session: `packet` builds the datagram from the connection id
and a fresh transaction id, and `parse` reads the answer; a refusal is a `failure` reply. The
session's transport is released on every failure and handed to `finish` on success. -/
def request {β : Type} (host : String) (port : Nat) (packet : Nat → Nat → Bytes) (action : Nat)
    (parse : Bytes → Except TrackerError β) : UdpM (Reply β) := do
  let s ← acquire host port
  let tid ← drawId
  let a ← guarded s.transport (exchange s.transport (packet s.connectionId tid) tid action)
  let reply ← match a with
    | .refusal m => pure (.failure m)
    | .data d => .success <$> guarded s.transport (check (parse d))
  finish s
  return reply

/-- Announces to the `udp://host:port` tracker in the request. -/
def announce (r : Request) : UdpM (Reply AnnounceInfo) := do
  let ((host, port), ip, key?) ← check (announceChecks r)
  let key ← match key? with
    | some k => pure k
    | none => drawId
  let numWant : Int := match r.numwant with
    | none => -1
    | some n => min n numWantCap
  request host port (fun cid tid => announcePacket cid tid r ⟨ip, key, numWant⟩) actionAnnounce
    announceReply

/-- Scrapes 1 to 74 info hashes from the tracker behind `url`; records are matched to the
hashes by position. -/
def scrape (url : String) (hashes : List Bytes) : UdpM (Reply ScrapeInfo) := do
  let (host, port) ← check (scrapeChecks url hashes)
  request host port (fun cid tid => scrapePacket cid tid hashes) actionScrape
    (scrapeReply · hashes)

/-- One call made on the client. -/
inductive UdpOp where
  | announce (r : Request)
  | scrape (url : String) (hashes : List Bytes)
  /-- Lets time pass. -/
  | advance (ms : Nat)
deriving DecidableEq, Repr

/-- What a call returned. -/
inductive UdpResult where
  | announced (r : Reply AnnounceInfo)
  | scraped (r : Reply ScrapeInfo)
deriving DecidableEq, Repr

/-- What one call did: its result (none for `advance`), the datagrams it sent and the
connect calls it made, the running counts of transports opened, closed and dropped, and the
whole seconds it took (none for `advance`). -/
structure StepReport where
  result : Option (Except TrackerError UdpResult)
  sent : List Bytes
  connectCalls : List (String × Nat)
  connects : Nat
  closes : Nat
  drops : Nat
  elapsedSeconds : Option Nat

namespace World

/-- Transports opened so far. -/
def connects (w : World) : Nat := (w.events.filter fun | .opened _ => true | _ => false).length

/-- Close calls so far. -/
def closes (w : World) : Nat := (w.events.filter fun | .closed _ => true | _ => false).length

/-- Transports dropped so far. -/
def drops (w : World) : Nat := (w.events.filter fun | .dropped _ => true | _ => false).length

/-- The world at the start of a run, drawing its ids from `ids`. -/
def initial (config : UdpConfig) (script : Script) (ids : Nat → UInt32) : World :=
  { config, script, idSource := { ids } }

/-- Performs one call. -/
def step (w : World) (op : UdpOp) : StepReport × World :=
  let w0 := { w with sent := [], connectCalls := [] }
  let (result, w1) : Option (Except TrackerError UdpResult) × World :=
    match op with
    | .announce r =>
      let (res, w1) := (announce r).run w0
      (some (res.map .announced), w1)
    | .scrape url hashes =>
      let (res, w1) := (scrape url hashes).run w0
      (some (res.map .scraped), w1)
    | .advance ms => (none, { w0 with clock := w0.clock + ms })
  let elapsed := match op with
    | .advance _ => none
    | _ => some ((w1.clock - w0.clock) / 1000)
  (⟨result, w1.sent, w1.connectCalls, w1.connects, w1.closes, w1.drops, elapsed⟩, w1)

/-- Performs the calls in order and reports each. -/
def run (w : World) : List UdpOp → List StepReport
  | [] => []
  | op :: ops => let (r, w') := w.step op; r :: run w' ops

/-- The world after the calls, in order. -/
def final (w : World) : List UdpOp → World
  | [] => w
  | op :: ops => (w.step op).2.final ops

/-- The client dropped: a cached session goes with it, its transport closed and dropped. -/
def shutdown (w : World) : World :=
  match w.session with
  | some s => { w with session := none,
                       events := w.events ++ [.closed s.transport.id, .dropped s.transport.id] }
  | none => w

end World

end Tracker

end BitTorrent
