import BitTorrent.Proofs.Tracker.Runs
import BitTorrent.Proofs.Tracker.Fields

/-!
# What one call of the UDP client does

A call that passes its checks takes a session (`acquire`): the cached one when it may serve the
call, or one from a handshake on a fresh transport after the cached one is released. It then
exchanges one request on the session's transport and replies as the answer says; the session is
handed over, cached under `reuse` and released under `perRequest`, or released when the call
fails. Each of these steps has one specification here, over the log of transport events and the
fields of the world it changes; later proofs cite them and never the steps' definitions.

## Main statements

* `handshake_spec`, with `Handshook`: how a handshake ends, and what it logs.
* `acquire_spec`: a session comes from the cache, or from a handshake after `World.shutdown`.
* `request_spec`: a request runs through its exchange to `World.handedOver` or `World.released`.
* `step_spec`: a call that passes its checks (`UdpOp.tracker?`) runs a request whose datagrams
  have the shape of its kind (`RequestShape`); any other call moves at most the clock.
* `request_session`, `request_connectCalls`: the cache and the connect calls after a request.
-/

namespace BitTorrent.Tracker

/-- The world after transport `t` is closed and dropped. -/
def World.released (w : World) (t : Transport) : World :=
  { w with events := w.events ++ [.closed t.id, .dropped t.id] }

theorem handshake_run (host : String) (port : Nat) (w : World) :
    (handshake host port).run w =
      match (connect host port).run w with
      | (.error e, w1) => (.error e, w1)
      | (.ok t, w1) =>
        match (exchange t (connectPacket w1.nextId) w1.nextId actionConnect).run
            { w1 with idSource := w1.idSource.advance } with
        | (.error e, w2) => (.error e, w2.released t)
        | (.ok (.refusal m), w2) =>
          (.error (.invalidResponse ("tracker refused connect: " ++ m)), w2.released t)
        | (.ok (.data d), w2) =>
          if d.length < 16 then
            (.error (.invalidResponse ("connect reply too short: " ++ toString d.length ++ " bytes")),
              w2.released t)
          else
            (.ok { transport := t, host, port, connectionId := Bytes.toNatBE ((d.drop 8).take 8),
                   obtainedAt := w2.clock }, w2) := by
  rw [handshake, run_bind]
  rcases (connect host port).run w with ⟨r1, w1⟩
  rcases r1 with e | t
  · rfl
  · simp only [run_bind, drawId_run, guarded_run]
    rcases (exchange t _ _ _).run _ with ⟨a, w2⟩
    rcases a with e | (d | m)
    · rfl
    · by_cases hd : d.length < 16
      · simp [hd, World.released, run_bind]
      · simp only [hd, if_false, run_bind, run_get, run_pure]
    · simp [World.released, run_bind]


/-- How a handshake ends once the connector has handed out transport `m`, the connect request
carrying the transaction id `tid` and answers cut to `n` bytes: the connect exchange logs its
rounds on `m`; a data answer of 16 bytes or more gives the connection id, its bytes 8 to 16, and
every other end closes and drops `m`. -/
inductive Handshook (n m tid : Nat) : List TransportEvent → Option Nat → Prop
  | adopted {E : List TransportEvent} {d : Bytes} :
      Rounds n m (connectPacket tid) tid actionConnect E (.ok (.data d)) → 16 ≤ d.length →
      Handshook n m tid (.opened m :: E) (some (Bytes.toNatBE ((d.drop 8).take 8)))
  | abandoned {E : List TransportEvent} {a : Except TrackerError Answer} :
      Rounds n m (connectPacket tid) tid actionConnect E a →
      (∀ d, a = .ok (.data d) → d.length < 16) →
      Handshook n m tid (.opened m :: E ++ [.closed m, .dropped m]) none

/-- A handshake makes one connect call. If the connector hands out nothing, nothing is logged;
otherwise the next transport is handed out, one transaction id is drawn and the handshake ends
as `Handshook` says, its session on that transport with the time it ended. -/
theorem handshake_spec {host : String} {port : Nat} {w w' : World}
    {r : Except TrackerError Session} (h : (handshake host port).run w = (r, w')) :
    w'.config = w.config ∧ w'.session = w.session ∧
    w'.connectCalls = w.connectCalls ++ [(host, port)] ∧ w.clock ≤ w'.clock ∧
    ((∃ e, r = .error e ∧ w'.events = w.events ∧ w'.nextTransport = w.nextTransport ∧
        w'.idSource = w.idSource) ∨
     (w'.nextTransport = w.nextTransport + 1 ∧ w'.idSource = w.idSource.advance ∧
      ∃ E cid, Handshook w.config.recvBufferLen w.nextTransport w.nextId E cid ∧
        w'.events = w.events ++ E ∧
        (∀ s, r = .ok s → cid = some s.connectionId ∧ s.transport.id = w.nextTransport ∧
            s.host = host ∧ s.port = port ∧ s.obtainedAt = w'.clock) ∧
        (∀ e, r = .error e → cid = none))) := by
  rw [handshake_run, connect_run] at h
  rcases hplan : w.script.connects.headD .accept with _ | _ | _
  · -- the connector hands out the next transport; the connect exchange runs on it
    simp only [hplan] at h
    generalize hx : (exchange _ _ _ _).run _ = x at h
    rcases x with ⟨a, w2⟩
    obtain ⟨E, hE, hrounds, hframe⟩ := exchange_rounds hx
    simp only at hE hrounds
    obtain ⟨hconfig, hid, hsession, htransport, hcalls, hclock⟩ := hframe
    simp only at hconfig hid hsession htransport hcalls hclock
    rcases a with e | (d | m)
    · -- the exchange failed: the transport is closed and dropped
      cases h
      exact ⟨hconfig, hsession, hcalls, hclock, .inr ⟨htransport, hid, _, none,
        .abandoned hrounds (by simp), by simp [World.released, hE], by simp, fun _ _ => rfl⟩⟩
    · -- a data answer gives a connection id only when it holds bytes 8 to 16
      by_cases hd : d.length < 16
      · simp only [hd, if_true] at h
        cases h
        exact ⟨hconfig, hsession, hcalls, hclock, .inr ⟨htransport, hid, _, none,
          .abandoned hrounds (by simpa using hd), by simp [World.released, hE], by simp,
          fun _ _ => rfl⟩⟩
      · simp only [hd, if_false] at h
        cases h
        exact ⟨hconfig, hsession, hcalls, hclock, .inr ⟨htransport, hid, _, _,
          .adopted hrounds (by omega), by simp [hE],
          fun s hs => by cases hs; exact ⟨rfl, rfl, rfl, rfl, rfl⟩, by simp⟩⟩
    · -- the tracker refused: the transport is closed and dropped
      cases h
      exact ⟨hconfig, hsession, hcalls, hclock, .inr ⟨htransport, hid, _, none,
        .abandoned hrounds (by simp), by simp [World.released, hE], by simp, fun _ _ => rfl⟩⟩
  · -- the connection is refused
    simp only [hplan] at h
    cases h
    exact ⟨rfl, rfl, rfl, Nat.le_refl _, .inl ⟨_, rfl, rfl, rfl, rfl⟩⟩
  · -- the connect call never completes
    simp only [hplan] at h
    cases h
    exact ⟨rfl, rfl, rfl, by simp, .inl ⟨_, rfl, rfl, rfl, rfl⟩⟩


theorem acquire_run (host : String) (port : Nat) (w : World) :
    (acquire host port).run w =
      match w.session with
      | some s =>
        if s.reusable w.config.policy w.clock host port then (.ok s, { w with session := none })
        else (handshake host port).run w.shutdown
      | none => (handshake host port).run w := by
  rw [acquire, run_bind, run_get]
  rcases hs : w.session with _ | s
  · simp only [hs]
  · simp only [hs, run_bind]
    by_cases hreuse : s.reusable w.config.policy w.clock host port = true
    · simp only [hreuse, if_true]
      rfl
    · simp only [hreuse, Bool.false_eq_true, if_false, run_bind, release_run, World.shutdown, hs]
      rfl

/-- A session is taken either from the cache, when it may serve the call, or from a handshake
after the cached one, if any, is released as when the client is dropped. Either way the cache is
left empty. -/
theorem acquire_spec {host : String} {port : Nat} {w w' : World} {r : Except TrackerError Session}
    (h : (acquire host port).run w = (r, w')) :
    (∃ s, w.session = some s ∧ s.reusable w.config.policy w.clock host port = true ∧
      r = .ok s ∧ w' = { w with session := none }) ∨
    ((∀ s, w.session = some s → s.reusable w.config.policy w.clock host port = false) ∧
      (handshake host port).run w.shutdown = (r, w')) := by
  rw [acquire_run] at h
  rcases hs : w.session with _ | s <;> rw [hs] at h <;> dsimp only at h
  · exact .inr ⟨by simp, by rwa [World.shutdown, hs]⟩
  · by_cases hreuse : s.reusable w.config.policy w.clock host port = true
    · rw [if_pos hreuse] at h
      cases h
      exact .inl ⟨s, rfl, hreuse, rfl, rfl⟩
    · rw [if_neg hreuse] at h
      exact .inr ⟨fun s' hs' => by cases hs'; simpa using hreuse, h⟩


/-- The world after a successful call hands its session over: cached under `reuse`, released
under `perRequest`. -/
def World.handedOver (w : World) (s : Session) : World :=
  match w.config.policy with
  | .reuse _ => { w with session := some s }
  | .perRequest => w.released s.transport

theorem finish_run (s : Session) (w : World) : (finish s).run w = (.ok (), w.handedOver s) := by
  rw [finish, run_bind, run_get]
  rcases hp : w.config.policy with _ | ttl <;> simp [hp, World.handedOver, World.released]

/-- The reply a request's answer gives: a refusal is a `failure` reply, and data is parsed. -/
def Answer.reply {β : Type} (parse : Bytes → Except TrackerError β) :
    Answer → Except TrackerError (Reply β)
  | .refusal m => .ok (.failure m)
  | .data d => (parse d).map .success

/-- A request takes a session; failing that, it fails as `acquire` did. Otherwise it draws a
transaction id, exchanges its datagram on the session's transport and replies as the answer
says; the session is handed over when the call succeeds and released when it fails. -/
theorem request_spec {β : Type} {host : String} {port : Nat} {packet : Nat → Nat → Bytes}
    {action : Nat} {parse : Bytes → Except TrackerError β} {w w' : World}
    {r : Except TrackerError (Reply β)} (h : (request host port packet action parse).run w = (r, w')) :
    (∃ e, (acquire host port).run w = (.error e, w') ∧ r = .error e) ∨
    ∃ s w₁ a w₂, (acquire host port).run w = (.ok s, w₁) ∧
      (exchange s.transport (packet s.connectionId w₁.nextId) w₁.nextId action).run
        { w₁ with idSource := w₁.idSource.advance } = (a, w₂) ∧
      r = a.bind (Answer.reply parse) ∧
      w' = match a.bind (Answer.reply parse) with
        | .ok _ => w₂.handedOver s
        | .error _ => w₂.released s.transport := by
  rw [request, run_bind] at h
  rcases hacq : (acquire host port).run w with ⟨r1, w1⟩
  rw [hacq] at h
  rcases r1 with e | s
  · cases h
    exact .inl ⟨e, rfl, rfl⟩
  · simp only [run_bind, drawId_run, guarded_run] at h
    generalize hx : (exchange _ _ _ _).run _ = x at h
    rcases x with ⟨a, w2⟩
    refine .inr ⟨s, w1, a, w2, rfl, hx, ?_⟩
    rcases a with e | (d | m)
    · cases h
      exact ⟨rfl, rfl⟩
    · rcases hp : parse d with e | v
      · simp only [hp] at h
        cases h
        simp [Answer.reply, hp, Except.bind, Except.map, World.released]
      · simp only [hp, run_bind, finish_run, run_pure] at h
        cases h
        simp [Answer.reply, hp, Except.bind, Except.map]
    · simp only [run_pure, run_bind, finish_run] at h
      cases h
      simp [Answer.reply, Except.bind]


theorem announce_run (r : Request) (w : World) :
    (announce r).run w =
      match announceChecks r with
      | .error e => (.error e, w)
      | .ok ((host, port), ip, key?) =>
        let numWant : Int := match r.numwant with
          | none => -1
          | some n => min n numWantCap
        (request host port
          (fun cid tid => announcePacket cid tid r ⟨ip, key?.getD w.nextId, numWant⟩)
          actionAnnounce announceReply).run
          (if key?.isSome then w else { w with idSource := w.idSource.advance }) := by
  rw [announce, run_bind, check_run]
  rcases announceChecks r with e | ⟨⟨host, port⟩, ip, _ | key⟩
  · rfl
  · simp only [run_bind, drawId_run]
    rfl
  · simp only [run_bind, run_pure]
    rfl

theorem scrape_run (url : String) (hashes : List Bytes) (w : World) :
    (scrape url hashes).run w =
      match scrapeChecks url hashes with
      | .error e => (.error e, w)
      | .ok (host, port) =>
        (request host port (fun cid tid => scrapePacket cid tid hashes) actionScrape
          (scrapeReply · hashes)).run w := by
  rw [scrape, run_bind, check_run]
  rcases scrapeChecks url hashes with e | ⟨host, port⟩ <;> rfl


/-- The tracker a call goes to, when its request passes the checks: `none` for a request the
checks refuse and for letting time pass. -/
def UdpOp.tracker? : UdpOp → Option (String × Nat)
  | .announce r => (announceChecks r).toOption.map (·.1)
  | .scrape url hashes => (scrapeChecks url hashes).toOption
  | .advance _ => none

theorem step_report (W : World) (op : UdpOp) :
    (W.step op).1.connectCalls = (W.step op).2.connectCalls ∧
    (W.step op).1.sent = (W.step op).2.sent ∧
    (W.step op).1.closes = (W.step op).2.closes := by
  cases op <;> exact ⟨rfl, rfl, rfl⟩

/-- One call. A request that passes its checks goes to its tracker through `request`, with a
datagram of the shape of its kind, from the world between calls with its record of the call
cleared and at most one id drawn; a refused request, or letting time pass, moves at most the
clock. -/
theorem step_spec (W : World) (op : UdpOp) :
    (op.tracker? = none →
      (∃ ms, (W.step op).2 = { W with sent := [], connectCalls := [], clock := W.clock + ms }) ∧
      ((W.step op).1.result = none ∨ ∃ e, (W.step op).1.result = some (.error e))) ∧
    (∀ host port, op.tracker? = some (host, port) →
      ∃ (β : Type) (packet : Nat → Nat → Bytes) (action : Nat)
        (parse : Bytes → Except TrackerError β) (wrap : Reply β → UdpResult) (k : IdSource)
        (res : Except TrackerError (Reply β)),
        RequestShape packet action ∧ (k = W.idSource ∨ k = W.idSource.advance) ∧
        (request host port packet action parse).run
          { W with sent := [], connectCalls := [], idSource := k } = (res, (W.step op).2) ∧
        (W.step op).1.result = some (res.map wrap)) := by
  cases op with
  | advance ms =>
    -- letting time pass moves the clock and nothing else
    exact ⟨fun _ => ⟨⟨ms, rfl⟩, .inl rfl⟩, fun host port h => by simp [UdpOp.tracker?] at h⟩
  | announce r =>
    rcases hc : announceChecks r with e | ⟨⟨host, port⟩, ip, key?⟩
    · -- a refused announce returns its error before touching the world
      refine ⟨fun _ => ⟨⟨0, ?_⟩, .inr ⟨e, ?_⟩⟩, fun host port h => by
        simp [UdpOp.tracker?, hc, Except.toOption] at h⟩
      · simp [World.step, announce_run, hc]
      · simp [World.step, announce_run, hc, Except.map]
    · refine ⟨fun h => by simp [UdpOp.tracker?, hc, Except.toOption] at h, fun host' port' h => ?_⟩
      simp only [UdpOp.tracker?, hc, Except.toOption, Option.map_some, Option.some.injEq,
        Prod.mk.injEq] at h
      obtain ⟨rfl, rfl⟩ := h
      -- the key is drawn before the request unless the request brings its own
      let numWant : Int := match r.numwant with
        | none => -1
        | some n => min n numWantCap
      let packet := fun cid tid => announcePacket cid tid r ⟨ip, key?.getD W.nextId, numWant⟩
      let w₁ : World := if key?.isSome then { W with sent := [], connectCalls := [] }
        else { W with sent := [], connectCalls := [], idSource := W.idSource.advance }
      have hrun : (W.step (.announce r)).2 = ((request host port packet actionAnnounce announceReply).run w₁).2 ∧
          (W.step (.announce r)).1.result =
            some (((request host port packet actionAnnounce announceReply).run w₁).1.map .announced) := by
        simp only [World.step, announce_run, hc]
        exact ⟨rfl, rfl⟩
      refine ⟨_, packet, actionAnnounce, announceReply, .announced, w₁.idSource, _,
        announcePacket_shape r _, by unfold w₁; split <;> simp, ?_, hrun.2⟩
      rw [hrun.1]
      unfold w₁
      split <;> rfl
  | scrape url hashes =>
    rcases hc : scrapeChecks url hashes with e | ⟨host, port⟩
    · -- a refused scrape returns its error before touching the world
      refine ⟨fun _ => ⟨⟨0, ?_⟩, .inr ⟨e, ?_⟩⟩, fun host port h => by
        simp [UdpOp.tracker?, hc, Except.toOption] at h⟩
      · simp [World.step, scrape_run, hc]
      · simp [World.step, scrape_run, hc, Except.map]
    · refine ⟨fun h => by simp [UdpOp.tracker?, hc, Except.toOption] at h, fun host' port' h => ?_⟩
      simp only [UdpOp.tracker?, hc, Except.toOption, Option.some.injEq, Prod.mk.injEq] at h
      obtain ⟨rfl, rfl⟩ := h
      -- a scrape draws no id before its request
      exact ⟨_, _, _, _, .scraped, W.idSource, _, scrapePacket_shape hashes, .inl rfl,
        by simp only [World.step, scrape_run, hc]; rfl, by simp only [World.step, scrape_run, hc]; rfl⟩

/-- A session a call takes leaves the cache empty, and is for the call's tracker. -/
theorem acquire_session {host : String} {port : Nat} {w w' : World}
    {r : Except TrackerError Session} (h : (acquire host port).run w = (r, w')) :
    w'.session = none ∧ w'.config = w.config ∧ ∀ s, r = .ok s → s.host = host ∧ s.port = port := by
  rcases acquire_spec h with ⟨s, -, hreuse, rfl, rfl⟩ | ⟨-, hhs⟩
  · refine ⟨rfl, rfl, fun s' hs' => ?_⟩
    cases hs'
    -- a reusable session is for the same tracker
    revert hreuse
    unfold Session.reusable
    split <;> simp_all
  · obtain ⟨hconfig, hsession, -, -, hcases⟩ := handshake_spec hhs
    refine ⟨by rw [hsession]; unfold World.shutdown; split <;> simp_all, by
      rw [hconfig]; unfold World.shutdown; split <;> rfl, fun s hs => ?_⟩
    rcases hcases with ⟨e, he, -⟩ | ⟨-, -, E, cid, -, -, hok, -⟩
    · cases hs.symm.trans he
    · obtain ⟨-, -, hhost, hport, -⟩ := hok s hs
      exact ⟨hhost, hport⟩

/-- After a request, a session is cached only under `reuse`, only after the request returned
`Ok`, and always then; it is for the request's tracker. -/
theorem request_session {β : Type} {host : String} {port : Nat} {packet : Nat → Nat → Bytes}
    {action : Nat} {parse : Bytes → Except TrackerError β} {w w' : World}
    {r : Except TrackerError (Reply β)} (h : (request host port packet action parse).run w = (r, w')) :
    w'.config = w.config ∧
    (∀ s, w'.session = some s → s.host = host ∧ s.port = port ∧ (∃ v, r = .ok v) ∧
      ∃ ttl, w.config.policy = .reuse ttl) ∧
    ((∃ v, r = .ok v) → (∃ ttl, w.config.policy = .reuse ttl) → w'.session.isSome) := by
  rcases request_spec h with ⟨e, hacq, rfl⟩ | ⟨s, w₁, a, w₂, hacq, hx, rfl, rfl⟩
  · obtain ⟨hsession, hconfig, -⟩ := acquire_session hacq
    exact ⟨hconfig, by simp [hsession], by simp⟩
  · obtain ⟨hsession, hconfig, hfor⟩ := acquire_session hacq
    obtain ⟨hs, hp⟩ := hfor s rfl
    obtain ⟨E, -, -, hframe⟩ := exchange_rounds hx
    have hsession₂ : w₂.session = none := hframe.session.trans hsession
    have hconfig₂ : w₂.config = w.config := hframe.config.trans hconfig
    rcases hreply : a.bind (Answer.reply parse) with e | v
    · simp [World.released, hsession₂, hconfig₂]
    · simp only [World.handedOver, hconfig₂]
      rcases hpol : w.config.policy with _ | ttl
      · simp [World.released, hsession₂, hconfig₂]
      · exact ⟨rfl, fun s' hs' => by cases hs'; exact ⟨hs, hp, ⟨v, rfl⟩, ttl, rfl⟩, fun _ _ => rfl⟩

/-- A request makes a connect call to its tracker unless the cached session serves it. -/
theorem request_connectCalls {β : Type} {host : String} {port : Nat} {packet : Nat → Nat → Bytes}
    {action : Nat} {parse : Bytes → Except TrackerError β} {w w' : World}
    {r : Except TrackerError (Reply β)} (h : (request host port packet action parse).run w = (r, w')) :
    w'.connectCalls = w.connectCalls ++
      if ∃ s, w.session = some s ∧ s.reusable w.config.policy w.clock host port = true then []
      else [(host, port)] := by
  have hacquire : ∀ {r' : Except TrackerError Session} {w₁ : World},
      (acquire host port).run w = (r', w₁) → w₁.connectCalls = w.connectCalls ++
        if ∃ s, w.session = some s ∧ s.reusable w.config.policy w.clock host port = true then []
        else [(host, port)] := by
    intro r' w₁ hacq
    rcases acquire_spec hacq with ⟨s, hs, hreuse, -, rfl⟩ | ⟨hnot, hhs⟩
    · rw [if_pos ⟨s, hs, hreuse⟩]
      simp
    · have hno : ¬∃ s, w.session = some s ∧ s.reusable w.config.policy w.clock host port = true :=
        fun ⟨s, hs, hreuse⟩ => by simp [hnot s hs] at hreuse
      rw [if_neg hno, (handshake_spec hhs).2.2.1]
      unfold World.shutdown
      split <;> rfl
  rcases request_spec h with ⟨e, hacq, -⟩ | ⟨s, w₁, a, w₂, hacq, hx, -, rfl⟩
  · exact hacquire hacq
  · obtain ⟨E, -, -, hframe⟩ := exchange_rounds hx
    have hcalls : w₂.connectCalls = w₁.connectCalls := hframe.connectCalls
    rw [← hacquire hacq, ← hcalls]
    split
    · unfold World.handedOver
      split <;> rfl
    · rfl

end BitTorrent.Tracker
