import BitTorrent.Tracker.UdpClient

/-!
# Runs of the UDP client's steps

Every computation of the client is run as `m.run w`, which gives the result and the world
after. Here each of the client's primitive steps gets one run equation, so that later proofs
never unfold a definition of the client; the exchange, the one loop, gets its trace.

## Main statements

* `run_bind`, `run_tryCatch`: how a run passes through `>>=` and `tryCatch`.
* `connect_run`, `send_run`, `receive_run`, `attempt_succ_run`: one equation per step.
* `awaitAnswer_ended`: a wait passes over the items that do not answer and stops at the first
  one that does, or at a fault.
* `exchange_rounds`: the log of an exchange is a sequence of rounds, a send followed by the
  items its wait took, and the exchange touches nothing but the clock, the network and the log.
-/

namespace BitTorrent

namespace Tracker

variable {α β : Type}

/-! ## Runs through the monad -/

@[simp] theorem run_pure (a : α) (w : World) : (pure a : UdpM α).run w = (.ok a, w) := rfl

@[simp] theorem run_throw (e : TrackerError) (w : World) :
    (throw e : UdpM α).run w = (.error e, w) := rfl

@[simp] theorem run_get (w : World) : (get : UdpM World).run w = (.ok w, w) := rfl

@[simp] theorem run_modify (f : World → World) (w : World) :
    (modify f : UdpM Unit).run w = (.ok (), f w) := rfl

theorem run_bind (x : UdpM α) (f : α → UdpM β) (w : World) :
    (x >>= f).run w = match x.run w with
      | (.ok a, w') => (f a).run w'
      | (.error e, w') => (.error e, w') := by
  show (ExceptT.bind x f).run w = _
  simp only [ExceptT.bind, ExceptT.run, ExceptT.mk, ExceptT.bindCont, bind, StateT.bind]
  rcases x w with ⟨r, w'⟩
  cases r <;> rfl

theorem run_map (f : α → β) (x : UdpM α) (w : World) :
    (f <$> x).run w = match x.run w with
      | (.ok a, w') => (.ok (f a), w')
      | (.error e, w') => (.error e, w') := by
  show (ExceptT.map f x).run w = _
  simp only [ExceptT.map, ExceptT.run, ExceptT.mk, bind, StateT.bind]
  rcases x w with ⟨r, w'⟩
  cases r <;> rfl

theorem run_tryCatch (x : UdpM α) (h : TrackerError → UdpM α) (w : World) :
    (tryCatch x h : UdpM α).run w = match x.run w with
      | (.ok a, w') => (.ok a, w')
      | (.error e, w') => (h e).run w' := by
  show (ExceptT.tryCatch x h).run w = _
  simp only [ExceptT.tryCatch, ExceptT.run, ExceptT.mk, bind, StateT.bind]
  rcases x w with ⟨r, w'⟩
  cases r <;> rfl

/-! ## The primitive steps -/

@[simp] theorem drawId_run (w : World) :
    drawId.run w = (.ok w.nextId, { w with idSource := w.idSource.advance }) := rfl

@[simp] theorem wait_run (ms : Nat) (w : World) :
    (wait ms).run w = (.ok (), { w with clock := w.clock + ms }) := rfl

@[simp] theorem release_run (t : Transport) (w : World) :
    (release t).run w =
      (.ok (), { w with events := w.events ++ [.closed t.id, .dropped t.id] }) := rfl

@[simp] theorem check_run (r : Except TrackerError α) (w : World) : (check r).run w = (r, w) := by
  cases r <;> rfl

theorem guarded_run (t : Transport) (act : UdpM α) (w : World) :
    (guarded t act).run w = match act.run w with
      | (.ok a, w') => (.ok a, w')
      | (.error e, w') => (.error e, { w' with events := w'.events ++ [.closed t.id, .dropped t.id] }) := by
  rw [guarded, run_tryCatch]
  rcases act.run w with ⟨r, w'⟩
  cases r <;> rfl

theorem connect_run (host : String) (port : Nat) (w : World) :
    (connect host port).run w =
      let w1 := { w with script := { w.script with connects := w.script.connects.tail },
                         connectCalls := w.connectCalls ++ [(host, port)] }
      match w.script.connects.headD .accept with
      | .accept =>
        (.ok ⟨w.nextTransport⟩,
          { w1 with nextTransport := w.nextTransport + 1,
                    events := w.events ++ [.opened w.nextTransport] })
      | .refuse => (.error (.io "connection refused"), w1)
      | .hang => (.error .timeout, { w1 with clock := w.clock + w.config.baseTimeout }) := by
  unfold connect
  rcases w with ⟨config, ids, session, clock, ⟨connects, replies, dflt, cid⟩, nextT, events,
    sent, calls, inbox⟩
  cases connects with
  | nil => rfl
  | cons p ps => cases p <;> rfl

theorem send_run (t : Transport) (packet : Bytes) (w : World) :
    (send t packet).run w =
      let w1 := { w with script := { w.script with replies := w.script.replies.tail } }
      match w.script.replies.headD w.script.defaultReply with
      | .sendFault => (.error (.io "send failed"), w1)
      | .queue items =>
        (.ok (),
          { w1 with sent := w.sent ++ [packet], events := w.events ++ [.sent t.id packet],
                    inbox := w.inbox ++ items.map (·.resolve w.script.connectionId packet) }) := by
  unfold send
  rcases w with ⟨config, ids, session, clock, ⟨connects, replies, dflt, cid⟩, nextT, events,
    sent, calls, inbox⟩
  cases replies with
  | nil => cases dflt <;> rfl
  | cons p ps => cases p <;> rfl

theorem receive_run (t : Transport) (n tid action : Nat) (w : World) :
    (receive t n tid action).run w =
      let w1 := { w with inbox := w.inbox.drop (awaitAnswer n tid action w.inbox).2.length,
                         events := w.events ++
                           (awaitAnswer n tid action w.inbox).2.map (.received t.id) }
      match (awaitAnswer n tid action w.inbox).1 with
      | some (.ok a) => (.ok (some a), w1)
      | some (.error e) => (.error e, w1)
      | none => (.ok none, w1) := by
  unfold receive
  simp only [run_bind, run_get, run_modify]
  rcases awaitAnswer n tid action w.inbox with ⟨got, taken⟩
  rcases got with _ | ⟨e | a⟩ <;> rfl

theorem exchange_run (t : Transport) (p : Bytes) (tid action : Nat) (w : World) :
    (exchange t p tid action).run w =
      (exchange.attempt t p tid action w.config 0 (w.config.maxRetries + 1)).run w := by
  rw [exchange, run_bind]
  rfl

theorem attempt_zero_run (t : Transport) (p : Bytes) (tid action : Nat) (c : UdpConfig)
    (k : Nat) (w : World) : (exchange.attempt t p tid action c k 0).run w = (.error .timeout, w) := by
  rw [exchange.attempt]
  rfl

theorem attempt_succ_run (t : Transport) (p : Bytes) (tid action : Nat) (c : UdpConfig)
    (k left : Nat) (w : World) :
    (exchange.attempt t p tid action c k (left + 1)).run w =
      match (send t p).run w with
      | (.error e, w1) => (.error e, w1)
      | (.ok (), w1) =>
        match (receive t c.recvBufferLen tid action).run w1 with
        | (.error e, w2) => (.error e, w2)
        | (.ok (some a), w2) => (.ok a, w2)
        | (.ok none, w2) => (exchange.attempt t p tid action c (k + 1) left).run
            { w2 with clock := w2.clock + c.baseTimeout * Nat.pow 2 (min k 8) } := by
  rw [exchange.attempt, run_bind]
  rcases (send t p).run w with ⟨r, w1⟩
  cases r with
  | error e => rfl
  | ok u =>
    simp only [run_bind]
    rcases (receive t c.recvBufferLen tid action).run w1 with ⟨r2, w2⟩
    rcases r2 with e | _ | a <;> rfl

/-! ## Waiting for an answer -/

/-- An item that a wait for the answer to `(tid, action)`, with a receive buffer of `n` bytes,
passes over: a datagram whose first `n` bytes do not answer. A fault ends every wait. -/
def Delivery.Passed (n tid action : Nat) : Delivery → Prop
  | .datagram d => classify (d.take n) tid action = none
  | .fault _ => False

/-- How a wait for the answer to `(tid, action)` ended, given the items it took: with nothing
after passing over all of them, with the answer of the first item that answers, or with the
error of a receive fault, everything before it passed over. -/
def WaitEnded (n tid action : Nat) : Option (Except TrackerError Answer) → List Delivery → Prop
  | none, taken => ∀ x ∈ taken, x.Passed n tid action
  | some (.ok a), taken => ∃ pre d, taken = pre ++ [.datagram d] ∧
      (∀ x ∈ pre, x.Passed n tid action) ∧ classify (d.take n) tid action = some a
  | some (.error e), taken => ∃ pre r, taken = pre ++ [.fault r] ∧
      (∀ x ∈ pre, x.Passed n tid action) ∧ e = .io r

/-- A wait takes a prefix of the queue, all of it when nothing answers, and ends as
`WaitEnded` says. -/
theorem awaitAnswer_ended (n tid action : Nat) (q : List Delivery) :
    (awaitAnswer n tid action q).2 <+: q ∧
    ((awaitAnswer n tid action q).1 = none → (awaitAnswer n tid action q).2 = q) ∧
    WaitEnded n tid action (awaitAnswer n tid action q).1 (awaitAnswer n tid action q).2 := by
  induction q with
  | nil => simp [awaitAnswer, WaitEnded]
  | cons x q ih =>
    obtain ⟨hpre, hall, hend⟩ := ih
    cases x with
    | fault r => exact ⟨by simp [awaitAnswer], by simp [awaitAnswer], ⟨[], r, by simp [awaitAnswer]⟩⟩
    | datagram d =>
      cases hc : classify (d.take n) tid action with
      | some a =>
        simp only [awaitAnswer, hc]
        exact ⟨by simp, by simp, [], d, by simp, by simp, hc⟩
      | none =>
        simp only [awaitAnswer, hc]
        have hpassed : (Delivery.datagram d).Passed n tid action := hc
        refine ⟨List.cons_prefix_cons.2 ⟨rfl, hpre⟩, fun h => by rw [hall h], ?_⟩
        rcases hgot : (awaitAnswer n tid action q).1 with _ | ⟨e | a⟩ <;>
          rw [hgot] at hend <;> simp only [WaitEnded] at hend ⊢
        · simpa [hpassed] using hend
        · obtain ⟨pre, r, htaken, hpre', rfl⟩ := hend
          exact ⟨.datagram d :: pre, r, by simp [htaken], List.forall_mem_cons.2 ⟨hpassed, hpre'⟩, rfl⟩
        · obtain ⟨pre, d', htaken, hpre', ha⟩ := hend
          exact ⟨.datagram d :: pre, d', by simp [htaken], List.forall_mem_cons.2 ⟨hpassed, hpre'⟩, ha⟩

/-! ## The trace of an exchange -/

/-- The log of an exchange on transport `i` of the datagram `p`, waiting for the answer to
`(tid, action)` with a receive buffer of `n` bytes, and how it ends: rounds of a send of `p`
followed by the items its wait took, every round before the last passing over all of them. -/
inductive Rounds (n i : Nat) (p : Bytes) (tid action : Nat) :
    List TransportEvent → Except TrackerError Answer → Prop
  /-- The network refuses the send. -/
  | sendFailed : Rounds n i p tid action [] (.error (.io "send failed"))
  /-- No retransmission is left. -/
  | timedOut : Rounds n i p tid action [] (.error .timeout)
  /-- The wait ends with an answer or a receive fault. -/
  | ended {taken : List Delivery} {r : Except TrackerError Answer} :
      WaitEnded n tid action (some r) taken →
      Rounds n i p tid action (.sent i p :: taken.map (.received i)) r
  /-- Nothing answers: the exchange goes on. -/
  | silent {taken : List Delivery} {E : List TransportEvent} {r : Except TrackerError Answer} :
      WaitEnded n tid action none taken → Rounds n i p tid action E r →
      Rounds n i p tid action (.sent i p :: taken.map (.received i) ++ E) r

/-- What traffic on a transport leaves alone: the settings, the id source, the cached session,
the connector and its calls; the clock only runs on. -/
structure TrafficFrame (w w' : World) : Prop where
  config : w'.config = w.config
  idSource : w'.idSource = w.idSource
  session : w'.session = w.session
  nextTransport : w'.nextTransport = w.nextTransport
  connectCalls : w'.connectCalls = w.connectCalls
  clock : w.clock ≤ w'.clock

theorem TrafficFrame.refl (w : World) : TrafficFrame w w := ⟨rfl, rfl, rfl, rfl, rfl, Nat.le_refl _⟩

theorem TrafficFrame.trans {w₁ w₂ w₃ : World} (h₁ : TrafficFrame w₁ w₂) (h₂ : TrafficFrame w₂ w₃) :
    TrafficFrame w₁ w₃ :=
  ⟨h₂.config.trans h₁.config, h₂.idSource.trans h₁.idSource, h₂.session.trans h₁.session,
    h₂.nextTransport.trans h₁.nextTransport, h₂.connectCalls.trans h₁.connectCalls,
    Nat.le_trans h₁.clock h₂.clock⟩

/-- The sends left to an exchange, run from any world: the log grows by rounds. -/
theorem attempt_rounds {t : Transport} {p : Bytes} {tid action : Nat} {c : UdpConfig}
    {k left : Nat} {w w' : World} {r : Except TrackerError Answer}
    (h : (exchange.attempt t p tid action c k left).run w = (r, w')) :
    ∃ E, w'.events = w.events ++ E ∧ Rounds c.recvBufferLen t.id p tid action E r ∧
      TrafficFrame w w' := by
  induction left generalizing k w with
  | zero =>
    rw [attempt_zero_run] at h
    cases h
    exact ⟨[], by simp, .timedOut, .refl _⟩
  | succ left ih =>
    rw [attempt_succ_run, send_run] at h
    rcases hplan : w.script.replies.headD w.script.defaultReply with items | _
    · -- the send went out; the wait decides whether this round is the last
      simp only [hplan, receive_run] at h
      obtain ⟨-, -, hend⟩ := awaitAnswer_ended c.recvBufferLen tid action
        (w.inbox ++ items.map (·.resolve w.script.connectionId p))
      revert hend h
      generalize awaitAnswer c.recvBufferLen tid action
        (w.inbox ++ items.map (·.resolve w.script.connectionId p)) = got
      rcases got with ⟨_ | ⟨e | a⟩, taken⟩ <;> intro h hend <;> dsimp only at h hend
      · obtain ⟨E, hE, hrounds, hframe⟩ := ih h
        refine ⟨.sent t.id p :: taken.map (.received t.id) ++ E, ?_, .silent hend hrounds,
          TrafficFrame.trans (by exact ⟨rfl, rfl, rfl, rfl, rfl, by simp⟩) hframe⟩
        simp [hE]
      · cases h
        exact ⟨_, by simp, .ended hend, ⟨rfl, rfl, rfl, rfl, rfl, Nat.le_refl _⟩⟩
      · cases h
        exact ⟨_, by simp, .ended hend, ⟨rfl, rfl, rfl, rfl, rfl, Nat.le_refl _⟩⟩
    · simp only [hplan] at h
      cases h
      exact ⟨[], by simp, .sendFailed, ⟨rfl, rfl, rfl, rfl, rfl, Nat.le_refl _⟩⟩

/-- An exchange logs rounds on its transport, with the receive buffer of the settings, and
touches nothing but the clock, the network and the log. -/
theorem exchange_rounds {t : Transport} {p : Bytes} {tid action : Nat} {w w' : World}
    {r : Except TrackerError Answer} (h : (exchange t p tid action).run w = (r, w')) :
    ∃ E, w'.events = w.events ++ E ∧ Rounds w.config.recvBufferLen t.id p tid action E r ∧
      TrafficFrame w w' := by
  rw [exchange_run] at h
  exact attempt_rounds h

end Tracker

end BitTorrent
