import BitTorrent.Proofs.Tracker.Transports

/-!
# Connection ids are used only where they were handed out

A connection id is good on the transport it was obtained on: the tracker's connect reply on
that transport carries it in bytes 8 to 16. The client never uses one elsewhere. Every request
it sends carries in bytes 0 to 8 the id of the connect reply accepted on the same transport
before the request (`acceptedOn`, read off the log), and a cached session's id is that of the
reply accepted on its transport. Under `perRequest` every call that passes its checks connects
afresh; under `reuse` a call skips the handshake exactly when the last call that passed its
checks returned `Ok`, for the same tracker, less than the session's lifetime ago.

## Main statements

* `Rounds.first_answer`: an exchange ends on the first datagram received that answers.
* `Handshook.accepted`: an adopted connection id is that of the accepted connect reply.
* `step_keeps_ids`: every call keeps each request tied to its transport's connect reply.
* `connection_ids_follow_handshakes`: over every run, each request carries the connection id
  its transport's accepted connect reply handed out, and the next call connects exactly when
  the policy and the cached session call for it.
-/

namespace BitTorrent.Tracker

/-! ## What a transport's log shows -/

/-- The datagram an item carries, if it is one. -/
def Delivery.datagram? : Delivery → Option Bytes
  | .datagram d => some d
  | .fault _ => none

/-- The datagrams sent on transport `i`, in order. -/
def sentOn (i : Nat) (E : List TransportEvent) : List Bytes :=
  E.filterMap fun
    | .sent j p => if j = i then some p else none
    | _ => none

/-- The datagrams received on transport `i`, whole, in order. -/
def receivedOn (i : Nat) (E : List TransportEvent) : List Bytes :=
  E.filterMap fun
    | .received j x => if j = i then x.datagram? else none
    | _ => none

@[simp] theorem sentOn_append (i : Nat) (E F : List TransportEvent) :
    sentOn i (E ++ F) = sentOn i E ++ sentOn i F := List.filterMap_append

@[simp] theorem receivedOn_append (i : Nat) (E F : List TransportEvent) :
    receivedOn i (E ++ F) = receivedOn i E ++ receivedOn i F := List.filterMap_append

@[simp] theorem sentOn_opened (i j : Nat) (E : List TransportEvent) :
    sentOn i (.opened j :: E) = sentOn i E := rfl

@[simp] theorem receivedOn_opened (i j : Nat) (E : List TransportEvent) :
    receivedOn i (.opened j :: E) = receivedOn i E := rfl

@[simp] theorem sentOn_sent_self (i : Nat) (p : Bytes) (E : List TransportEvent) :
    sentOn i (.sent i p :: E) = p :: sentOn i E := by
  simp [sentOn]

@[simp] theorem receivedOn_sent (i : Nat) (p : Bytes) (E : List TransportEvent) :
    receivedOn i (.sent i p :: E) = receivedOn i E := rfl

/-- No event of a log about other transports shows on transport `i`. -/
theorem sentOn_receivedOn_of_ne {i : Nat} {E : List TransportEvent} (h : ∀ e ∈ E, e.id ≠ i) :
    sentOn i E = [] ∧ receivedOn i E = [] := by
  induction E with
  | nil => exact ⟨rfl, rfl⟩
  | cons e E ih =>
    obtain ⟨hs, hr⟩ := ih fun e' he' => h e' (List.mem_cons_of_mem _ he')
    have he := h e List.mem_cons_self
    cases e <;> simp_all [sentOn, receivedOn, TransportEvent.id]

/-! ## How an exchange ends -/

/-- A datagram, cut to `n` bytes, answers the request `(tid, action)`. -/
def Answers (n tid action : Nat) (d : Bytes) : Bool := (classify (d.take n) tid action).isSome

/-- Items passed over by a wait show no answer among the datagrams received. -/
theorem find?_passed {n tid action i : Nat} {pre : List Delivery}
    (hpre : ∀ x ∈ pre, x.Passed n tid action) (F : List TransportEvent) :
    (receivedOn i (pre.map (.received i) ++ F)).find? (Answers n tid action) =
      (receivedOn i F).find? (Answers n tid action) := by
  induction pre with
  | nil => rfl
  | cons x pre ih =>
    have hx := hpre x List.mem_cons_self
    have hrest := ih fun y hy => hpre y (List.mem_cons_of_mem _ hy)
    cases x with
    | fault r => exact absurd hx id
    | datagram d =>
      simp only [Delivery.Passed] at hx
      simpa [receivedOn, Delivery.datagram?, Answers, hx] using hrest

/-- An exchange that answered sent its datagram first. -/
theorem Rounds.head_sent {n i tid action : Nat} {p : Bytes} {E : List TransportEvent}
    {r : Except TrackerError Answer} (h : Rounds n i p tid action E r) {a : Answer}
    (ha : r = .ok a) : ∃ E', E = .sent i p :: E' := by
  cases h with
  | sendFailed | timedOut => cases ha
  | ended => exact ⟨_, rfl⟩
  | silent => exact ⟨_, rfl⟩

/-- An exchange sends only its own datagram, on its own transport. -/
theorem Rounds.sent_eq {n i tid action : Nat} {p : Bytes} {E : List TransportEvent}
    {r : Except TrackerError Answer} (h : Rounds n i p tid action E r) :
    ∀ j q, .sent j q ∈ E → j = i ∧ q = p := by
  induction h with
  | sendFailed | timedOut => simp
  | ended => simp
  | silent _ _ ih =>
    intro j q hq
    simp only [List.cons_append, List.mem_cons, TransportEvent.sent.injEq, List.mem_append,
      List.mem_map, reduceCtorEq, and_false, exists_false, false_or] at hq
    rcases hq with ⟨rfl, rfl⟩ | hq
    · exact ⟨rfl, rfl⟩
    · exact ih j q hq

/-- An exchange that answered ended on the first datagram received that answers: its answer is
that datagram's. -/
theorem Rounds.first_answer {n i tid action : Nat} {p : Bytes} {E : List TransportEvent}
    {r : Except TrackerError Answer} (h : Rounds n i p tid action E r) {a : Answer}
    (ha : r = .ok a) :
    ∃ D, (receivedOn i E).find? (Answers n tid action) = some D ∧
      classify (D.take n) tid action = some a := by
  induction h with
  | sendFailed | timedOut => cases ha
  | ended hend =>
    subst ha
    obtain ⟨pre, D, rfl, hpre, hD⟩ := hend
    refine ⟨D, ?_, hD⟩
    rw [receivedOn_sent, List.map_append, find?_passed hpre]
    simp [receivedOn, Delivery.datagram?, Answers, hD]
  | silent hend _ ih =>
    rw [List.cons_append, receivedOn_sent, find?_passed hend]
    exact ih ha

/-! ## The connect reply a transport accepted -/

/-- A connect reply for the transaction id `tid`: eight bytes or more, with action 0 in bytes 0
to 4 and `tid` in bytes 4 to 8. -/
def ConnectReply (tid : Nat) (d : Bytes) : Prop :=
  8 ≤ d.length ∧ u32At d 0 = actionConnect ∧ u32At d 4 = tid

instance (tid : Nat) : DecidablePred (ConnectReply tid) :=
  fun d => inferInstanceAs (Decidable (8 ≤ d.length ∧ u32At d 0 = actionConnect ∧ u32At d 4 = tid))

/-- The connect reply transport `i` accepted, as its log shows: the first datagram received on
it that is a connect reply for the first datagram sent on it. -/
def acceptedOn (i : Nat) (E : List TransportEvent) : Option Bytes :=
  (sentOn i E).head?.bind fun c => (receivedOn i E).find? fun d => decide (ConnectReply (u32At c 12) d)

/-- What a transport accepted stays accepted as the log grows. -/
theorem acceptedOn_append {i : Nat} {E : List TransportEvent} {D : Bytes}
    (h : acceptedOn i E = some D) (F : List TransportEvent) : acceptedOn i (E ++ F) = some D := by
  unfold acceptedOn at h ⊢
  rcases hc : (sentOn i E).head? with _ | c
  · rw [hc] at h
    cases h
  · rw [hc, Option.bind_some] at h
    rw [sentOn_append, List.head?_append, hc, Option.some_or, Option.bind_some, receivedOn_append,
      List.find?_append, h, Option.some_or]

/-- A log about other transports does not change what transport `i` accepts. -/
theorem acceptedOn_of_ne {i : Nat} {E₀ : List TransportEvent} (h : ∀ e ∈ E₀, e.id ≠ i)
    (E : List TransportEvent) : acceptedOn i (E₀ ++ E) = acceptedOn i E := by
  obtain ⟨hs, hr⟩ := sentOn_receivedOn_of_ne h
  simp [acceptedOn, hs, hr]

/-- A connect reply answers its connect request with data. -/
theorem classify_connectReply {tid : Nat} {d : Bytes} (h : ConnectReply tid d) :
    classify d tid actionConnect = some (.data d) := by
  obtain ⟨hlen, h0, h4⟩ := h
  unfold classify
  simp only [u32At, List.drop_zero] at h0 h4
  simp [h0, h4, show ¬d.length < 8 by omega, actionConnect, actionError]

/-- The first element satisfying `p` is also the first satisfying a stronger `q` it satisfies. -/
theorem find?_of_imp {α : Type} {p q : α → Bool} {l : List α} {a : α} (h : l.find? p = some a)
    (hq : q a) (hqp : ∀ x, q x → p x) : l.find? q = some a := by
  rw [List.find?_eq_some_iff_append] at h ⊢
  obtain ⟨-, as, bs, rfl, has⟩ := h
  refine ⟨hq, as, bs, rfl, fun x hx => ?_⟩
  have hpx := has x hx
  cases hqx : q x
  · rfl
  · simp [hqp x hqx] at hpx

/-- What a handshake that adopted a connection id received: after its connect request, the first
datagram on its transport that answers the request is a connect reply with the request's
transaction id, and bytes 8 to 16 of it are the id. -/
theorem Handshook.reply {n m tid cid : Nat} {E : List TransportEvent}
    (h : Handshook n m tid E (some cid)) :
    ∃ E' D, E = .opened m :: .sent m (connectPacket tid) :: E' ∧
      (receivedOn m E').find? (Answers n tid actionConnect) = some D ∧ ConnectReply tid D ∧
      8 ≤ n ∧ Packet.u64 cid = (D.drop 8).take 8 := by
  cases h with
  | adopted hrounds hlong =>
    rename_i E' d
    obtain ⟨D, hfirst, hD⟩ := hrounds.first_answer rfl
    obtain ⟨-, htidD, hkind⟩ := classify_eq_some hD
    obtain ⟨E'', rfl⟩ := hrounds.head_sent rfl
    rcases hkind with ⟨-, hne⟩ | ⟨-, h0, hd⟩
    · cases hne
    · -- the answer is the datagram cut to the buffer, so the buffer holds 16 bytes
      cases hd
      have hlen : 16 ≤ n ∧ 16 ≤ D.length := by
        simp only [List.length_take] at hlong
        omega
      have hbytes : ((D.take n).drop 8).take 8 = (D.drop 8).take 8 := by
        rw [List.drop_take, List.take_take]
        congr 1
        omega
      refine ⟨E'', D, rfl, by simpa using hfirst, ⟨by omega, ?_, ?_⟩, by omega, ?_⟩
      · rwa [u32At_take D (by omega)] at h0
      · rwa [u32At_take D (by omega)] at htidD
      · rw [hbytes]
        exact u64_toNatBE (by simp; omega)

/-- A handshake that adopted a connection id took it from bytes 8 to 16 of the connect reply its
transport accepted, on a transport fresh in the log so far. -/
theorem Handshook.accepted {n m tid cid : Nat} {E₀ E : List TransportEvent}
    (h : Handshook n m tid E (some cid)) (htid : tid < Nat.pow 2 32)
    (hfresh : ∀ e ∈ E₀, e.id ≠ m) :
    ∃ D, acceptedOn m (E₀ ++ E) = some D ∧ Packet.u64 cid = (D.drop 8).take 8 := by
  obtain ⟨E', D, rfl, hfirst, hreply, hn, hbytes⟩ := h.reply
  have hanswers : ∀ x, decide (ConnectReply tid x) = true → Answers n tid actionConnect x := by
    intro x hx
    have hx' : ConnectReply tid x := of_decide_eq_true hx
    simp [Answers, classify_take x hn, classify_connectReply hx']
  refine ⟨D, ?_, hbytes⟩
  rw [acceptedOn_of_ne hfresh]
  simp only [acceptedOn, sentOn_opened, receivedOn_opened, sentOn_sent_self, receivedOn_sent,
    List.head?_cons, Option.bind_some]
  rw [(connectPacket_fields tid).2, Nat.mod_eq_of_lt htid]
  exact find?_of_imp hfirst (decide_eq_true hreply) hanswers

/-- A handshake sends only connect requests, all on its own transport, which it was handed. -/
theorem Handshook.sends {n m tid : Nat} {E : List TransportEvent} {cid : Option Nat}
    (h : Handshook n m tid E cid) :
    .opened m ∈ E ∧ ∀ i p, .sent i p ∈ E → i = m ∧ u32At p 8 = actionConnect := by
  have hconnect : ∀ {E' : List TransportEvent} {a : Except TrackerError Answer},
      Rounds n m (connectPacket tid) tid actionConnect E' a →
      ∀ i p, .sent i p ∈ E' → i = m ∧ u32At p 8 = actionConnect := by
    intro E' a hrounds i p hp
    obtain ⟨rfl, rfl⟩ := hrounds.sent_eq i p hp
    exact ⟨rfl, (connectPacket_fields tid).1⟩
  cases h with
  | adopted hrounds _ =>
    refine ⟨List.mem_cons_self, fun i p hp => ?_⟩
    simp only [List.mem_cons, reduceCtorEq, false_or] at hp
    exact hconnect hrounds i p hp
  | abandoned hrounds _ =>
    refine ⟨List.mem_cons_self, fun i p hp => ?_⟩
    simp only [List.cons_append, List.mem_cons, reduceCtorEq, List.mem_append, false_or,
      List.not_mem_nil, or_false] at hp
    exact hconnect hrounds i p hp

/-! ## Requests carry their transport's connection id -/

/-- A session's connection id is bytes 8 to 16 of the connect reply its transport accepted. -/
def Adopted (E : List TransportEvent) (s : Session) : Prop :=
  ∃ D, acceptedOn s.transport.id E = some D ∧ Packet.u64 s.connectionId = (D.drop 8).take 8

theorem Adopted.append {E : List TransportEvent} {s : Session} (h : Adopted E s)
    (F : List TransportEvent) : Adopted (E ++ F) s := by
  obtain ⟨D, hD, hid⟩ := h
  exact ⟨D, acceptedOn_append hD F, hid⟩

/-- Every request sent in a log, a datagram whose action is not a connect, carries in bytes 0 to
8 bytes 8 to 16 of the connect reply its transport accepted before it. -/
def RequestsCarry (E : List TransportEvent) : Prop :=
  ∀ k i p, E[k]? = some (.sent i p) → u32At p 8 ≠ actionConnect →
    ∃ D, acceptedOn i (E.take k) = some D ∧ p.take 8 = (D.drop 8).take 8

/-- A log extended by requests that carry what their transports had accepted before. -/
theorem RequestsCarry.append {E F : List TransportEvent} (hE : RequestsCarry E)
    (hF : ∀ i p, .sent i p ∈ F → u32At p 8 ≠ actionConnect →
      ∃ D, acceptedOn i E = some D ∧ p.take 8 = (D.drop 8).take 8) : RequestsCarry (E ++ F) := by
  intro k i p hk hreq
  rcases Nat.lt_or_ge k E.length with hlt | hge
  · rw [List.getElem?_append_left hlt] at hk
    rw [List.take_append_of_le_length (Nat.le_of_lt hlt)]
    exact hE k i p hk hreq
  · rw [List.getElem?_append_right hge] at hk
    obtain ⟨D, hD, hbytes⟩ := hF i p (List.mem_of_getElem? hk) hreq
    refine ⟨D, ?_, hbytes⟩
    rw [List.take_append, List.take_of_length_le hge]
    exact acceptedOn_append hD _

/-- A log extended by events that send nothing. -/
theorem RequestsCarry.append_quiet {E F : List TransportEvent} (hE : RequestsCarry E)
    (hF : ∀ i p, .sent i p ∉ F) : RequestsCarry (E ++ F) :=
  hE.append fun i p hp => absurd hp (hF i p)

/-- What the client keeps of connection ids between calls: its log reads (`Tidy`), every request
sent carries its transport's connection id, and the cached session's id is that of the connect
reply its transport accepted. -/
structure IdsKept (w : World) : Prop where
  tidy : Tidy w
  carried : RequestsCarry w.events
  adopted : ∀ s, w.session = some s → Adopted w.events s

/-- A handshake sends connect requests only, and a session it yields has the id of the connect
reply its fresh transport accepted. -/
theorem handshake_ids {host : String} {port : Nat} {w w' : World}
    {r : Except TrackerError Session}
    (hw : Holding.replay ⟨none, 0⟩ w.events = some ⟨none, w.nextTransport⟩)
    (hc : RequestsCarry w.events) (h : (handshake host port).run w = (r, w')) :
    RequestsCarry w'.events ∧ ∀ s, r = .ok s → Adopted w'.events s := by
  obtain ⟨-, -, -, -, hcases⟩ := handshake_spec h
  rcases hcases with ⟨e, rfl, hev, -, -⟩ | ⟨-, -, E, cid, hshook, hev, hok, -⟩
  · exact ⟨hev ▸ hc, fun s hs => by cases hs⟩
  · refine ⟨hev ▸ hc.append fun i p hp hreq => ?_, fun s hs => ?_⟩
    · exact absurd (hshook.sends.2 i p hp).2 hreq
    · obtain ⟨hcid, htr, -⟩ := hok s hs
      rw [hcid] at hshook
      obtain ⟨D, hD, hbytes⟩ := hshook.accepted w.nextId_lt (replay_facts hw).fresh
      exact ⟨D, by rw [hev, htr]; exact hD, hbytes⟩

/-- Dropping a session sends nothing. -/
theorem shutdown_events (w : World) :
    ∃ R, w.shutdown.events = w.events ++ R ∧ ∀ i p, .sent i p ∉ R ∧ .opened i ∉ R := by
  unfold World.shutdown
  split
  · exact ⟨_, rfl, fun i p => by simp⟩
  · exact ⟨[], by simp, fun i p => by simp⟩

theorem shutdown_ids {w : World} (hw : IdsKept w) :
    Holding.replay ⟨none, 0⟩ w.shutdown.events = some ⟨none, w.shutdown.nextTransport⟩ ∧
    RequestsCarry w.shutdown.events := by
  obtain ⟨R, hR, hquiet⟩ := shutdown_events w
  have hsame : w.shutdown.nextTransport = w.nextTransport := by
    unfold World.shutdown
    split <;> rfl
  rw [hsame, hR]
  exact ⟨hR ▸ shutdown_tidy hw.tidy, hw.carried.append_quiet fun i p => (hquiet i p).1⟩

/-- Taking a session keeps requests tied to their connect replies, and the session has the id of
the connect reply its transport accepted. -/
theorem acquire_ids {host : String} {port : Nat} {w w' : World}
    {r : Except TrackerError Session} (hw : IdsKept w) (h : (acquire host port).run w = (r, w')) :
    RequestsCarry w'.events ∧ ∀ s, r = .ok s → Adopted w'.events s := by
  rcases acquire_spec h with ⟨s, hs, -, rfl, rfl⟩ | ⟨-, hhs⟩
  · exact ⟨hw.carried, fun s' hs' => by cases hs'; exact hw.adopted s hs⟩
  · obtain ⟨hread, hc⟩ := shutdown_ids hw
    exact handshake_ids hread hc hhs

/-- A request keeps what the client keeps of connection ids. -/
theorem request_ids {β : Type} {host : String} {port : Nat} {packet : Nat → Nat → Bytes}
    {action : Nat} {parse : Bytes → Except TrackerError β} {w w' : World}
    {r : Except TrackerError (Reply β)} (hshape : RequestShape packet action) (hw : IdsKept w)
    (h : (request host port packet action parse).run w = (r, w')) : IdsKept w' := by
  have htidy := request_tidy hw.tidy h
  rcases request_spec h with ⟨e, hacq, -⟩ | ⟨s, w₁, a, w₂, hacq, hx, -, rfl⟩
  · obtain ⟨hc, -⟩ := acquire_ids hw hacq
    exact ⟨htidy, hc, fun s hs => by simp [(acquire_session hacq).1] at hs⟩
  · obtain ⟨hc, hadopt⟩ := acquire_ids hw hacq
    have hs := hadopt s rfl
    obtain ⟨E, hE, hrounds, hframe⟩ := exchange_rounds hx
    -- the exchange sends the request, which carries the session's id, on the session's transport
    have hc₂ : RequestsCarry w₂.events := by
      rw [hE]
      refine hc.append fun i p hp _ => ?_
      obtain ⟨rfl, rfl⟩ := hrounds.sent_eq i p hp
      obtain ⟨D, hD, hbytes⟩ := hs
      exact ⟨D, hD, (hshape.connectionId_eq _ _).trans hbytes⟩
    have hs₂ : Adopted w₂.events s := hE ▸ hs.append E
    have hsession₂ : w₂.session = none := hframe.session.trans (acquire_session hacq).1
    refine ⟨htidy, ?_, ?_⟩
    · split
      · unfold World.handedOver
        split
        · exact hc₂
        · exact hc₂.append_quiet fun i p => by simp
      · exact hc₂.append_quiet fun i p => by simp
    · -- only a success under `reuse` caches the session, with the id its transport accepted
      intro s'
      split
      · unfold World.handedOver
        split
        · intro hs'
          cases hs'
          exact hs₂
        · simp [World.released, hsession₂]
      · simp [World.released, hsession₂]

/-- Every call keeps what the client keeps of connection ids. -/
theorem step_keeps_ids {W : World} (hW : IdsKept W) (op : UdpOp) : IdsKept (W.step op).2 := by
  rcases hop : op.tracker? with _ | ⟨host, port⟩
  · obtain ⟨ms, hw⟩ := ((step_spec W op).1 hop).1
    rw [hw]
    exact ⟨hW.tidy, hW.carried, hW.adopted⟩
  · obtain ⟨β, packet, action, parse, wrap, k, res, hshape, -, hrun, -⟩ :=
      (step_spec W op).2 host port hop
    have hW' : IdsKept { W with sent := [], connectCalls := [], idSource := k } :=
      ⟨hW.tidy, hW.carried, hW.adopted⟩
    exact request_ids hshape hW' hrun

theorem final_ids (config : UdpConfig) (script : Script) (ids : Nat → UInt32) (ops : List UdpOp) :
    IdsKept ((World.initial config script ids).final ops) := by
  suffices h : ∀ W, IdsKept W → IdsKept (W.final ops) from
    h _ ⟨rfl, by simp [RequestsCarry, World.initial],
      fun s hs => by simp [World.initial] at hs⟩
  induction ops with
  | nil => exact fun W hW => hW
  | cons op ops ih => exact fun W hW => ih _ (step_keeps_ids hW op)

/-! ## Which transport a call uses -/

/-- Taking a session: a handshake sends on the transport it was handed during the call, and
the session's transport was handed out during the call or is the cached one that serves it. -/
theorem acquire_fresh {host : String} {port : Nat} {w w' : World}
    {r : Except TrackerError Session} (h : (acquire host port).run w = (r, w')) :
    ∃ F, w'.events = w.events ++ F ∧ (∀ i p, .sent i p ∈ F → .opened i ∈ F) ∧
      ∀ s, r = .ok s → .opened s.transport.id ∈ F ∨
        (w.session = some s ∧ s.reusable w.config.policy w.clock host port = true) := by
  rcases acquire_spec h with ⟨s, hs, hreuse, rfl, rfl⟩ | ⟨-, hhs⟩
  · exact ⟨[], by simp, by simp, fun s' hs' => by cases hs'; exact .inr ⟨hs, hreuse⟩⟩
  · obtain ⟨R, hR, hquiet⟩ := shutdown_events w
    obtain ⟨-, -, -, -, hcases⟩ := handshake_spec hhs
    rcases hcases with ⟨e, rfl, hev, -, -⟩ | ⟨-, -, E, cid, hshook, hev, hok, -⟩
    · exact ⟨R, by rw [hev, hR], fun i p hp => absurd hp (hquiet i p).1, fun s hs => by cases hs⟩
    · obtain ⟨hopened, hsends⟩ := hshook.sends
      refine ⟨R ++ E, by rw [hev, hR, List.append_assoc], fun i p hp => ?_, fun s hs => ?_⟩
      · rcases List.mem_append.1 hp with hp | hp
        · exact absurd hp (hquiet i p).1
        · rw [(hsends i p hp).1]
          exact List.mem_append_right _ hopened
      · obtain ⟨-, htr, -⟩ := hok s hs
        exact .inl (htr ▸ List.mem_append_right _ hopened)

/-- The end of a call, handing the session over or releasing it, sends nothing. -/
theorem handedOver_quiet (w : World) (s : Session) :
    ∃ T, (w.handedOver s).events = w.events ++ T ∧ ∀ i p, .sent i p ∉ T := by
  unfold World.handedOver
  split
  · exact ⟨[], by simp, by simp⟩
  · exact ⟨_, rfl, by simp⟩

/-- A request sends on a transport handed out during the call, or on the cached session's
transport when it serves the call. -/
theorem request_fresh {β : Type} {host : String} {port : Nat} {packet : Nat → Nat → Bytes}
    {action : Nat} {parse : Bytes → Except TrackerError β} {w w' : World}
    {r : Except TrackerError (Reply β)} (h : (request host port packet action parse).run w = (r, w')) :
    ∃ F, w'.events = w.events ++ F ∧ ∀ i p, .sent i p ∈ F → .opened i ∈ F ∨
      ∃ s, w.session = some s ∧ s.reusable w.config.policy w.clock host port = true ∧
        s.transport.id = i := by
  rcases request_spec h with ⟨e, hacq, -⟩ | ⟨s, w₁, a, w₂, hacq, hx, -, hw'⟩
  · obtain ⟨F, hF, hsends, -⟩ := acquire_fresh hacq
    exact ⟨F, hF, fun i p hp => .inl (hsends i p hp)⟩
  · obtain ⟨F, hF, hsends, hsession⟩ := acquire_fresh hacq
    obtain ⟨E, hE, hrounds, -⟩ := exchange_rounds hx
    have htail : ∃ T, w'.events = w₂.events ++ T ∧ ∀ i p, .sent i p ∉ T := by
      rw [hw']
      split
      · exact handedOver_quiet w₂ s
      · exact ⟨_, rfl, by simp⟩
    obtain ⟨T, hT, hquiet⟩ := htail
    refine ⟨F ++ E ++ T, by rw [hT, hE, hF]; simp, fun i p hp => ?_⟩
    simp only [List.mem_append] at hp
    rcases hp with (hp | hp) | hp
    · exact .inl (List.mem_append_left _ (List.mem_append_left _ (hsends i p hp)))
    · -- the request goes on the session's transport
      obtain ⟨rfl, -⟩ := hrounds.sent_eq i p hp
      rcases hsession s rfl with hop | ⟨hs, hreuse⟩
      · exact .inl (List.mem_append_left _ (List.mem_append_left _ hop))
      · exact .inr ⟨s, hs, hreuse, rfl⟩
    · exact absurd hp (hquiet i p)

theorem LastChecked.unique {ops : List UdpOp} {k k' : Nat} (h : LastChecked ops k)
    (h' : LastChecked ops k') : k = k' := by
  by_contra hne
  rcases Nat.lt_or_gt_of_ne hne with hlt | hgt
  · have hsome := h'.1
    rw [h.2 k' hlt] at hsome
    cases hsome
  · have hsome := h.1
    rw [h'.2 k hgt] at hsome
    cases hsome

/-- Under `reuse`, the session cached after a run serves a call to `host:port` exactly when the
last call that passed its checks returned `Ok`, for that tracker, and the session is younger than
`ttl`. -/
theorem cached_session_serves_iff (config : UdpConfig) (script : Script) (ids : Nat → UInt32)
    (ops : List UdpOp) {ttl : Nat} (hpol : config.policy = .reuse ttl) (host : String)
    (port : Nat) :
    (∃ s, ((World.initial config script ids).final ops).session = some s ∧
        s.reusable config.policy ((World.initial config script ids).final ops).clock host port) ↔
      ∃ k v s, LastChecked ops k ∧ ops[k]?.bind UdpOp.tracker? = some (host, port) ∧
        ((World.initial config script ids).run ops)[k]?.bind (·.result) = some (.ok v) ∧
        ((World.initial config script ids).final ops).session = some s ∧
        ((World.initial config script ids).final ops).clock - s.obtainedAt < ttl := by
  simp only [hpol, Session.reusable, Bool.and_eq_true, decide_eq_true_eq, beq_iff_eq]
  constructor
  · rintro ⟨s, hs, ⟨hage, rfl⟩, rfl⟩
    obtain ⟨-, k, v, hk, htracker, hv⟩ := (session_history config script ids ops).1 s hs
    exact ⟨k, v, s, hk, htracker, hv, hs, hage⟩
  · rintro ⟨k, v, s, hk, htracker, hv, hs, hage⟩
    -- the cached session comes from the last checked call, so it is for that call's tracker
    obtain ⟨-, k', v', hk', htracker', -⟩ := (session_history config script ids ops).1 s hs
    rw [hk.unique hk', htracker'] at htracker
    obtain ⟨rfl, rfl⟩ := Prod.mk.inj (Option.some.inj htracker)
    exact ⟨s, hs, ⟨hage, rfl⟩, rfl⟩

/-- Over every run, and the call that follows it: every request sent carries in bytes 0 to 8
bytes 8 to 16 of the connect reply its transport accepted before it. A call that passes its
checks and does not skip the handshake connects once, to its tracker, and sends only on a
transport handed out during the call; under `perRequest` no call skips it; under `reuse` a call
skips it exactly when the last call that passed its checks returned `Ok`, for the same tracker,
and the cached session's handshake ended less than `ttl` ago. A call that fails leaves no
session cached. -/
theorem connection_ids_follow_handshakes (config : UdpConfig) (script : Script) (ids : Nat → UInt32)
    (ops : List UdpOp) :
    let W := (World.initial config script ids).final ops
    (∀ E₁ i p E₂, W.events = E₁ ++ .sent i p :: E₂ → u32At p 8 ≠ actionConnect →
      ∃ D, acceptedOn i E₁ = some D ∧ p.take 8 = (D.drop 8).take 8) ∧
    ∀ op host port, op.tracker? = some (host, port) →
      ∃ F, (W.step op).2.events = W.events ++ F ∧
        ((W.step op).1.connectCalls ≠ [] →
          (W.step op).1.connectCalls = [(host, port)] ∧ ∀ i p, .sent i p ∈ F → .opened i ∈ F) ∧
        (config.policy = .perRequest → (W.step op).1.connectCalls ≠ []) ∧
        (∀ ttl, config.policy = .reuse ttl →
          ((W.step op).1.connectCalls = [] ↔
            ∃ k v s, LastChecked ops k ∧ ops[k]?.bind UdpOp.tracker? = some (host, port) ∧
              ((World.initial config script ids).run ops)[k]?.bind (·.result) = some (.ok v) ∧
              W.session = some s ∧ W.clock - s.obtainedAt < ttl)) ∧
        (∀ e, (W.step op).1.result = some (.error e) → (W.step op).2.session = none) := by
  intro W
  have hkept := final_ids config script ids ops
  have hconfig : W.config = config := World.final_config _ ops
  refine ⟨fun E₁ i p E₂ hsplit hreq => ?_, fun op host port hop => ?_⟩
  · -- the request stands at position `E₁.length` of the log
    have hk : W.events[E₁.length]? = some (.sent i p) := by simp [hsplit]
    obtain ⟨D, hD, hbytes⟩ := hkept.carried E₁.length i p hk hreq
    refine ⟨D, ?_, hbytes⟩
    rwa [hsplit, List.take_left' rfl] at hD
  · obtain ⟨β, packet, action, parse, wrap, k, res, -, -, hrun, hresult⟩ :=
      (step_spec W op).2 host port hop
    obtain ⟨F, hF, hfresh⟩ := request_fresh hrun
    have hcalls : (W.step op).1.connectCalls =
        if ∃ s, W.session = some s ∧ s.reusable config.policy W.clock host port = true then []
        else [(host, port)] := by
      rw [(step_report W op).1, request_connectCalls hrun, ← hconfig]
      rfl
    refine ⟨F, hF, fun hne => ?_, fun hpol => ?_, fun ttl hpol => ?_, fun e he => ?_⟩
    · -- a call that connects does so once, to its tracker, and sends only on what it opened
      rw [hcalls] at hne ⊢
      split at hne
      · exact absurd rfl hne
      · rename_i hnot
        rw [if_neg hnot]
        refine ⟨rfl, fun i p hp => ?_⟩
        rcases hfresh i p hp with hopened | ⟨s, hs, hreuse, -⟩
        · exact hopened
        · exact absurd ⟨s, hs, by rw [← hconfig]; exact hreuse⟩ hnot
    · -- under `perRequest` no cached session is reusable
      rw [hcalls, if_neg]
      · simp
      · rintro ⟨s, -, hreuse⟩
        simp [Session.reusable, hpol] at hreuse
    · -- the call skips the handshake exactly when the cached session serves it
      rw [hcalls, ← cached_session_serves_iff config script ids ops hpol host port]
      split
      · next hserve => exact iff_of_true rfl hserve
      · next hserve => exact iff_of_false (List.cons_ne_nil _ _) hserve
    · -- a failed call releases its session and caches nothing
      obtain ⟨-, hcached, -⟩ := request_session hrun
      rcases hs : (W.step op).2.session with _ | s
      · rfl
      · obtain ⟨-, -, ⟨v, hv⟩, -⟩ := hcached s hs
        rw [hresult, hv] at he
        simp [Except.map] at he

end BitTorrent.Tracker
