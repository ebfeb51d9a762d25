import BitTorrent.Proofs.Tracker.Sessions

/-!
# Transports are closed once, and one at a time

The connector hands out transports; the client must close every one it gets exactly once and
never hold two open at a time, on every path through a call: success, a refused or hung
connect, a failed send or receive, a timeout, a refusal and a reply that does not parse.

Reading the log of transport events in order (`Holding.replay`) checks this discipline event by
event: a transport is handed out only while none is open, is used and closed only while it is
the open one, and is dropped only once closed. Every step of the client keeps its log readable
in this sense, with the cached session's transport as the open one between calls (`step_tidy`),
and the plain facts about open and closed transports follow from a readable log
(`LogFacts`).

## Main statements

* `Holding.step_cases`: what reading one event can do.
* `LogFacts.snoc`: one more event read keeps the facts about the log.
* `Rounds.traffic`, `Handshook.replay`: the logs of an exchange and of a handshake read.
* `request_tidy`, `step_tidy`: a call keeps the log readable.
* `transports_closed_once`: at most one transport is open at any time; every transport is
  closed exactly once by the time the client is dropped; between calls the open transport is the
  cached session's, and a session is cached only under `reuse` after a call that returned `Ok`.
-/

namespace BitTorrent.Tracker

/-- Transport `i` is open in a log: it was handed out and has not been closed. -/
def OpenIn (E : List TransportEvent) (i : Nat) : Prop := .opened i ∈ E ∧ .closed i ∉ E

/-- The transport an event is about. -/
def TransportEvent.id : TransportEvent → Nat
  | .opened i | .sent i _ | .received i _ | .closed i | .dropped i => i

/-- An event of traffic on transport `i`: a datagram sent on it, or an item received on it. -/
def TransportEvent.Traffic (i : Nat) : TransportEvent → Prop
  | .sent j _ | .received j _ => j = i
  | _ => False

/-! ## Reading a log -/

/-- What is held while a log is read: the open transport, if any, and the number of transports
handed out so far. -/
structure Holding where
  held : Option Nat
  handed : Nat
deriving DecidableEq, Repr

/-- Reads one event: a transport is handed out, numbered in turn, only while none is open; it
is used and closed only while it is the open one; it is dropped only once closed. Any other
event breaks the discipline. -/
def Holding.step : Holding → TransportEvent → Option Holding
  | ⟨none, k⟩, .opened i => if i = k then some ⟨some i, k + 1⟩ else none
  | ⟨some j, k⟩, .sent i _ => if i = j then some ⟨some j, k⟩ else none
  | ⟨some j, k⟩, .received i _ => if i = j then some ⟨some j, k⟩ else none
  | ⟨some j, k⟩, .closed i => if i = j then some ⟨none, k⟩ else none
  | ⟨none, k⟩, .dropped i => if i < k then some ⟨none, k⟩ else none
  | _, _ => none

/-- Reads a log from `g`, event by event. -/
def Holding.replay (g : Holding) (E : List TransportEvent) : Option Holding :=
  E.foldlM Holding.step g

theorem Holding.replay_cons (g : Holding) (e : TransportEvent) (E : List TransportEvent) :
    g.replay (e :: E) = (g.step e).bind (·.replay E) := rfl

theorem Holding.replay_append (g : Holding) (E F : List TransportEvent) :
    g.replay (E ++ F) = (g.replay E).bind (·.replay F) := by
  simp only [replay, List.foldlM_append]
  rfl

theorem Holding.replay_append_singleton (g : Holding) (E : List TransportEvent)
    (e : TransportEvent) : g.replay (E ++ [e]) = (g.replay E).bind (·.step e) := by
  rw [replay_append]
  rcases g.replay E with _ | g'
  · rfl
  · simp only [Option.bind_some, replay, List.foldlM_cons, List.foldlM_nil]
    rcases g'.step e <;> rfl

/-- A readable log has readable prefixes. -/
theorem Holding.replay_prefix {g g' : Holding} {E P : List TransportEvent}
    (hE : g.replay E = some g') (hP : P <+: E) : ∃ g'', g.replay P = some g'' := by
  obtain ⟨Q, rfl⟩ := hP
  rw [replay_append] at hE
  rcases hrp : g.replay P with _ | g''
  · rw [hrp] at hE
    cases hE
  · exact ⟨g'', rfl⟩

/-- Traffic on the open transport reads without changing what is held. -/
theorem Holding.replay_traffic {i k : Nat} {E : List TransportEvent}
    (h : ∀ e ∈ E, e.Traffic i) : Holding.replay ⟨some i, k⟩ E = some ⟨some i, k⟩ := by
  induction E with
  | nil => rfl
  | cons e E ih =>
    have he := h e List.mem_cons_self
    have hrest := ih fun e' he' => h e' (List.mem_cons_of_mem _ he')
    rw [replay_cons]
    cases e <;> simp only [TransportEvent.Traffic] at he <;> subst he <;> simpa [step] using hrest

/-- Releasing the open transport reads as closing and dropping it. -/
theorem Holding.replay_release {i k : Nat} (hi : i < k) :
    Holding.replay ⟨some i, k⟩ [.closed i, .dropped i] = some ⟨none, k⟩ := by
  simp [replay, step, hi]

/-! ## What a readable log says -/

/-- What a log read up to holding `held`, with `handed` transports handed out, says: the
transports handed out are those numbered below `handed`, and no event is about another; the only
open one is the held one; and each is closed once if it was handed out and is no longer held,
and never otherwise. -/
structure LogFacts (E : List TransportEvent) (held : Option Nat) (handed : Nat) : Prop where
  opened_iff : ∀ i, .opened i ∈ E ↔ i < handed
  id_lt : ∀ e ∈ E, e.id < handed
  open_iff : ∀ i, OpenIn E i ↔ held = some i
  count_closed : ∀ i, E.count (.closed i) = if .opened i ∈ E ∧ held ≠ some i then 1 else 0

theorem LogFacts.nil : LogFacts [] none 0 :=
  ⟨by simp, by simp, by simp [OpenIn], by simp⟩

/-- The held transport was handed out. -/
theorem LogFacts.held_lt {E : List TransportEvent} {i k : Nat} (h : LogFacts E (some i) k) :
    i < k :=
  (h.opened_iff i).1 ((h.open_iff i).2 rfl).1

/-- The transport numbered `handed` is fresh: no event of the log is about it. -/
theorem LogFacts.fresh {E : List TransportEvent} {held : Option Nat} {handed : Nat}
    (h : LogFacts E held handed) : ∀ e ∈ E, e.id ≠ handed :=
  fun e he => Nat.ne_of_lt (h.id_lt e he)

/-- What reading one event can do: hand out the next transport while none is open, pass traffic
on the open one, close the open one, or drop one handed out while none is open. -/
theorem Holding.step_cases {held : Option Nat} {handed : Nat} {e : TransportEvent} {g : Holding}
    (h : Holding.step ⟨held, handed⟩ e = some g) :
    (held = none ∧ e = .opened handed ∧ g = ⟨some handed, handed + 1⟩) ∨
    (∃ j, held = some j ∧ e.Traffic j ∧ g = ⟨held, handed⟩) ∨
    (∃ j, held = some j ∧ e = .closed j ∧ g = ⟨none, handed⟩) ∨
    (held = none ∧ (∃ i, e = .dropped i ∧ i < handed) ∧ g = ⟨none, handed⟩) := by
  -- every other pair of what is held and the event read fails
  rcases held with _ | j <;> cases e <;>
    simp only [Holding.step, Option.ite_none_right_eq_some, Option.some.injEq, reduceCtorEq] at h
  case none.opened i =>
    obtain ⟨rfl, rfl⟩ := h
    exact .inl ⟨rfl, rfl, rfl⟩
  case some.sent i p =>
    obtain ⟨rfl, rfl⟩ := h
    exact .inr (.inl ⟨i, rfl, rfl, rfl⟩)
  case some.received i x =>
    obtain ⟨rfl, rfl⟩ := h
    exact .inr (.inl ⟨i, rfl, rfl, rfl⟩)
  case some.closed i =>
    obtain ⟨rfl, rfl⟩ := h
    exact .inr (.inr (.inl ⟨i, rfl, rfl, rfl⟩))
  case none.dropped i =>
    obtain ⟨hi, rfl⟩ := h
    exact .inr (.inr (.inr ⟨rfl, ⟨i, rfl, hi⟩, rfl⟩))

/-- An event that neither hands out nor closes a transport, about one handed out, keeps the
facts. -/
theorem LogFacts.quiet {E : List TransportEvent} {held : Option Nat} {k : Nat}
    {e : TransportEvent} (h : LogFacts E held k) (hlt : e.id < k) (hno : ∀ i, e ≠ .opened i)
    (hnc : ∀ i, e ≠ .closed i) : LogFacts (E ++ [e]) held k := by
  obtain ⟨hopened, hid, hopen, hcount⟩ := h
  refine ⟨fun i => by simpa [(hno i).symm] using hopened i, fun e' he' => ?_,
    fun i => by simpa [OpenIn, (hno i).symm, (hnc i).symm] using hopen i,
    fun i => by simpa [(hno i).symm, hnc i, List.count_append] using hcount i⟩
  rcases List.mem_append.1 he' with he' | he'
  · exact hid e' he'
  · rw [List.mem_singleton.1 he']
    exact hlt

/-- Handing out the next transport while none is open keeps the facts, with it open. -/
theorem LogFacts.opened {E : List TransportEvent} {k : Nat} (h : LogFacts E none k) :
    LogFacts (E ++ [.opened k]) (some k) (k + 1) := by
  obtain ⟨hopened, hid, hopen, hcount⟩ := h
  -- the transport handed out is fresh: neither handed out nor closed before
  have hfresh : .opened k ∉ E := fun hm => by simpa using (hopened k).1 hm
  have hunclosed : .closed k ∉ E := by
    intro hm
    have := hcount k
    rw [if_neg (fun h' => hfresh h'.1)] at this
    exact absurd this (List.count_pos_iff.2 hm).ne'
  refine ⟨fun j => ?_, fun e he => ?_, fun j => ?_, fun j => ?_⟩
  · simp only [List.mem_append, List.mem_singleton, TransportEvent.opened.injEq, hopened j]
    omega
  · rcases List.mem_append.1 he with he | he
    · exact Nat.lt_succ_of_lt (hid e he)
    · rw [List.mem_singleton.1 he]
      exact Nat.lt_succ_self k
  · by_cases hj : j = k
    · subst hj
      simp [OpenIn, hunclosed]
    · have := hopen j
      simp only [OpenIn] at this ⊢
      simp [hj, Ne.symm hj, this]
  · by_cases hj : j = k
    · subst hj
      simp [hfresh, List.count_eq_zero_of_not_mem hunclosed]
    · simpa [hj, Ne.symm hj, List.count_append] using hcount j

/-- Closing the open transport keeps the facts, with none open. -/
theorem LogFacts.closed {E : List TransportEvent} {i k : Nat} (h : LogFacts E (some i) k) :
    LogFacts (E ++ [.closed i]) none k := by
  have hlt := h.held_lt
  obtain ⟨hopened, hid, hopen, hcount⟩ := h
  -- the open transport was handed out, and this is its first close
  have hopened_i : .opened i ∈ E := ((hopen i).2 rfl).1
  refine ⟨fun i' => by simpa using hopened i', fun e he => ?_, fun i' => ?_, fun i' => ?_⟩
  · rcases List.mem_append.1 he with he | he
    · exact hid e he
    · rw [List.mem_singleton.1 he]
      exact hlt
  · by_cases hi : i' = i
    · subst hi
      simp [OpenIn]
    · have := hopen i'
      simp only [OpenIn] at this ⊢
      simp [hi, this, Ne.symm hi]
  · by_cases hi : i' = i
    · subst hi
      have := hcount i'
      simp only [ne_eq, not_true_eq_false, and_false, if_false] at this
      simp [List.count_append, this, hopened_i]
    · simpa [hi, Ne.symm hi, List.count_cons] using hcount i'

/-- Reading one more event keeps the facts, for what is held after it. -/
theorem LogFacts.snoc {E : List TransportEvent} {held : Option Nat} {handed : Nat}
    {e : TransportEvent} {g : Holding} (h : LogFacts E held handed)
    (hstep : Holding.step ⟨held, handed⟩ e = some g) : LogFacts (E ++ [e]) g.held g.handed := by
  rcases Holding.step_cases hstep with ⟨rfl, rfl, rfl⟩ | ⟨j, rfl, htraffic, rfl⟩ |
    ⟨j, rfl, rfl, rfl⟩ | ⟨rfl, ⟨i, rfl, hi⟩, rfl⟩
  · exact h.opened
  · -- traffic on the open transport, which was handed out
    cases e <;> simp only [TransportEvent.Traffic] at htraffic
    all_goals
      subst htraffic
      exact h.quiet h.held_lt (by simp) (by simp)
  · exact h.closed
  · exact h.quiet hi (by simp) (by simp)

/-- A log read from the start says what `LogFacts` says. -/
theorem replay_facts {E : List TransportEvent} {g : Holding}
    (hE : Holding.replay ⟨none, 0⟩ E = some g) : LogFacts E g.held g.handed := by
  induction E using List.reverseRecOn generalizing g with
  | nil =>
    cases hE
    exact LogFacts.nil
  | append_singleton E e ih =>
    rw [Holding.replay_append_singleton] at hE
    rcases hprev : Holding.replay ⟨none, 0⟩ E with _ | ⟨held, handed⟩
    · rw [hprev] at hE
      cases hE
    · rw [hprev] at hE
      exact (ih hprev).snoc hE

/-! ## The logs of the client's steps -/

theorem Rounds.traffic {n i tid action : Nat} {p : Bytes} {E : List TransportEvent}
    {r : Except TrackerError Answer} (h : Rounds n i p tid action E r) :
    ∀ e ∈ E, e.Traffic i := by
  induction h with
  | sendFailed | timedOut => simp
  | ended => simp [TransportEvent.Traffic]
  | silent _ _ ih =>
    intro e he
    simp only [List.cons_append, List.mem_cons, List.mem_append, List.mem_map] at he
    rcases he with rfl | ⟨x, -, rfl⟩ | he
    · rfl
    · rfl
    · exact ih e he

/-- A handshake's log, read from the moment its transport is handed out, ends holding that
transport when the handshake adopted a connection id, and nothing otherwise. -/
theorem Handshook.replay {n m tid : Nat} {E : List TransportEvent} {cid : Option Nat}
    (h : Handshook n m tid E cid) :
    Holding.replay ⟨none, m⟩ E = some ⟨cid.map fun _ => m, m + 1⟩ := by
  cases h with
  | adopted hrounds _ =>
    rw [Holding.replay_cons]
    simp [Holding.step, Holding.replay_traffic hrounds.traffic]
  | abandoned hrounds _ =>
    rw [List.cons_append, Holding.replay_cons]
    simp [Holding.step, Holding.replay_append, Holding.replay_traffic hrounds.traffic,
      Holding.replay_release (Nat.lt_succ_self m)]

/-- The log of a world, read from the start, holds the cached session's transport open and has
counted every transport the connector handed out. -/
def Tidy (w : World) : Prop :=
  Holding.replay ⟨none, 0⟩ w.events = some ⟨w.session.map (·.transport.id), w.nextTransport⟩

/-- Dropping the client closes the cached session's transport, leaving nothing open. -/
theorem shutdown_tidy {w : World} (hw : Tidy w) :
    Holding.replay ⟨none, 0⟩ w.shutdown.events = some ⟨none, w.nextTransport⟩ := by
  unfold Tidy at hw
  unfold World.shutdown
  rcases hs : w.session with _ | s
  · simpa [hs] using hw
  · rw [hs] at hw
    have hlt := (replay_facts hw).held_lt
    simp only [Holding.replay_append, hw, Option.bind_some]
    exact Holding.replay_release hlt

theorem handshake_tidy {host : String} {port : Nat} {w w' : World}
    {r : Except TrackerError Session}
    (hw : Holding.replay ⟨none, 0⟩ w.events = some ⟨none, w.nextTransport⟩)
    (h : (handshake host port).run w = (r, w')) :
    Holding.replay ⟨none, 0⟩ w'.events = some ⟨r.toOption.map (·.transport.id), w'.nextTransport⟩ := by
  obtain ⟨-, -, -, -, hcases⟩ := handshake_spec h
  rcases hcases with ⟨e, rfl, hev, hnext, -⟩ | ⟨hnext, -, E, cid, hshook, hev, hok, herr⟩
  · rw [hev, hnext, hw]
    rfl
  · rw [hev, Holding.replay_append, hw, hnext, Option.bind_some, hshook.replay]
    cases r with
    | ok s =>
      obtain ⟨rfl, hid, -⟩ := hok s rfl
      simp [Except.toOption, hid]
    | error e =>
      rw [herr e rfl]
      rfl

/-- Taking a session holds its transport open, and leaves nothing open when it fails. -/
theorem acquire_tidy {host : String} {port : Nat} {w w' : World}
    {r : Except TrackerError Session} (hw : Tidy w) (h : (acquire host port).run w = (r, w')) :
    Holding.replay ⟨none, 0⟩ w'.events = some ⟨r.toOption.map (·.transport.id), w'.nextTransport⟩ := by
  rcases acquire_spec h with ⟨s, hs, -, rfl, rfl⟩ | ⟨-, hhs⟩
  · unfold Tidy at hw
    rw [hs] at hw
    exact hw
  · have hdown := shutdown_tidy hw
    have hnext : w.shutdown.nextTransport = w.nextTransport := by
      unfold World.shutdown
      split <;> rfl
    rw [← hnext] at hdown
    exact handshake_tidy hdown hhs

/-- A request keeps the log readable: its transport is closed on every failure and, when it
succeeds, either cached or closed. -/
theorem request_tidy {β : Type} {host : String} {port : Nat} {packet : Nat → Nat → Bytes}
    {action : Nat} {parse : Bytes → Except TrackerError β} {w w' : World}
    {r : Except TrackerError (Reply β)} (hw : Tidy w)
    (h : (request host port packet action parse).run w = (r, w')) : Tidy w' := by
  rcases request_spec h with ⟨e, hacq, -⟩ | ⟨s, w₁, a, w₂, hacq, hx, -, rfl⟩
  · have hread := acquire_tidy hw hacq
    obtain ⟨hsession, -, -⟩ := acquire_session hacq
    unfold Tidy
    rw [hsession]
    exact hread
  · have hread := acquire_tidy hw hacq
    obtain ⟨hsession, -, -⟩ := acquire_session hacq
    obtain ⟨E, hE, hrounds, hframe⟩ := exchange_rounds hx
    -- the exchange is traffic on the session's transport, which stays open
    have hread₂ : Holding.replay ⟨none, 0⟩ w₂.events =
        some ⟨some s.transport.id, w₂.nextTransport⟩ := by
      rw [hE, Holding.replay_append, hframe.nextTransport]
      simp only at hread ⊢
      rw [hread]
      exact Holding.replay_traffic hrounds.traffic
    have hsession₂ : w₂.session = none := hframe.session.trans hsession
    have hrelease : Tidy (w₂.released s.transport) := by
      unfold Tidy World.released
      simp only [hsession₂, Option.map_none, Holding.replay_append, hread₂, Option.bind_some]
      exact Holding.replay_release (replay_facts hread₂).held_lt
    split
    · unfold World.handedOver
      split
      · unfold Tidy
        simpa using hread₂
      · exact hrelease
    · exact hrelease

/-- One call keeps the log readable, with the cached session's transport open between calls. -/
theorem step_tidy {W : World} (hW : Tidy W) (op : UdpOp) : Tidy (W.step op).2 := by
  rcases hop : op.tracker? with _ | ⟨host, port⟩
  · obtain ⟨ms, hw⟩ := ((step_spec W op).1 hop).1
    rw [hw]
    exact hW
  · obtain ⟨β, packet, action, parse, wrap, k, res, -, -, hrun, -⟩ :=
      (step_spec W op).2 host port hop
    exact request_tidy (show Tidy { W with sent := [], connectCalls := [], idSource := k } from hW) hrun

theorem final_tidy (config : UdpConfig) (script : Script) (ids : Nat → UInt32) (ops : List UdpOp) :
    Tidy ((World.initial config script ids).final ops) := by
  suffices h : ∀ W, Tidy W → Tidy (W.final ops) from h _ rfl
  induction ops with
  | nil => exact fun W hW => hW
  | cons op ops ih => exact fun W hW => ih _ (step_tidy hW op)

/-- Over every run of the client, whatever the network does: at most one transport is open at
any moment, also while the client is dropped; once it is dropped, every transport the connector
handed out has been closed exactly once, and no other; between calls the open transport is the
cached session's; a session is cached only under `reuse`, and only when the last call that
passed its checks returned `Ok`; so under `perRequest` no transport is open between calls. -/
theorem transports_closed_once (config : UdpConfig) (script : Script) (ids : Nat → UInt32)
    (ops : List UdpOp) :
    let W := (World.initial config script ids).final ops
    (∀ P, P <+: W.shutdown.events → ∀ i j, OpenIn P i → OpenIn P j → i = j) ∧
    (∀ i, W.shutdown.events.count (.closed i) = if .opened i ∈ W.shutdown.events then 1 else 0) ∧
    (∀ i, OpenIn W.events i ↔ ∃ s, W.session = some s ∧ s.transport.id = i) ∧
    (∀ s, W.session = some s → (∃ ttl, config.policy = .reuse ttl) ∧
      ∃ k v, LastChecked ops k ∧
        ((World.initial config script ids).run ops)[k]?.bind (·.result) = some (.ok v)) ∧
    (config.policy = .perRequest → ∀ i, ¬OpenIn W.events i) := by
  intro W
  have htidy : Tidy W := final_tidy config script ids ops
  have hdown := shutdown_tidy htidy
  have hfacts := replay_facts htidy
  have hdown_facts := replay_facts hdown
  have hcached : ∀ s, W.session = some s → (∃ ttl, config.policy = .reuse ttl) ∧
      ∃ k v, LastChecked ops k ∧
        ((World.initial config script ids).run ops)[k]?.bind (·.result) = some (.ok v) := by
    intro s hs
    obtain ⟨hpol, k, v, hk, -, hv⟩ := (session_history config script ids ops).1 s hs
    exact ⟨hpol, k, v, hk, hv⟩
  have hopen : ∀ i, OpenIn W.events i ↔ ∃ s, W.session = some s ∧ s.transport.id = i := by
    intro i
    rw [hfacts.open_iff i]
    simp
  refine ⟨fun P hP i j hi hj => ?_, fun i => ?_, hopen, hcached, fun hpol i hi => ?_⟩
  · -- every moment is a prefix of the log, and a prefix holds at most one transport
    obtain ⟨g, hg⟩ := Holding.replay_prefix hdown hP
    have hPfacts := replay_facts hg
    have := ((hPfacts.open_iff i).1 hi).symm.trans ((hPfacts.open_iff j).1 hj)
    exact Option.some.inj this
  · simpa using hdown_facts.count_closed i
  · obtain ⟨s, hs, -⟩ := (hopen i).1 hi
    obtain ⟨⟨ttl, hreuse⟩, -⟩ := hcached s hs
    rw [hpol] at hreuse
    cases hreuse

end BitTorrent.Tracker
