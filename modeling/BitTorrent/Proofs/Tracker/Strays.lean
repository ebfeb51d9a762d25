import BitTorrent.Proofs.Tracker.ConnectionIds

/-!
# Stray datagrams

A wait for the answer to a request passes over every datagram that cannot answer it
(`Stray`): one of fewer than eight bytes, one whose bytes 4 to 8 are not the request's
transaction id, and one whose action is neither the request's nor a refusal's. Such datagrams
leave no mark on what the client does. Take as noise any set of datagrams, and leave some noise
out of a script's reply plans: run call after call, the script with the noise and the script
without it give the same reports, provided every noise datagram the client takes off the queue
is stray for the request it is waiting on then.

The proof is a simulation between a world and its muted version (`World.Muted`): all fields
agree but the script, the queue and the log, which have some noise left out. Every computation
of the client is `Quiet` (it cannot tell the two worlds apart), from the primitive steps up
through `>>=` and `tryCatch`; the wait of an exchange is the one place where noise is met.

What does answer is fixed as well: a handshake adopts bytes 8 to 16 of a connect reply with the
transaction id of its connect request, and a call returns a tracker's refusal only for a
datagram with action 3 and the transaction id of the request it is waiting on.

## Main statements

* `classify_stray`: a stray datagram answers nothing.
* `Quiet.bind`, `Quiet.tryCatch`: quiet computations compose.
* `exchange_quiet`, `request_quiet`, `step_muted`: the client's steps are quiet.
* `run_muted`: a run reports the same with its stray noise left out.
* `handshake_adopts`, `step_refusal`: what a connection id and a refusal come from.
* `replies_matched_by_transaction`: the three together.
-/

namespace BitTorrent.Tracker

/-! ## Lists with some elements left out -/

/-- `ys` is `xs` with some of the elements of `xs` that satisfy `P` left out. -/
inductive Thinned {α : Type} (P : α → Prop) : List α → List α → Prop
  | nil : Thinned P [] []
  | keep (x : α) {xs ys : List α} : Thinned P xs ys → Thinned P (x :: xs) (x :: ys)
  | drop {x : α} {xs ys : List α} : P x → Thinned P xs ys → Thinned P (x :: xs) ys

namespace Thinned

variable {α β : Type} {P : α → Prop}

theorem refl : ∀ xs : List α, Thinned P xs xs
  | [] => .nil
  | x :: xs => .keep x (refl xs)

theorem append {xs ys xs' ys' : List α} (h : Thinned P xs ys) (h' : Thinned P xs' ys') :
    Thinned P (xs ++ xs') (ys ++ ys') := by
  induction h with
  | nil => exact h'
  | keep x _ ih => exact .keep x ih
  | drop hx _ ih => exact .drop hx ih

theorem map {Q : β → Prop} (f : α → β) (hf : ∀ x, P x → Q (f x)) {xs ys : List α}
    (h : Thinned P xs ys) : Thinned Q (xs.map f) (ys.map f) := by
  induction h with
  | nil => exact .nil
  | keep x _ ih => exact .keep (f x) ih
  | drop hx _ ih => exact .drop (hf _ hx) ih

/-- Leaving out elements that `f` rejects keeps those `f` takes. -/
theorem filter_eq {f : α → Bool} (hf : ∀ x, P x → f x = false) {xs ys : List α}
    (h : Thinned P xs ys) : xs.filter f = ys.filter f := by
  induction h with
  | nil => rfl
  | keep x _ ih => simp [List.filter_cons, ih]
  | drop hx _ ih => simp [hf _ hx, ih]

end Thinned

/-! ## Stray datagrams and the receipts of a log -/

/-- A datagram that cannot answer the request `p` the client waits on: fewer than eight bytes,
bytes 4 to 8 other than the request's transaction id, or an action in bytes 0 to 4 that is
neither the request's nor a refusal's. -/
def Stray (p d : Bytes) : Prop :=
  d.length < 8 ∨ u32At d 4 ≠ u32At p 12 ∨ (u32At d 0 ≠ u32At p 8 ∧ u32At d 0 ≠ actionError)

instance (p d : Bytes) : Decidable (Stray p d) := inferInstanceAs (Decidable (_ ∨ _ ∨ _))

/-- A stray datagram answers nothing, whatever the receive buffer cuts it to. A request holds
its transaction id modulo `2^32` in bytes 12 to 16, and bytes 4 to 8 of a datagram that differ
from those differ from the id itself. -/
theorem classify_stray {p d : Bytes} {tid action : Nat} (n : Nat) (hact : u32At p 8 = action)
    (htid : u32At p 12 = tid % Nat.pow 2 32) (h : Stray p d) :
    classify (d.take n) tid action = none := by
  by_cases hn : n < 8
  · have hshort : (d.take n).length < 8 := by simp; omega
    unfold classify
    rw [if_pos hshort]
  · rw [classify_take d (by omega)]
    suffices hnone : classify d tid action = none by rw [hnone]; rfl
    have hne : u32At d 4 ≠ u32At p 12 → u32At d 4 ≠ tid := by
      intro hne heq
      rw [htid, ← heq, Nat.mod_eq_of_lt (u32At_lt d 4)] at hne
      exact hne rfl
    have h0 : Bytes.toNatBE (d.take 4) = u32At d 0 := by simp [u32At]
    have h4 : Bytes.toNatBE ((d.drop 4).take 4) = u32At d 4 := rfl
    unfold classify
    dsimp only
    rw [h0, h4]
    rcases h with hshort | hother | ⟨hact', herr⟩
    · simp [hshort]
    · simp [hne hother]
    · rw [hact] at hact'
      simp [hact', herr]

/-- The datagram sent last in a log, or `last` if it sends none. -/
def lastSent (last : Option Bytes) : List TransportEvent → Option Bytes
  | [] => last
  | e :: E =>
    match e with
    | .sent _ p => lastSent (some p) E
    | _ => lastSent last E

/-- Each datagram a log receives, with the datagram sent last before it (after `last`). -/
def receipts (last : Option Bytes) : List TransportEvent → List (Option Bytes × Bytes)
  | [] => []
  | e :: E =>
    match e with
    | .sent _ p => receipts (some p) E
    | .received _ (.datagram d) => (last, d) :: receipts last E
    | _ => receipts last E

theorem receipts_append (last : Option Bytes) (E F : List TransportEvent) :
    receipts last (E ++ F) = receipts last E ++ receipts (lastSent last E) F := by
  induction E generalizing last with
  | nil => rfl
  | cons e E ih =>
    cases e with
    | received i x => cases x <;> simp [receipts, lastSent, ih]
    | _ => simp [receipts, lastSent, ih]

theorem lastSent_append (last : Option Bytes) (E F : List TransportEvent) :
    lastSent last (E ++ F) = lastSent (lastSent last E) F := by
  induction E generalizing last with
  | nil => rfl
  | cons e E ih => cases e <;> simp [lastSent, ih]

theorem lastSent_append_sent (last : Option Bytes) (E : List TransportEvent) (i : Nat)
    (p : Bytes) : lastSent last (E ++ [.sent i p]) = some p := by
  rw [lastSent_append]
  rfl

/-- Receiving sends nothing. -/
theorem lastSent_received (last : Option Bytes) (j : Nat) (taken : List Delivery) :
    lastSent last (taken.map (.received j)) = last := by
  induction taken with
  | nil => rfl
  | cons x taken ih => simp [lastSent, ih]

/-- The items a wait takes are received with the request they wait for. -/
theorem receipts_received (p : Bytes) (j : Nat) (taken : List Delivery) :
    receipts (some p) (taken.map (.received j)) =
      (taken.filterMap Delivery.datagram?).map (some p, ·) := by
  induction taken with
  | nil => rfl
  | cons x taken ih => cases x <;> simp [receipts, Delivery.datagram?, List.filterMap_cons, ih]

section Noise

variable (noise : Bytes → Prop)

/-- Every noise datagram a log receives is stray for the datagram sent last before it. -/
def NoiseStray (E : List TransportEvent) : Prop :=
  ∀ x ∈ receipts none E, noise x.2 → ∃ p ∈ x.1, Stray p x.2

instance [DecidablePred noise] (E : List TransportEvent) : Decidable (NoiseStray noise E) :=
  inferInstanceAs (Decidable (∀ x ∈ receipts none E, _))

variable {noise}

theorem NoiseStray.of_prefix {E F : List TransportEvent} (h : NoiseStray noise F)
    (hEF : E <+: F) : NoiseStray noise E := by
  obtain ⟨G, rfl⟩ := hEF
  intro x hx
  exact h x (by rw [receipts_append]; exact List.mem_append_left _ hx)

/-- The noise a wait for the answer to `p` takes is stray for `p`. -/
theorem NoiseStray.wait {A : List TransportEvent} {i j : Nat} {p : Bytes} {taken : List Delivery}
    {E : List TransportEvent} (h : NoiseStray noise E)
    (hE : A ++ [.sent i p] ++ taken.map (.received j) <+: E) :
    ∀ d, .datagram d ∈ taken → noise d → Stray p d := by
  intro d hd hnoise
  have hx : (some p, d) ∈ receipts none (A ++ [.sent i p] ++ taken.map (.received j)) := by
    rw [receipts_append, lastSent_append_sent, receipts_received]
    exact List.mem_append_right _ (List.mem_map_of_mem (List.mem_filterMap.2 ⟨_, hd, rfl⟩))
  obtain ⟨p', hp', hstray⟩ := h.of_prefix hE _ hx hnoise
  cases hp'
  exact hstray

/-! ## Worlds with noise left out -/

variable (noise)

/-- A queued item that is a noise datagram. -/
def Delivery.Noise (x : Delivery) : Prop := ∃ d, x = .datagram d ∧ noise d

/-- A datagram plan that yields a noise datagram, whatever it answers. -/
def DatagramPlan.Noise (x : DatagramPlan) : Prop := ∀ cid p, (x.resolve cid p).Noise noise

/-- A log entry that is the receipt of a noise datagram. -/
def TransportEvent.Noise (e : TransportEvent) : Prop := ∃ i x, e = .received i x ∧ x.Noise noise

/-- A reply plan with some of its noise datagrams left out. -/
inductive ReplyPlan.Muted : ReplyPlan → ReplyPlan → Prop
  | sendFault : ReplyPlan.Muted .sendFault .sendFault
  | queue {items items' : List DatagramPlan} :
      Thinned (DatagramPlan.Noise noise) items items' → ReplyPlan.Muted (.queue items) (.queue items')

/-- A script with some noise datagrams left out of its reply plans, the default one included. -/
structure Script.Muted (s s' : Script) : Prop where
  connects : s'.connects = s.connects
  replies : List.Forall₂ (ReplyPlan.Muted noise) s.replies s'.replies
  defaultReply : ReplyPlan.Muted noise s.defaultReply s'.defaultReply
  connectionId : s'.connectionId = s.connectionId

/-- The world `w'` is `w` with some noise left out: of its script, its queue and its log. -/
structure World.Muted (w w' : World) : Prop where
  config : w'.config = w.config
  idSource : w'.idSource = w.idSource
  session : w'.session = w.session
  clock : w'.clock = w.clock
  script : Script.Muted noise w.script w'.script
  nextTransport : w'.nextTransport = w.nextTransport
  events : Thinned (TransportEvent.Noise noise) w.events w'.events
  sent : w'.sent = w.sent
  connectCalls : w'.connectCalls = w.connectCalls
  inbox : Thinned (Delivery.Noise noise) w.inbox w'.inbox

variable {noise}

theorem ReplyPlan.Muted.refl : ∀ plan : ReplyPlan, ReplyPlan.Muted noise plan plan
  | .sendFault => .sendFault
  | .queue items => .queue (Thinned.refl items)

/-- The plan for the next send, and the script after it. -/
theorem Script.Muted.next {s s' : Script} (h : Script.Muted noise s s') :
    ReplyPlan.Muted noise (s.replies.headD s.defaultReply) (s'.replies.headD s'.defaultReply) ∧
    Script.Muted noise { s with replies := s.replies.tail } { s' with replies := s'.replies.tail } := by
  rcases s with ⟨connects, replies, dflt, cid⟩
  rcases s' with ⟨connects', replies', dflt', cid'⟩
  rcases h with ⟨hconnects, hreplies, hdefault, hcid⟩
  cases hreplies with
  | nil => exact ⟨hdefault, ⟨hconnects, .nil, hdefault, hcid⟩⟩
  | cons hhead htail => exact ⟨hhead, ⟨hconnects, htail, hdefault, hcid⟩⟩

/-- The counts a report reads off the log see no receipts. -/
theorem World.Muted.counts {w w' : World} (h : World.Muted noise w w') :
    w'.connects = w.connects ∧ w'.closes = w.closes ∧ w'.drops = w.drops := by
  have hkeep : ∀ {f : TransportEvent → Bool}, (∀ i x, f (.received i x) = false) →
      (w'.events.filter f).length = (w.events.filter f).length := by
    intro f hf
    rw [h.events.filter_eq (by rintro _ ⟨i, x, rfl, -⟩; exact hf i x)]
  exact ⟨hkeep fun _ _ => rfl, hkeep fun _ _ => rfl, hkeep fun _ _ => rfl⟩

/-! ## Quiet computations -/

variable (noise)

/-- A computation that cannot tell a world from a muted version of it. Run from any world it
only extends the log; run from a world and from a muted version of it, it ends with the same
result in a muted version of where the first run ends, as long as every noise datagram the
first run's log receives is stray. -/
structure Quiet {α : Type} (m : UdpM α) : Prop where
  grows : ∀ ⦃w : World⦄ ⦃r : Except TrackerError α⦄ ⦃w₁ : World⦄,
    m.run w = (r, w₁) → w.events <+: w₁.events
  muted : ∀ ⦃w w' : World⦄ ⦃r : Except TrackerError α⦄ ⦃w₁ : World⦄,
    World.Muted noise w w' → m.run w = (r, w₁) → NoiseStray noise w₁.events →
      ∃ w₁', m.run w' = (r, w₁') ∧ World.Muted noise w₁ w₁'

variable {noise} {α β : Type}

/-- A computation that runs the same from both worlds and changes them alike is quiet. -/
theorem Quiet.of_run {m : UdpM α} (f : World → Except TrackerError α × World)
    (hrun : ∀ w, m.run w = f w) (hgrows : ∀ w, w.events <+: (f w).2.events)
    (hmuted : ∀ w w', World.Muted noise w w' →
      (f w').1 = (f w).1 ∧ World.Muted noise (f w).2 (f w').2) :
    Quiet noise m where
  grows w r w₁ h := by
    rw [hrun] at h
    have hw : (f w).2 = w₁ := by rw [h]
    rw [← hw]
    exact hgrows w
  muted w w' r w₁ hm h _ := by
    rw [hrun] at h
    have hr : (f w).1 = r := by rw [h]
    have hw : (f w).2 = w₁ := by rw [h]
    obtain ⟨hres, hm₁⟩ := hmuted w w' hm
    refine ⟨(f w').2, ?_, by rwa [hw] at hm₁⟩
    rw [hrun, ← hr, ← hres]

theorem Quiet.pure (a : α) : Quiet noise (pure a : UdpM α) :=
  .of_run (fun w => (.ok a, w)) (run_pure a) (fun _ => List.prefix_refl _) fun _ _ hm => ⟨rfl, hm⟩

theorem Quiet.throw (e : TrackerError) : Quiet noise (throw e : UdpM α) :=
  .of_run (fun w => (.error e, w)) (run_throw e) (fun _ => List.prefix_refl _)
    fun _ _ hm => ⟨rfl, hm⟩

theorem Quiet.bind {x : UdpM α} {f : α → UdpM β} (hx : Quiet noise x)
    (hf : ∀ a, Quiet noise (f a)) : Quiet noise (x >>= f) where
  grows w r w₂ h := by
    rw [run_bind] at h
    rcases hx1 : x.run w with ⟨_ | a, w₁⟩ <;> rw [hx1] at h
    · cases h
      exact hx.grows hx1
    · exact (hx.grows hx1).trans ((hf a).grows h)
  muted w w' r w₂ hm h hs := by
    rw [run_bind] at h
    rcases hx1 : x.run w with ⟨_ | a, w₁⟩ <;> rw [hx1] at h
    · cases h
      obtain ⟨w₁', hx1', hm₁⟩ := hx.muted hm hx1 hs
      exact ⟨w₁', by rw [run_bind, hx1'], hm₁⟩
    · -- the stray noise of the whole run covers the part `x` ran
      obtain ⟨w₁', hx1', hm₁⟩ := hx.muted hm hx1 (hs.of_prefix ((hf a).grows h))
      obtain ⟨w₂', hf', hm₂⟩ := (hf a).muted hm₁ h hs
      exact ⟨w₂', by rw [run_bind, hx1']; exact hf', hm₂⟩

theorem Quiet.map {x : UdpM α} (f : α → β) (hx : Quiet noise x) : Quiet noise (f <$> x) := by
  rw [← bind_pure_comp]
  exact hx.bind fun a => Quiet.pure (f a)

theorem Quiet.tryCatch {x : UdpM α} {handler : TrackerError → UdpM α} (hx : Quiet noise x)
    (hh : ∀ e, Quiet noise (handler e)) : Quiet noise (tryCatch x handler) where
  grows w r w₂ h := by
    rw [run_tryCatch] at h
    rcases hx1 : x.run w with ⟨e | a, w₁⟩ <;> rw [hx1] at h
    · exact (hx.grows hx1).trans ((hh e).grows h)
    · cases h
      exact hx.grows hx1
  muted w w' r w₂ hm h hs := by
    rw [run_tryCatch] at h
    rcases hx1 : x.run w with ⟨e | a, w₁⟩ <;> rw [hx1] at h
    · obtain ⟨w₁', hx1', hm₁⟩ := hx.muted hm hx1 (hs.of_prefix ((hh e).grows h))
      obtain ⟨w₂', hh', hm₂⟩ := (hh e).muted hm₁ h hs
      exact ⟨w₂', by rw [run_tryCatch, hx1']; exact hh', hm₂⟩
    · cases h
      obtain ⟨w₁', hx1', hm₁⟩ := hx.muted hm hx1 hs
      exact ⟨w₁', by rw [run_tryCatch, hx1'], hm₁⟩

/-- A computation that reads the world only where a muted version agrees with it. -/
theorem Quiet.get_bind {k : World → UdpM α} (hk : ∀ w w', World.Muted noise w w' → k w' = k w)
    (hq : ∀ w, Quiet noise (k w)) : Quiet noise (get >>= k) where
  grows w r w₁ h := by
    rw [run_bind, run_get] at h
    exact (hq w).grows h
  muted w w' r w₁ hm h hs := by
    rw [run_bind, run_get] at h
    obtain ⟨w₁', h', hm₁⟩ := (hq w).muted hm h hs
    refine ⟨w₁', ?_, hm₁⟩
    rw [run_bind, run_get]
    show (k w').run w' = _
    rw [hk w w' hm]
    exact h'

/-! ## The primitive steps are quiet -/

theorem drawId_quiet : Quiet noise drawId :=
  .of_run _ drawId_run (fun _ => List.prefix_refl _) fun _ _ hm =>
    ⟨by rw [World.nextId, World.nextId, hm.idSource],
      { hm with idSource := by simp [hm.idSource] }⟩

theorem release_quiet (t : Transport) : Quiet noise (release t) :=
  .of_run _ (release_run t) (fun _ => List.prefix_append _ _) fun _ _ hm =>
    ⟨rfl, { hm with events := hm.events.append (Thinned.refl _) }⟩

theorem Quiet.guarded {act : UdpM α} (t : Transport) (hact : Quiet noise act) :
    Quiet noise (guarded t act) :=
  hact.tryCatch fun e => (release_quiet t).bind fun _ => Quiet.throw e

theorem check_quiet (r : Except TrackerError α) : Quiet noise (check r) :=
  .of_run (fun w => (r, w)) (check_run r) (fun _ => List.prefix_refl _) fun _ _ hm => ⟨rfl, hm⟩

theorem connect_quiet (host : String) (port : Nat) : Quiet noise (connect host port) :=
  .of_run _ (connect_run host port)
    (fun w => by
      dsimp only
      split <;> simp)
    fun w w' hm => by
      dsimp only
      rw [hm.script.connects]
      have h₁ : World.Muted noise
          { w with script := { w.script with connects := w.script.connects.tail },
                   connectCalls := w.connectCalls ++ [(host, port)] }
          { w' with script := { w'.script with connects := w.script.connects.tail },
                    connectCalls := w'.connectCalls ++ [(host, port)] } :=
        { hm with script := { hm.script with connects := rfl },
                  connectCalls := by simp [hm.connectCalls] }
      -- both worlds follow the same connect plan: muting leaves the connector's script alone
      rcases w.script.connects.headD .accept with _ | _ | _
      · refine ⟨by simp [hm.nextTransport], { h₁ with nextTransport := ?_, events := ?_ }⟩
        · simp [hm.nextTransport]
        · simpa [hm.nextTransport] using hm.events.append (Thinned.refl _)
      · exact ⟨rfl, h₁⟩
      · exact ⟨rfl, { h₁ with clock := by simp [hm.clock, hm.config] }⟩

/-- The log of a send that went out. -/
theorem send_events {t : Transport} {p : Bytes} {w w₁ : World}
    (h : (send t p).run w = (.ok (), w₁)) : w₁.events = w.events ++ [.sent t.id p] := by
  rw [send_run] at h
  rcases hplan : w.script.replies.headD w.script.defaultReply with items | _ <;>
    simp only [hplan] at h <;> cases h
  rfl

theorem send_quiet (t : Transport) (p : Bytes) : Quiet noise (send t p) where
  grows w r w₁ h := by
    rw [send_run] at h
    rcases hplan : w.script.replies.headD w.script.defaultReply with items | _ <;>
      simp only [hplan] at h <;> cases h
    · exact List.prefix_append _ _
    · exact List.prefix_refl _
  muted w w' r w₁ hm h _ := by
    -- the plans for this send are related: the same fault, or queues that differ by noise
    obtain ⟨hplan, hrest⟩ := hm.script.next
    rw [send_run] at h ⊢
    dsimp only at h ⊢
    revert h hplan
    generalize w.script.replies.headD w.script.defaultReply = a
    generalize w'.script.replies.headD w'.script.defaultReply = a'
    intro h hplan
    cases hplan with
    | sendFault =>
      cases h
      exact ⟨_, rfl, { hm with script := hrest }⟩
    | @queue items items' hitems =>
      cases h
      have hinbox : Thinned (Delivery.Noise noise)
          (w.inbox ++ items.map (·.resolve w.script.connectionId p))
          (w'.inbox ++ items'.map (·.resolve w'.script.connectionId p)) := by
        rw [hm.script.connectionId]
        exact hm.inbox.append (hitems.map _ fun x hx => hx _ _)
      exact ⟨_, rfl, { hm with script := hrest, sent := by simp [hm.sent],
                               events := hm.events.append (Thinned.refl _), inbox := hinbox }⟩

/-- A wait passes over the noise it takes when that noise answers nothing: from a queue with
some noise left out it ends the same way, taking the same items but that noise. -/
theorem awaitAnswer_muted {n tid action : Nat} {q q' : List Delivery}
    (hq : Thinned (Delivery.Noise noise) q q') {got : Option (Except TrackerError Answer)}
    {taken : List Delivery} (h : awaitAnswer n tid action q = (got, taken))
    (hstray : ∀ d, .datagram d ∈ taken → noise d → classify (d.take n) tid action = none) :
    ∃ taken', awaitAnswer n tid action q' = (got, taken') ∧
      Thinned (Delivery.Noise noise) taken taken' ∧
      Thinned (Delivery.Noise noise) (q.drop taken.length) (q'.drop taken'.length) := by
  induction hq generalizing got taken with
  | nil =>
    simp only [awaitAnswer, Prod.mk.injEq] at h
    obtain ⟨rfl, rfl⟩ := h
    exact ⟨[], rfl, .nil, .nil⟩
  | @keep x xs ys hrest ih =>
    cases x with
    | fault r =>
      simp only [awaitAnswer, Prod.mk.injEq] at h
      obtain ⟨rfl, rfl⟩ := h
      exact ⟨[.fault r], rfl, .keep _ .nil, by simpa using hrest⟩
    | datagram d =>
      rcases hc : classify (d.take n) tid action with _ | a
      · rcases hxs : awaitAnswer n tid action xs with ⟨got₁, taken₁⟩
        simp only [awaitAnswer, hc, hxs, Prod.mk.injEq] at h
        obtain ⟨rfl, rfl⟩ := h
        obtain ⟨taken', h', hthin, hdrop⟩ :=
          ih hxs fun d' hd' => hstray d' (List.mem_cons_of_mem _ hd')
        exact ⟨.datagram d :: taken', by simp [awaitAnswer, hc, h'], .keep _ hthin,
          by simpa using hdrop⟩
      · simp only [awaitAnswer, hc, Prod.mk.injEq] at h
        obtain ⟨rfl, rfl⟩ := h
        exact ⟨[.datagram d], by simp [awaitAnswer, hc], .keep _ .nil, by simpa using hrest⟩
  | @drop x xs ys hx hrest ih =>
    obtain ⟨d, rfl, hnoise⟩ := hx
    -- the wait takes the noise datagram first, so it is stray and passed over
    have hhead : .datagram d ∈ taken := by
      rcases hc : classify (d.take n) tid action with _ | a <;>
        rcases hxs : awaitAnswer n tid action xs with ⟨got₁, taken₁⟩ <;>
        simp only [awaitAnswer, hc, hxs, Prod.mk.injEq] at h <;> simp [← h.2]
    have hc := hstray d hhead hnoise
    rcases hxs : awaitAnswer n tid action xs with ⟨got₁, taken₁⟩
    simp only [awaitAnswer, hc, hxs, Prod.mk.injEq] at h
    obtain ⟨rfl, rfl⟩ := h
    obtain ⟨taken', h', hthin, hdrop⟩ :=
      ih hxs fun d' hd' => hstray d' (List.mem_cons_of_mem _ hd')
    exact ⟨taken', h', .drop ⟨d, rfl, hnoise⟩ hthin, by simpa using hdrop⟩

/-- The log of a receive: the items its wait took. -/
theorem receive_events {t : Transport} {n tid action : Nat} {w w₁ : World}
    {r : Except TrackerError (Option Answer)} (h : (receive t n tid action).run w = (r, w₁)) :
    w₁.events = w.events ++ (awaitAnswer n tid action w.inbox).2.map (.received t.id) := by
  rw [receive_run] at h
  dsimp only at h
  split at h <;> cases h <;> rfl

/-- A receive right after the send of `p`, where the noise it takes is stray for `p`, ends the
same way from a muted world. -/
theorem receive_muted {t : Transport} {n tid action : Nat} {p : Bytes}
    (hp : ∀ d, Stray p d → classify (d.take n) tid action = none) {w w' w₁ : World}
    {r : Except TrackerError (Option Answer)} (hm : World.Muted noise w w')
    {A : List TransportEvent} (hA : w.events = A ++ [.sent t.id p])
    (h : (receive t n tid action).run w = (r, w₁)) (hs : NoiseStray noise w₁.events) :
    ∃ w₁', (receive t n tid action).run w' = (r, w₁') ∧ World.Muted noise w₁ w₁' := by
  have hw₁ := receive_events h
  rw [receive_run] at h ⊢
  rcases hq : awaitAnswer n tid action w.inbox with ⟨got, taken⟩
  rw [hq] at h hw₁
  dsimp only at hw₁
  -- the log ends with the send of `p` and what the wait took, so the noise taken is stray for `p`
  have hstray : ∀ d, .datagram d ∈ taken → noise d → classify (d.take n) tid action = none :=
    fun d hd hnoise => hp d (@NoiseStray.wait noise A t.id t.id p taken _ hs
      ⟨[], by simp [hw₁, hA]⟩ d hd hnoise)
  obtain ⟨taken', hq', hthin, hdrop⟩ := awaitAnswer_muted hm.inbox hq hstray
  have hm₁ : World.Muted noise
      { w with inbox := w.inbox.drop taken.length, events := w.events ++ taken.map (.received t.id) }
      { w' with inbox := w'.inbox.drop taken'.length,
                events := w'.events ++ taken'.map (.received t.id) } :=
    { hm with inbox := hdrop,
              events := hm.events.append (hthin.map _ fun x hx => ⟨t.id, x, rfl, hx⟩) }
  rw [hq']
  dsimp only at h ⊢
  rcases got with _ | (e | a) <;> cases h <;> exact ⟨_, rfl, hm₁⟩

/-- The sends left to an exchange waiting for `(tid, action)` with `p` are quiet when no stray
datagram answers it. -/
theorem attempt_quiet {t : Transport} {p : Bytes} {tid action : Nat} (c : UdpConfig)
    (hp : ∀ d, Stray p d → classify (d.take c.recvBufferLen) tid action = none) (k left : Nat) :
    Quiet noise (exchange.attempt t p tid action c k left) where
  grows w r w₁ h := by
    obtain ⟨E, hE, -⟩ := attempt_rounds h
    rw [hE]
    exact List.prefix_append _ _
  muted := by
    induction left generalizing k with
    | zero =>
      intro w w' r w₁ hm h _
      rw [attempt_zero_run] at h ⊢
      cases h
      exact ⟨w', rfl, hm⟩
    | succ left ih =>
      intro w w' r w₁ hm h hs
      rw [attempt_succ_run] at h ⊢
      rcases hsend : (send t p).run w with ⟨_ | _, w₂⟩ <;> rw [hsend] at h <;> dsimp only at h
      · cases h
        obtain ⟨w₂', hsend', hm₂⟩ := (send_quiet t p).muted hm hsend hs
        exact ⟨w₂', by rw [hsend'], hm₂⟩
      rcases hrecv : (receive t c.recvBufferLen tid action).run w₂ with ⟨r₂, w₃⟩
      rw [hrecv] at h
      -- the rest of the exchange only extends the log of this round
      have hpre : w₃.events <+: w₁.events := by
        rcases r₂ with _ | (_ | a) <;> dsimp only at h
        · cases h
          exact List.prefix_refl _
        · obtain ⟨E, hE, -⟩ := attempt_rounds h
          rw [hE]
          exact List.prefix_append _ _
        · cases h
          exact List.prefix_refl _
      have hs₃ := hs.of_prefix hpre
      have hs₂ : NoiseStray noise w₂.events := hs₃.of_prefix ⟨_, (receive_events hrecv).symm⟩
      obtain ⟨w₂', hsend', hm₂⟩ := (send_quiet t p).muted hm hsend hs₂
      obtain ⟨w₃', hrecv', hm₃⟩ := receive_muted hp hm₂ (send_events hsend) hrecv hs₃
      rw [hsend']
      dsimp only
      rw [hrecv']
      rcases r₂ with _ | (_ | a) <;> dsimp only at h ⊢
      · cases h
        exact ⟨w₃', rfl, hm₃⟩
      · have hm₄ : World.Muted noise
            { w₃ with clock := w₃.clock + c.baseTimeout * Nat.pow 2 (min k 8) }
            { w₃' with clock := w₃'.clock + c.baseTimeout * Nat.pow 2 (min k 8) } :=
          { hm₃ with clock := by simp [hm₃.clock] }
        exact ih (k + 1) hm₄ h hs
      · cases h
        exact ⟨w₃', rfl, hm₃⟩

/-- An exchange of a request that carries its action and transaction id is quiet. -/
theorem exchange_quiet (t : Transport) {p : Bytes} {tid action : Nat} (hact : u32At p 8 = action)
    (htid : u32At p 12 = tid % Nat.pow 2 32) : Quiet noise (exchange t p tid action) := by
  unfold exchange
  exact Quiet.get_bind (fun w w' hm => by rw [hm.config])
    fun w => attempt_quiet w.config (fun d => classify_stray _ hact htid) _ _

theorem handshake_quiet (host : String) (port : Nat) : Quiet noise (handshake host port) := by
  unfold handshake
  refine (connect_quiet host port).bind fun t => drawId_quiet.bind fun tid =>
    ((exchange_quiet t (connectPacket_fields tid).1 (connectPacket_fields tid).2).guarded t).bind
      fun a => ?_
  rcases a with d | m
  · by_cases hlen : d.length < 16 <;> simp only [hlen, ↓reduceIte]
    · exact (release_quiet t).bind fun _ => Quiet.throw _
    · exact Quiet.get_bind (fun w w' hm => by rw [hm.clock]) fun _ => Quiet.pure _
  · exact (release_quiet t).bind fun _ => Quiet.throw _

theorem World.Muted.shutdown {w w' : World} (hm : World.Muted noise w w') :
    World.Muted noise w.shutdown w'.shutdown := by
  unfold World.shutdown
  rw [hm.session]
  split
  · exact { hm with session := rfl, events := hm.events.append (Thinned.refl _) }
  · exact hm

theorem acquire_quiet (host : String) (port : Nat) : Quiet noise (acquire host port) where
  grows w r w₁ h := by
    obtain ⟨R, hR, -⟩ := shutdown_events w
    rcases acquire_spec h with ⟨s, -, -, -, rfl⟩ | ⟨-, h⟩
    · exact List.prefix_refl _
    · have hgrows := (@handshake_quiet noise host port).grows h
      rw [hR] at hgrows
      exact (List.prefix_append _ _).trans hgrows
  muted w w' r w₁ hm h hs := by
    have hreuse : ∀ s : Session, s.reusable w'.config.policy w'.clock host port =
        s.reusable w.config.policy w.clock host port := by
      rw [hm.config, hm.clock]; exact fun _ => rfl
    rw [acquire_run] at h ⊢
    rw [hm.session]
    rcases hsession : w.session with _ | s <;> rw [hsession] at h <;> dsimp only at h ⊢
    · exact (handshake_quiet host port).muted hm h hs
    · rw [hreuse]
      by_cases hr : s.reusable w.config.policy w.clock host port = true
      · rw [if_pos hr] at h ⊢
        cases h
        exact ⟨_, rfl, { hm with session := rfl }⟩
      · rw [if_neg hr] at h ⊢
        exact (handshake_quiet host port).muted hm.shutdown h hs

theorem finish_quiet (s : Session) : Quiet noise (finish s) :=
  .of_run _ (finish_run s)
    (fun w => by
      unfold World.handedOver World.released
      split
      · exact List.prefix_refl _
      · exact List.prefix_append _ _)
    fun w w' hm => by
      refine ⟨rfl, ?_⟩
      dsimp only
      unfold World.handedOver World.released
      have hpol : w'.config.policy = w.config.policy := by rw [hm.config]
      rw [hpol]
      split
      · exact { hm with session := rfl }
      · exact { hm with events := hm.events.append (Thinned.refl _) }

theorem request_quiet {β : Type} (host : String) (port : Nat) {packet : Nat → Nat → Bytes}
    {action : Nat} (parse : Bytes → Except TrackerError β) (hshape : RequestShape packet action) :
    Quiet noise (request host port packet action parse) := by
  unfold request
  refine (acquire_quiet host port).bind fun s => drawId_quiet.bind fun tid =>
    ((exchange_quiet s.transport (hshape.action_eq _ _) (hshape.tid_eq _ _)).guarded _).bind
      fun a => ?_
  have hfinish : ∀ reply : Reply β, Quiet noise (finish s >>= fun _ => pure reply) :=
    fun reply => (finish_quiet s).bind fun _ => Quiet.pure reply
  rcases a with d | m <;> dsimp only
  · exact (((check_quiet _).guarded _).map _).bind hfinish
  · exact (Quiet.pure _).bind hfinish

theorem announce_quiet (r : Request) : Quiet noise (announce r) := by
  unfold announce
  refine (check_quiet _).bind fun ⟨⟨host, port⟩, ip, key?⟩ => ?_
  dsimp only
  rcases key? with _ | k <;> dsimp only
  · exact drawId_quiet.bind fun key =>
      request_quiet host port announceReply (announcePacket_shape r _)
  · exact (Quiet.pure k).bind fun key =>
      request_quiet host port announceReply (announcePacket_shape r _)

theorem scrape_quiet (url : String) (hashes : List Bytes) : Quiet noise (scrape url hashes) := by
  unfold scrape
  exact (check_quiet _).bind fun ⟨host, port⟩ =>
    request_quiet host port (scrapeReply · hashes) (scrapePacket_shape hashes)

/-! ## Runs with their stray noise left out -/

theorem World.step_grows (W : World) (op : UdpOp) : W.events <+: (W.step op).2.events := by
  rcases hop : op.tracker? with _ | ⟨host, port⟩
  · obtain ⟨ms, hw⟩ := ((step_spec W op).1 hop).1
    exact hw ▸ List.prefix_refl _
  · obtain ⟨β, packet, action, parse, wrap, k, res, -, -, hrun, -⟩ := (step_spec W op).2 host port hop
    obtain ⟨F, hF, -⟩ := request_fresh hrun
    rw [hF]
    exact List.prefix_append _ _

theorem World.final_grows (w : World) (ops : List UdpOp) : w.events <+: (w.final ops).events := by
  induction ops generalizing w with
  | nil => exact List.prefix_refl _
  | cons op ops ih => exact (w.step_grows op).trans (ih _)

/-- A call reports what its run from the muted world reports, whose record of the call, counts
and clock agree with the noisy run's. -/
theorem report_muted {W W' w₁ w₁' : World} (hm : World.Muted noise W W')
    (hm₁ : World.Muted noise w₁ w₁') (result : Option (Except TrackerError UdpResult)) :
    (⟨result, w₁'.sent, w₁'.connectCalls, w₁'.connects, w₁'.closes, w₁'.drops,
        some ((w₁'.clock - W'.clock) / 1000)⟩ : StepReport) =
      ⟨result, w₁.sent, w₁.connectCalls, w₁.connects, w₁.closes, w₁.drops,
        some ((w₁.clock - W.clock) / 1000)⟩ := by
  obtain ⟨hconnects, hcloses, hdrops⟩ := hm₁.counts
  rw [hm₁.sent, hm₁.connectCalls, hconnects, hcloses, hdrops, hm₁.clock, hm.clock]

/-- One call from a world and from a muted version of it reports the same, and ends in a muted
version of where the first ends, as long as the noise the first takes is stray. -/
theorem step_muted {W W' : World} (hm : World.Muted noise W W') (op : UdpOp)
    (hs : NoiseStray noise (W.step op).2.events) :
    (W'.step op).1 = (W.step op).1 ∧ World.Muted noise (W.step op).2 (W'.step op).2 := by
  have hm₀ : World.Muted noise { W with sent := [], connectCalls := [] }
      { W' with sent := [], connectCalls := [] } := { hm with sent := rfl, connectCalls := rfl }
  cases op with
  | announce r =>
    rcases hrun : (announce r).run { W with sent := [], connectCalls := [] } with ⟨res, w₁⟩
    simp only [World.step, hrun] at hs ⊢
    obtain ⟨w₁', hrun', hm₁⟩ := (announce_quiet r).muted hm₀ hrun hs
    simp only [hrun']
    exact ⟨report_muted hm hm₁ _, hm₁⟩
  | scrape url hashes =>
    rcases hrun : (scrape url hashes).run { W with sent := [], connectCalls := [] } with ⟨res, w₁⟩
    simp only [World.step, hrun] at hs ⊢
    obtain ⟨w₁', hrun', hm₁⟩ := (scrape_quiet url hashes).muted hm₀ hrun hs
    simp only [hrun']
    exact ⟨report_muted hm hm₁ _, hm₁⟩
  | advance ms =>
    obtain ⟨hconnects, hcloses, hdrops⟩ := hm.counts
    refine ⟨?_, { hm₀ with clock := by simp [World.step, hm.clock] }⟩
    simp only [World.step, World.connects, World.closes, World.drops] at hconnects hcloses hdrops ⊢
    rw [hconnects, hcloses, hdrops]

theorem World.run_cons (w : World) (op : UdpOp) (ops : List UdpOp) :
    w.run (op :: ops) = (w.step op).1 :: (w.step op).2.run ops := rfl

/-- A run from a world and from a muted version of it reports the same, call after call, as
long as the noise the first takes is stray. -/
theorem run_muted {w w' : World} (hm : World.Muted noise w w') (ops : List UdpOp)
    (hs : NoiseStray noise (w.final ops).events) : w'.run ops = w.run ops := by
  induction ops generalizing w w' with
  | nil => rfl
  | cons op ops ih =>
    obtain ⟨hreport, hm₁⟩ := step_muted hm op (hs.of_prefix (World.final_grows _ ops))
    rw [World.run_cons, World.run_cons, hreport, ih hm₁ hs]

theorem World.initial_muted {script script' : Script} (h : Script.Muted noise script script')
    (config : UdpConfig) (ids : Nat → UInt32) :
    World.Muted noise (World.initial config script ids) (World.initial config script' ids) :=
  ⟨rfl, rfl, rfl, rfl, h, rfl, .nil, rfl, rfl, .nil⟩

/-! ## What answers -/

/-- A handshake adopts as connection id bytes 8 to 16 of a datagram received on its transport
after the connect request, the first datagram it sent there: a connect reply with the request's
transaction id. -/
theorem handshake_adopts {host : String} {port : Nat} {w w' : World} {s : Session}
    (h : (handshake host port).run w = (.ok s, w')) :
    ∃ E D, w'.events = w.events ++
        .opened s.transport.id :: .sent s.transport.id (connectPacket w.nextId) :: E ∧
      D ∈ receivedOn s.transport.id E ∧ 8 ≤ D.length ∧ u32At D 0 = actionConnect ∧
      u32At D 4 = w.nextId ∧ Packet.u64 s.connectionId = (D.drop 8).take 8 := by
  obtain ⟨-, -, -, -, hcases⟩ := handshake_spec h
  rcases hcases with ⟨e, he, -⟩ | ⟨-, -, E, cid, hshook, hev, hok, -⟩
  · cases he
  obtain ⟨rfl, htransport, -⟩ := hok s rfl
  obtain ⟨E', D, rfl, hfirst, ⟨hlen, h0, h4⟩, -, hbytes⟩ := hshook.reply
  refine ⟨E', D, by rw [hev, htransport], ?_, hlen, h0, h4, hbytes⟩
  rw [htransport]
  exact List.mem_of_find?_eq_some hfirst

/-- An exchange that got an answer got it in a datagram received after its request, and had
sent nothing but that request. -/
theorem Rounds.answered {n i tid action : Nat} {p : Bytes} {E : List TransportEvent} {a : Answer}
    (h : Rounds n i p tid action E (.ok a)) :
    ∃ E₁ D E₂, E = E₁ ++ .received i (.datagram D) :: E₂ ∧ (∀ last, lastSent last E₁ = some p) ∧
      classify (D.take n) tid action = some a := by
  generalize hr : (Except.ok a : Except TrackerError Answer) = r at h
  induction h with
  | sendFailed | timedOut => cases hr
  | ended hend =>
    subst hr
    obtain ⟨pre, d, rfl, -, hd⟩ := hend
    refine ⟨.sent i p :: pre.map (.received i), d, [], by simp, fun last => ?_, hd⟩
    simp [lastSent, lastSent_received]
  | @silent taken E' r _ _ ih =>
    obtain ⟨E₁, D, E₂, rfl, hlast, hD⟩ := ih hr
    refine ⟨.sent i p :: taken.map (.received i) ++ E₁, D, E₂, by simp, fun last => ?_, hD⟩
    simp [lastSent, lastSent_append, lastSent_received, hlast]

/-- A request replies with a tracker's refusal only on receiving, while it waits on its own
datagram, one with action 3 and the request's transaction id; the refusal's text is the rest of
that datagram, cut to the receive buffer. -/
theorem request_refusal {β : Type} {host : String} {port : Nat} {packet : Nat → Nat → Bytes}
    {action : Nat} {parse : Bytes → Except TrackerError β} (hshape : RequestShape packet action)
    {w w' : World} {m : String}
    (h : (request host port packet action parse).run w = (.ok (.failure m), w')) :
    ∃ F₁ i p D F₂, w'.events = w.events ++ F₁ ++ .received i (.datagram D) :: F₂ ∧
      lastSent none F₁ = some p ∧ u32At p 8 = action ∧ 8 ≤ D.length ∧
      u32At D 0 = actionError ∧ u32At D 4 = u32At p 12 ∧
      m = Utf8.decodeLossy ((D.take w.config.recvBufferLen).drop 8) := by
  rcases request_spec h with ⟨e, -, he⟩ | ⟨s, w₁, a, w₂, hacq, hx, hr, hw'⟩
  · cases he
  -- data replies with `success` or fails, so the answer was a refusal
  have ha : a = .ok (.refusal m) := by
    rcases a with e | d | m'
    · cases hr
    · rcases hparse : parse d with e | v <;>
        simp [Except.bind, Answer.reply, hparse, Except.map] at hr
    · simp only [Except.bind, Answer.reply, Except.ok.injEq, Reply.failure.injEq] at hr
      rw [hr]
  subst ha
  obtain ⟨F, hF, -⟩ := acquire_fresh hacq
  obtain ⟨-, hconfig, -⟩ := acquire_session hacq
  obtain ⟨E, hE, hrounds, -⟩ := exchange_rounds hx
  obtain ⟨T, hT, -⟩ := handedOver_quiet w₂ s
  obtain ⟨E₁, D, E₂, rfl, hlast, hD⟩ := hrounds.answered
  obtain ⟨hlen, htidD, hkind⟩ := classify_eq_some hD
  simp only [hconfig] at hlen htidD hkind
  have hn : 8 ≤ w.config.recvBufferLen := by simp at hlen; omega
  rw [u32At_take D (by omega)] at htidD
  rcases hkind with ⟨h0, htext⟩ | ⟨-, -, hdata⟩
  · rw [u32At_take D (by omega)] at h0
    refine ⟨F ++ E₁, s.transport.id, packet s.connectionId w₁.nextId, D, E₂ ++ T, ?_,
      by rw [lastSent_append, hlast], hshape.action_eq _ _, by simp at hlen; omega, h0, ?_,
      by cases htext; rfl⟩
    · rw [hw']
      show (w₂.handedOver s).events = _
      simp [hT, hE, hF]
    · rw [hshape.tid_eq, ← htidD, Nat.mod_eq_of_lt (u32At_lt D 4)]
  · cases hdata

/-- A call returns a tracker's refusal only on receiving, while it waits on its announce or
scrape request, a datagram with action 3 and the request's transaction id; the refusal's text is
the rest of that datagram, cut to the receive buffer. -/
theorem step_refusal (W : World) (op : UdpOp) (m : String)
    (h : (W.step op).1.result = some (.ok (.announced (.failure m))) ∨
      (W.step op).1.result = some (.ok (.scraped (.failure m)))) :
    ∃ F₁ i p D F₂, (W.step op).2.events = W.events ++ F₁ ++ .received i (.datagram D) :: F₂ ∧
      lastSent none F₁ = some p ∧ (u32At p 8 = actionAnnounce ∨ u32At p 8 = actionScrape) ∧
      8 ≤ D.length ∧ u32At D 0 = actionError ∧ u32At D 4 = u32At p 12 ∧
      m = Utf8.decodeLossy ((D.take W.config.recvBufferLen).drop 8) := by
  cases op with
  | announce r =>
    rcases hrun : (announce r).run { W with sent := [], connectCalls := [] } with ⟨res, w₁⟩
    simp only [World.step, hrun] at h ⊢
    have hres : res = .ok (.failure m) := by
      rcases res with e | v <;> simp [Except.map] at h
      rw [h]
    rw [announce_run, hres] at hrun
    rcases hc : announceChecks r with e | ⟨⟨host, port⟩, ip, key?⟩ <;> rw [hc] at hrun
    · cases hrun
    obtain ⟨F₁, i, p, D, F₂, hev, hlast, hact, hrest⟩ :=
      request_refusal (announcePacket_shape r _) hrun
    -- the request runs from the world between calls, with a key drawn or not
    cases key? <;> exact ⟨F₁, i, p, D, F₂, hev, hlast, .inl hact, hrest⟩
  | scrape url hashes =>
    rcases hrun : (scrape url hashes).run { W with sent := [], connectCalls := [] } with ⟨res, w₁⟩
    simp only [World.step, hrun] at h ⊢
    have hres : res = .ok (.failure m) := by
      rcases res with e | v <;> simp [Except.map] at h
      rw [h]
    rw [scrape_run, hres] at hrun
    rcases hc : scrapeChecks url hashes with e | ⟨host, port⟩ <;> rw [hc] at hrun
    · cases hrun
    obtain ⟨F₁, i, p, D, F₂, hev, hlast, hact, hrest⟩ :=
      request_refusal (scrapePacket_shape hashes) hrun
    exact ⟨F₁, i, p, D, F₂, hev, hlast, .inr hact, hrest⟩
  | advance ms => simp [World.step] at h

/-! ## Replies are matched by transaction id and action -/

/-- Replies are matched to requests by transaction id and action. Noise left out of a script
changes no report of a run, as long as every noise datagram the run takes off the queue is stray
for the request it is waiting on; a handshake adopts bytes 8 to 16 of a connect reply with the
transaction id of the connect request it sent; and a call returns a tracker's refusal only for a
datagram with action 3 and the transaction id of the request it is waiting on. -/
theorem replies_matched_by_transaction (noise : Bytes → Prop) (config : UdpConfig)
    (script script' : Script) (ids : Nat → UInt32) (ops : List UdpOp) :
    (Script.Muted noise script script' →
      NoiseStray noise ((World.initial config script ids).final ops).events →
      (World.initial config script' ids).run ops =
        (World.initial config script ids).run ops) ∧
    (∀ (host : String) (port : Nat) (w w' : World) (s : Session),
      (handshake host port).run w = (.ok s, w') →
      ∃ E D, w'.events = w.events ++
          .opened s.transport.id :: .sent s.transport.id (connectPacket w.nextId) :: E ∧
        D ∈ receivedOn s.transport.id E ∧ 8 ≤ D.length ∧ u32At D 0 = actionConnect ∧
        u32At D 4 = w.nextId ∧ Packet.u64 s.connectionId = (D.drop 8).take 8) ∧
    (∀ (W : World) (op : UdpOp) (m : String),
      ((W.step op).1.result = some (.ok (.announced (.failure m))) ∨
        (W.step op).1.result = some (.ok (.scraped (.failure m)))) →
      ∃ F₁ i p D F₂, (W.step op).2.events = W.events ++ F₁ ++ .received i (.datagram D) :: F₂ ∧
        lastSent none F₁ = some p ∧ (u32At p 8 = actionAnnounce ∨ u32At p 8 = actionScrape) ∧
        8 ≤ D.length ∧ u32At D 0 = actionError ∧ u32At D 4 = u32At p 12 ∧
        m = Utf8.decodeLossy ((D.take W.config.recvBufferLen).drop 8)) :=
  ⟨fun hmuted hstray => run_muted (World.initial_muted hmuted config ids) ops hstray,
    fun _ _ _ _ _ h => handshake_adopts h, step_refusal⟩

/-- A connect reply for another transaction, queued before the tracker's answer to the connect
request of a scrape, is stray and changes none of the scrape's reports. -/
theorem stray_connect_reply_unseen :
    Script.Muted (· = Packet.u32 0 ++ Packet.u32 999 ++ Packet.u64 77)
        { replies := [.queue [.raw (Packet.u32 0 ++ Packet.u32 999 ++ Packet.u64 77), .auto]] }
        { replies := [.queue [.auto]] } ∧
      NoiseStray (· = Packet.u32 0 ++ Packet.u32 999 ++ Packet.u64 77)
        ((World.initial {}
            { replies := [.queue [.raw (Packet.u32 0 ++ Packet.u32 999 ++ Packet.u64 77), .auto]] }
            5).final [.scrape "udp://tracker.example:6969" [List.replicate 20 7]]).events ∧
      (World.initial {} { replies := [.queue [.auto]] } 5).run
          [.scrape "udp://tracker.example:6969" [List.replicate 20 7]] =
        (World.initial {}
            { replies := [.queue [.raw (Packet.u32 0 ++ Packet.u32 999 ++ Packet.u64 77), .auto]] }
            5).run [.scrape "udp://tracker.example:6969" [List.replicate 20 7]] := by
  have hmuted : Script.Muted (· = Packet.u32 0 ++ Packet.u32 999 ++ Packet.u64 77)
      { replies := [.queue [.raw (Packet.u32 0 ++ Packet.u32 999 ++ Packet.u64 77), .auto]] }
      { replies := [.queue [.auto]] } :=
    ⟨rfl, .cons (.queue (.drop (fun _ _ => ⟨_, rfl, rfl⟩) (.keep _ .nil))) .nil,
      ReplyPlan.Muted.refl _, rfl⟩
  have hstray : NoiseStray (· = Packet.u32 0 ++ Packet.u32 999 ++ Packet.u64 77)
      ((World.initial {}
          { replies := [.queue [.raw (Packet.u32 0 ++ Packet.u32 999 ++ Packet.u64 77), .auto]] }
          5).final [.scrape "udp://tracker.example:6969" [List.replicate 20 7]]).events := by
    decide +kernel
  exact ⟨hmuted, hstray, (replies_matched_by_transaction _ {} _ _ 5 _).1 hmuted hstray⟩

end Noise

end BitTorrent.Tracker
