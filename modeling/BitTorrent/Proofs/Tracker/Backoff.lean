import BitTorrent.Proofs.Tracker.Runs
import Mathlib.Algebra.BigOperators.Group.Finset.Basic

/-!
# Retransmission with backoff

An exchange sends its datagram, waits for the answer, and when none comes sends it again, up
to `maxRetries` more times. The wait after send number `k` lasts `baseTimeout * 2 ^ min k 8`
(`UdpConfig.backoff`): it doubles with each retransmission and stops doubling after the
eighth. When no send brings an answer, the exchange sends the same datagram `maxRetries + 1`
times and gives up with `Timeout` once the sum of the waits has passed. When the first answer
comes in the wait after send number `k`, exactly `k + 1` sends have been made, at the time send
number `k` went out, and that answer is returned (`exchange_backoff`).

The network is read off the script from the world the exchange starts in: the reply plan of
each send, and what it queues (`World.replyTo`); the wait after the first send also meets what
was queued before (`World.window`). A wait is silent when every send goes out and no item it
finds answers the request or fails the receive (`World.SilentWindow`).

The proof runs the exchange round by round: a silent round sends once, takes every queued item,
lets the wait pass, and leaves the next rounds facing the next windows
(`attempt_silent_round`); silent rounds compose by induction (`attempt_silent_rounds`).
The exchange terminates on every script by construction: it recurses on the sends left, and
each wait on the finite queue.

## Main statements

* `attempt_silent_rounds`: the exchange after any number of silent rounds.
* `exchange_backoff`.
-/

namespace BitTorrent.Tracker

/-! ## Section 1: The schedule and the network -/

/-- The wait after send number `k`: the base timeout doubled `k` times, at most eight. -/
def UdpConfig.backoff (c : UdpConfig) (k : Nat) : Nat := c.baseTimeout * 2 ^ min k 8

/-- The waits from send number `k` on are the wait after send `k`, then those from `k + 1` on. -/
theorem UdpConfig.sum_backoff_succ (c : UdpConfig) (k m : Nat) :
    ∑ j ∈ Finset.range (m + 1), c.backoff (k + j) =
      c.backoff k + ∑ j ∈ Finset.range m, c.backoff (k + 1 + j) := by
  rw [Finset.sum_range_succ', Nat.add_zero, Nat.add_comm]
  congr 1
  exact Finset.sum_congr rfl fun j _ => by rw [Nat.add_assoc, Nat.add_comm 1 j]

/-- The items queued in answer to send number `j` of `p`, counted from world `w`, or `none`
when the network refuses that send. -/
def World.replyTo (w : World) (p : Bytes) (j : Nat) : Option (List Delivery) :=
  match w.script.replies.getD j w.script.defaultReply with
  | .queue items => some (items.map (·.resolve w.script.connectionId p))
  | .sendFault => none

/-- The items the wait after send number `j` finds: what that send is answered with, after
whatever was queued before the exchange for the wait after the first send. -/
def World.window (w : World) (p : Bytes) : Nat → Option (List Delivery)
  | 0 => (w.replyTo p 0).map (w.inbox ++ ·)
  | j + 1 => w.replyTo p (j + 1)

/-- The wait after send number `j` is silent: the send goes out, and nothing the wait finds
answers the request to `(tid, action)` or fails the receive. -/
def World.SilentWindow (w : World) (p : Bytes) (n tid action j : Nat) : Prop :=
  ∃ q, w.window p j = some q ∧ ∀ x ∈ q, x.Passed n tid action

/-- The wait after send number `j` brings the answer `a`: the send goes out, and the first
item the wait does not pass over is a datagram answering with `a`. -/
def World.AnsweredIn (w : World) (p : Bytes) (n tid action j : Nat) (a : Answer) : Prop :=
  ∃ pre d post, w.window p j = some (pre ++ .datagram d :: post) ∧
    (∀ x ∈ pre, x.Passed n tid action) ∧ classify (d.take n) tid action = some a

/-! ## Section 2: One round -/

theorem awaitAnswer_of_passed {n tid action : Nat} {q : List Delivery}
    (h : ∀ x ∈ q, x.Passed n tid action) : awaitAnswer n tid action q = (none, q) := by
  induction q with
  | nil => rfl
  | cons x q ih =>
    obtain ⟨hx, hq⟩ := List.forall_mem_cons.1 h
    cases x with
    | fault r => exact hx.elim
    | datagram d =>
      have hnone : classify (d.take n) tid action = none := hx
      simp [awaitAnswer, hnone, ih hq]

theorem awaitAnswer_answered {n tid action : Nat} {pre post : List Delivery} {d : Bytes}
    {a : Answer} (hpre : ∀ x ∈ pre, x.Passed n tid action)
    (hd : classify (d.take n) tid action = some a) :
    awaitAnswer n tid action (pre ++ .datagram d :: post) = (some (.ok a), pre ++ [.datagram d]) := by
  induction pre with
  | nil => simp [awaitAnswer, hd]
  | cons x pre ih =>
    obtain ⟨hx, hrest⟩ := List.forall_mem_cons.1 hpre
    cases x with
    | fault r => exact hx.elim
    | datagram d' =>
      have hnone : classify (d'.take n) tid action = none := hx
      simp [awaitAnswer, hnone, ih hrest]

/-- A send the network lets out records the datagram and queues its answer. -/
theorem send_run_of_replyTo {t : Transport} {p : Bytes} {w : World} {q : List Delivery}
    (h : w.replyTo p 0 = some q) :
    (send t p).run w =
      (.ok (), { w with script := { w.script with replies := w.script.replies.tail },
                        sent := w.sent ++ [p], events := w.events ++ [.sent t.id p],
                        inbox := w.inbox ++ q }) := by
  rw [send_run, List.headD_eq_getD]
  unfold World.replyTo at h
  split at h
  next items hplan =>
    cases h
    simp only [hplan]
  next => cases h

/-- A silent round sends once, takes every queued item and lets the wait run out; the next
round then faces the next window. -/
theorem attempt_silent_round {t : Transport} {p : Bytes} {tid action : Nat} {c : UdpConfig}
    (k left : Nat) {w : World} (h : w.SilentWindow p c.recvBufferLen tid action 0) :
    ∃ w₁, (exchange.attempt t p tid action c k (left + 1)).run w =
        (exchange.attempt t p tid action c (k + 1) left).run w₁ ∧
      w₁.config = w.config ∧ w₁.clock = w.clock + c.backoff k ∧ w₁.sent = w.sent ++ [p] ∧
      ∀ j, w₁.window p j = w.window p (j + 1) := by
  obtain ⟨q, hq, hpass⟩ := h
  obtain ⟨items, hreply, rfl⟩ := Option.map_eq_some_iff.1 hq
  rw [attempt_succ_run, send_run_of_replyTo hreply]
  simp only [receive_run, awaitAnswer_of_passed hpass, List.drop_length]
  refine ⟨_, rfl, rfl, rfl, rfl, fun j => ?_⟩
  -- the send used up one reply plan and the wait emptied the queue
  cases j <;> simp [World.window, World.replyTo, List.getD_eq_getElem?_getD]

/-- A round whose wait brings the answer sends once and returns it, with no time passing. -/
theorem attempt_answered_round {t : Transport} {p : Bytes} {tid action : Nat} {c : UdpConfig}
    (k left : Nat) {w : World} {a : Answer} (h : w.AnsweredIn p c.recvBufferLen tid action 0 a) :
    ∃ w', (exchange.attempt t p tid action c k (left + 1)).run w = (.ok a, w') ∧
      w'.clock = w.clock ∧ w'.sent = w.sent ++ [p] := by
  obtain ⟨pre, d, post, hq, hpre, hd⟩ := h
  obtain ⟨items, hreply, hqueue⟩ := Option.map_eq_some_iff.1 hq
  rw [attempt_succ_run, send_run_of_replyTo hreply]
  simp only [receive_run, hqueue, awaitAnswer_answered hpre hd]
  exact ⟨_, rfl, rfl, rfl⟩

/-! ## Section 3: Rounds one after another -/

/-- After `m` silent rounds the exchange is at send number `k + m`, with the waits of those
rounds passed and the datagram sent `m` more times. -/
theorem attempt_silent_rounds {t : Transport} {p : Bytes} {tid action : Nat} {c : UdpConfig}
    (m : Nat) : ∀ (k left : Nat) (w : World), m ≤ left →
    (∀ j < m, w.SilentWindow p c.recvBufferLen tid action j) →
    ∃ w', (exchange.attempt t p tid action c k left).run w =
        (exchange.attempt t p tid action c (k + m) (left - m)).run w' ∧
      w'.config = w.config ∧ w'.clock = w.clock + ∑ j ∈ Finset.range m, c.backoff (k + j) ∧
      w'.sent = w.sent ++ List.replicate m p ∧ ∀ j, w'.window p j = w.window p (j + m) := by
  induction m with
  | zero => intro k left w _ _; exact ⟨w, rfl, rfl, by simp, by simp, fun j => rfl⟩
  | succ m ih =>
    intro k left w hm hsilent
    obtain ⟨left, rfl⟩ : ∃ l, left = l + 1 := ⟨left - 1, by omega⟩
    -- the first round is silent; the rest face the windows one further on
    obtain ⟨w₁, hrun₁, hconfig₁, hclock₁, hsent₁, hwin₁⟩ :=
      attempt_silent_round k left (hsilent 0 (Nat.succ_pos m))
    have hsilent₁ : ∀ j < m, w₁.SilentWindow p c.recvBufferLen tid action j := by
      intro j hj
      obtain ⟨q, hq, hpass⟩ := hsilent (j + 1) (by omega)
      exact ⟨q, (hwin₁ j).trans hq, hpass⟩
    obtain ⟨w', hrun', hconfig', hclock', hsent', hwin'⟩ := ih (k + 1) left w₁ (by omega) hsilent₁
    have hk : k + 1 + m = k + (m + 1) := by omega
    have hleft : left - m = left + 1 - (m + 1) := by omega
    refine ⟨w', hrun₁.trans (by rw [hrun', hk, hleft]), hconfig'.trans hconfig₁, ?_, ?_,
      fun j => (hwin' j).trans (by rw [hwin₁]; rfl)⟩
    · rw [hclock', hclock₁, c.sum_backoff_succ, Nat.add_assoc]
    · rw [hsent', hsent₁, List.replicate_succ, List.append_assoc, List.singleton_append]

/-- The exchange after `k` silent rounds, for `k` up to the number of sends allowed. -/
theorem exchange_silent_rounds {t : Transport} {p : Bytes} {tid action : Nat} {w : World} {k : Nat}
    (hk : k ≤ w.config.maxRetries + 1)
    (hsilent : ∀ j < k, w.SilentWindow p w.config.recvBufferLen tid action j) :
    ∃ w', (exchange t p tid action).run w =
        (exchange.attempt t p tid action w.config k (w.config.maxRetries + 1 - k)).run w' ∧
      w'.clock = w.clock + ∑ j ∈ Finset.range k, w.config.backoff j ∧
      w'.sent = w.sent ++ List.replicate k p ∧ ∀ j, w'.window p j = w.window p (j + k) := by
  obtain ⟨w', hrun, -, hclock, hsent, hwin⟩ :=
    attempt_silent_rounds k 0 (w.config.maxRetries + 1) w hk hsilent
  simp only [Nat.zero_add] at hrun hclock
  exact ⟨w', (exchange_run t p tid action w).trans hrun, hclock, hsent, hwin⟩

/-- Retransmission follows the backoff and then gives up. Let `r` be the retransmissions the
settings allow and `t * 2 ^ min k 8` the wait after send number `k`. While the waits before it
bring no answer, send number `k ≤ r + 1` goes out once those waits have passed, the same
datagram having been sent `k` times before. When no wait brings an answer, the exchange sends
it `r + 1` times and fails with `Timeout` once all `r + 1` waits have passed. When the first
answer comes in the wait after send number `k ≤ r`, the exchange returns it after exactly
`k + 1` sends, at the time send number `k` went out. -/
theorem exchange_backoff (t : Transport) (p : Bytes) (tid action : Nat) (w : World) :
    (∀ k ≤ w.config.maxRetries + 1,
      (∀ j < k, w.SilentWindow p w.config.recvBufferLen tid action j) →
      ∃ w', (exchange t p tid action).run w =
          (exchange.attempt t p tid action w.config k (w.config.maxRetries + 1 - k)).run w' ∧
        w'.clock = w.clock + ∑ j ∈ Finset.range k, w.config.backoff j ∧
        w'.sent = w.sent ++ List.replicate k p) ∧
    ((∀ j ≤ w.config.maxRetries, w.SilentWindow p w.config.recvBufferLen tid action j) →
      ∃ w', (exchange t p tid action).run w = (.error .timeout, w') ∧
        w'.sent = w.sent ++ List.replicate (w.config.maxRetries + 1) p ∧
        w'.clock = w.clock + ∑ k ∈ Finset.range (w.config.maxRetries + 1), w.config.backoff k) ∧
    (∀ k a, k ≤ w.config.maxRetries →
      (∀ j < k, w.SilentWindow p w.config.recvBufferLen tid action j) →
      w.AnsweredIn p w.config.recvBufferLen tid action k a →
      ∃ w', (exchange t p tid action).run w = (.ok a, w') ∧
        w'.sent = w.sent ++ List.replicate (k + 1) p ∧
        w'.clock = w.clock + ∑ j ∈ Finset.range k, w.config.backoff j) := by
  refine ⟨fun k hk hsilent => ?_, fun hsilent => ?_, fun k a hk hsilent hanswer => ?_⟩
  · obtain ⟨w', hrun, hclock, hsent, -⟩ := exchange_silent_rounds hk hsilent
    exact ⟨w', hrun, hclock, hsent⟩
  · -- every send allowed is made, and then none is left
    obtain ⟨w', hrun, hclock, hsent, -⟩ :=
      exchange_silent_rounds (Nat.le_refl _) fun j hj => hsilent j (by omega)
    rw [Nat.sub_self, attempt_zero_run] at hrun
    exact ⟨w', hrun, hsent, hclock⟩
  · -- the silent rounds before it, then the round that brings the answer
    obtain ⟨w', hrun, hclock, hsent, hwin⟩ := exchange_silent_rounds (by omega) hsilent
    have hanswer' : w'.AnsweredIn p w.config.recvBufferLen tid action 0 a := by
      obtain ⟨pre, d, post, hq, hpre, hd⟩ := hanswer
      exact ⟨pre, d, post, (hwin 0).trans (by rw [Nat.zero_add]; exact hq), hpre, hd⟩
    have hleft : w.config.maxRetries + 1 - k = (w.config.maxRetries - k) + 1 := by omega
    rw [hleft] at hrun
    obtain ⟨w'', hrun', hclock', hsent'⟩ :=
      attempt_answered_round k (w.config.maxRetries - k) hanswer'
    refine ⟨w'', hrun.trans hrun', ?_, hclock'.trans hclock⟩
    rw [hsent', hsent, List.append_assoc, ← List.replicate_succ']

/-- Under the default settings, a tracker that never answers gets four sends and is given up on
after `15 + 30 + 60 + 120` seconds. -/
theorem silent_tracker_given_up :
    (∀ j ≤ 3, World.SilentWindow { script := { defaultReply := .queue [] } } [0] 2048 7 0 j) ∧
    ∃ w', (exchange ⟨0⟩ [0] 7 0).run { script := { defaultReply := .queue [] } } =
        (.error .timeout, w') ∧ w'.sent = List.replicate 4 [0] ∧ w'.clock = 225000 := by
  have hsilent : ∀ j ≤ 3,
      World.SilentWindow { script := { defaultReply := .queue [] } } [0] 2048 7 0 j := by
    intro j _
    exact ⟨[], by cases j <;> rfl, by simp⟩
  obtain ⟨w', hrun, hsent, hclock⟩ :=
    (exchange_backoff ⟨0⟩ [0] 7 0 { script := { defaultReply := .queue [] } }).2.1 hsilent
  refine ⟨hsilent, w', hrun, hsent, ?_⟩
  rw [hclock]
  simp [Finset.sum_range_succ, UdpConfig.backoff]

end BitTorrent.Tracker
