import BitTorrent.Proofs.Tracker.Calls

/-!
# The cached session between calls

Between calls the client caches at most one session. Which one is fixed by the history of the
run: only a call that passes its checks touches the cache, it empties it when it fails, and it
refills it when it succeeds under the `reuse` policy. So a session is cached exactly when the
last call that passed its checks returned `Ok` under `reuse`, and it is for that call's tracker.

## Main statements

* `World.final_append`, `World.run_append`: a run of one more call.
* `step_session`: what one call does to the cache.
* `session_history`: the cache after any run, read from the run's calls and reports.
-/

namespace BitTorrent.Tracker

namespace World

theorem final_append (w : World) (ops : List UdpOp) (op : UdpOp) :
    w.final (ops ++ [op]) = ((w.final ops).step op).2 := by
  induction ops generalizing w with
  | nil => rfl
  | cons op' ops ih => exact ih _

theorem run_append (w : World) (ops : List UdpOp) (op : UdpOp) :
    w.run (ops ++ [op]) = w.run ops ++ [((w.final ops).step op).1] := by
  induction ops generalizing w with
  | nil => rfl
  | cons op' ops ih => simp only [List.cons_append, run, final, ih]

theorem length_run (w : World) (ops : List UdpOp) : (w.run ops).length = ops.length := by
  induction ops generalizing w with
  | nil => rfl
  | cons op ops ih => simp [run, ih]

theorem step_config (w : World) (op : UdpOp) : (w.step op).2.config = w.config := by
  by_cases hop : op.tracker? = none
  · obtain ⟨ms, hw⟩ := ((step_spec w op).1 hop).1
    rw [hw]
  · obtain ⟨⟨host, port⟩, hop⟩ := Option.ne_none_iff_exists'.1 hop
    obtain ⟨β, packet, action, parse, wrap, k, res, -, -, hrun, -⟩ := (step_spec w op).2 host port hop
    exact (request_session hrun).1

theorem final_config (w : World) (ops : List UdpOp) : (w.final ops).config = w.config := by
  induction ops generalizing w with
  | nil => rfl
  | cons op ops ih => exact (ih _).trans (step_config w op)

end World

/-- Index `k` of `ops` is the last call that passes its checks. -/
def LastChecked (ops : List UdpOp) (k : Nat) : Prop :=
  (ops[k]?.bind UdpOp.tracker?).isSome ∧ ∀ j, k < j → ops[j]?.bind UdpOp.tracker? = none

/-- A call that its checks refuse, or that lets time pass, leaves the cache alone; one that
passes them caches a session, for its tracker, only under `reuse` and only when it returns
`Ok`, and always then. -/
theorem step_session (W : World) (op : UdpOp) :
    (op.tracker? = none → (W.step op).2.session = W.session) ∧
    ∀ host port, op.tracker? = some (host, port) →
      (∀ s, (W.step op).2.session = some s → s.host = host ∧ s.port = port ∧
        (∃ v, (W.step op).1.result = some (.ok v)) ∧ ∃ ttl, W.config.policy = .reuse ttl) ∧
      ((∃ v, (W.step op).1.result = some (.ok v)) → (∃ ttl, W.config.policy = .reuse ttl) →
        ((W.step op).2.session).isSome) := by
  refine ⟨fun hop => ?_, fun host port hop => ?_⟩
  · obtain ⟨ms, hw⟩ := ((step_spec W op).1 hop).1
    rw [hw]
  · obtain ⟨β, packet, action, parse, wrap, k, res, -, -, hrun, hresult⟩ :=
      (step_spec W op).2 host port hop
    obtain ⟨-, hcached, hok⟩ := request_session hrun
    -- the call's result is `Ok` exactly when the request's is
    have hres : (∃ v, (W.step op).1.result = some (.ok v)) ↔ ∃ v, res = .ok v := by
      rw [hresult]
      cases res <;> simp [Except.map]
    refine ⟨fun s hs => ?_, fun hv hpol => hok (hres.1 hv) hpol⟩
    obtain ⟨hhost, hport, hv, hpol⟩ := hcached s hs
    exact ⟨hhost, hport, hres.2 hv, hpol⟩

/-- The tracker of call `j` of a run extended by one call. -/
theorem tracker?_append (ops : List UdpOp) (op : UdpOp) (j : Nat) :
    (ops ++ [op])[j]?.bind UdpOp.tracker? =
      if j = ops.length then op.tracker? else ops[j]?.bind UdpOp.tracker? := by
  rcases Nat.lt_trichotomy j ops.length with hj | rfl | hj
  · rw [List.getElem?_append_left hj, if_neg (Nat.ne_of_lt hj)]
  · rw [List.getElem?_concat_length, if_pos rfl]
    rfl
  · rw [@List.getElem?_eq_none _ (ops ++ [op]) j (by simp; omega), if_neg (Nat.ne_of_gt hj),
      @List.getElem?_eq_none _ ops j (by omega)]

/-- Extending a run by a call refused by its checks keeps its last checked call. -/
theorem lastChecked_append_none {ops : List UdpOp} {op : UdpOp} (hop : op.tracker? = none)
    {k : Nat} : LastChecked (ops ++ [op]) k ↔ LastChecked ops k := by
  have hsame : ∀ j : Nat, (ops ++ [op])[j]?.bind UdpOp.tracker? = ops[j]?.bind UdpOp.tracker? := by
    intro j
    rw [tracker?_append]
    split
    · rename_i hj
      rw [hop, hj, @List.getElem?_eq_none _ ops ops.length (Nat.le_refl _)]
      rfl
    · rfl
  simp only [LastChecked, hsame]

/-- Extending a run by a call that passes its checks makes it the last checked call. -/
theorem lastChecked_append_some {ops : List UdpOp} {op : UdpOp} {target : String × Nat}
    (hop : op.tracker? = some target) {k : Nat} :
    LastChecked (ops ++ [op]) k ↔ k = ops.length := by
  simp only [LastChecked, tracker?_append, hop]
  constructor
  · rintro ⟨hk, hlast⟩
    by_contra hne
    rcases Nat.lt_or_gt_of_ne hne with hlt | hgt
    · simpa using hlast ops.length hlt
    · rw [if_neg hne, @List.getElem?_eq_none _ ops k (by omega)] at hk
      simp at hk
  · rintro rfl
    refine ⟨by simp, fun j hj => ?_⟩
    rw [if_neg (by omega), @List.getElem?_eq_none _ ops j (by omega)]
    rfl

/-- What a run leaves in the cache: a session only under `reuse` and only when the last call
that passed its checks returned `Ok`, for that call's tracker; and under `reuse`, always then. -/
theorem session_history (config : UdpConfig) (script : Script) (ids : Nat → UInt32)
    (ops : List UdpOp) :
    (∀ s, ((World.initial config script ids).final ops).session = some s →
      (∃ ttl, config.policy = .reuse ttl) ∧
      ∃ k v, LastChecked ops k ∧ ops[k]?.bind UdpOp.tracker? = some (s.host, s.port) ∧
        ((World.initial config script ids).run ops)[k]?.bind (·.result) = some (.ok v)) ∧
    ((∃ ttl, config.policy = .reuse ttl) → ∀ k v, LastChecked ops k →
      ((World.initial config script ids).run ops)[k]?.bind (·.result) = some (.ok v) →
      (((World.initial config script ids).final ops).session).isSome) := by
  -- the induction adds calls at the end, where the last checked call can change
  induction ops using List.reverseRecOn with
  | nil =>
    -- a fresh client caches nothing and has made no call
    refine ⟨fun s hs => by simp [World.final, World.initial] at hs, fun _ k v hk => ?_⟩
    simp [LastChecked] at hk
  | append_singleton ops op ih =>
    obtain ⟨ihcached, ihok⟩ := ih
    set w := World.initial config script ids
    have hconfig : (w.final ops).config = config := World.final_config w ops
    rw [World.final_append, World.run_append]
    obtain ⟨hkeep, hcall⟩ := step_session (w.final ops) op
    have hlen := World.length_run w ops
    rcases hop : op.tracker? with _ | ⟨host, port⟩
    · -- a call that does not reach the network: history and cache both stay
      rw [hkeep hop]
      refine ⟨fun s hs => ?_, fun hpol k v hk hv => ?_⟩
      · -- the cached session still comes from the same call, which stays the last checked one
        obtain ⟨hpol, k, v, hk, htarget, hv⟩ := ihcached s hs
        have hlt : k < ops.length := by
          by_contra hge
          simp [@List.getElem?_eq_none _ ops k (by omega)] at htarget
        refine ⟨hpol, k, v, (lastChecked_append_none hop).2 hk, ?_, ?_⟩
        · rwa [List.getElem?_append_left hlt]
        · rwa [List.getElem?_append_left (by omega)]
      · -- the last checked call is one of the earlier ones, whose success cached a session
        have hk' := (lastChecked_append_none hop).1 hk
        have hlt : k < ops.length := by
          by_contra hge
          have := hk'.1
          simp [@List.getElem?_eq_none _ ops k (by omega)] at this
        exact ihok hpol k v hk' (by rwa [List.getElem?_append_left (by omega)] at hv)
    · -- a call that reaches the network: it is now the last checked call
      obtain ⟨hcached, hok⟩ := hcall host port hop
      refine ⟨fun s hs => ?_, fun hpol k v hk hv => ?_⟩
      · -- a session left in the cache was cached by this call, on success, for its tracker
        obtain ⟨hhost, hport, ⟨v, hv⟩, hpol⟩ := hcached s hs
        refine ⟨hconfig ▸ hpol, ops.length, v, (lastChecked_append_some hop).2 rfl, ?_, ?_⟩
        · simp [hop, hhost, hport]
        · simp [hlen, hv]
      · -- this call is the last checked one, and under `reuse` its success caches its session
        obtain rfl := (lastChecked_append_some hop).1 hk
        refine hok ⟨v, ?_⟩ (hconfig ▸ hpol)
        simpa [List.getElem?_append_right (le_of_eq hlen.symm), hlen] using hv

end BitTorrent.Tracker
