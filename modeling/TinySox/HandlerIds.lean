import Mathlib.Data.List.Nodup
import TinySox.HandlerRegistry

/-!
# Handler ids and events

What an id stands for. Ids are given out in order and never again, so an event that was fetched for
a handler reaches this handler or none, although its descriptor may have been closed and its number
handed out again in the meantime.
-/

namespace TinySox

open TinySox.Common

namespace TCPCommService

variable {s t : TCPCommService}

/-- The id was given out, and no handler has it for another descriptor. -/
def StandsFor (s : TCPCommService) (id : ℕ) (d : Descriptor) : Prop :=
  id ∈ s.created ∧ ∀ x, (id, x) ∈ s.commHandlers → x.fd = d

/-- Ids are given out in order, and each stands for one descriptor wherever it turns up. -/
structure Identified (s : TCPCommService) : Prop where
  counter : s.handlerIdCounter = s.created.length
  created : s.created = (List.range s.created.length).map (· + 1)
  keys : ∀ e ∈ s.commHandlers, e.1 ∈ s.created
  distinct : (s.commHandlers.map Prod.fst).Nodup
  interest : ∀ e ∈ s.interest, s.StandsFor e.2 e.1
  registering : ∀ fd id, .register fd id ∈ s.ops → s.StandsFor id fd
  batch : ∀ e ∈ s.worker.events, s.StandsFor e.id e.origin
  returned : ∀ v ∈ s.returned, v ∈ s.created ∨ handlerError < v
  notified : ∀ n ∈ s.notified, n.id = n.event.id ∧ n.fd = n.event.origin

/-- The next id is a new one, as long as the counter does not overflow. -/
theorem Identified.nextId (h : s.Identified) (hfew : s.created.length < 2 ^ 64 - 1) :
    s.nextId = s.created.length + 1 ∧ s.nextId ∉ s.created ∧ s.find s.nextId = none := by
  have hnext : s.nextId = s.created.length + 1 := by
    rw [TCPCommService.nextId, h.counter]
    exact Nat.mod_eq_of_lt (by omega)
  have hnot : s.nextId ∉ s.created := by
    rw [hnext, h.created]
    intro hmem
    obtain ⟨k, hk, heq⟩ := List.mem_map.mp hmem
    rw [List.length_map, List.length_range] at heq
    have := List.mem_range.mp hk
    omega
  refine ⟨hnext, hnot, ?_⟩
  rw [find, Option.map_eq_none_iff, List.find?_eq_none]
  intro e he heq
  exact hnot (of_decide_eq_true heq ▸ h.keys e he)

/-- A step that gives out no id and changes no handler. -/
theorem Identified.frame (h : s.Identified)
    (hids : t.handlerIdCounter = s.handlerIdCounter ∧ t.created = s.created ∧
      t.commHandlers = s.commHandlers ∧ t.notified = s.notified)
    (hinterest : ∀ e ∈ t.interest, s.StandsFor e.2 e.1)
    (hregistering : ∀ fd id, .register fd id ∈ t.ops → s.StandsFor id fd)
    (hbatch : ∀ e ∈ t.worker.events, s.StandsFor e.id e.origin)
    (hreturned : ∀ v ∈ t.returned, v ∈ s.created ∨ handlerError < v) : t.Identified := by
  obtain ⟨hcounter, hcreated, hhandlers, hnotified⟩ := hids
  have hkeep (id : ℕ) (d : Descriptor) (hd : s.StandsFor id d) : t.StandsFor id d := by
    rwa [StandsFor, hcreated, hhandlers]
  constructor
  · rw [hcounter, hcreated]
    exact h.counter
  · rw [hcreated]
    exact h.created
  · rw [hcreated, hhandlers]
    exact h.keys
  · rw [hhandlers]
    exact h.distinct
  · exact fun e he => hkeep _ _ (hinterest e he)
  · exact fun fd id hop => hkeep _ _ (hregistering fd id hop)
  · exact fun e he => hkeep _ _ (hbatch e he)
  · rw [hcreated]
    exact hreturned
  · rw [hnotified]
    exact h.notified

/-- A step that changes or removes handlers, but none of their descriptors. -/
theorem Identified.handlers (h : s.Identified)
    (hids : t.handlerIdCounter = s.handlerIdCounter ∧ t.created = s.created ∧
      t.interest = s.interest ∧ t.returned = s.returned)
    (hhandlers : ∀ e ∈ t.commHandlers, ∃ x, (e.1, x) ∈ s.commHandlers ∧ x.fd = e.2.fd)
    (hkeys : (t.commHandlers.map Prod.fst).Sublist (s.commHandlers.map Prod.fst))
    (hregistering : ∀ fd id, .register fd id ∈ t.ops → s.StandsFor id fd)
    (hbatch : ∀ e ∈ t.worker.events, s.StandsFor e.id e.origin)
    (hnotified : ∀ n ∈ t.notified, n.id = n.event.id ∧ n.fd = n.event.origin) : t.Identified := by
  obtain ⟨hcounter, hcreated, hinterest, hreturned⟩ := hids
  have hkeep (id : ℕ) (d : Descriptor) (hd : s.StandsFor id d) : t.StandsFor id d := by
    rw [StandsFor, hcreated]
    refine ⟨hd.1, fun x hx => ?_⟩
    obtain ⟨y, hy, hfd⟩ := hhandlers _ hx
    exact hfd.symm.trans (hd.2 y hy)
  constructor
  · rw [hcounter, hcreated]
    exact h.counter
  · rw [hcreated]
    exact h.created
  · intro e he
    obtain ⟨x, hx, -⟩ := hhandlers e he
    have hkey := h.keys (e.1, x) hx
    rwa [hcreated]
  · exact h.distinct.sublist hkeys
  · rw [hinterest]
    exact fun e he => hkeep _ _ (h.interest e he)
  · exact fun fd id hop => hkeep _ _ (hregistering fd id hop)
  · exact fun e he => hkeep _ _ (hbatch e he)
  · rw [hreturned, hcreated]
    exact h.returned
  · exact hnotified

/-- A handler with a new id changes nothing for the ids before it. -/
theorem Identified.insert (h : s.Identified) (hfew : s.created.length < 2 ^ 64 - 1) {fd : Descriptor}
    {ops : List CommOp} (hregistering : ∀ fd' id, .register fd' id ∈ ops →
      s.StandsFor id fd' ∨ (fd' = fd ∧ id = s.nextId)) :
    Identified { s.insert fd with ops := ops } := by
  obtain ⟨hnext, hnew, hfind⟩ := h.nextId hfew
  have hhandlers : (s.insert fd).commHandlers = s.commHandlers ++
      [(s.nextId, ⟨newTCPCommHelper fd.fd true, newTCPCommHelper fd.fd false, fd⟩)] := by
    simp [TCPCommService.insert, hfind]
  have hkeep (id : ℕ) (d : Descriptor) (hd : s.StandsFor id d) :
      StandsFor { s.insert fd with ops := ops } id d := by
    refine ⟨List.mem_append_left _ hd.1, fun x hx => ?_⟩
    dsimp only at hx
    rw [hhandlers] at hx
    rcases List.mem_append.mp hx with hold | hlast
    · exact hd.2 x hold
    · have hid : id = s.nextId := congrArg Prod.fst (List.mem_singleton.mp hlast)
      exact absurd (hid ▸ hd.1) hnew
  have hthis : StandsFor { s.insert fd with ops := ops } s.nextId fd := by
    refine ⟨List.mem_append_right _ (List.mem_singleton_self _), fun x hx => ?_⟩
    dsimp only at hx
    rw [hhandlers] at hx
    rcases List.mem_append.mp hx with hold | hlast
    · exact absurd (h.keys _ hold) hnew
    · have hx' := congrArg Prod.snd (List.mem_singleton.mp hlast)
      dsimp only at hx'
      rw [hx']
  have hlen : (s.created ++ [s.nextId]).length = s.created.length + 1 := by simp
  constructor
  · exact hnext.trans hlen.symm
  · change s.created ++ [s.nextId] = (List.range (s.created ++ [s.nextId]).length).map (· + 1)
    rw [hlen, List.range_succ, List.map_append, ← h.created, hnext]
    rfl
  · intro e he
    dsimp only at he
    rw [hhandlers] at he
    rcases List.mem_append.mp he with hold | hlast
    · exact List.mem_append_left _ (h.keys e hold)
    · rw [List.mem_singleton.mp hlast]
      exact List.mem_append_right _ (List.mem_singleton_self _)
  · dsimp only
    rw [hhandlers, List.map_append, List.map_singleton, List.nodup_append]
    refine ⟨h.distinct, List.nodup_singleton _, ?_⟩
    intro id hid id' hid' heq
    obtain ⟨e, he, rfl⟩ := List.mem_map.mp hid
    have hlast : id' = s.nextId := List.mem_singleton.mp hid'
    have hkey := h.keys e he
    rw [heq, hlast] at hkey
    exact hnew hkey
  · exact fun e he => hkeep _ _ (h.interest e he)
  · intro fd' id hop
    rcases hregistering fd' id hop with hold | ⟨rfl, rfl⟩
    · exact hkeep _ _ hold
    · exact hthis
  · exact fun e he => hkeep _ _ (h.batch e he)
  · exact fun v hv => (h.returned v hv).imp_left (List.mem_append_left _)
  · exact h.notified

/-- An op that goes on without registering a handler leaves the ids that are being registered. -/
theorem Identified.registering_replaced (h : s.Identified) {i : ℕ} {news : List CommOp}
    (hnews : ∀ fd id, .register fd id ∉ news) :
    ∀ fd id, .register fd id ∈ replaceAt s.ops i news → s.StandsFor id fd := by
  intro fd id hop
  rcases mem_of_mem_replaceAt hop with hold | hnew
  · exact h.registering fd id hold
  · exact absurd hnew (hnews fd id)

/-- Opening a descriptor is about no id. -/
theorem Identified.allot (h : s.Identified) {fd : ℕ} {d : Descriptor} {s' : TCPCommService}
    (hallot : s.allot fd = some (d, s'))
    (hsame : (t.handlerIdCounter, t.created, t.commHandlers, t.notified, t.interest, t.worker,
      t.returned) = (s'.handlerIdCounter, s'.created, s'.commHandlers, s'.notified, s'.interest,
        s'.worker, s'.returned))
    (hregistering : ∀ fd id, .register fd id ∈ t.ops → s.StandsFor id fd) : t.Identified := by
  unfold TCPCommService.allot at hallot
  split at hallot
  · contradiction
  · simp only [Option.some.injEq, Prod.mk.injEq] at hallot hsame
    obtain ⟨-, rfl⟩ := hallot
    obtain ⟨hcounter, hcreated, hhandlers, hnotified, hinterest, hworker, hreturned⟩ := hsame
    apply h.frame ⟨hcounter, hcreated, hhandlers, hnotified⟩
    · rw [hinterest]
      exact h.interest
    · exact hregistering
    · rw [hworker]
      exact h.batch
    · rw [hreturned]
      exact h.returned

/-- A call of `close` is about no id. -/
theorem Identified.close {d : Descriptor} {r : CallResult} (h : s.Identified)
    (hids : t.handlerIdCounter = s.handlerIdCounter ∧ t.created = s.created ∧
      t.commHandlers = s.commHandlers ∧ t.notified = s.notified)
    (hworker : t.worker = s.worker) (hinterest : t.interest = (s.close d r).interest)
    (hregistering : ∀ fd id, .register fd id ∈ t.ops → s.StandsFor id fd)
    (hreturned : ∀ v ∈ t.returned, v ∈ s.created ∨ handlerError < v) : t.Identified := by
  have hkept : ∀ e ∈ t.interest, s.StandsFor e.2 e.1 := by
    intro e he
    rw [hinterest] at he
    unfold TCPCommService.close at he
    split at he
    · exact h.interest e (List.mem_filter.mp he).1
    · exact h.interest e he
  have hbatch : ∀ e ∈ t.worker.events, s.StandsFor e.id e.origin := by
    rw [hworker]
    exact h.batch
  exact h.frame hids hkept hregistering hbatch hreturned

/-- What a method has returned is an id that was made, or no id. -/
theorem Identified.returned_concat (h : s.Identified) {id : ℕ}
    (hid : id ∈ s.created ∨ handlerError < id) :
    ∀ v ∈ s.returned ++ [id], v ∈ s.created ∨ handlerError < v := by
  intro v hv
  rcases List.mem_append.mp hv with hold | hlast
  · exact h.returned v hold
  · rw [List.mem_singleton.mp hlast]
    exact hid

/-- A step inside a method keeps what every id stands for. -/
theorem Identified.op {i : ℕ} {op : CommOp} {r : CallResult} {s' : TCPCommService}
    {news : List CommOp} (h : s.Identified) (hfew : s.created.length < 2 ^ 64 - 1)
    (hop : s.ops[i]? = some op) (hadvance : s.advance r op = some (s', news)) :
    Identified { s' with ops := replaceAt s.ops i news } := by
  cases advance_moves hadvance with
  | connected | refused =>
    exact h.frame ⟨rfl, rfl, rfl, rfl⟩ h.interest (h.registering_replaced (by simp)) h.batch
      h.returned
  | @closedFailed fd error =>
    have hvalue : handlerError < if r.ok then connectError error else handlerErrorOther := by
      split
      · exact handlerError_lt_connectError error
      · decide
    have hids := s.close_ids fd r
    exact h.close ⟨hids.1, hids.2.1, hids.2.2.1, hids.2.2.2.1⟩ hids.2.2.2.2.1 rfl
      (h.registering_replaced fun _ _ => List.not_mem_nil) (h.returned_concat (.inr hvalue))
  | @created fd =>
    apply h.insert hfew
    intro fd' id hmem
    rcases mem_of_mem_replaceAt hmem with hold | hnew
    · exact .inl (h.registering fd' id hold)
    · rw [List.mem_singleton, CommOp.register.injEq] at hnew
      exact .inr hnew
  | @registered fd id =>
    have hthis : s.StandsFor id fd := h.registering fd id (List.mem_of_getElem? hop)
    have hinterest : ∀ e ∈ if r.ok then (fd, id) :: s.interest else s.interest,
        s.StandsFor e.2 e.1 := by
      intro e he
      split at he
      · rcases List.mem_cons.mp he with rfl | hold
        · exact hthis
        · exact h.interest e hold
      · exact h.interest e he
    exact h.frame ⟨rfl, rfl, rfl, rfl⟩ hinterest
      (h.registering_replaced fun _ _ => List.not_mem_nil) h.batch
      (h.returned_concat (.inl hthis.1))
  | @erased id x =>
    have hkept : ∀ e ∈ (s.erase id x).commHandlers,
        ∃ y, (e.1, y) ∈ s.commHandlers ∧ y.fd = e.2.fd :=
      fun e he => ⟨e.2, List.mem_of_mem_eraseP he, rfl⟩
    exact h.handlers ⟨rfl, rfl, rfl, rfl⟩ hkept (List.eraseP_sublist.map Prod.fst)
      (h.registering_replaced (by simp)) h.batch h.notified
  | unknown | got =>
    exact h.frame ⟨rfl, rfl, rfl, rfl⟩ h.interest
      (h.registering_replaced fun _ _ => List.not_mem_nil) h.batch h.returned
  | @deregistered fd =>
    have hinterest : ∀ e ∈ if r.ok then s.interest.filter fun e => e.1 ≠ fd else s.interest,
        s.StandsFor e.2 e.1 := by
      intro e he
      split at he
      · exact h.interest e (List.mem_filter.mp he).1
      · exact h.interest e he
    exact h.frame ⟨rfl, rfl, rfl, rfl⟩ hinterest (h.registering_replaced (by simp)) h.batch
      h.returned
  | @closedDisposed fd =>
    have hids := s.close_ids fd r
    have hreturned := h.returned
    rw [← hids.2.2.2.2.2] at hreturned
    exact h.close ⟨hids.1, hids.2.1, hids.2.2.1, hids.2.2.2.1⟩ hids.2.2.2.2.1 rfl
      (h.registering_replaced fun _ _ => List.not_mem_nil) hreturned

/-- An event that is passed on reaches the handler that its descriptor belongs to. -/
theorem Identified.handle (h : s.Identified) {e : EpollEvent} {rest : List EpollEvent}
    (hbatch : e :: rest = s.worker.events) :
    Identified { s.handle e with worker := .handling rest } := by
  have hstands : s.StandsFor e.id e.origin := by
    apply h.batch e
    rw [← hbatch]
    exact List.mem_cons_self
  have hrest : ∀ e' ∈ rest, s.StandsFor e'.id e'.origin := by
    intro e' he'
    apply h.batch e'
    rw [← hbatch]
    exact List.mem_cons_of_mem e he'
  unfold TCPCommService.handle
  split
  · exact h.frame ⟨rfl, rfl, rfl, rfl⟩ h.interest h.registering hrest h.returned
  · rename_i x hfind
    have hx : x.fd = e.origin := hstands.2 x ((perm_of_find hfind).mem_iff.mpr List.mem_cons_self)
    have hnotified : ∀ n ∈ s.notified ++ [⟨e, e.id, x.fd⟩],
        n.id = n.event.id ∧ n.fd = n.event.origin := by
      intro n hn
      rcases List.mem_append.mp hn with hold | hlast
      · exact h.notified n hold
      · rw [List.mem_singleton.mp hlast]
        exact ⟨rfl, hx⟩
    have hkept : ∀ e' ∈ s.commHandlers.map (fun entry =>
        if entry.1 = e.id then (entry.1, e.flags.notices.foldl TCPCommHandler.notify entry.2)
        else entry), ∃ y, (e'.1, y) ∈ s.commHandlers ∧ y.fd = e'.2.fd := by
      intro e' he'
      obtain ⟨entry, hentry, rfl⟩ := List.mem_map.mp he'
      refine ⟨entry.2, ?_, ?_⟩
      · split <;> exact hentry
      · split
        · exact (foldl_notify_fd entry.2 _).symm
        · rfl
    have hkeys := s.handle_keys e
    rw [TCPCommService.handle, hfind] at hkeys
    exact h.handlers ⟨rfl, rfl, rfl, rfl⟩ hkept (by rw [hkeys]) h.registering hrest hnotified

/-- A step of the worker keeps what every id stands for. -/
theorem Identified.worker (h : s.Identified) (hstep : s.workerStep = some t) : t.Identified := by
  cases workerStep_moves hstep with
  | stopped =>
    have hkept : ∀ e ∈ s.commHandlers.map (fun entry => (entry.1, entry.2.cancel)),
        ∃ x, (e.1, x) ∈ s.commHandlers ∧ x.fd = e.2.fd := by
      intro e he
      obtain ⟨entry, hentry, rfl⟩ := List.mem_map.mp he
      exact ⟨entry.2, hentry, rfl⟩
    exact h.handlers ⟨rfl, rfl, rfl, rfl⟩ hkept (by rw [s.cancel_keys]) h.registering
      (fun _ he => absurd he List.not_mem_nil) h.notified
  | locked hpc =>
    have hbatch := h.batch
    rw [hpc] at hbatch
    exact h.frame ⟨rfl, rfl, rfl, rfl⟩ h.interest h.registering hbatch h.returned
  | unlocked =>
    exact h.frame ⟨rfl, rfl, rfl, rfl⟩ h.interest h.registering
      (fun _ he => absurd he List.not_mem_nil) h.returned
  | @handled e rest hpc =>
    have hbatch : e :: rest = s.worker.events := by rw [hpc, CommWorkerPc.events]
    exact h.handle hbatch

/-- Every step keeps what every id stands for, as long as the counter does not overflow. -/
theorem identified_step {act : CommAction} (h : s.Identified)
    (hfew : s.created.length < 2 ^ 64 - 1) (hstep : s.step act = some t) : t.Identified := by
  have hcalls (op : CommOp) (hop : ∀ fd id, op ≠ .register fd id) :
      ∀ fd id, .register fd id ∈ s.ops ++ [op] → s.StandsFor id fd := by
    intro fd id hmem
    rcases List.mem_append.mp hmem with hold | hlast
    · exact h.registering fd id hold
    · exact absurd (List.mem_singleton.mp hlast).symm (hop fd id)
  cases act with
  | acquire fd =>
    simp only [step, Option.map_eq_some_iff] at hstep
    obtain ⟨⟨d, s'⟩, hallot, rfl⟩ := hstep
    have hregistering := h.registering
    rw [← (allot_frame hallot).2.1] at hregistering
    exact h.allot hallot rfl hregistering
  | release fd =>
    simp only [step, Option.ite_none_right_eq_some, Option.some.injEq] at hstep
    obtain ⟨-, rfl⟩ := hstep
    exact h.frame ⟨rfl, rfl, rfl, rfl⟩ (fun e he => h.interest e (List.mem_filter.mp he).1)
      h.registering h.batch h.returned
  | createHandlerFromSocket fd =>
    simp only [step, Option.ite_none_right_eq_some, Option.some.injEq] at hstep
    obtain ⟨-, rfl⟩ := hstep
    exact h.frame ⟨rfl, rfl, rfl, rfl⟩ h.interest (hcalls _ fun _ _ => CommOp.noConfusion) h.batch
      h.returned
  | connectAndCreateHandler socket =>
    cases socket with
    | none =>
      cases hstep
      exact h.frame ⟨rfl, rfl, rfl, rfl⟩ h.interest h.registering h.batch
        (h.returned_concat (.inr (by decide)))
    | some fd =>
      simp only [step, Option.map_eq_some_iff] at hstep
      obtain ⟨⟨d, s'⟩, hallot, rfl⟩ := hstep
      exact h.allot hallot rfl (hcalls _ fun _ _ => CommOp.noConfusion)
  | disposeHandler id =>
    cases hstep
    exact h.frame ⟨rfl, rfl, rfl, rfl⟩ h.interest (hcalls _ fun _ _ => CommOp.noConfusion) h.batch
      h.returned
  | getHandler id =>
    cases hstep
    exact h.frame ⟨rfl, rfl, rfl, rfl⟩ h.interest (hcalls _ fun _ _ => CommOp.noConfusion) h.batch
      h.returned
  | op i r =>
    simp only [step, Option.bind_eq_some_iff, Option.map_eq_some_iff] at hstep
    obtain ⟨op, hop, ⟨s', news⟩, hadvance, rfl⟩ := hstep
    exact h.op hfew hop hadvance
  | requestShutdown =>
    cases hstep
    exact h.frame ⟨rfl, rfl, rfl, rfl⟩ h.interest h.registering h.batch h.returned
  | fetch events =>
    simp only [step, Option.ite_none_right_eq_some, Option.some.injEq] at hstep
    obtain ⟨⟨-, hevents⟩, rfl⟩ := hstep
    exact h.frame ⟨rfl, rfl, rfl, rfl⟩ h.interest h.registering
      (fun e he => h.interest (e.origin, e.id) (hevents e he)) h.returned
  | fetchFails =>
    simp only [step, Option.ite_none_right_eq_some, Option.some.injEq] at hstep
    obtain ⟨-, rfl⟩ := hstep
    exact h.frame ⟨rfl, rfl, rfl, rfl⟩ h.interest h.registering (fun _ he => absurd he List.not_mem_nil) h.returned
  | worker => exact h.worker hstep

/-- A method closes the descriptor of a failed `connect` or of a handler that is disposed of. -/
def Due (s : TCPCommService) : CommOp → Prop
  | .closeFailed fd _ => fd ∈ s.failed
  | .deregister fd | .closeDisposed fd => fd ∈ s.disposed
  | .connect _ | .create _ | .register _ _ | .dispose _ | .get _ => True

/-- Every call of `close` has a cause. -/
structure Explained (s : TCPCommService) : Prop where
  ops : ∀ op ∈ s.ops, s.Due op
  closes : ∀ c ∈ s.closes, c.fd ∈ s.failed ∨ c.fd ∈ s.disposed

/-- What is due stays due. -/
theorem Due.mono {op : CommOp} (hdue : s.Due op) (hfailed : ∀ d ∈ s.failed, d ∈ t.failed)
    (hdisposed : ∀ d ∈ s.disposed, d ∈ t.disposed) : t.Due op := by
  cases op with
  | closeFailed fd error => exact hfailed fd hdue
  | deregister fd => exact hdisposed fd hdue
  | closeDisposed fd => exact hdisposed fd hdue
  | connect fd => trivial
  | create fd => trivial
  | register fd id => trivial
  | dispose id => trivial
  | get id => trivial

/-- A step whose new ops and calls of `close` have a cause. -/
theorem Explained.frame (h : s.Explained) (hfailed : ∀ d ∈ s.failed, d ∈ t.failed)
    (hdisposed : ∀ d ∈ s.disposed, d ∈ t.disposed) (hops : ∀ op ∈ t.ops, op ∈ s.ops ∨ t.Due op)
    (hcloses : ∀ c ∈ t.closes, c ∈ s.closes ∨ c.fd ∈ t.failed ∨ c.fd ∈ t.disposed) :
    t.Explained := by
  constructor
  · intro op hop
    rcases hops op hop with hold | hnew
    · exact (h.ops op hold).mono hfailed hdisposed
    · exact hnew
  · intro c hc
    rcases hcloses c hc with hold | hnew
    · exact (h.closes c hold).imp (hfailed c.fd) (hdisposed c.fd)
    · exact hnew

/-- A step that closes nothing and disposes of nothing. -/
theorem Explained.same (h : s.Explained)
    (hsame : t.failed = s.failed ∧ t.disposed = s.disposed ∧ t.closes = s.closes)
    (hops : ∀ op ∈ t.ops, op ∈ s.ops ∨ t.Due op) : t.Explained := by
  obtain ⟨hfailed, hdisposed, hcloses⟩ := hsame
  apply h.frame
  · rw [hfailed]
    exact fun d hd => hd
  · rw [hdisposed]
    exact fun d hd => hd
  · exact hops
  · rw [hcloses]
    exact fun c hc => .inl hc

/-- Opening a descriptor closes nothing. -/
theorem allot_explained {fd : ℕ} {d : Descriptor} {s' : TCPCommService}
    (hallot : s.allot fd = some (d, s')) : (s'.failed = s.failed ∧ s'.disposed = s.disposed ∧
      s'.closes = s.closes) ∧ s'.ops = s.ops := by
  unfold TCPCommService.allot at hallot
  split at hallot
  · contradiction
  · simp only [Option.some.injEq, Prod.mk.injEq] at hallot
    obtain ⟨-, rfl⟩ := hallot
    exact ⟨⟨rfl, rfl, rfl⟩, rfl⟩

/-- The worker closes nothing. -/
theorem worker_explained (hstep : s.workerStep = some t) : (t.failed = s.failed ∧
    t.disposed = s.disposed ∧ t.closes = s.closes) ∧ t.ops = s.ops := by
  cases workerStep_moves hstep with
  | stopped | locked | unlocked => exact ⟨⟨rfl, rfl, rfl⟩, rfl⟩
  | handled =>
    unfold TCPCommService.handle
    split <;> exact ⟨⟨rfl, rfl, rfl⟩, rfl⟩

/-- A step inside a method gives a cause for what it closes. -/
theorem Explained.op {i : ℕ} {op : CommOp} {r : CallResult} {s' : TCPCommService}
    {news : List CommOp} (h : s.Explained) (hop : s.ops[i]? = some op)
    (hadvance : s.advance r op = some (s', news)) :
    Explained { s' with ops := replaceAt s.ops i news } := by
  have hdue : s.Due op := h.ops op (List.mem_of_getElem? hop)
  have hops (u : TCPCommService) (hnews : ∀ o ∈ news, u.Due o) :
      ∀ o ∈ replaceAt s.ops i news, o ∈ s.ops ∨ u.Due o :=
    fun o ho => (mem_of_mem_replaceAt ho).imp_right (hnews o)
  have hclose (fd : Descriptor) (hcause : fd ∈ s.failed ∨ fd ∈ s.disposed) :
      ∀ c ∈ (s.close fd r).closes, c ∈ s.closes ∨ c.fd ∈ s.failed ∨ c.fd ∈ s.disposed := by
    intro c hc
    rw [(s.close_frame fd r).2.2.2.2] at hc
    rcases List.mem_append.mp hc with hold | hlast
    · exact .inl hold
    · rw [List.mem_singleton.mp hlast]
      exact .inr hcause
  have hlists (fd : Descriptor) :
      (s.close fd r).failed = s.failed ∧ (s.close fd r).disposed = s.disposed := by
    unfold TCPCommService.close
    split <;> exact ⟨rfl, rfl⟩
  cases advance_moves hadvance with
  | connected | created => exact h.same ⟨rfl, rfl, rfl⟩ (hops _ (by simp [Due]))
  | @refused fd =>
    exact h.frame (fun d hd => List.mem_cons_of_mem fd hd) (fun d hd => hd)
      (hops _ (by simp [Due])) (fun c hc => .inl hc)
  | @closedFailed fd =>
    have hcloses := hclose fd (.inl hdue)
    rw [← (hlists fd).1, ← (hlists fd).2] at hcloses
    exact h.frame (by simp [hlists fd]) (by simp [hlists fd]) (hops _ (by simp)) hcloses
  | @erased id x =>
    exact h.frame (fun d hd => hd) (fun d hd => List.mem_cons_of_mem x.fd hd)
      (hops _ (by simp [Due, erase])) (fun c hc => .inl hc)
  | registered | unknown | got => exact h.same ⟨rfl, rfl, rfl⟩ (hops _ (by simp))
  | @deregistered fd =>
    have hstill : fd ∈ s.disposed := hdue
    exact h.same ⟨rfl, rfl, rfl⟩ (hops _ (by simpa [Due] using hstill))
  | @closedDisposed fd =>
    have hcloses := hclose fd (.inr hdue)
    rw [← (hlists fd).1, ← (hlists fd).2] at hcloses
    exact h.frame (by simp [hlists fd]) (by simp [hlists fd]) (hops _ (by simp)) hcloses

/-- Every step gives a cause for what it closes. -/
theorem explained_step {act : CommAction} (h : s.Explained) (hstep : s.step act = some t) :
    t.Explained := by
  have hcalls (u : TCPCommService) (op : CommOp) (hop : u.Due op) :
      ∀ o ∈ s.ops ++ [op], o ∈ s.ops ∨ u.Due o := by
    intro o ho
    rcases List.mem_append.mp ho with hold | hlast
    · exact .inl hold
    · rw [List.mem_singleton.mp hlast]
      exact .inr hop
  cases act with
  | acquire fd =>
    simp only [step, Option.map_eq_some_iff] at hstep
    obtain ⟨⟨d, s'⟩, hallot, rfl⟩ := hstep
    obtain ⟨hsame, hops⟩ := allot_explained hallot
    refine h.same hsame fun o ho => .inl ?_
    rwa [← hops]
  | release fd =>
    simp only [step, Option.ite_none_right_eq_some, Option.some.injEq] at hstep
    obtain ⟨-, rfl⟩ := hstep
    exact h.same ⟨rfl, rfl, rfl⟩ fun o ho => .inl ho
  | createHandlerFromSocket fd =>
    simp only [step, Option.ite_none_right_eq_some, Option.some.injEq] at hstep
    obtain ⟨-, rfl⟩ := hstep
    exact h.same ⟨rfl, rfl, rfl⟩ (hcalls _ _ trivial)
  | connectAndCreateHandler socket =>
    cases socket with
    | none =>
      cases hstep
      exact h.same ⟨rfl, rfl, rfl⟩ fun o ho => .inl ho
    | some fd =>
      simp only [step, Option.map_eq_some_iff] at hstep
      obtain ⟨⟨d, s'⟩, hallot, rfl⟩ := hstep
      exact h.same (allot_explained hallot).1 (hcalls _ _ trivial)
  | disposeHandler id =>
    cases hstep
    exact h.same ⟨rfl, rfl, rfl⟩ (hcalls _ _ trivial)
  | getHandler id =>
    cases hstep
    exact h.same ⟨rfl, rfl, rfl⟩ (hcalls _ _ trivial)
  | op i r =>
    simp only [step, Option.bind_eq_some_iff, Option.map_eq_some_iff] at hstep
    obtain ⟨op, hop, ⟨s', news⟩, hadvance, rfl⟩ := hstep
    exact h.op hop hadvance
  | requestShutdown =>
    cases hstep
    exact h.same ⟨rfl, rfl, rfl⟩ fun o ho => .inl ho
  | fetch events =>
    simp only [step, Option.ite_none_right_eq_some, Option.some.injEq] at hstep
    obtain ⟨-, rfl⟩ := hstep
    exact h.same ⟨rfl, rfl, rfl⟩ fun o ho => .inl ho
  | fetchFails =>
    simp only [step, Option.ite_none_right_eq_some, Option.some.injEq] at hstep
    obtain ⟨-, rfl⟩ := hstep
    exact h.same ⟨rfl, rfl, rfl⟩ fun o ho => .inl ho
  | worker =>
    obtain ⟨hsame, hops⟩ := worker_explained hstep
    refine h.same hsame fun o ho => .inl ?_
    rwa [← hops]

/-- No handler has the id. -/
theorem find_eq_none {id : ℕ} : s.find id = none ↔ ∀ e ∈ s.commHandlers, e.1 ≠ id := by
  rw [find, Option.map_eq_none_iff, List.find?_eq_none]
  apply forall₂_congr
  intro e _
  exact not_congr decide_eq_true_iff

/-- What the ids of `t` may be after a step from `s`. -/
structure IdsFollow (s t : TCPCommService) : Prop where
  created : s.created <+: t.created
  handlers : ∀ e ∈ t.commHandlers, (∃ x, (e.1, x) ∈ s.commHandlers) ∨ e.1 = s.nextId

/-- Ids and handlers stay as they are. -/
theorem IdsFollow.same (hcreated : t.created = s.created) (hhandlers : t.commHandlers = s.commHandlers) :
    s.IdsFollow t := by
  constructor
  · exact ⟨[], (List.append_nil _).trans hcreated.symm⟩
  · rw [hhandlers]
    exact fun e he => .inl ⟨e.2, he⟩

/-- Handlers disappear, or their helpers change. -/
theorem IdsFollow.fewer (hcreated : t.created = s.created)
    (hkeys : (t.commHandlers.map Prod.fst).Sublist (s.commHandlers.map Prod.fst)) :
    s.IdsFollow t := by
  constructor
  · exact ⟨[], (List.append_nil _).trans hcreated.symm⟩
  · intro e he
    obtain ⟨e', he', hid⟩ := List.mem_map.mp (hkeys.subset (List.mem_map_of_mem he))
    refine .inl ⟨e'.2, ?_⟩
    rw [← hid]
    exact he'

/-- A step inside a method creates one handler at most, with the next id. -/
theorem advance_idsFollow {op : CommOp} {r : CallResult} {s' : TCPCommService} {news ops : List CommOp}
    (hadvance : s.advance r op = some (s', news)) : s.IdsFollow { s' with ops := ops } := by
  cases advance_moves hadvance with
  | connected | refused | registered | unknown | deregistered | got => exact .same rfl rfl
  | @closedFailed fd | @closedDisposed fd =>
    exact .same (s.close_ids fd r).2.1 (s.close_frame fd r).1
  | created =>
    constructor
    · exact List.prefix_append _ _
    · intro e he
      simp only [insert] at he
      split at he
      · exact .inl ⟨e.2, he⟩
      · rcases List.mem_append.mp he with hold | hlast
        · exact .inl ⟨e.2, hold⟩
        · exact .inr (congrArg Prod.fst (List.mem_singleton.mp hlast))
  | erased => exact .fewer rfl (List.eraseP_sublist.map Prod.fst)

/-- A step of the worker creates no handler. -/
theorem worker_idsFollow (hstep : s.workerStep = some t) : s.IdsFollow t := by
  cases workerStep_moves hstep with
  | stopped => exact .fewer rfl (by rw [s.cancel_keys])
  | locked | unlocked => exact .same rfl rfl
  | @handled e =>
    have hcreated : (s.handle e).created = s.created := by
      unfold TCPCommService.handle
      split <;> rfl
    exact .fewer hcreated (by rw [s.handle_keys e])

/-- Opening a descriptor creates no handler. -/
theorem allot_ids {fd : ℕ} {d : Descriptor} {s' : TCPCommService}
    (hallot : s.allot fd = some (d, s')) :
    s'.created = s.created ∧ s'.commHandlers = s.commHandlers := by
  unfold TCPCommService.allot at hallot
  split at hallot
  · contradiction
  · simp only [Option.some.injEq, Prod.mk.injEq] at hallot
    obtain ⟨-, rfl⟩ := hallot
    exact ⟨rfl, rfl⟩

/-- One handler at most is created in a step, with the next id. -/
theorem step_idsFollow {act : CommAction} (hstep : s.step act = some t) : s.IdsFollow t := by
  cases act with
  | acquire fd =>
    simp only [step, Option.map_eq_some_iff] at hstep
    obtain ⟨⟨d, s'⟩, h, rfl⟩ := hstep
    obtain ⟨hcreated, hhandlers⟩ := allot_ids h
    exact .same hcreated hhandlers
  | release fd =>
    simp only [step, Option.ite_none_right_eq_some, Option.some.injEq] at hstep
    obtain ⟨-, rfl⟩ := hstep
    exact .same rfl rfl
  | createHandlerFromSocket fd =>
    simp only [step, Option.ite_none_right_eq_some, Option.some.injEq] at hstep
    obtain ⟨-, rfl⟩ := hstep
    exact .same rfl rfl
  | connectAndCreateHandler socket =>
    cases socket with
    | none =>
      cases hstep
      exact .same rfl rfl
    | some fd =>
      simp only [step, Option.map_eq_some_iff] at hstep
      obtain ⟨⟨d, s'⟩, h, rfl⟩ := hstep
      obtain ⟨hcreated, hhandlers⟩ := allot_ids h
      exact .same hcreated hhandlers
  | disposeHandler id =>
    cases hstep
    exact .same rfl rfl
  | getHandler id =>
    cases hstep
    exact .same rfl rfl
  | op i r =>
    simp only [step, Option.bind_eq_some_iff, Option.map_eq_some_iff] at hstep
    obtain ⟨op, hop, ⟨s', news⟩, hadvance, rfl⟩ := hstep
    exact advance_idsFollow hadvance
  | requestShutdown =>
    cases hstep
    exact .same rfl rfl
  | fetch events =>
    simp only [step, Option.ite_none_right_eq_some, Option.some.injEq] at hstep
    obtain ⟨-, rfl⟩ := hstep
    exact .same rfl rfl
  | fetchFails =>
    simp only [step, Option.ite_none_right_eq_some, Option.some.injEq] at hstep
    obtain ⟨-, rfl⟩ := hstep
    exact .same rfl rfl
  | worker => exact worker_idsFollow hstep

/-- What holds of the registry and of its descriptors, as long as the counter does not overflow. -/
structure Sound (s : TCPCommService) : Prop where
  custody : s.Custody
  identified : s.Identified
  explained : s.Explained

/-- The registry before its first call. -/
theorem Fresh.sound (h : s.Fresh) : s.Sound := by
  have hheld : s.held = [] := by rw [held, h.ops, List.flatMap_nil]
  have hregistered : s.registered = [] := by rw [registered, h.handlers, List.map_nil]
  have hclosed : s.closed = [] := by rw [closed, h.closes, List.map_nil]
  have howned : s.owned = s.opened := by
    rw [owned, hheld, hregistered, h.foreign, List.append_nil, List.nil_append]
  have hcustody : s.Custody := by
    constructor
    · rw [hclosed, howned]
      exact List.Nodup.of_map Descriptor.fd h.numbers
    · simp [h.dialled]
    · rw [howned]
      exact fun d hd => hd
    · exact h.numbers
    · intro d hd
      rw [hclosed, howned] at hd
      exact h.serials d (hd.elim id id)
    · simp [h.closes]
  have hidentified : s.Identified := by
    constructor
    · rw [h.counter, h.created, List.length_nil]
    · rw [h.created, List.length_nil, List.range_zero, List.map_nil]
    · simp [h.handlers]
    · simp [h.handlers]
    · simp [h.interest]
    · simp [h.ops]
    · simp [h.worker, CommWorkerPc.events]
    · simp [h.returned]
    · simp [h.notified]
  have hexplained : s.Explained := by
    constructor
    · simp [h.ops]
    · simp [h.closes]
  exact ⟨hcustody, hidentified, hexplained⟩

/-- What a step keeps as long as the counter does not overflow. -/
theorem sound_step {act : CommAction} (h : s.Sound) (hstep : s.step act = some t)
    (hfew : t.created.length < 2 ^ 64 - 101) : t.Sound := by
  have hle := (step_idsFollow hstep).created.length_le
  have hroom : s.created.length < 2 ^ 64 - 1 := by omega
  have hnew := (h.identified.nextId hroom).2.2
  exact ⟨custody_step h.custody hnew hstep, identified_step h.identified hroom hstep,
    explained_step h.explained hstep⟩

/-- No handler is taken back from the count. -/
theorem few_of_step (s : TCPCommService) (act : CommAction) (t : TCPCommService)
    (hstep : s.step act = some t) (hfew : t.created.length < 2 ^ 64 - 101) :
    s.created.length < 2 ^ 64 - 101 :=
  Nat.lt_of_le_of_lt (step_idsFollow hstep).created.length_le hfew

/-- What a run keeps as long as the counter does not overflow. -/
theorem run_sound {actions : List CommAction} (h : s.Sound)
    (hrun : runActions step s actions = some t) (hfew : t.created.length < 2 ^ 64 - 101) : t.Sound :=
  runActions_within few_of_step (fun _ _ _ => sound_step) h hrun hfew

/-- The integrity of the registry. -/
structure Integrity (s : TCPCommService) : Prop where
  /-- no id is given out twice -/
  once : s.created.Nodup
  bounded : ∀ id ∈ s.created, 0 < id ∧ id ≤ handlerError
  answered : ∀ v ∈ s.returned, v ∈ s.created ∨ handlerError < v
  keys : (s.commHandlers.map Prod.fst).Nodup
  numbers : (s.commHandlers.map fun e => e.2.fd.fd).Nodup
  live : ∀ e ∈ s.commHandlers, e.1 ∈ s.created ∧ e.2.fd ∈ s.opened
  /-- a dialled descriptor is closed, or a method or a handler has it, once in all -/
  dialled : ∀ d ∈ s.dialled, (s.closed ++ s.held ++ s.registered).count d = 1
  closes : ∀ c ∈ s.closes, c.registered = false ∧ (c.fd ∈ s.failed ∨ c.fd ∈ s.disposed)
  notified : ∀ n ∈ s.notified, n.id = n.event.id ∧ n.fd = n.event.origin
  /-- an event for an id that has no handler is ignored -/
  ignored : ∀ e ∈ s.worker.events, s.find e.id = none → s.handle e = s
  /-- the handler of any other descriptor stays as it is, even with the same number -/
  others : ∀ e ∈ s.worker.events, ∀ entry ∈ s.commHandlers, entry.2.fd ≠ e.origin →
    entry ∈ (s.handle e).commHandlers

/-- The handlers that an event is not for. -/
theorem Identified.others (h : s.Identified) {e : EpollEvent} (he : e ∈ s.worker.events)
    {entry : ℕ × TCPCommHandler} (hentry : entry ∈ s.commHandlers) (hfd : entry.2.fd ≠ e.origin) :
    entry ∈ (s.handle e).commHandlers := by
  have hid : entry.1 ≠ e.id := by
    intro heq
    have hmem : (e.id, entry.2) ∈ s.commHandlers := by
      rw [← heq]
      exact hentry
    exact hfd ((h.batch e he).2 entry.2 hmem)
  unfold TCPCommService.handle
  split
  · exact hentry
  · refine List.mem_map.mpr ⟨entry, hentry, ?_⟩
    rw [if_neg hid]

/-- A sound registry whose counter has not overflowed has its integrity. -/
theorem Sound.integrity (h : s.Sound) (hfew : s.created.length < 2 ^ 64 - 101) : s.Integrity := by
  obtain ⟨hcustody, hidentified, hexplained⟩ := h
  have howned := (List.nodup_append.mp hcustody.once).2.1
  have hregistered : ∀ d ∈ s.registered, d ∈ s.owned :=
    fun d hd => List.mem_append_left _ (List.mem_append_right _ hd)
  constructor
  · rw [hidentified.created]
    exact List.nodup_range.map (fun a b heq => Nat.succ_injective heq)
  · intro id hid
    rw [hidentified.created] at hid
    obtain ⟨k, hk, rfl⟩ := List.mem_map.mp hid
    have hlt := List.mem_range.mp hk
    exact ⟨Nat.succ_pos k, by rw [handlerError]; omega⟩
  · exact hidentified.returned
  · exact hidentified.distinct
  · have hnumbers : (s.registered.map Descriptor.fd).Nodup := by
      have hnodup : s.registered.Nodup := (List.nodup_append.mp (List.nodup_append.mp howned).1).2.1
      refine hnodup.map_on fun a ha b hb heq => ?_
      exact List.inj_on_of_nodup_map hcustody.numbers (hcustody.opened a (hregistered a ha))
        (hcustody.opened b (hregistered b hb)) heq
    rw [registered, List.map_map] at hnumbers
    exact hnumbers
  · intro e he
    exact ⟨hidentified.keys e he,
      hcustody.opened e.2.fd (hregistered e.2.fd (List.mem_map_of_mem he))⟩
  · intro d hd
    obtain ⟨hmem, hnot⟩ := hcustody.dialled d hd
    have hall : s.closed ++ s.owned = s.closed ++ s.held ++ s.registered ++ s.foreign := by
      rw [owned, List.append_assoc, List.append_assoc, List.append_assoc]
    have hcount := List.count_eq_one_of_mem hcustody.once hmem
    rw [hall, List.count_append, List.count_eq_zero_of_not_mem hnot] at hcount
    exact hcount
  · exact fun c hc => ⟨hcustody.unregistered c hc, hexplained.closes c hc⟩
  · exact hidentified.notified
  · intro e _ hnone
    rw [TCPCommService.handle, hnone]
  · exact fun e he entry hentry hfd => hidentified.others he hentry hfd

/-- An id that was given out and has no handler any more never has one again. -/
theorem run_disposed {id : ℕ} {actions : List CommAction} (h : s.Sound) (hid : id ∈ s.created) (hnone : s.find id = none)
    (hrun : runActions step s actions = some t) (hfew : t.created.length < 2 ^ 64 - 101) :
    t.find id = none := by
  have hstep (s : TCPCommService) (act : CommAction) (t : TCPCommService)
      (hs : s.Sound ∧ id ∈ s.created ∧ ∀ e ∈ s.commHandlers, e.1 ≠ id)
      (hstep : s.step act = some t) (hfew : t.created.length < 2 ^ 64 - 101) :
      t.Sound ∧ id ∈ t.created ∧ ∀ e ∈ t.commHandlers, e.1 ≠ id := by
    have hfollow := step_idsFollow hstep
    obtain ⟨hsound, hid, hnone⟩ := hs
    have hle := hfollow.created.length_le
    refine ⟨sound_step hsound hstep hfew, hfollow.created.subset hid, ?_⟩
    intro e he heq
    rcases hfollow.handlers e he with ⟨x, hx⟩ | hnew
    · exact hnone (e.1, x) hx heq
    · have hroom : s.created.length < 2 ^ 64 - 1 := by omega
      have hunused := (hsound.identified.nextId hroom).2.1
      rw [← hnew, heq] at hunused
      exact hunused hid
  have hstart : s.Sound ∧ id ∈ s.created ∧ ∀ e ∈ s.commHandlers, e.1 ≠ id :=
    ⟨h, hid, find_eq_none.mp hnone⟩
  exact find_eq_none.mpr (runActions_within few_of_step hstep hstart hrun hfew).2.2

/-- With fewer than `2^64 - 101` creations the registry keeps its integrity, and an id whose handler
was disposed of stays without one. -/
theorem registry_integrity {s₀ s : TCPCommService} {actions : List CommAction} (hfresh : s₀.Fresh)
    (hrun : runActions step s₀ actions = some s) (hfew : s.created.length < 2 ^ 64 - 101) :
    s.Integrity ∧
      ∀ before after u, actions = before ++ after → runActions step s₀ before = some u →
        ∀ id ∈ u.created, u.find id = none → s.find id = none := by
  refine ⟨(run_sound hfresh.sound hrun hfew).integrity hfew, ?_⟩
  intro before after u hsplit hbefore id hid hnone
  rw [hsplit, runActions_append, hbefore, Option.bind_some] at hrun
  have hsound : u.Sound := run_sound hfresh.sound hbefore (limit_of_run few_of_step hrun hfew)
  exact run_disposed hsound hid hnone hrun hfew

/-- The service at its start, with one descriptor open for other code. -/
def listening : TCPCommService :=
  ⟨0, [], false, false, [], .waiting, [⟨3, 0⟩], [], [⟨3, 0⟩], 1, [], [], [], [], [], [], []⟩

/-- A handler is disposed of after an event for it was fetched, and the next one gets its number. -/
def staleEvent : List CommAction :=
  let done : CallResult := ⟨true, 0, false⟩
  let create : List CommAction :=
    [.connectAndCreateHandler (some 5), .op 0 done, .op 0 done, .op 0 done]
  let hangUp : EpollEvent := ⟨1, ⟨false, true, false, false, false⟩, ⟨5, 1⟩⟩
  create ++ [.fetch [hangUp], .disposeHandler 1, .op 0 done, .op 0 done, .op 0 done] ++ create ++
    [.worker, .worker, .worker]

/-- The event is ignored, and the second handler hears of nothing. -/
theorem registry_integrity_staleEvent :
    ∃ s, runActions step listening staleEvent = some s ∧ s.created = [1, 2] ∧
      s.dialled.map Descriptor.fd = [5, 5] ∧ s.notified = [] ∧ s.Integrity := by
  have hfresh : listening.Fresh :=
    ⟨rfl, rfl, rfl, rfl, rfl, rfl, by decide, by decide, rfl, rfl, rfl, rfl, rfl, rfl, rfl⟩
  have hrun : runActions step listening staleEvent =
      some ⟨2, [(2, ⟨newTCPCommHelper 5 true, newTCPCommHelper 5 false, ⟨5, 2⟩⟩)], false, false, [],
        .waiting, [⟨5, 2⟩, ⟨3, 0⟩], [(⟨5, 2⟩, 2)], [⟨3, 0⟩], 3, [⟨5, 2⟩, ⟨5, 1⟩], [], [⟨5, 1⟩],
        [1, 2], [1, 2], [⟨⟨5, 1⟩, false⟩], []⟩ := by decide
  exact ⟨_, hrun, rfl, rfl, rfl, (registry_integrity hfresh hrun (by decide)).1⟩

end TCPCommService

end TinySox
