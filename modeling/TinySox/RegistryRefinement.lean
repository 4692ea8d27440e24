import TinySox.Common.Simulation
import TinySox.HandlerIds
import TinySox.HandlerOwnership

/-!
# The registry does what the pipeline takes for granted

To the jobs of the pipeline the registry is a table, and an operation on it is one step. The methods of
`TCPCommService` are cut at their system calls and at the lock, and run beside each other, beside the
worker and beside code that opens and closes other descriptors. Each call of a method takes effect at
one of its own steps, the one under the lock that reads or changes the table, and the effects in this
order are a run of the table.
-/

namespace TinySox

open TinySox.Common

/-- An operation on the table of the handlers. -/
inductive RegistryCall
  | create (fd : Int)
  | dispose (id : ℕ)
  | get (id : ℕ) (answer : Option Int)
  deriving DecidableEq, Repr

namespace Shared

/-- There are no handlers, and no descriptors that other code has opened. -/
def empty : Shared := (Pipeline.initial fun _ => false).shared

/-- The operation in one step, as the tasks of the pipeline perform it. -/
def answer (sh : Shared) : RegistryCall → Option Shared
  | .create fd => if sh.canOpen fd then some (sh.createHandlerFromSocket fd) else none
  | .dispose id => sh.perform 0 (.disposeHandler id) ()
  | .get id answer => sh.perform 0 (.getHandler id) answer

end Shared

/-- Both helpers of the handler have its descriptor. -/
def TCPCommHandler.Paired (h : TCPCommHandler) : Prop := h.reader.fd = h.fd.fd ∧ h.writer.fd = h.fd.fd

/-- A notice changes neither the descriptor of a handler nor those of its helpers. -/
theorem TCPCommHandler.Paired.notify {h : TCPCommHandler} (hpaired : h.Paired) (n : Side × Notice) :
    (h.notify n).Paired := by
  obtain ⟨side, n⟩ := n
  cases side with
  | reader => exact ⟨(h.reader.notify_fd n).trans hpaired.1, hpaired.2⟩
  | writer => exact ⟨hpaired.1, (h.writer.notify_fd n).trans hpaired.2⟩

/-- Nor do several notices. -/
theorem TCPCommHandler.Paired.foldl_notify {h : TCPCommHandler} (hpaired : h.Paired)
    (notices : List (Side × Notice)) : (notices.foldl TCPCommHandler.notify h).Paired := by
  induction notices generalizing h with
  | nil => exact hpaired
  | cons n rest ih => exact ih (hpaired.notify n)

namespace TCPCommService

/-- How the next step of a method takes effect. -/
def effect (s : TCPCommService) : CommOp → List RegistryCall
  | .create fd => [.create fd.fd]
  | .dispose id => [.dispose id]
  | .get id => [.get id ((s.find id).map fun h => (h.fd.fd : Int))]
  | _ => []

/-- How a step of the service takes effect. -/
def effects (s : TCPCommService) : CommAction → List RegistryCall
  | .op i _ => (s.ops[i]?).elim [] s.effect
  | _ => []

/-- The service has the handlers of the table. -/
structure Implements (s : TCPCommService) (sh : Shared) : Prop where
  counter : sh.handlerIdCounter = s.handlerIdCounter
  handlers : ∀ id fd, sh.commHandlers id = some fd ↔
    ∃ e ∈ s.commHandlers, e.1 = id ∧ (e.2.fd.fd : Int) = fd
  openFds : ∀ fd, sh.openFds fd = true ↔ ∃ e ∈ s.commHandlers, (e.2.fd.fd : Int) = fd
  helpers : ∀ e ∈ s.commHandlers, sh.helperFds e.1 = some (e.2.fd.fd : Int) ∧ e.2.Paired

variable {s t : TCPCommService} {sh : Shared}

namespace Implements

/-- Handlers keep their ids and their descriptors, and so do their helpers. -/
theorem mapped (h : s.Implements sh) (hcounter : t.handlerIdCounter = s.handlerIdCounter)
    (change : ℕ × TCPCommHandler → ℕ × TCPCommHandler)
    (hhandlers : t.commHandlers = s.commHandlers.map change)
    (hchange : ∀ e, (change e).1 = e.1 ∧ (change e).2.fd = e.2.fd ∧
      (e.2.Paired → (change e).2.Paired)) : t.Implements sh := by
  refine ⟨h.counter.trans hcounter.symm, fun id fd => ?_, fun fd => ?_, fun e he => ?_⟩
  · rw [h.handlers, hhandlers]
    simp only [List.mem_map, exists_exists_and_eq_and, (hchange _).1, (hchange _).2.1]
  · rw [h.openFds, hhandlers]
    simp only [List.mem_map, exists_exists_and_eq_and, (hchange _).2.1]
  · rw [hhandlers] at he
    obtain ⟨e', he', rfl⟩ := List.mem_map.mp he
    obtain ⟨hid, hfd, hpaired⟩ := hchange e'
    obtain ⟨hhelpers, hpair⟩ := h.helpers e' he'
    rw [hid, hfd]
    exact ⟨hhelpers, hpaired hpair⟩

/-- Nothing happens to the handlers. -/
theorem same (h : s.Implements sh) (hcounter : t.handlerIdCounter = s.handlerIdCounter)
    (hhandlers : t.commHandlers = s.commHandlers) : t.Implements sh :=
  h.mapped hcounter id (hhandlers.trans (List.map_id _).symm) fun _ => ⟨rfl, rfl, fun hpair => hpair⟩

/-- The table has what a look-up finds. -/
theorem commHandlers_eq (h : s.Implements sh) (id : ℕ) :
    sh.commHandlers id = (s.find id).map fun x => (x.fd.fd : Int) := by
  cases hfind : s.find id with
  | none =>
    rw [Option.map_none, Option.eq_none_iff_forall_ne_some]
    intro fd hfd
    obtain ⟨e, he, hid, -⟩ := (h.handlers id fd).mp hfd
    exact find_eq_none.mp hfind e he hid
  | some x =>
    have hmem : (id, x) ∈ s.commHandlers := (perm_of_find hfind).mem_iff.mpr List.mem_cons_self
    exact (h.handlers id _).mpr ⟨_, hmem, rfl, rfl⟩

/-- `GetHandler` answers what the table would. -/
theorem getHandler_eq (h : s.Implements sh) (id : ℕ) :
    sh.getHandler id = (s.find id).map fun x => (x.fd.fd : Int) := by
  rw [Shared.getHandler, h.commHandlers_eq id]
  cases s.find id with
  | none => rfl
  | some x =>
    have hvalid : (-1 : Int) < x.fd.fd := by omega
    exact Option.filter_some_pos (decide_eq_true hvalid)

/-- The kernel has handed out the descriptor, so no handler has its number. -/
theorem canOpen (h : s.Implements sh) (hsound : s.Sound) {d : Descriptor} (hheld : d ∈ s.held) :
    sh.canOpen d.fd = true := by
  have hcustody := hsound.custody
  have hclosed : sh.openFds d.fd = false := by
    by_contra hopen
    obtain ⟨e, he, hnumber⟩ := (h.openFds d.fd).mp (Bool.of_not_eq_false hopen)
    have hregistered : e.2.fd ∈ s.registered := List.mem_map_of_mem he
    have howned : e.2.fd ∈ s.owned := List.mem_append_left _ (List.mem_append_right _ hregistered)
    have hmine : d ∈ s.owned := List.mem_append_left _ (List.mem_append_left _ hheld)
    have hsame : e.2.fd = d := List.inj_on_of_nodup_map hcustody.numbers
      (hcustody.opened _ howned) (hcustody.opened _ hmine) (Int.ofNat.inj hnumber)
    have hnot := hcustody.not_registered hheld
    rw [isRegistered, List.any_eq_false] at hnot
    exact hnot e he (decide_eq_true hsame)
  rw [Shared.canOpen, decide_eq_true_eq]
  exact ⟨Int.natCast_nonneg _, hclosed⟩

/-- A handler is created. -/
theorem create (h : s.Implements sh) (hsound : s.Sound)
    (hroom : s.created.length + 1 < 2 ^ 64 - 101) {d : Descriptor}
    (hcounter : t.handlerIdCounter = (s.insert d).handlerIdCounter)
    (hhandlers : t.commHandlers = (s.insert d).commHandlers) :
    t.Implements (sh.createHandlerFromSocket d.fd) := by
  obtain ⟨hnext, -, hnone⟩ := hsound.identified.nextId (by omega)
  have hid : sh.handlerIdCounter + 1 = s.nextId := by
    rw [h.counter, hsound.identified.counter, hnext]
  have hinsert : t.commHandlers = s.commHandlers ++
      [(s.nextId, ⟨newTCPCommHelper d.fd true, newTCPCommHelper d.fd false, d⟩)] := by
    rw [hhandlers, insert, hnone]
    rfl
  have hnew := find_eq_none.mp hnone
  refine ⟨hid.trans hcounter.symm, fun id fd => ?_, fun fd => ?_, fun e he => ?_⟩
  · rw [hinsert]
    simp only [Shared.createHandlerFromSocket, hid, Function.update_apply]
    split_ifs with heq
    · subst heq
      simp only [List.mem_append, List.mem_singleton]
      constructor
      · intro hfd
        exact ⟨_, .inr rfl, rfl, Option.some.inj hfd⟩
      · rintro ⟨e, he | rfl, hsame, hfd⟩
        · exact absurd hsame (hnew e he)
        · exact congrArg some hfd
    · rw [h.handlers]
      simp only [List.mem_append, List.mem_singleton]
      constructor
      · rintro ⟨e, he, hrest⟩
        exact ⟨e, .inl he, hrest⟩
      · rintro ⟨e, he | rfl, hsame, hfd⟩
        · exact ⟨e, he, hsame, hfd⟩
        · exact absurd hsame.symm heq
  · rw [hinsert]
    simp only [Shared.createHandlerFromSocket, Function.update_apply, List.mem_append,
      List.mem_singleton]
    split_ifs with heq
    · exact ⟨fun _ => ⟨_, .inr rfl, heq.symm⟩, fun _ => rfl⟩
    · rw [h.openFds]
      constructor
      · rintro ⟨e, he, hfd⟩
        exact ⟨e, .inl he, hfd⟩
      · rintro ⟨e, he | rfl, hfd⟩
        · exact ⟨e, he, hfd⟩
        · exact absurd hfd.symm heq
  · rw [hinsert] at he
    simp only [Shared.createHandlerFromSocket, hid, Function.update_apply]
    rcases List.mem_append.mp he with hold | hlast
    · rw [if_neg (hnew e hold)]
      exact h.helpers e hold
    · cases List.mem_singleton.mp hlast
      exact ⟨if_pos rfl, rfl, rfl⟩

/-- A handler is disposed of. -/
theorem dispose (h : s.Implements sh) (hintegrity : s.Integrity) {id : ℕ} {x : TCPCommHandler}
    (hfind : s.find id = some x) (hcounter : t.handlerIdCounter = s.handlerIdCounter)
    (hhandlers : t.commHandlers = (s.erase id x).commHandlers) :
    t.Implements (sh.disposeHandler id) := by
  have hperm : s.commHandlers.Perm ((id, x) :: t.commHandlers) := by
    rw [hhandlers]
    exact perm_of_find hfind
  have hkeys := ((hperm.map Prod.fst).nodup_iff.mp hintegrity.keys)
  have hnumbers := ((hperm.map fun e => e.2.fd.fd).nodup_iff.mp hintegrity.numbers)
  obtain ⟨hkey, -⟩ := List.nodup_cons.mp hkeys
  obtain ⟨hnumber, -⟩ := List.nodup_cons.mp hnumbers
  have hmem (e : ℕ × TCPCommHandler) : e ∈ s.commHandlers ↔ e = (id, x) ∨ e ∈ t.commHandlers :=
    hperm.mem_iff.trans List.mem_cons
  have htable : sh.commHandlers id = some (x.fd.fd : Int) := by
    rw [h.commHandlers_eq, hfind, Option.map_some]
  have hdisposed : sh.disposeHandler id = { sh with
      commHandlers := Function.update sh.commHandlers id none
      openFds := Function.update sh.openFds x.fd.fd false
      disposals := id :: sh.disposals } := by
    rw [Shared.disposeHandler, htable]
  rw [hdisposed]
  refine ⟨h.counter.trans hcounter.symm, fun id' fd => ?_, fun fd => ?_, fun e he => ?_⟩
  · simp only [Function.update_apply]
    split_ifs with heq
    · subst heq
      constructor
      · intro hnone
        contradiction
      · rintro ⟨e, he, hsame, -⟩
        exact absurd (List.mem_map.mpr ⟨e, he, hsame⟩) hkey
    · rw [h.handlers]
      simp only [hmem]
      constructor
      · rintro ⟨e, rfl | he, hsame, hfd⟩
        · exact absurd hsame.symm heq
        · exact ⟨e, he, hsame, hfd⟩
      · rintro ⟨e, he, hrest⟩
        exact ⟨e, .inr he, hrest⟩
  · simp only [Function.update_apply]
    split_ifs with heq
    · constructor
      · intro hfalse
        contradiction
      · rintro ⟨e, he, hfd⟩
        have hsame : e.2.fd.fd = x.fd.fd := Int.ofNat.inj (hfd.trans heq)
        exact absurd (List.mem_map.mpr ⟨e, he, hsame⟩) hnumber
    · rw [h.openFds]
      simp only [hmem]
      constructor
      · rintro ⟨e, rfl | he, hfd⟩
        · exact absurd hfd.symm heq
        · exact ⟨e, he, hfd⟩
      · rintro ⟨e, he, hfd⟩
        exact ⟨e, .inr he, hfd⟩
  · exact h.helpers e ((hmem e).mpr (.inr he))

/-- A step of a method has its effect on the table. -/
theorem op (h : s.Implements sh) (hsound : s.Sound) {i : ℕ} {op : CommOp} {r : CallResult}
    {s' : TCPCommService} {news ops : List CommOp} (hop : s.ops[i]? = some op)
    (hmoves : OpMoves s r op s' news) (hfew : s'.created.length < 2 ^ 64 - 101) :
    ∃ sh', runActions Shared.answer sh (s.effect op) = some sh' ∧
      Implements { s' with ops := ops } sh' := by
  cases hmoves with
  | connected | refused | registered | deregistered => exact ⟨sh, rfl, h.same rfl rfl⟩
  | @closedFailed fd | @closedDisposed fd =>
    obtain ⟨hcounter, -, hhandlers, -⟩ := s.close_ids fd r
    exact ⟨sh, rfl, h.same hcounter hhandlers⟩
  | @created fd =>
    have hroom : s.created.length + 1 < 2 ^ 64 - 101 := by
      rw [insert, List.length_append, List.length_singleton] at hfew
      exact hfew
    have hheld : fd ∈ s.held :=
      List.mem_flatMap.mpr ⟨_, List.mem_of_getElem? hop, List.mem_singleton.mpr rfl⟩
    refine ⟨sh.createHandlerFromSocket fd.fd, ?_, h.create hsound hroom rfl rfl⟩
    rw [effect, runActions, Shared.answer, if_pos (h.canOpen hsound hheld)]
    rfl
  | @erased id x _ hfind =>
    exact ⟨sh.disposeHandler id, rfl, h.dispose (hsound.integrity hfew) hfind rfl rfl⟩
  | @unknown id _ hfind =>
    have htable : sh.commHandlers id = none := by
      rw [h.commHandlers_eq, hfind, Option.map_none]
    refine ⟨{ sh with disposals := id :: sh.disposals }, ?_, ⟨h.counter, h.handlers, h.openFds, h.helpers⟩⟩
    have hdispose : sh.disposeHandler id = { sh with disposals := id :: sh.disposals } := by
      rw [Shared.disposeHandler, htable]
    exact congrArg some hdispose
  | @got id =>
    refine ⟨sh, ?_, h.same rfl rfl⟩
    rw [effect, runActions, Shared.answer, Shared.perform, if_pos (h.getHandler_eq id)]
    rfl

/-- The worker changes helpers only. -/
theorem worker (h : s.Implements sh) (hmoves : s.WorkerMoves t) : t.Implements sh := by
  cases hmoves with
  | stopped =>
    refine h.mapped rfl _ rfl fun e => ⟨rfl, rfl, fun hpaired => ?_⟩
    exact ⟨(e.2.reader.notify_fd .cancel).trans hpaired.1, (e.2.writer.notify_fd .cancel).trans hpaired.2⟩
  | locked | unlocked => exact h.same rfl rfl
  | @handled e =>
    cases hfind : s.find e.id with
    | none =>
      have hsame : s.handle e = s := by rw [TCPCommService.handle, hfind]
      rw [hsame]
      exact h.same rfl rfl
    | some x =>
      rw [TCPCommService.handle, hfind]
      refine h.mapped rfl _ rfl fun entry => ?_
      split_ifs
      · exact ⟨rfl, foldl_notify_fd entry.2 _, fun hpaired => hpaired.foldl_notify _⟩
      · exact ⟨rfl, rfl, fun hpaired => hpaired⟩

end Implements

/-- Opening a descriptor changes neither the handlers nor their counter. -/
theorem Implements.allot (h : s.Implements sh) {fd : ℕ} {d : Descriptor} {s' : TCPCommService}
    (hallot : s.allot fd = some (d, s')) (hcounter : t.handlerIdCounter = s'.handlerIdCounter)
    (hhandlers : t.commHandlers = s'.commHandlers) : t.Implements sh := by
  unfold TCPCommService.allot at hallot
  split at hallot
  · contradiction
  · cases hallot
    exact h.same hcounter hhandlers

/-- Every step has its effect on the table, as long as the counter does not overflow. -/
theorem simulates_table :
    SimulatesBy step Shared.answer
      (fun s act => ∀ t, s.step act = some t → t.created.length < 2 ^ 64 - 101) effects
      fun s sh => s.Sound ∧ s.Implements sh := by
  rintro s sh act t ⟨hsound, h⟩ hfew hstep
  have hsound' : t.Sound := sound_step hsound hstep (hfew t hstep)
  have hanswered : ∃ sh', runActions Shared.answer sh (s.effects act) = some sh' ∧ t.Implements sh' := by
    cases act with
    | acquire fd =>
      obtain ⟨⟨d, s'⟩, hallot, rfl⟩ := Option.map_eq_some_iff.mp hstep
      exact ⟨sh, rfl, h.allot hallot rfl rfl⟩
    | release fd | createHandlerFromSocket fd | fetch events | fetchFails =>
      obtain ⟨-, hstep⟩ := Option.ite_none_right_eq_some.mp hstep
      cases hstep
      exact ⟨sh, rfl, h.same rfl rfl⟩
    | connectAndCreateHandler socket =>
      cases socket with
      | none =>
        cases hstep
        exact ⟨sh, rfl, h.same rfl rfl⟩
      | some fd =>
        obtain ⟨⟨d, s'⟩, hallot, rfl⟩ := Option.map_eq_some_iff.mp hstep
        exact ⟨sh, rfl, h.allot hallot rfl rfl⟩
    | disposeHandler | getHandler | requestShutdown =>
      cases hstep
      exact ⟨sh, rfl, h.same rfl rfl⟩
    | op i r =>
      obtain ⟨op, hop, hrest⟩ := Option.bind_eq_some_iff.mp hstep
      obtain ⟨⟨s', news⟩, hadvance, rfl⟩ := Option.map_eq_some_iff.mp hrest
      have heffects : s.effects (.op i r) = s.effect op := by rw [effects, hop, Option.elim_some]
      have hfew' : s'.created.length < 2 ^ 64 - 101 := hfew { s' with ops := replaceAt s.ops i news } hstep
      rw [heffects]
      exact h.op hsound hop (advance_moves hadvance) hfew'
    | worker => exact ⟨sh, rfl, h.worker (workerStep_moves hstep)⟩
  obtain ⟨sh', hrun, himplements⟩ := hanswered
  exact ⟨sh', hrun, hsound', himplements⟩

/-- The service before its first call has the handlers of the empty table. -/
theorem Fresh.implements (h : s.Fresh) : s.Implements .empty := by
  have hnone (e : ℕ × TCPCommHandler) : e ∉ s.commHandlers := by
    rw [h.handlers]
    exact List.not_mem_nil
  refine ⟨h.counter.symm, fun id fd => ?_, fun fd => ?_, fun e he => absurd he (hnone e)⟩
  · constructor
    · intro hfd
      contradiction
    · rintro ⟨e, he, -⟩
      exact absurd he (hnone e)
  · constructor
    · intro hopen
      contradiction
    · rintro ⟨e, he, -⟩
      exact absurd he (hnone e)

/-- With fewer than `2^64 - 101` creations, the effects of the methods in their order are a run of the
table that the pipeline works with, and the table at its end has the ids, the descriptors and the
helpers of the handlers. -/
theorem registry_linearizes {s₀ : TCPCommService} {actions : List CommAction} (hfresh : s₀.Fresh)
    (hrun : runActions step s₀ actions = some s) (hfew : s.created.length < 2 ^ 64 - 101) :
    ∃ sh, runActions Shared.answer .empty (answersOf step effects s₀ actions) = some sh ∧
      s.Implements sh := by
  obtain ⟨sh, hanswers, -, himplements⟩ :=
    simulates_table.run ⟨hfresh.sound, hfresh.implements⟩ (RunMeets.within few_of_step hrun hfew) hrun
  exact ⟨sh, hanswers, himplements⟩

/-- The table has the handler of the second client, under the number of the first one. -/
theorem registry_linearizes_staleEvent :
    ∃ s sh, runActions step listening staleEvent = some s ∧
      answersOf step effects listening staleEvent = [.create 5, .dispose 1, .create 5] ∧
      runActions Shared.answer .empty [.create 5, .dispose 1, .create 5] = some sh ∧
      s.Implements sh := by
  have hfresh : listening.Fresh :=
    ⟨rfl, rfl, rfl, rfl, rfl, rfl, by decide, by decide, rfl, rfl, rfl, rfl, rfl, rfl, rfl⟩
  have hsome : (runActions step listening staleEvent).isSome = true := rfl
  have hrun := (Option.some_get hsome).symm
  have hanswers : answersOf step effects listening staleEvent = [.create 5, .dispose 1, .create 5] := rfl
  have hcreated : ((runActions step listening staleEvent).get hsome).created = [1, 2] := rfl
  have hfew : ((runActions step listening staleEvent).get hsome).created.length < 2 ^ 64 - 101 := by
    rw [hcreated]
    decide
  obtain ⟨sh, htable, himplements⟩ := registry_linearizes hfresh hrun hfew
  rw [hanswers] at htable
  exact ⟨_, sh, hrun, hanswers, htable, himplements⟩

end TCPCommService

end TinySox
