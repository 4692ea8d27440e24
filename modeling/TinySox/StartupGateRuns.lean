import TinySox.OptionSettings
import TinySox.StartupGate

/-!
# When the startup gate holds

If `main` was released because all listeners have reported, nothing can go wrong. If it was released
by a failure, it skips the calls only if `ShutdownHandler` knows of the failure when it is asked. So
the gate holds in every run where `main` does not ask between the two, before a call that it would
make. Where `ShutdownHandler` is told first, there is no such moment.
-/

namespace TinySox

open TinySox.Common

/-- What `main` makes of the gate: no call before all listeners have reported, and none at all if one
has failed. -/
structure GateKept (n : ℕ) (trace : List StartupEvent) : Prop where
  afterReady : ∀ before call ok later, trace = before ++ .performed call ok :: later →
    ∀ i < n, .ready i ∈ before
  skipped : ∀ i call ok, .failed i ∈ trace → .performed call ok ∉ trace

/-- `main` has left the wait. -/
def StartupPc.released : StartupPc → Bool
  | startListener _ | wait => false
  | _ => true

/-- `main` asks for the last time before a call that it would make. -/
def MainState.decides (m : MainState) : StartupPc → Bool
  | .guard call => call ≠ .setns && m.configured call && !m.rejected call
  | .recheck => true
  | _ => false

/-- The listener has sent its report, or is about to. -/
def StartupListener.reports : StartupListener → Prop
  | sending .startupReady _ | waiting => True
  | _ => False

/-- The listener has failed. -/
def StartupListener.fails : StartupListener → Prop
  | sending (.shutdown _) _ | failed => True
  | _ => False

/-- A listener does not do both. -/
theorem StartupListener.not_fails {l : StartupListener} (h : l.reports) : ¬l.fails := by
  cases l with
  | sending message left => cases message <;> simp_all [reports, fails]
  | _ => simp_all [reports, fails]

namespace StartupGate

/-- `main` asks for the last time while `StartupHandler` knows of a failure, and `ShutdownHandler`
does not. -/
def asksEarly (m : MainState) (s : StartupGate) : StartupAction → Bool
  | .main _ => m.decides s.pc && s.startupHandler.shutdownRequested && !s.isShutdownRequested
  | .listener .. => false

/-- What `main` and the listeners have done agrees with where they are. -/
structure Gated (m : MainState) (s : StartupGate) : Prop where
  length : s.listeners.length = m.config.listenAddrs.length
  awaited : ∀ i < m.config.listenAddrs.length, i ∉ s.startupHandler.awaitedTargets → .ready i ∈ s.trace
  ready : ∀ i, .ready i ∈ s.trace → ∃ l, s.listeners[i]? = some l ∧ l.reports
  failed : ∀ i, .failed i ∈ s.trace → ∃ l, s.listeners[i]? = some l ∧ l.fails
  released : s.pc.released = true →
    s.startupHandler.shutdownRequested = true ∨ s.startupHandler.awaitedTargets = ∅
  performs : ∀ call, s.pc = .perform call → s.startupHandler.awaitedTargets = ∅
  performed : ∀ call ok, .performed call ok ∈ s.trace → s.startupHandler.awaitedTargets = ∅
  unborn : ∀ i, s.pc = .startListener i → ∀ j l, i ≤ j → s.listeners[j]? = some l → l = .unborn
  afterReady : ∀ before e later, s.trace = before ++ e :: later →
    ∀ call ok, e = .performed call ok → ∀ i < m.config.listenAddrs.length, .ready i ∈ before

variable {m : MainState} {order : List StartupSubscriber} {s s' : StartupGate}

/-- Who is told of something stays where it is. -/
theorem visit_pc (s : StartupGate) (source : Option ℕ) (message : StartupMessage)
    (subscriber : StartupSubscriber) : (s.visit source message subscriber).pc = s.pc := by
  unfold visit
  split_ifs
  · cases subscriber <;> rfl
  · rfl

/-- And so do the listeners. -/
theorem visit_listeners (s : StartupGate) (source : Option ℕ) (message : StartupMessage)
    (subscriber : StartupSubscriber) :
    (s.visit source message subscriber).listeners = s.listeners := by
  unfold visit
  split_ifs
  · cases subscriber <;> rfl
  · rfl

namespace Gated

/-- The gate holds where this is so. -/
theorem kept (h : s.Gated m) : GateKept m.config.listenAddrs.length s.trace := by
  refine ⟨fun before call ok later htrace => h.afterReady before _ later htrace call ok rfl, ?_⟩
  intro i call ok hfailed hperformed
  obtain ⟨l, hl, hfails⟩ := h.failed i hfailed
  obtain ⟨hi, -⟩ := List.getElem?_eq_some_iff.mp hl
  have hawaited := h.performed call ok hperformed
  obtain ⟨l', hl', hreports⟩ := h.ready i
    (h.awaited i (h.length ▸ hi) (hawaited ▸ Finset.notMem_empty i))
  cases hl.symm.trans hl'
  exact StartupListener.not_fails hreports hfails

/-- `main` goes on. -/
theorem goto (h : s.Gated m) {pc : StartupPc}
    (hreleased : pc.released = true →
      s.startupHandler.shutdownRequested = true ∨ s.startupHandler.awaitedTargets = ∅)
    (hperforms : ∀ call, pc = .perform call → s.startupHandler.awaitedTargets = ∅)
    (hstart : ∀ k, pc = .startListener k → ∃ i ≤ k, s.pc = .startListener i) :
    ({ s with pc } : StartupGate).Gated m := by
  refine { h with released := hreleased, performs := hperforms, unborn := ?_ }
  intro k hk j l hkj hj
  obtain ⟨i, hik, hi⟩ := hstart k hk
  exact h.unborn i hi j l (hik.trans hkj) hj

/-- `main` goes on behind the wait, to a place where it does not make a call. -/
theorem proceed (h : s.Gated m) (hbefore : s.pc.released = true) {pc : StartupPc}
    (hafter : pc.released = true) (hperforms : ∀ call, pc ≠ .perform call) :
    ({ s with pc } : StartupGate).Gated m := by
  refine h.goto (fun _ => h.released hbefore) (fun call hcall => absurd hcall (hperforms call)) ?_
  rintro k rfl
  contradiction

/-- A listener that runs has been started. -/
theorem started (h : s.Gated m) {i : ℕ} {l : StartupListener} (hi : s.listeners[i]? = some l)
    (hborn : l ≠ .unborn) (k : ℕ) (hk : s.pc = .startListener k) : i < k := by
  by_contra hle
  exact hborn (h.unborn k hk i l (Nat.le_of_not_lt hle) hi)

/-- A listener goes on, and still reports or fails if it did. -/
theorem replace (h : s.Gated m) {i : ℕ} {l l' : StartupListener} (hi : s.listeners[i]? = some l)
    (hreports : l.reports → l'.reports) (hfails : l.fails → l'.fails)
    (hstarted : ∀ k, s.pc = .startListener k → i < k) :
    ({ s with listeners := s.listeners.set i l' } : StartupGate).Gated m := by
  obtain ⟨hlt, -⟩ := List.getElem?_eq_some_iff.mp hi
  have hkeep {P : StartupListener → Prop} (hP : P l → P l') (j : ℕ)
      (hj : ∃ k, s.listeners[j]? = some k ∧ P k) : ∃ k, (s.listeners.set i l')[j]? = some k ∧ P k := by
    obtain ⟨k, hk, hPk⟩ := hj
    by_cases hij : i = j
    · subst hij
      cases hi.symm.trans hk
      exact ⟨l', List.getElem?_set_self hlt, hP hPk⟩
    · exact ⟨k, by rw [List.getElem?_set_ne hij, hk], hPk⟩
  refine { h with length := ?_, ready := ?_, failed := ?_, unborn := ?_ }
  · rw [List.length_set, h.length]
  · exact fun j hj => hkeep hreports j (h.ready j hj)
  · exact fun j hj => hkeep hfails j (h.failed j hj)
  · intro k hk j l'' hkj hj
    have hij : i ≠ j := (hstarted k hk).trans_le hkj |>.ne
    rw [List.getElem?_set_ne hij] at hj
    exact h.unborn k hk j l'' hkj hj

/-- Something happens. -/
theorem emit (h : s.Gated m) {e : StartupEvent}
    (hready : ∀ i, e = .ready i → ∃ l, s.listeners[i]? = some l ∧ l.reports)
    (hfailed : ∀ i, e = .failed i → ∃ l, s.listeners[i]? = some l ∧ l.fails)
    (hperformed : ∀ call ok, e = .performed call ok → s.startupHandler.awaitedTargets = ∅) :
    ({ s with trace := s.trace ++ [e] } : StartupGate).Gated m := by
  have hmem {e' : StartupEvent} (he' : e' ∈ s.trace ++ [e]) : e' ∈ s.trace ∨ e = e' := by
    rw [List.mem_append, List.mem_singleton] at he'
    exact he'.imp_right Eq.symm
  refine { h with awaited := ?_, ready := ?_, failed := ?_, performed := ?_, afterReady := ?_ }
  · exact fun i hi hnot => List.mem_append_left _ (h.awaited i hi hnot)
  · exact fun i hi => (hmem hi).elim (h.ready i) (hready i)
  · exact fun i hi => (hmem hi).elim (h.failed i) (hfailed i)
  · exact fun call ok hcall => (hmem hcall).elim (h.performed call ok) (hperformed call ok)
  · refine forall_split_concat h.afterReady fun call ok he i hi => ?_
    exact h.awaited i hi ((hperformed call ok he) ▸ Finset.notMem_empty i)

/-- `StartupHandler` strikes a listener that has reported. -/
theorem strike (h : s.Gated m) {i : ℕ} (hready : .ready i ∈ s.trace) :
    ({ s with startupHandler := s.startupHandler.onMessage (some i) .startupReady } :
      StartupGate).Gated m := by
  have hempty (hnone : s.startupHandler.awaitedTargets = ∅) :
      s.startupHandler.awaitedTargets.erase i = ∅ := by
    rw [hnone, Finset.erase_empty]
  refine { h with awaited := ?_, released := ?_, performs := ?_, performed := ?_ }
  · intro j hj hnot
    by_cases hji : j = i
    · rw [hji]
      exact hready
    · exact h.awaited j hj fun hmem => hnot (Finset.mem_erase.mpr ⟨hji, hmem⟩)
  · exact fun hpc => (h.released hpc).imp_right hempty
  · exact fun call hpc => hempty (h.performs call hpc)
  · exact fun call ok hcall => hempty (h.performed call ok hcall)

/-- The handlers hear of a failure. -/
theorem hear (h : s.Gated m) {requested : Bool} {shutdownHandler : ShutdownHandler}
    (hrequested : s.startupHandler.shutdownRequested = true → requested = true) :
    ({ s with
        startupHandler := { s.startupHandler with shutdownRequested := requested }
        shutdownHandler } : StartupGate).Gated m :=
  { h with released := fun hpc => (h.released hpc).imp_left hrequested }

/-- A subscriber is told. Only a listener that reports sends a report. -/
theorem visit (h : s.Gated m) {source : Option ℕ} {message : StartupMessage}
    (hsource : ∀ i, source = some i → message = .startupReady →
      ∃ l, s.listeners[i]? = some l ∧ l.reports) (subscriber : StartupSubscriber) :
    (s.visit source message subscriber).Gated m := by
  unfold StartupGate.visit
  split_ifs with hready
  · cases subscriber with
    | shutdownHandler => exact h.hear id
    | startupHandler =>
      cases message with
      | shutdown ec =>
        have htold : ({ s with
            startupHandler := s.startupHandler.onMessage source (.shutdown ec) } : StartupGate).Gated m :=
          h.hear fun _ => rfl
        cases source <;> simpa using htold
      | startupReady =>
        cases source with
        | none => simpa [StartupHandler.onMessage] using h
        | some i =>
          have hreport := h.emit (e := .ready i)
            (fun j hj => hsource j (congrArg some (StartupEvent.ready.inj hj)) rfl)
            (fun j hj => nomatch hj) (fun call ok hcall => nomatch hcall)
          exact hreport.strike (List.mem_append_right _ (List.mem_singleton_self _))
    | jobDispatcher | listener j => exact h
  · exact h

/-- Who was told of no shutdown when it decided, and did not ask early, was released by the
reports. -/
theorem awaited_empty (h : s.Gated m) {ok : Bool} (hearly : asksEarly m s (.main ok) = false)
    (hdecides : m.decides s.pc = true) (hquiet : s.isShutdownRequested = false) :
    s.startupHandler.awaitedTargets = ∅ := by
  have hreleased : s.pc.released = true := by
    cases hpc : s.pc <;> simp_all [MainState.decides, StartupPc.released]
  refine (h.released hreleased).resolve_left fun hrequested => ?_
  rw [asksEarly, hdecides, hrequested, hquiet] at hearly
  contradiction

/-- The next step of `main`, if it does not ask early. -/
theorem main (h : s.Gated m) {ok : Bool} (hearly : asksEarly m s (.main ok) = false)
    (hstep : s.mainStep m order ok = some s') : s'.Gated m := by
  have hasks := h.awaited_empty hearly
  have hnext (call : PrivilegedCall) : call.next.released = true ∧ ∀ call', call.next ≠ .perform call' := by
    cases call <;> exact ⟨rfl, fun call' hno => nomatch hno⟩
  cases hpc : s.pc with
  | startListener i =>
    simp only [mainStep, hpc] at hstep
    cases hi : s.listeners[i]? with
    | none =>
      simp only [hi] at hstep
      cases hstep
      exact h.goto (fun hno => nomatch hno) (fun call hno => nomatch hno) fun k hno => nomatch hno
    | some l =>
      simp only [hi] at hstep
      cases hstep
      obtain rfl := h.unborn i hpc i l (Nat.le_refl i) hi
      have hgone : ({ s with pc := .startListener (i + 1) } : StartupGate).Gated m := by
        refine h.goto (fun hno => nomatch hno) (fun call hno => nomatch hno) fun k hk => ?_
        cases hk
        exact ⟨i, Nat.le_succ i, hpc⟩
      refine hgone.replace hi False.elim False.elim fun k hk => ?_
      cases hk
      exact Nat.lt_succ_self i
  | wait =>
    simp only [mainStep, hpc] at hstep
    split_ifs at hstep with hready
    · cases hstep
      refine h.goto (fun _ => ?_) (fun call hno => nomatch hno) fun k hno => nomatch hno
      rwa [Bool.or_eq_true, decide_eq_true_eq] at hready
    · cases hstep
      exact h
  | guard call =>
    have hbefore : s.pc.released = true := by rw [hpc]; rfl
    simp only [mainStep, hpc] at hstep
    cases hstep
    split_ifs with henters
    · obtain ⟨hquiet, hconfigured⟩ := Bool.and_eq_true_iff.mp henters
      rw [MainState.enterBlock]
      split_ifs with hsetns hrejected
      · exact h.proceed hbefore rfl fun call hno => nomatch hno
      · exact h.proceed hbefore rfl fun call hno => nomatch hno
      · refine h.goto (fun _ => h.released hbefore) (fun _ _ => hasks ?_ ?_) fun k hno => nomatch hno
        · simp [hpc, MainState.decides, hsetns, hconfigured, hrejected]
        · rwa [Bool.not_eq_true'] at hquiet
    · exact h.proceed hbefore (hnext call).1 (hnext call).2
  | openNetNS =>
    have hbefore : s.pc.released = true := by rw [hpc]; rfl
    simp only [mainStep, hpc] at hstep
    cases hstep
    cases ok <;> exact h.proceed hbefore rfl fun call hno => nomatch hno
  | recheck =>
    have hbefore : s.pc.released = true := by rw [hpc]; rfl
    simp only [mainStep, hpc] at hstep
    cases hstep
    split_ifs with hrequested
    · exact h.proceed hbefore rfl fun call hno => nomatch hno
    · refine h.goto (fun _ => h.released hbefore) (fun _ _ => hasks ?_ ?_) fun k hno => nomatch hno
      · rw [hpc]
        rfl
      · exact (Bool.not_eq_true _).mp hrequested
  | perform call =>
    have hbefore : s.pc.released = true := by rw [hpc]; rfl
    simp only [mainStep, hpc] at hstep
    cases hstep
    have hcalled : ({ s with trace := s.trace ++ [.performed call ok] } : StartupGate).Gated m :=
      h.emit (fun j hj => nomatch hj) (fun j hj => nomatch hj) fun _ _ _ => h.performs call hpc
    cases ok with
    | true => exact hcalled.proceed hbefore (hnext call).1 (hnext call).2
    | false => exact hcalled.proceed hbefore rfl fun call hno => nomatch hno
  | sending call left =>
    have hbefore : s.pc.released = true := by rw [hpc]; rfl
    cases left with
    | nil =>
      simp only [mainStep, hpc] at hstep
      cases hstep
      exact h.proceed hbefore (hnext call).1 (hnext call).2
    | cons subscriber left =>
      simp only [mainStep, hpc] at hstep
      cases hstep
      have htold : (s.visit none (.shutdown 1) subscriber).Gated m :=
        h.visit (fun i hno => absurd hno.symm (Option.some_ne_none i)) subscriber
      exact htold.proceed (by rw [visit_pc, hbefore]) rfl fun call hno => nomatch hno
  | secondStage =>
    simp only [mainStep, hpc] at hstep
    contradiction

/-- The next step of a listener. -/
theorem listener (h : s.Gated m) {i : ℕ} {ec : Option Int}
    (hstep : s.listenerStep order i ec = some s') : s'.Gated m := by
  unfold listenerStep at hstep
  cases hi : s.listeners[i]? with
  | none =>
    rw [hi] at hstep
    contradiction
  | some l =>
    obtain ⟨hlt, -⟩ := List.getElem?_eq_some_iff.mp hi
    rw [hi] at hstep
    cases l with
    | setup =>
      cases ec with
      | none =>
        cases hstep
        exact h.replace hi False.elim False.elim (h.started hi nofun)
      | some ec =>
        cases hstep
        have hsends : ({ s with
            listeners := s.listeners.set i (.sending (.shutdown ec) order) } : StartupGate).Gated m :=
          h.replace hi False.elim False.elim (h.started hi nofun)
        refine hsends.emit (fun j hj => nomatch hj) (fun j hj => ?_) fun call ok hcall => nomatch hcall
        cases hj
        exact ⟨_, List.getElem?_set_self hlt, trivial⟩
    | sending message left =>
      cases left with
      | nil =>
        cases hstep
        cases message with
        | startupReady => exact h.replace hi (fun _ => trivial) False.elim (h.started hi nofun)
        | shutdown ec => exact h.replace hi False.elim (fun _ => trivial) (h.started hi nofun)
      | cons subscriber left =>
        cases hstep
        have hsource : ∀ j, some i = some j → message = .startupReady →
            ∃ l, s.listeners[j]? = some l ∧ l.reports := by
          rintro j hj rfl
          cases hj
          exact ⟨_, hi, trivial⟩
        have htold := h.visit hsource subscriber
        rw [← visit_listeners s (some i) message subscriber] at hi ⊢
        cases message with
        | startupReady => exact htold.replace hi (fun _ => trivial) False.elim (htold.started hi nofun)
        | shutdown ec => exact htold.replace hi False.elim (fun _ => trivial) (htold.started hi nofun)
    | unborn | waiting | failed => contradiction

end Gated

/-- Nothing has happened yet. -/
theorem gated_initial : (initial m).Gated m where
  length := List.length_replicate
  awaited i hi hnot := absurd (Finset.mem_range.mpr hi) hnot
  ready _ h := nomatch h
  failed _ h := nomatch h
  released h := nomatch h
  performs _ h := nomatch h
  performed _ _ h := nomatch h
  unborn i _ j l _ hj := List.eq_of_mem_replicate (List.mem_of_getElem? hj)
  afterReady before e later h := by simp [initial] at h

/-- In every run in which `main` does not ask early, the gate holds: `main` makes none of the calls
before all listeners have reported, and none at all if one has failed. -/
theorem startup_gate_kept {actions : List StartupAction}
    (hrun : runActions (step m order) (initial m) actions = some s)
    (hmeets : RunMeets (step m order) (fun s a => asksEarly m s a = false) (initial m) actions) :
    GateKept m.config.listenAddrs.length s.trace := by
  have hstep : ∀ (u : StartupGate) (a : StartupAction) (u' : StartupGate), u.Gated m →
      asksEarly m u a = false → u.step m order a = some u' → u'.Gated m := by
    intro u a u' h hearly hstep
    cases a with
    | main ok => exact h.main hearly hstep
    | listener i ec => exact h.listener hstep
  exact (runActions_invariant_of_meets hstep gated_initial hmeets hrun).kept

/-- A port, and a directory to change to. -/
def directoryArguments : List Bytes := [ascii "-p", ascii "1080", ascii "-cd", ascii "/"]

/-- The variables of `main` with these arguments. -/
def directoryMain : MainState :=
  match mainOptions loopbackOnly (ascii "tinysox") directoryArguments with
  | .ok m => m
  | .error _ => ⟨∅, .blank⟩

/-- The addresses are such that `StartupHandler` is told first. -/
def startupHandlerFirst : List StartupSubscriber :=
  [.startupHandler, .shutdownHandler, .jobDispatcher, .listener 0]

/-- The listener reports, and `main` changes the directory. -/
def changesInTime : List StartupAction :=
  List.replicate 2 (.main true) ++ List.replicate 6 (.listener 0 none) ++ List.replicate 4 (.main true)

/-- The gate holds there, though `StartupHandler` is told first. -/
theorem startup_gate_kept_changesInTime :
    mainOptions loopbackOnly (ascii "tinysox") directoryArguments = .ok directoryMain ∧
    ∃ s, runActions (step directoryMain startupHandlerFirst) (initial directoryMain) changesInTime = some s ∧
      GateKept 1 s.trace ∧ s.trace = [.ready 0, .performed .chdir true] := by
  have hsome : (runActions (step directoryMain startupHandlerFirst) (initial directoryMain)
    changesInTime).isSome = true := rfl
  have hmeets : RunMeets (step directoryMain startupHandlerFirst)
    (fun s a => asksEarly directoryMain s a = false) (initial directoryMain) changesInTime := by decide
  have hrun := (Option.some_get hsome).symm
  exact ⟨rfl, _, hrun, startup_gate_kept hrun hmeets, rfl⟩

/-- The listener cannot bind its address. `main` is released when `StartupHandler` has been told, and
goes on before `ShutdownHandler` is. -/
def changesEarly : List StartupAction :=
  List.replicate 2 (.main true) ++ List.replicate 2 (.listener 0 (some 98)) ++
    List.replicate 4 (.main true)

/-- So `main` changes the directory though the only listener has failed. -/
theorem changes_after_failure :
    mainOptions loopbackOnly (ascii "tinysox") directoryArguments = .ok directoryMain ∧
    ∃ s, runActions (step directoryMain startupHandlerFirst) (initial directoryMain) changesEarly = some s ∧
      s.trace = [.failed 0, .performed .chdir true] ∧ ¬GateKept 1 s.trace := by
  have hsome : (runActions (step directoryMain startupHandlerFirst) (initial directoryMain)
    changesEarly).isSome = true := rfl
  have hrun := (Option.some_get hsome).symm
  refine ⟨rfl, _, hrun, rfl, fun hkept => ?_⟩
  have hready := hkept.afterReady [.failed 0] .chdir true [] rfl 0 Nat.one_pos
  exact absurd hready (by decide)

/-- What `main` does while it is not inside `SendMessage`. -/
theorem mainStep_apart {ok : Bool} (hstep : s.mainStep m order ok = some s')
    (hsending : ¬∃ call left, s.pc = .sending call left) :
    ∃ pc events listeners, s' = { s with pc, listeners, trace := s.trace ++ events } ∧
      (∀ call left, pc = .sending call left → left = order) ∧
      (listeners = s.listeners ∨ ∃ i, listeners = s.listeners.set i .setup) := by
  have hnext (call : PrivilegedCall) (call' : PrivilegedCall) (left : List StartupSubscriber)
      (hno : call.next = .sending call' left) : left = order := by
    cases call <;> contradiction
  have hgone (pc : StartupPc) (hpc : ∀ call left, pc = .sending call left → left = order) :
      ∃ pc' events listeners, ({ s with pc } : StartupGate) =
          { s with pc := pc', listeners, trace := s.trace ++ events } ∧
        (∀ call left, pc' = .sending call left → left = order) ∧
        (listeners = s.listeners ∨ ∃ i, listeners = s.listeners.set i .setup) :=
    ⟨pc, [], s.listeners, by rw [List.append_nil], hpc, .inl rfl⟩
  cases hpc : s.pc with
  | startListener i =>
    simp only [mainStep, hpc] at hstep
    split at hstep
    · cases hstep
      exact ⟨.startListener (i + 1), [], s.listeners.set i .setup, by rw [List.append_nil],
        (fun call left hno => nomatch hno), .inr ⟨i, rfl⟩⟩
    · cases hstep
      exact hgone _ fun call left hno => nomatch hno
  | wait =>
    simp only [mainStep, hpc] at hstep
    split_ifs at hstep
    · cases hstep
      exact hgone _ fun call left hno => nomatch hno
    · cases hstep
      exact hgone s.pc fun call left hno => absurd ⟨call, left, hno⟩ hsending
  | guard call =>
    simp only [mainStep, hpc] at hstep
    cases hstep
    refine hgone _ fun call' left hsends => ?_
    split_ifs at hsends
    · rw [MainState.enterBlock] at hsends
      split_ifs at hsends
      cases hsends
      rfl
    · exact hnext call call' left hsends
  | openNetNS =>
    simp only [mainStep, hpc] at hstep
    cases hstep
    refine hgone _ fun call left hsends => ?_
    split_ifs at hsends
    cases hsends
    rfl
  | recheck =>
    simp only [mainStep, hpc] at hstep
    cases hstep
    refine hgone _ fun call left hsends => ?_
    split_ifs at hsends
    exact hnext .setns call left hsends
  | perform call =>
    simp only [mainStep, hpc] at hstep
    cases hstep
    refine ⟨_, [.performed call ok], s.listeners, rfl, fun call' left hsends => ?_, .inl rfl⟩
    split_ifs at hsends
    · exact hnext call call' left hsends
    · cases hsends
      rfl
  | sending call left => exact absurd ⟨call, left, hpc⟩ hsending
  | secondStage =>
    simp only [mainStep, hpc] at hstep
    contradiction

/-- Who sends a shutdown has told `ShutdownHandler` of it, or what is left has this property; and
`StartupHandler` knows only what somebody has sent. -/
structure Heard (Q : List StartupSubscriber → Prop) (s : StartupGate) : Prop where
  main : ∀ call left, s.pc = .sending call left → s.isShutdownRequested = true ∨ Q left
  listener : ∀ i ec left, s.listeners[i]? = some (.sending (.shutdown ec) left) →
    .failed i ∈ s.trace ∧ (s.isShutdownRequested = true ∨ Q left)
  requested : s.startupHandler.shutdownRequested = true →
    s.isShutdownRequested = true ∨ (∃ i, .failed i ∈ s.trace) ∨ ∃ call left, s.pc = .sending call left

/-- The property holds at the start, and stays until `ShutdownHandler` is told. -/
structure Lasting (order : List StartupSubscriber) (Q : List StartupSubscriber → Prop) : Prop where
  order : Q order
  tail : ∀ subscriber left, Q (subscriber :: left) → subscriber = .shutdownHandler ∨ Q left
  nil : ¬Q []

/-- Who is told of a shutdown knows of it. -/
theorem visit_shutdown (s : StartupGate) (source : Option ℕ) (ec : Int)
    (subscriber : StartupSubscriber) :
    (s.visit source (.shutdown ec) subscriber).isShutdownRequested =
        (s.isShutdownRequested || decide (subscriber = .shutdownHandler)) ∧
      (s.visit source (.shutdown ec) subscriber).startupHandler.shutdownRequested =
        (s.startupHandler.shutdownRequested || decide (subscriber = .startupHandler)) ∧
      (s.visit source (.shutdown ec) subscriber).trace = s.trace := by
  unfold visit isShutdownRequested
  cases subscriber with
  | shutdownHandler =>
    cases hflag : s.shutdownHandler.shutdownRequested <;>
      simp [StartupSubscriber.readyForMessage, StartupMessage.msgType, ShutdownHandler.onMessage, hflag]
  | startupHandler =>
    simp [StartupSubscriber.readyForMessage, StartupMessage.msgType, StartupHandler.onMessage]
  | jobDispatcher | listener j => simp [StartupSubscriber.readyForMessage, StartupMessage.msgType]

/-- A report tells neither handler of a shutdown. -/
theorem visit_startupReady (s : StartupGate) (source : Option ℕ) (subscriber : StartupSubscriber) :
    (s.visit source .startupReady subscriber).isShutdownRequested = s.isShutdownRequested ∧
      (s.visit source .startupReady subscriber).startupHandler.shutdownRequested =
        s.startupHandler.shutdownRequested ∧
      s.trace ⊆ (s.visit source .startupReady subscriber).trace := by
  unfold visit
  cases subscriber with
  | startupHandler =>
    cases source <;> simp [StartupSubscriber.readyForMessage, StartupMessage.msgType,
      StartupHandler.onMessage, isShutdownRequested]
  | shutdownHandler | jobDispatcher | listener j =>
    simp [StartupSubscriber.readyForMessage, StartupMessage.msgType]

namespace Heard

variable {Q : List StartupSubscriber → Prop}

/-- `main` goes on, and is not in the middle of a message. -/
theorem goto (h : s.Heard Q) {pc : StartupPc} (hpc : ∀ call left, pc = .sending call left → Q left)
    (hleft : ∀ call left, s.pc = .sending call left → s.isShutdownRequested = true) :
    ({ s with pc } : StartupGate).Heard Q := by
  refine { h with main := fun call left hsends => .inr (hpc call left hsends), requested := ?_ }
  intro hrequested
  rcases h.requested hrequested with hflag | hfailed | ⟨call, left, hsends⟩
  · exact .inl hflag
  · exact .inr (.inl hfailed)
  · exact .inl (hleft call left hsends)

/-- More has happened. -/
theorem mono (h : s.Heard Q) {trace : List StartupEvent} (htrace : s.trace ⊆ trace) :
    ({ s with trace } : StartupGate).Heard Q where
  main := h.main
  listener i ec left hi := ⟨htrace (h.listener i ec left hi).1, (h.listener i ec left hi).2⟩
  requested hrequested := (h.requested hrequested).imp_right fun hsent =>
    hsent.imp_left fun ⟨i, hi⟩ => ⟨i, htrace hi⟩

/-- A listener goes on. -/
theorem replace (h : s.Heard Q) {i : ℕ} {l : StartupListener}
    (hl : ∀ ec left, l = .sending (.shutdown ec) left →
      .failed i ∈ s.trace ∧ (s.isShutdownRequested = true ∨ Q left)) :
    ({ s with listeners := s.listeners.set i l } : StartupGate).Heard Q := by
  refine { h with listener := fun j ec left hj => ?_ }
  by_cases hij : i = j
  · subst hij
    rw [List.getElem?_set, if_pos rfl] at hj
    split_ifs at hj
    exact hl ec left (Option.some.inj hj)
  · rw [List.getElem?_set_ne hij] at hj
    exact h.listener j ec left hj

/-- Somebody who sends a shutdown tells a subscriber of it. -/
theorem told (h : s.Heard Q) {source : Option ℕ} {ec : Int} {subscriber : StartupSubscriber}
    (hsent : (∃ i, .failed i ∈ s.trace) ∨ ∃ call left, s.pc = .sending call left) :
    (s.visit source (.shutdown ec) subscriber).Heard Q := by
  obtain ⟨hflag, hrequested, htrace⟩ := visit_shutdown s source ec subscriber
  have hmono {p : Prop} (hp : s.isShutdownRequested = true ∨ p) :
      (s.visit source (.shutdown ec) subscriber).isShutdownRequested = true ∨ p := by
    rw [hflag, Bool.or_eq_true]
    exact hp.imp_left .inl
  constructor
  · rw [visit_pc]
    exact fun call left hpc => hmono (h.main call left hpc)
  · rw [visit_listeners, htrace]
    exact fun i ec left hi => ⟨(h.listener i ec left hi).1, hmono (h.listener i ec left hi).2⟩
  · rw [visit_pc, htrace, hrequested, Bool.or_eq_true]
    exact fun hknows => hknows.elim (fun hold => hmono (h.requested hold)) fun _ => .inr hsent

/-- A listener reports to a subscriber. -/
theorem reported (h : s.Heard Q) (source : Option ℕ) (subscriber : StartupSubscriber) :
    (s.visit source .startupReady subscriber).Heard Q := by
  obtain ⟨hflag, hrequested, htrace⟩ := visit_startupReady s source subscriber
  have hmono := h.mono htrace
  constructor
  · rw [visit_pc, hflag]
    exact hmono.main
  · rw [visit_listeners, hflag]
    exact hmono.listener
  · rw [visit_pc, hflag, hrequested]
    exact hmono.requested

/-- Whoever tells `ShutdownHandler`, or has still to, keeps the property. -/
theorem left_of_visit (hQ : Lasting order Q) {source : Option ℕ} {ec : Int}
    {subscriber : StartupSubscriber} {left : List StartupSubscriber}
    (h : s.isShutdownRequested = true ∨ Q (subscriber :: left)) :
    (s.visit source (.shutdown ec) subscriber).isShutdownRequested = true ∨ Q left := by
  rw [(visit_shutdown s source ec subscriber).1, Bool.or_eq_true, decide_eq_true_eq]
  rcases h with hflag | hlasts
  · exact .inl (.inl hflag)
  · exact (hQ.tail subscriber left hlasts).imp_left .inr

/-- The next step of `main`. -/
theorem mainStep (h : s.Heard Q) (hQ : Lasting order Q) {ok : Bool}
    (hstep : s.mainStep m order ok = some s') : s'.Heard Q := by
  by_cases hsending : ∃ call left, s.pc = .sending call left
  · obtain ⟨call, left, hpc⟩ := hsending
    simp only [StartupGate.mainStep, hpc] at hstep
    cases left with
    | nil =>
      cases hstep
      refine h.goto (fun call' left hno => ?_) fun call' left hsends => ?_
      · cases call <;> contradiction
      · rw [hpc] at hsends
        cases hsends
        exact (h.main call [] hpc).resolve_right hQ.nil
    | cons subscriber left =>
      cases hstep
      have htold : (s.visit none (.shutdown 1) subscriber).Heard Q := h.told (.inr ⟨call, _, hpc⟩)
      refine { htold with main := fun call' left' hsends => ?_, requested := fun _ => ?_ }
      · cases hsends
        exact left_of_visit hQ (h.main call _ hpc)
      · exact .inr (.inr ⟨call, left, rfl⟩)
  · obtain ⟨pc, events, listeners, rfl, hfresh, hlisteners⟩ := mainStep_apart hstep hsending
    have hgone : ({ s with pc } : StartupGate).Heard Q :=
      h.goto (fun call left hsends => hfresh call left hsends ▸ hQ.order)
        fun call left hpc => absurd ⟨call, left, hpc⟩ hsending
    have hmore := hgone.mono (List.subset_append_left s.trace events)
    rcases hlisteners with rfl | ⟨i, rfl⟩
    · exact hmore
    · exact hmore.replace fun ec left hno => nomatch hno

/-- The next step of a listener. -/
theorem listenerStep (h : s.Heard Q) (hQ : Lasting order Q) {i : ℕ} {ec : Option Int}
    (hstep : s.listenerStep order i ec = some s') : s'.Heard Q := by
  unfold StartupGate.listenerStep at hstep
  cases hi : s.listeners[i]? with
  | none =>
    rw [hi] at hstep
    contradiction
  | some l =>
    rw [hi] at hstep
    cases l with
    | setup =>
      cases ec with
      | none =>
        cases hstep
        exact h.replace fun ec left hno => nomatch hno
      | some ec =>
        cases hstep
        have hmore : ({ s with trace := s.trace ++ [.failed i] } : StartupGate).Heard Q :=
          h.mono (List.subset_append_left _ _)
        refine hmore.replace fun ec left hsends => ?_
        cases hsends
        exact ⟨List.mem_append_right _ (List.mem_singleton_self _), .inr hQ.order⟩
    | sending message left =>
      cases left with
      | nil =>
        cases hstep
        cases message <;> exact h.replace fun ec left hno => nomatch hno
      | cons subscriber left =>
        cases hstep
        cases message with
        | startupReady =>
          have hreported := h.reported (some i) subscriber
          rw [← visit_listeners s (some i) .startupReady subscriber]
          exact hreported.replace fun ec left hno => nomatch hno
        | shutdown ec =>
          obtain ⟨hfailed, hlasts⟩ := h.listener i ec _ hi
          have htold : (s.visit (some i) (.shutdown ec) subscriber).Heard Q := h.told (.inl ⟨i, hfailed⟩)
          rw [← visit_listeners s (some i) (.shutdown ec) subscriber]
          refine htold.replace fun ec' left' hsends => ?_
          cases hsends
          exact ⟨by rw [(visit_shutdown s _ _ _).2.2]; exact hfailed, left_of_visit hQ hlasts⟩
    | unborn | waiting | failed => contradiction

/-- One step keeps it. -/
theorem step (h : s.Heard Q) (hQ : Lasting order Q) {a : StartupAction}
    (hstep : s.step m order a = some s') : s'.Heard Q := by
  cases a with
  | main ok => exact h.mainStep hQ hstep
  | listener i ec => exact h.listenerStep hQ hstep

/-- Nobody has sent anything at the start. -/
theorem initial : (StartupGate.initial m).Heard Q := by
  refine ⟨(fun call left hno => nomatch hno), fun i ec left hi => ?_, fun hno => nomatch hno⟩
  have hunborn := List.eq_of_mem_replicate (List.mem_of_getElem? hi)
  contradiction

end Heard

/-- If `main` asks early, a listener has failed, and `main` goes on to make the call. -/
theorem gate_opens_early (horder : .shutdownHandler ∈ order) {actions : List StartupAction} {ok : Bool}
    (hrun : runActions (step m order) (initial m) actions = some s)
    (hearly : asksEarly m s (.main ok) = true) :
    (∃ i, .failed i ∈ s.trace) ∧ ∃ call, s.step m order (.main ok) = some { s with pc := .perform call } := by
  have hQ : Lasting order fun left => .shutdownHandler ∈ left :=
    ⟨horder, fun subscriber left hmem => (List.mem_cons.mp hmem).imp_left Eq.symm, List.not_mem_nil⟩
  have hheard := runActions_invariant (fun _ _ _ (h : Heard _ _) hstep => h.step hQ hstep) Heard.initial hrun
  rw [asksEarly, Bool.and_eq_true, Bool.and_eq_true, Bool.not_eq_true'] at hearly
  obtain ⟨⟨hdecides, hrequested⟩, hquiet⟩ := hearly
  cases hpc : s.pc with
  | guard call =>
    rw [hpc] at hdecides
    simp only [MainState.decides, ne_eq, decide_not, Bool.and_eq_true, Bool.not_eq_true',
      decide_eq_false_iff_not] at hdecides
    obtain ⟨⟨hsetns, hconfigured⟩, hrejected⟩ := hdecides
    refine ⟨?_, call, ?_⟩
    · rcases hheard.requested hrequested with hflag | hfailed | ⟨call', left, hsends⟩
      · rw [hquiet] at hflag
        contradiction
      · exact hfailed
      · rw [hpc] at hsends
        contradiction
    · simp [step, mainStep, hpc, hquiet, hconfigured, MainState.enterBlock, hsetns, hrejected]
  | recheck =>
    refine ⟨?_, .setns, ?_⟩
    · rcases hheard.requested hrequested with hflag | hfailed | ⟨call', left, hsends⟩
      · rw [hquiet] at hflag
        contradiction
      · exact hfailed
      · rw [hpc] at hsends
        contradiction
    · simp [step, mainStep, hpc, hquiet]
  | _ =>
    rw [hpc] at hdecides
    contradiction

/-- `ShutdownHandler` is still to be told, and before `StartupHandler`. -/
def ShutdownHandlerFirst (left : List StartupSubscriber) : Prop :=
  .shutdownHandler ∈ left ∧ .startupHandler ∉ left.takeWhile (· ≠ .shutdownHandler)

/-- That stays so until it is told. -/
theorem lasting_shutdownHandlerFirst (horder : ShutdownHandlerFirst order) :
    Lasting order ShutdownHandlerFirst := by
  refine ⟨horder, fun subscriber left h => ?_, fun h => List.not_mem_nil h.1⟩
  obtain ⟨hmem, hfirst⟩ := h
  by_cases hsubscriber : subscriber = .shutdownHandler
  · exact .inl hsubscriber
  · rw [List.takeWhile_cons_of_pos (by simpa using hsubscriber)] at hfirst
    exact .inr ⟨(List.mem_cons.mp hmem).resolve_left (Ne.symm hsubscriber),
      fun hno => hfirst (List.mem_cons_of_mem _ hno)⟩

/-- Then `StartupHandler` is not next. -/
theorem requested_of_visit {source : Option ℕ} {ec : Int} {subscriber : StartupSubscriber}
    {left : List StartupSubscriber}
    (h : s.isShutdownRequested = true ∨ ShutdownHandlerFirst (subscriber :: left))
    (hknows : s.startupHandler.shutdownRequested = true → s.isShutdownRequested = true)
    (hrequested : (s.visit source (.shutdown ec) subscriber).startupHandler.shutdownRequested = true) :
    (s.visit source (.shutdown ec) subscriber).isShutdownRequested = true := by
  obtain ⟨hflag, hsame, -⟩ := visit_shutdown s source ec subscriber
  rw [hflag, Bool.or_eq_true]
  rw [hsame, Bool.or_eq_true, decide_eq_true_eq] at hrequested
  rcases hrequested with hold | rfl
  · exact .inl (hknows hold)
  · refine .inl (h.resolve_right fun hfirst => hfirst.2 ?_)
    rw [List.takeWhile_cons_of_pos (by simp)]
    exact List.mem_cons_self

/-- Where `ShutdownHandler` is told first, it knows whatever `StartupHandler` knows. -/
theorem requested_step (h : s.Heard ShutdownHandlerFirst)
    (hknows : s.startupHandler.shutdownRequested = true → s.isShutdownRequested = true)
    {a : StartupAction} (hstep : s.step m order a = some s')
    (hrequested : s'.startupHandler.shutdownRequested = true) : s'.isShutdownRequested = true := by
  cases a with
  | main ok =>
    by_cases hsending : ∃ call left, s.pc = .sending call left
    · obtain ⟨call, left, hpc⟩ := hsending
      simp only [step, mainStep, hpc] at hstep
      cases left with
      | nil =>
        cases hstep
        exact hknows hrequested
      | cons subscriber left =>
        cases hstep
        exact requested_of_visit (h.main call _ hpc) hknows hrequested
    · obtain ⟨pc, events, listeners, rfl, -, -⟩ := mainStep_apart hstep hsending
      exact hknows hrequested
  | listener i ec =>
    simp only [step, listenerStep] at hstep
    cases hi : s.listeners[i]? with
    | none =>
      rw [hi] at hstep
      contradiction
    | some l =>
      rw [hi] at hstep
      cases l with
      | setup =>
        cases ec <;> cases hstep <;> exact hknows hrequested
      | sending message left =>
        cases left with
        | nil =>
          cases hstep
          exact hknows hrequested
        | cons subscriber left =>
          cases hstep
          cases message with
          | startupReady =>
            obtain ⟨hflag, hsame, -⟩ := visit_startupReady s (some i) subscriber
            exact hflag.trans (hknows (hsame.symm.trans hrequested))
          | shutdown ec => exact requested_of_visit (h.listener i ec _ hi).2 hknows hrequested
      | unborn | waiting | failed => contradiction

/-- Where `ShutdownHandler` is told first, `main` never asks early, so the gate holds in every run. -/
theorem never_asksEarly (horder : ShutdownHandlerFirst order) (actions : List StartupAction) :
    RunMeets (step m order) (fun s a => asksEarly m s a = false) (initial m) actions := by
  have hQ := lasting_shutdownHandlerFirst horder
  have hstep : ∀ (u : StartupGate) (a : StartupAction) (u' : StartupGate),
      (u.Heard ShutdownHandlerFirst ∧
        (u.startupHandler.shutdownRequested = true → u.isShutdownRequested = true)) →
      u.step m order a = some u' →
      u'.Heard ShutdownHandlerFirst ∧
        (u'.startupHandler.shutdownRequested = true → u'.isShutdownRequested = true) :=
    fun u a u' h hstep => ⟨h.1.step hQ hstep, requested_step h.1 h.2 hstep⟩
  refine RunMeets.of_invariant hstep (fun u a h => ?_) ⟨Heard.initial, fun hno => nomatch hno⟩ actions
  cases a with
  | listener i ec => rfl
  | main ok =>
    rw [asksEarly]
    cases hrequested : u.startupHandler.shutdownRequested with
    | false => rw [Bool.and_false, Bool.false_and]
    | true => rw [h.2 hrequested, Bool.not_true, Bool.and_false]

end StartupGate

end TinySox
