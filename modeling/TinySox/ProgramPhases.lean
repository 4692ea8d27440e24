import TinySox.ProgramOrder

/-!
# How far `main` has come

Each step of `main` does one of a few things, and what it has done to the threads lasts: a listener
that was started stays so, one that was told to end stays told, and one that has ended stays where it
is. So the place of `main` says what is true of all threads at that time, in any schedule. In
particular, `main` returns when all threads have ended, or before any was started.
-/

namespace TinySox

open TinySox.Common

/-- What a listener keeps. -/
structure ServerListener.Later (l l' : ServerListener) : Prop where
  born : l.pc ≠ .unborn → l'.pc ≠ .unborn
  allowed : l.startupAllowed = true → l'.startupAllowed = true
  pending : l.shutdownPending = true → l'.shutdownPending = true
  returned : l.pc = .returned → l'.pc = .returned

/-- What the thread of a component keeps. -/
structure ComponentThread.Later (c c' : ComponentThread) : Prop where
  born : c.pc ≠ .unborn → c'.pc ≠ .unborn
  pending : c.shutdownPending = true → c'.shutdownPending = true
  ended : c.pc = .ended → c'.pc = .ended

/-- What a step of the thread of a component can do. -/
inductive ComponentThread.Moves (settings : ListenerSettings) (c : ComponentThread) :
    ComponentThread → Prop
  | givesUp (ec : Int) (hpc : c.pc = .running) : Moves settings c { c with pc := .sending ec settings.order }
  | ends (hpc : c.pc = .running) (hpending : c.shutdownPending = true) :
    Moves settings c { c with pc := .ended }
  | sent (ec : Int) (hpc : c.pc = .sending ec []) : Moves settings c { c with pc := .ended }
  | told (ec : Int) (subscriber : StartupSubscriber) (left : List StartupSubscriber)
    (hpc : c.pc = .sending ec (subscriber :: left)) : Moves settings c { c with pc := .sending ec left }

/-- Nothing is lost if nothing changes. -/
theorem ServerListener.Later.refl (l : ServerListener) : l.Later l := ⟨id, id, id, id⟩

/-- Nothing is lost if nothing changes. -/
theorem ComponentThread.Later.refl (c : ComponentThread) : c.Later c := ⟨id, id, id⟩

/-- A step of a listener keeps that. -/
theorem ServerListener.Moves.later {settings : ListenerSettings} {l l' : ServerListener}
    (h : l.Moves settings l') : l.Later l' := by
  have hmoved {pc : ServerListenerPc} {trace : List ListenerEvent} (hborn : pc ≠ .unborn)
      (hnot : l.pc ≠ .returned) : l.Later { l with pc, trace } :=
    ⟨fun _ => hborn, id, id, fun hpc => absurd hpc hnot⟩
  cases h with
  | option fd option trace hpc => cases option <;> exact hmoved nofun (by rw [hpc]; exact nofun)
  | givesUp fd ec trace hmay =>
    refine hmoved nofun fun hpc => ?_
    rw [hpc] at hmay
    contradiction
  | sent fd message hpc =>
    refine hmoved ?_ (by rw [hpc]; exact nofun)
    cases message with
    | startup message => cases message <;> exact nofun
    | startupContinue | newClient => exact nofun
  | idle fd trace hpc =>
    refine hmoved nofun ?_
    rcases hpc with hpc | hpc <;> rw [hpc] <;> exact nofun
  | socket _ _ hpc | bound _ _ hpc | ready _ _ hpc | told _ _ _ _ hpc | allowed _ hpc | polls _ hpc
  | leaves _ hpc | interrupted _ _ hpc | arrived _ _ hpc | accepted _ _ _ hpc | created _ _ _ _ hpc
  | closed _ _ hpc => exact hmoved nofun (by rw [hpc]; exact nofun)

/-- A step of a component keeps that. -/
theorem ComponentThread.Moves.later {settings : ListenerSettings} {c c' : ComponentThread}
    (h : c.Moves settings c') : c.Later c' := by
  have hmoved {pc : ComponentPc} (hborn : pc ≠ .unborn) (hnot : c.pc ≠ .ended) :
      c.Later { c with pc } :=
    ⟨fun _ => hborn, id, fun hpc => absurd hpc hnot⟩
  cases h with
  | givesUp _ hpc | ends hpc _ | sent _ hpc | told _ _ _ hpc =>
    exact hmoved nofun (by rw [hpc]; exact nofun)

/-- All listeners have their threads, and `StartupContinueMessage` is still to be sent. -/
def LifePc.isPrepared : LifePc → Bool
  | .signals | .first (.startListener _) => false
  | pc => pc.isEarly

/-- The next step of `main` starts a thread. -/
def LifePc.startsThread : LifePc → Bool
  | .first (.startListener _) | .startup _ => true
  | _ => false

/-- Where all listeners have their threads, `main` starts none. -/
theorem LifePc.startsThread_of_isPrepared {pc : LifePc} (h : pc.isPrepared = true) :
    pc.startsThread = false := by
  cases pc with
  | first pc =>
    cases pc with
    | startListener i => contradiction
    | _ => rfl
  | startup component => contradiction
  | _ => rfl

/-- Behind the blocks of the first stage, all listeners have their threads. -/
theorem LifePc.isPrepared_next (call : PrivilegedCall) :
    (LifePc.ofStartup call.next).isPrepared = true := by
  cases call <;> rfl

namespace Program

variable {m : MainState} {settings : ListenerSettings} {s s' : Program}

/-- What a step of `main` can do. -/
inductive MainMoves (m : MainState) (settings : ListenerSettings) (s : Program) : Program → Prop
  | masks (pc : LifePc) (hpc : s.pc = .signals) (hnext : pc = .returned 1 ∨ pc = .first (.startListener 0)) :
    MainMoves m settings s { s with pc }
  | starts (i : ℕ) (l : ServerListener) (hpc : s.pc = .first (.startListener i))
    (hi : s.listeners[i]? = some l) : MainMoves m settings s { s with
      listeners := s.listeners.set i { l with pc := .socket }
      pc := .first (.startListener (i + 1)) }
  | started (i : ℕ) (hpc : s.pc = .first (.startListener i)) (hi : s.listeners[i]? = none) :
    MainMoves m settings s { s with pc := .first .wait }
  | prepares (heard : Program) (pc : LifePc) (hpc : s.pc.isPrepared = true) (hpc' : pc.isPrepared = true)
    (hhears : s.Hears none heard) : MainMoves m settings s { heard with pc }
  | performs (call : PrivilegedCall) (ok : Bool) (pc : LifePc) (hpc : s.pc.isPrepared = true)
    (hpc' : pc.isPrepared = true) :
    MainMoves m settings s { s with pc, trace := s.trace ++ [.performed call ok] }
  | continues (hpc : s.pc.isPrepared = true) : MainMoves m settings s (s.continueStartup settings)
  | allows (subscriber : StartupSubscriber) (left : List StartupSubscriber)
    (hpc : s.pc = .continuing (subscriber :: left)) :
    MainMoves m settings s { s.visit none .startupContinue subscriber with pc := .continuing left }
  | allowed (hpc : s.pc = .continuing []) : MainMoves m settings s { s with pc := .startup .jobDispatcher }
  | begins (component : Component) (hpc : s.pc = .startup component) :
    MainMoves m settings s
      { s.setComponent component { s.components component with pc := .running } with
        pc := component.afterStartup }
  | waits (pc : LifePc) (hpc : s.pc = .sigtimedwait) (hnext : pc = .requestListener 0 ∨ pc = .check) :
    MainMoves m settings s { s with pc, trace := s.trace ++ [.waited] }
  | goesOn (hpc : s.pc = .check) (hflag : s.isShutdownRequested = false) :
    MainMoves m settings s { s with pc := .sigtimedwait }
  | leaves (hpc : s.pc = .check) (hflag : s.isShutdownRequested = true) :
    MainMoves m settings s { s with pc := .requestListener 0 }
  | requests (i : ℕ) (l : ServerListener) (hpc : s.pc = .requestListener i)
    (hi : s.listeners[i]? = some l) : MainMoves m settings s { s with
      listeners := s.listeners.set i { l with shutdownPending := true }
      pc := .requestListener (i + 1)
      trace := s.trace ++ [.told i] }
  | requested (i : ℕ) (hpc : s.pc = .requestListener i) (hi : s.listeners[i]? = none) :
    MainMoves m settings s { s with pc := .requestComponent .tcpCommService }
  | requestsComponent (component : Component) (hpc : s.pc = .requestComponent component) :
    MainMoves m settings s
      { s.setComponent component { s.components component with shutdownPending := true } with
        pc := component.afterRequest }
  | joins (i : ℕ) (l : ServerListener) (hpc : s.pc = .joinListener i) (hi : s.listeners[i]? = some l)
    (hl : l.pc = .returned) : MainMoves m settings s { s with pc := .joinListener (i + 1) }
  | joined (i : ℕ) (hpc : s.pc = .joinListener i) (hi : s.listeners[i]? = none) :
    MainMoves m settings s { s with pc := .joinComponent .tcpCommService }
  | joinsComponent (component : Component) (hpc : s.pc = .joinComponent component)
    (hended : (s.components component).pc = .ended) :
    MainMoves m settings s { s with pc := component.afterJoin }

/-- `main` goes on before the startup continues. -/
theorem MainMoves.goto {pc : LifePc} (hpc : s.pc.isPrepared = true) (hpc' : pc.isPrepared = true) :
    s.MainMoves m settings { s with pc } :=
  .prepares s pc hpc hpc' (.quiet s.startupHandler s.shutdownHandler rfl)

/-- `main` tells a subscriber of a failure before the startup continues. -/
theorem MainMoves.tells (subscriber : StartupSubscriber) {pc : LifePc} (hpc : s.pc.isPrepared = true)
    (hpc' : pc.isPrepared = true) :
    s.MainMoves m settings { s.visit none (.startup (.shutdown 1)) subscriber with pc } :=
  .prepares _ pc hpc hpc' (s.visit_startup none (.shutdown 1) subscriber)

/-- A step of `main` in the first stage does one of these things. -/
theorem first_moves {pc : StartupPc} (hpc : s.pc = .first pc) {result : Int} {error : ℕ}
    (hstep : s.mainStep m settings result error = some s') : s.MainMoves m settings s' := by
  cases pc with
  | startListener i =>
    simp only [mainStep, hpc] at hstep
    cases hi : s.listeners[i]? with
    | none =>
      simp only [hi, Option.some.injEq] at hstep
      subst hstep
      exact .started i hpc hi
    | some l =>
      simp only [hi, Option.some.injEq] at hstep
      subst hstep
      exact .starts i l hpc hi
  | wait =>
    simp only [mainStep, hpc] at hstep
    split_ifs at hstep
    cases hstep
    exact .goto (by rw [hpc]; rfl) rfl
  | guard call =>
    simp only [mainStep, hpc, Option.some.injEq] at hstep
    subst hstep
    refine .goto (by rw [hpc]; rfl) ?_
    split_ifs
    · rw [MainState.enterBlock]
      split_ifs <;> rfl
    · exact LifePc.isPrepared_next call
  | openNetNS =>
    simp only [mainStep, hpc, Option.some.injEq] at hstep
    subst hstep
    split_ifs <;> exact .goto (by rw [hpc]; rfl) rfl
  | recheck =>
    simp only [mainStep, hpc, Option.some.injEq] at hstep
    subst hstep
    split_ifs <;> exact .goto (by rw [hpc]; rfl) rfl
  | perform call =>
    simp only [mainStep, hpc, Option.some.injEq] at hstep
    subst hstep
    refine .performs call _ _ (by rw [hpc]; rfl) ?_
    split_ifs
    · rfl
    · exact LifePc.isPrepared_next call
  | sending call left =>
    cases left with
    | nil =>
      simp only [mainStep, hpc, Option.some.injEq] at hstep
      subst hstep
      exact .goto (by rw [hpc]; rfl) (LifePc.isPrepared_next call)
    | cons subscriber left =>
      simp only [mainStep, hpc, Option.some.injEq] at hstep
      subst hstep
      exact .tells subscriber (by rw [hpc]; rfl) rfl
  | secondStage =>
    simp only [mainStep, hpc] at hstep
    contradiction

/-- Every step of `main` does one of these things. -/
theorem mainStep_moves {result : Int} {error : ℕ}
    (hstep : s.mainStep m settings result error = some s') : s.MainMoves m settings s' := by
  cases hpc : s.pc with
  | signals =>
    simp only [mainStep, hpc, Option.some.injEq] at hstep
    subst hstep
    refine .masks _ hpc ?_
    split_ifs
    · exact .inl rfl
    · exact .inr rfl
  | first pc => exact first_moves hpc hstep
  | dns | addServ =>
    simp only [mainStep, hpc, Option.some.injEq] at hstep
    subst hstep
    split_ifs <;> exact .goto (by rw [hpc]; rfl) rfl
  | addServFailed left =>
    cases left with
    | nil =>
      simp only [mainStep, hpc, Option.some.injEq] at hstep
      subst hstep
      exact .goto (by rw [hpc]; rfl) rfl
    | cons subscriber left =>
      simp only [mainStep, hpc, Option.some.injEq] at hstep
      subst hstep
      exact .tells subscriber (by rw [hpc]; rfl) rfl
  | search | addSrch =>
    simp only [mainStep, hpc] at hstep
    split_ifs at hstep
    · cases hstep
      exact .goto (by rw [hpc]; rfl) rfl
    · cases hstep
      exact .continues (by rw [hpc]; rfl)
  | addSrchFailed left =>
    cases left with
    | nil =>
      simp only [mainStep, hpc, Option.some.injEq] at hstep
      subst hstep
      exact .continues (by rw [hpc]; rfl)
    | cons subscriber left =>
      simp only [mainStep, hpc, Option.some.injEq] at hstep
      subst hstep
      exact .tells subscriber (by rw [hpc]; rfl) rfl
  | continuing left =>
    cases left with
    | nil =>
      simp only [mainStep, hpc, Option.some.injEq] at hstep
      subst hstep
      exact .allowed hpc
    | cons subscriber left =>
      simp only [mainStep, hpc, Option.some.injEq] at hstep
      subst hstep
      exact .allows subscriber left hpc
  | startup component =>
    simp only [mainStep, hpc, Option.some.injEq] at hstep
    subst hstep
    exact .begins component hpc
  | sigtimedwait =>
    simp only [mainStep, hpc, Option.some.injEq] at hstep
    subst hstep
    refine .waits _ hpc ?_
    split_ifs
    · exact .inl rfl
    · exact .inr rfl
  | check =>
    simp only [mainStep, hpc, Option.some.injEq] at hstep
    subst hstep
    split_ifs with hflag
    · exact .leaves hpc hflag
    · exact .goesOn hpc ((Bool.not_eq_true _).mp hflag)
  | requestListener i =>
    simp only [mainStep, hpc] at hstep
    cases hi : s.listeners[i]? with
    | none =>
      simp only [hi, Option.some.injEq] at hstep
      subst hstep
      exact .requested i hpc hi
    | some l =>
      simp only [hi, Option.some.injEq] at hstep
      subst hstep
      exact .requests i l hpc hi
  | requestComponent component =>
    simp only [mainStep, hpc, Option.some.injEq] at hstep
    subst hstep
    exact .requestsComponent component hpc
  | joinListener i =>
    simp only [mainStep, hpc] at hstep
    cases hi : s.listeners[i]? with
    | none =>
      simp only [hi, Option.some.injEq] at hstep
      subst hstep
      exact .joined i hpc hi
    | some l =>
      simp only [hi] at hstep
      split_ifs at hstep with hl
      cases hstep
      exact .joins i l hpc hi hl
  | joinComponent component =>
    simp only [mainStep, hpc] at hstep
    split_ifs at hstep with hended
    cases hstep
    exact .joinsComponent component hpc hended
  | returned code =>
    simp only [mainStep, hpc] at hstep
    contradiction

/-- The component itself. -/
@[simp] theorem setComponent_self (s : Program) (component : Component) (thread : ComponentThread) :
    (s.setComponent component thread).components component = thread :=
  Function.update_self ..

/-- The other one. -/
theorem setComponent_of_ne (s : Program) {component other : Component} (thread : ComponentThread)
    (hne : other ≠ component) :
    (s.setComponent component thread).components other = s.components other :=
  Function.update_of_ne hne ..

/-- What the threads keep. -/
structure Later (s s' : Program) : Prop where
  length : s'.listeners.length = s.listeners.length
  listeners : ∀ (i : ℕ) (l' : ServerListener), s'.listeners[i]? = some l' →
    ∃ l : ServerListener, s.listeners[i]? = some l ∧ ServerListener.Later l l'
  components : ∀ component, (s.components component).Later (s'.components component)

namespace Later

/-- The threads stay as they are. -/
theorem same (hlisteners : s'.listeners = s.listeners) (hcomponents : s'.components = s.components) :
    s.Later s' := by
  refine ⟨by rw [hlisteners], fun i l' hi => ?_, fun component => ?_⟩
  · rw [hlisteners] at hi
    exact ⟨l', hi, .refl l'⟩
  · rw [hcomponents]
    exact .refl _

/-- A listener goes on. -/
theorem replace {i : ℕ} {l l' : ServerListener} (hi : s.listeners[i]? = some l) (hlater : l.Later l')
    (hlisteners : s'.listeners = s.listeners.set i l') (hcomponents : s'.components = s.components) :
    s.Later s' := by
  refine ⟨by rw [hlisteners, List.length_set], fun j k hj => ?_, fun component => ?_⟩
  · rw [hlisteners] at hj
    by_cases hij : i = j
    · subst hij
      rw [List.getElem?_set_self (List.getElem?_eq_some_iff.mp hi).1] at hj
      cases hj
      exact ⟨l, hi, hlater⟩
    · rw [List.getElem?_set_ne hij] at hj
      exact ⟨k, hj, .refl k⟩
  · rw [hcomponents]
    exact .refl _

/-- A component goes on. -/
theorem setComponent {component : Component} {thread : ComponentThread}
    (hlater : (s.components component).Later thread) : s.Later (s.setComponent component thread) := by
  refine ⟨rfl, fun i l' hi => ⟨l', hi, .refl l'⟩, fun other => ?_⟩
  by_cases hother : other = component
  · subst hother
    rwa [setComponent_self]
  · rw [setComponent_of_ne s thread hother]
    exact .refl _

end Later

/-- A listener that is allowed to go on keeps the rest. -/
theorem later_visit_continue (s : Program) (subscriber : StartupSubscriber) :
    s.Later (s.visit none .startupContinue subscriber) := by
  unfold visit
  split
  · cases subscriber with
    | listener i =>
      refine ⟨List.length_modify .., fun j l' hj => ?_, fun component => .refl _⟩
      rw [List.getElem?_modify] at hj
      obtain ⟨l, hl, rfl⟩ := Option.map_eq_some_iff.mp hj
      refine ⟨l, hl, ?_⟩
      split
      · exact ⟨id, fun _ => rfl, id, id⟩
      · exact .refl l
    | shutdownHandler | startupHandler | jobDispatcher => exact .same rfl rfl
  · exact .same rfl rfl

/-- The messages of the other threads stay as they are when the handlers hear something. -/
theorem Hears.others_eq {source : Option ℕ} (h : s.Hears source s') : s'.others = s.others := by
  cases h <;> rfl

/-- A listener takes its own place. -/
theorem ListenerMoves.replaces {i : ℕ} (h : s.ListenerMoves settings i s') :
    ∃ l l', s.listeners[i]? = some l ∧ l.Moves settings l' ∧ s'.listeners = s.listeners.set i l' ∧
      s'.components = s.components ∧ s'.others = s.others := by
  cases h with
  | tells l fd message subscriber left hi hpc =>
    have hhears := s.visit_startup (some i) message subscriber
    exact ⟨l, _, hi, .told fd (.startup message) subscriber left hpc, rfl, hhears.components_eq,
      hhears.others_eq⟩
  | announces l fd id left subscriber hi hpc =>
    exact ⟨l, _, hi, .told fd (.newClient id) subscriber left hpc, rfl, rfl, rfl⟩
  | moves l l' hi hmoves => exact ⟨l, l', hi, hmoves, rfl, rfl, rfl⟩

/-- So does a component, and the handlers may have heard something. -/
theorem componentStep_moves {component : Component} {error : Option ℕ}
    (hstep : s.componentStep settings component error = some s') :
    ∃ heard thread, s.Hears none heard ∧ (s.components component).Moves settings thread ∧
      s' = heard.setComponent component thread := by
  have hnothing : s.Hears none s := .quiet s.startupHandler s.shutdownHandler rfl
  simp only [componentStep] at hstep
  cases hpc : (s.components component).pc with
  | unborn | ended =>
    simp only [hpc] at hstep
    contradiction
  | running =>
    simp only [hpc] at hstep
    cases error with
    | some ec =>
      cases hstep
      exact ⟨s, _, hnothing, .givesUp ec hpc, rfl⟩
    | none =>
      simp only at hstep
      split_ifs at hstep with hpending
      cases hstep
      exact ⟨s, _, hnothing, .ends hpc hpending, rfl⟩
  | sending ec left =>
    cases left with
    | nil =>
      simp only [hpc, Option.some.injEq] at hstep
      subst hstep
      exact ⟨s, _, hnothing, .sent ec hpc, rfl⟩
    | cons subscriber left =>
      simp only [hpc, Option.some.injEq] at hstep
      subst hstep
      exact ⟨_, _, s.visit_startup none (.shutdown ec) subscriber, .told ec subscriber left hpc, rfl⟩

/-- Another thread has one subscriber less to tell. -/
theorem deliverStep_moves {k : ℕ} (hstep : s.deliverStep k = some s') :
    ∃ heard other news, s.Hears none heard ∧ s.others[k]? = some other ∧
      s' = { heard with others := replaceAt s.others k news } ∧
      (news = [] ∨ ∃ left, news = [{ other with left }] ∧ left.length < other.left.length) := by
  simp only [deliverStep, Option.map_eq_some_iff] at hstep
  obtain ⟨other, hk, rfl⟩ := hstep
  cases hleft : other.left with
  | nil =>
    exact ⟨s, other, [], .quiet s.startupHandler s.shutdownHandler rfl, hk, rfl, .inl rfl⟩
  | cons subscriber left =>
    exact ⟨_, other, _, s.visit_startup none (.shutdown other.ec) subscriber, hk, rfl,
      .inr ⟨left, rfl, by rw [hleft]; exact Nat.lt_succ_self _⟩⟩

/-- A step of `main` that starts no thread keeps what the threads keep. -/
theorem MainMoves.later (h : s.MainMoves m settings s') (hnone : s.pc.startsThread = false) :
    s.Later s' := by
  cases h with
  | starts _ _ hpc | started _ hpc | begins _ hpc =>
    rw [hpc] at hnone
    contradiction
  | masks | performs | continues | allowed | waits | goesOn | leaves | requested | joins | joined
  | joinsComponent => exact .same rfl rfl
  | prepares heard pc hpc hpc' hhears => exact .same hhears.listeners_eq hhears.components_eq
  | allows subscriber left hpc =>
    obtain ⟨hlength, hlisteners, hcomponents⟩ := s.later_visit_continue subscriber
    exact ⟨hlength, hlisteners, hcomponents⟩
  | requests i l hpc hi =>
    have htold : l.Later { l with shutdownPending := true } := ⟨id, id, fun _ => rfl, id⟩
    exact .replace hi htold rfl rfl
  | requestsComponent component hpc =>
    have htold : (s.components component).Later { s.components component with shutdownPending := true } :=
      ⟨id, fun _ => rfl, id⟩
    obtain ⟨hlength, hlisteners, hcomponents⟩ := Later.setComponent htold
    exact ⟨hlength, hlisteners, hcomponents⟩

/-- Who hears something first keeps the rest. -/
theorem Hears.later_trans {source : Option ℕ} {heard : Program} (h : s.Hears source heard)
    (hlater : heard.Later s') : s.Later s' := by
  obtain ⟨hlength, hlisteners, hcomponents⟩ := hlater
  rw [h.listeners_eq] at hlength hlisteners
  rw [h.components_eq] at hcomponents
  exact ⟨hlength, hlisteners, hcomponents⟩

/-- So does a step of any other thread. -/
theorem later_outside (hgating : s.Gating) {a : ProgramAction} (ha : ∀ result error, a ≠ .main result error)
    (hstep : s.step m settings a = some s') : s.Later s' := by
  cases a with
  | main result error => exact absurd rfl (ha result error)
  | listener i result error =>
    obtain ⟨l, l', hi, hmoves, hlisteners, hcomponents, -⟩ :=
      (listenerStep_moves hgating hstep).replaces
    exact .replace hi hmoves.later hlisteners hcomponents
  | component component error =>
    obtain ⟨heard, thread, hhears, hmoves, rfl⟩ := componentStep_moves hstep
    refine hhears.later_trans (.setComponent ?_)
    rw [hhears.components_eq]
    exact hmoves.later
  | other ec =>
    simp only [step] at hstep
    split_ifs at hstep
    cases hstep
    exact .same rfl rfl
  | deliver k =>
    obtain ⟨heard, other, news, hhears, -, rfl, -⟩ := deliverStep_moves hstep
    exact .same hhears.listeners_eq hhears.components_eq

end Program

/-- What `main` has done on its way. -/
inductive Milestone
  /-- `Startup` of this listener -/
  | started (i : ℕ)
  /-- this listener is told to continue -/
  | allowed (i : ℕ)
  | begun (component : Component)
  /-- `RequestShutdown` of this listener -/
  | told (i : ℕ)
  | toldComponent (component : Component)
  /-- `Shutdown` of this listener -/
  | joined (i : ℕ)
  | joinedComponent (component : Component)

/-- `main` has done that when it is here. -/
def Milestone.passed (pc : LifePc) : Milestone → Prop
  | .started i =>
    match pc with
    | .signals => False
    | .first (.startListener j) => i < j
    | .returned code => code = 0
    | _ => True
  | .allowed i =>
    match pc with
    | .continuing left => .listener i ∉ left
    | .returned code => code = 0
    | pc => pc.isEarly = false
  | .begun component =>
    match pc with
    | .startup next => component = .jobDispatcher ∧ next = .tcpCommService
    | .returned code => code = 0
    | .continuing _ => False
    | pc => pc.isEarly = false
  | .told i =>
    match pc with
    | .requestListener j => i < j
    | .requestComponent _ | .joinListener _ | .joinComponent _ => True
    | .returned code => code = 0
    | _ => False
  | .toldComponent component =>
    match pc with
    | .requestComponent next => component = .tcpCommService ∧ next = .jobDispatcher
    | .joinListener _ | .joinComponent _ => True
    | .returned code => code = 0
    | _ => False
  | .joined i =>
    match pc with
    | .joinListener j => i < j
    | .joinComponent _ => True
    | .returned code => code = 0
    | _ => False
  | .joinedComponent component =>
    match pc with
    | .joinComponent next => component = .tcpCommService ∧ next = .jobDispatcher
    | .returned code => code = 0
    | _ => False

/-- Before the startup continues, only the listeners are started. -/
theorem Milestone.passed_of_isPrepared {pc : LifePc} (hpc : pc.isPrepared = true) (milestone : Milestone) :
    milestone.passed pc ↔ ∃ i, milestone = .started i := by
  cases pc with
  | first pc => cases pc <;> cases milestone <;> first | contradiction | simp [passed, LifePc.isEarly]
  | _ => cases milestone <;> first | contradiction | simp [passed, LifePc.isEarly]

namespace Program

variable {m : MainState} {settings : ListenerSettings} {s s' : Program}

/-- And this is what comes of it. -/
def Met (order : List StartupSubscriber) (s : Program) : Milestone → Prop
  | .started i => ∀ l : ServerListener, s.listeners[i]? = some l → l.pc ≠ .unborn
  | .allowed i =>
    .listener i ∈ order → ∀ l : ServerListener, s.listeners[i]? = some l → l.startupAllowed = true
  | .begun component => (s.components component).pc ≠ .unborn
  | .told i => ∀ l : ServerListener, s.listeners[i]? = some l → l.shutdownPending = true
  | .toldComponent component => (s.components component).shutdownPending = true
  | .joined i => ∀ l : ServerListener, s.listeners[i]? = some l → l.pc = .returned
  | .joinedComponent component => (s.components component).pc = .ended

/-- That lasts. -/
theorem Later.met {order : List StartupSubscriber} (h : s.Later s') {milestone : Milestone}
    (hmet : s.Met order milestone) : s'.Met order milestone := by
  cases milestone with
  | started i =>
    intro l' hi
    obtain ⟨l, hl, hlater⟩ := h.listeners i l' hi
    exact hlater.born (hmet l hl)
  | allowed i =>
    intro horder l' hi
    obtain ⟨l, hl, hlater⟩ := h.listeners i l' hi
    exact hlater.allowed (hmet horder l hl)
  | told i =>
    intro l' hi
    obtain ⟨l, hl, hlater⟩ := h.listeners i l' hi
    exact hlater.pending (hmet l hl)
  | joined i =>
    intro l' hi
    obtain ⟨l, hl, hlater⟩ := h.listeners i l' hi
    exact hlater.returned (hmet l hl)
  | begun component => exact (h.components component).born hmet
  | toldComponent component => exact (h.components component).pending hmet
  | joinedComponent component => exact (h.components component).ended hmet

/-- What `main` has done has come to be. -/
def Phased (order : List StartupSubscriber) (s : Program) : Prop :=
  ∀ milestone : Milestone, milestone.passed s.pc → s.Met order milestone

namespace Phased

variable {order : List StartupSubscriber}

/-- `main` stays where it is. -/
theorem later (h : s.Phased order) (hlater : s.Later s') (hpc : s'.pc = s.pc) : s'.Phased order := by
  intro milestone hpassed
  rw [hpc] at hpassed
  exact hlater.met (h milestone hpassed)

/-- `main` goes on. -/
theorem goto (h : s.Phased order) (hlater : s.Later s')
    (hnew : ∀ milestone : Milestone, milestone.passed s'.pc →
      milestone.passed s.pc ∨ s'.Met order milestone) : s'.Phased order := by
  intro milestone hpassed
  exact (hnew milestone hpassed).elim (fun hold => hlater.met (h milestone hold)) id

/-- A listener that is not there is not in the way. -/
theorem met_of_none {i j : ℕ} (hi : s.listeners[i]? = none) (hij : i ≤ j) : s.listeners[j]? = none := by
  rw [List.getElem?_eq_none_iff] at hi ⊢
  exact hi.trans hij

/-- The next step of `main`. -/
theorem mainMoves (h : s.Phased settings.order) (hmoves : s.MainMoves m settings s') :
    s'.Phased settings.order := by
  have hcases := hmoves
  cases hcases with
  | masks pc hpc hnext =>
    intro milestone hpassed
    rcases hnext with rfl | rfl <;> cases milestone <;> simp [Milestone.passed, LifePc.isEarly] at hpassed
  | starts i l hpc hi =>
    intro milestone hpassed
    cases milestone with
    | started j =>
      intro l' hj
      by_cases hij : i = j
      · subst hij
        rw [List.getElem?_set_self (List.getElem?_eq_some_iff.mp hi).1] at hj
        cases hj
        exact nofun
      · rw [List.getElem?_set_ne hij] at hj
        have hbefore : j < i := Nat.lt_of_le_of_ne (Nat.le_of_lt_succ hpassed) (Ne.symm hij)
        refine h (.started j) ?_ l' hj
        rw [hpc]
        exact hbefore
    | _ => simp [Milestone.passed, LifePc.isEarly] at hpassed
  | started i hpc hi =>
    intro milestone hpassed
    cases milestone with
    | started j =>
      intro l' hj
      rcases Nat.lt_or_ge j i with hbefore | hbehind
      · refine h (.started j) ?_ l' hj
        rw [hpc]
        exact hbefore
      · exact absurd hj (by rw [met_of_none hi hbehind]; exact nofun)
    | _ => simp [Milestone.passed, LifePc.isEarly] at hpassed
  | begins component hpc =>
    intro milestone hpassed
    have hlisteners (μ : Milestone) (hμ : μ.passed s.pc) : s.Met settings.order μ := h μ hμ
    rw [hpc] at hlisteners
    cases milestone with
    | started i => exact hlisteners (.started i) trivial
    | allowed i => exact hlisteners (.allowed i) rfl
    | begun other =>
      by_cases hother : other = component
      · subst hother
        rw [Met, setComponent_self]
        exact nofun
      · rw [Met, setComponent_of_ne s _ hother]
        cases component with
        | jobDispatcher => exact absurd hpassed.1 hother
        | tcpCommService =>
          refine hlisteners (.begun other) ⟨?_, rfl⟩
          cases other with
          | jobDispatcher => rfl
          | tcpCommService => exact absurd rfl hother
    | told | toldComponent | joined | joinedComponent => cases component <;> contradiction
  | prepares _ _ hpc hpc' | performs _ _ _ hpc hpc' =>
    have hlater : s.Later _ := hmoves.later (LifePc.startsThread_of_isPrepared hpc)
    refine h.goto hlater fun milestone hpassed => ?_
    rw [milestone.passed_of_isPrepared hpc'] at hpassed
    exact .inl ((milestone.passed_of_isPrepared hpc).mpr hpassed)
  | continues hpc =>
    have hlater : s.Later _ := hmoves.later (LifePc.startsThread_of_isPrepared hpc)
    refine h.goto hlater fun milestone hpassed => ?_
    cases milestone with
    | started i => exact .inl ((Milestone.passed_of_isPrepared hpc _).mpr ⟨i, rfl⟩)
    | allowed i => exact .inr fun horder => absurd horder hpassed
    | _ => contradiction
  | allows subscriber left hpc =>
    refine h.goto (hmoves.later (by rw [hpc]; rfl)) ?_
    intro milestone hpassed
    rw [hpc]
    cases milestone with
    | started i => exact .inl trivial
    | allowed i =>
      by_cases hi : .listener i = subscriber
      · subst hi
        refine .inr fun _ l hl => ?_
        have hmodified : (s.listeners.modify i ServerListener.onMessage)[i]? = some l := hl
        rw [List.getElem?_modify_eq] at hmodified
        obtain ⟨k, -, rfl⟩ := Option.map_eq_some_iff.mp hmodified
        rfl
      · exact .inl (List.not_mem_cons_of_ne_of_not_mem hi hpassed)
    | _ => contradiction
  | allowed hpc =>
    refine h.goto (hmoves.later (by rw [hpc]; rfl)) ?_
    intro milestone hpassed
    rw [hpc]
    cases milestone with
    | started i => exact .inl trivial
    | allowed i => exact .inl List.not_mem_nil
    | begun component => exact absurd hpassed.2 nofun
    | _ => contradiction
  | waits pc hpc hnext =>
    refine h.goto (hmoves.later (by rw [hpc]; rfl)) ?_
    intro milestone hpassed
    rw [hpc]
    cases milestone with
    | started i => exact .inl trivial
    | allowed i | begun component => exact .inl rfl
    | _ => rcases hnext with rfl | rfl <;> contradiction
  | goesOn hpc | leaves hpc =>
    refine h.goto (hmoves.later (by rw [hpc]; rfl)) ?_
    intro milestone hpassed
    rw [hpc]
    cases milestone with
    | started i => exact .inl trivial
    | allowed i | begun component => exact .inl rfl
    | _ => contradiction
  | requests i l hpc hi =>
    refine h.goto (hmoves.later (by rw [hpc]; rfl)) ?_
    intro milestone hpassed
    rw [hpc]
    cases milestone with
    | started j => exact .inl trivial
    | allowed j | begun component => exact .inl rfl
    | told j =>
      rcases Nat.lt_succ_iff_lt_or_eq.mp hpassed with hbefore | rfl
      · exact .inl hbefore
      · refine .inr fun l' hj => ?_
        rw [List.getElem?_set_self (List.getElem?_eq_some_iff.mp hi).1] at hj
        cases hj
        rfl
    | _ => contradiction
  | requested i hpc hi =>
    refine h.goto (hmoves.later (by rw [hpc]; rfl)) ?_
    intro milestone hpassed
    rw [hpc]
    cases milestone with
    | started j => exact .inl trivial
    | allowed j | begun component => exact .inl rfl
    | told j =>
      rcases Nat.lt_or_ge j i with hbefore | hbehind
      · exact .inl hbefore
      · exact .inr fun l' hj => absurd hj (by rw [met_of_none hi hbehind]; exact nofun)
    | toldComponent component => exact absurd hpassed.2 nofun
    | _ => contradiction
  | requestsComponent component hpc =>
    refine h.goto (hmoves.later (by rw [hpc]; rfl)) ?_
    intro milestone hpassed
    rw [hpc]
    cases milestone with
    | started j => exact .inl trivial
    | allowed j | begun other => exact .inl rfl
    | told j => exact .inl trivial
    | toldComponent other =>
      by_cases hother : other = component
      · subst hother
        refine .inr ?_
        rw [Met, setComponent_self]
      · refine .inl ?_
        cases component with
        | tcpCommService => exact absurd hpassed.1 hother
        | jobDispatcher =>
          cases other with
          | tcpCommService => exact ⟨rfl, rfl⟩
          | jobDispatcher => exact absurd rfl hother
    | joined j =>
      cases component with
      | tcpCommService => contradiction
      | jobDispatcher => exact absurd hpassed (Nat.not_lt_zero j)
    | joinedComponent other => cases component <;> contradiction
  | joins i l hpc hi hl =>
    refine h.goto (hmoves.later (by rw [hpc]; rfl)) ?_
    intro milestone hpassed
    rw [hpc]
    cases milestone with
    | started j => exact .inl trivial
    | allowed j | begun other => exact .inl rfl
    | told j | toldComponent other => exact .inl trivial
    | joined j =>
      rcases Nat.lt_succ_iff_lt_or_eq.mp hpassed with hbefore | rfl
      · exact .inl hbefore
      · refine .inr fun l' hj => ?_
        rw [hi] at hj
        cases hj
        exact hl
    | joinedComponent other => contradiction
  | joined i hpc hi =>
    refine h.goto (hmoves.later (by rw [hpc]; rfl)) ?_
    intro milestone hpassed
    rw [hpc]
    cases milestone with
    | started j => exact .inl trivial
    | allowed j | begun other => exact .inl rfl
    | told j | toldComponent other => exact .inl trivial
    | joined j =>
      rcases Nat.lt_or_ge j i with hbefore | hbehind
      · exact .inl hbefore
      · exact .inr fun l' hj => absurd hj (by rw [met_of_none hi hbehind]; exact nofun)
    | joinedComponent other => exact absurd hpassed.2 nofun
  | joinsComponent component hpc hended =>
    refine h.goto (hmoves.later (by rw [hpc]; rfl)) ?_
    intro milestone hpassed
    rw [hpc]
    cases milestone with
    | started j => exact .inl trivial
    | allowed j | begun other => exact .inl rfl
    | told j | toldComponent other | joined j => exact .inl trivial
    | joinedComponent other =>
      by_cases hother : other = component
      · subst hother
        exact .inr hended
      · refine .inl ?_
        cases component with
        | tcpCommService => exact absurd hpassed.1 hother
        | jobDispatcher =>
          cases other with
          | tcpCommService => exact ⟨rfl, rfl⟩
          | jobDispatcher => exact absurd rfl hother

/-- One step. -/
theorem step (h : s.Phased settings.order) (hgating : s.Gating) {a : ProgramAction}
    (hstep : s.step m settings a = some s') : s'.Phased settings.order := by
  by_cases ha : ∃ result error, a = .main result error
  · obtain ⟨result, error, rfl⟩ := ha
    exact h.mainMoves (mainStep_moves hstep)
  · have hnot (result : Int) (error : ℕ) : a ≠ .main result error := fun heq => ha ⟨result, error, heq⟩
    exact h.later (later_outside hgating hnot hstep) (outside hgating hnot hstep).1

/-- Nothing is done at the start. -/
theorem initial (m : MainState) : (Program.initial m).Phased order := by
  intro milestone hpassed
  cases milestone <;> contradiction

end Phased

/-- The number of listeners stays as it is. -/
theorem length_of_step (hgating : s.Gating) {a : ProgramAction} (hstep : s.step m settings a = some s') :
    s'.listeners.length = s.listeners.length := by
  by_cases ha : ∃ result error, a = .main result error
  · obtain ⟨result, error, rfl⟩ := ha
    have hmoves : s.MainMoves m settings s' := mainStep_moves hstep
    cases hmoves with
    | starts | requests => exact List.length_set ..
    | prepares _ _ _ _ hhears => exact congrArg List.length hhears.listeners_eq
    | allows subscriber => exact (s.later_visit_continue subscriber).length
    | _ => rfl
  · exact (later_outside hgating (fun result error heq => ha ⟨result, error, heq⟩) hstep).length

/-- Nobody has done anything before `main` has masked the signals. -/
structure Masking (m : MainState) (s : Program) : Prop where
  before : s.pc = .signals → s = initial m
  failed : ∀ code, code ≠ 0 → s.pc = .returned code → s = { initial m with pc := .returned 1 }

/-- No other thread can make a step at that time. -/
theorem step_initial {pc : LifePc} (hpc : pc.isSecond = false) {a : ProgramAction}
    (ha : ∀ result error, a ≠ .main result error) :
    Program.step m settings { initial m with pc } a = none := by
  cases a with
  | main result error => exact absurd rfl (ha result error)
  | listener i result error =>
    simp only [step, listenerStep, initial, List.getElem?_map]
    cases m.config.listenAddrs[i]? <;> rfl
  | component component error => rfl
  | other ec => exact if_neg (by rw [hpc]; exact Bool.false_ne_true)
  | deliver k => rfl

namespace Masking

/-- Every step keeps that. -/
theorem step (h : s.Masking m) (hgating : s.Gating) {a : ProgramAction}
    (hstep : s.step m settings a = some s') : s'.Masking m := by
  by_cases ha : ∃ result error, a = .main result error
  · obtain ⟨result, error, rfl⟩ := ha
    have hmoves : s.MainMoves m settings s' := mainStep_moves hstep
    cases hmoves with
    | masks pc hpc hnext =>
      rcases hnext with rfl | rfl
      · refine ⟨nofun, fun code hcode heq => ?_⟩
        rw [h.before hpc]
      · exact ⟨nofun, nofun⟩
    | prepares _ pc _ hpc' | performs _ _ pc _ hpc' =>
      constructor
      · intro heq
        obtain rfl : pc = .signals := heq
        contradiction
      · intro code hcode heq
        obtain rfl : pc = .returned code := heq
        contradiction
    | begins component => cases component <;> exact ⟨nofun, nofun⟩
    | waits pc _ hnext => rcases hnext with rfl | rfl <;> exact ⟨nofun, nofun⟩
    | requestsComponent component => cases component <;> exact ⟨nofun, nofun⟩
    | joinsComponent component =>
      cases component with
      | tcpCommService => exact ⟨nofun, nofun⟩
      | jobDispatcher =>
        refine ⟨nofun, fun code hcode heq => ?_⟩
        cases heq
        exact absurd rfl hcode
    | _ => exact ⟨nofun, nofun⟩
  · have hnot (result : Int) (error : ℕ) : a ≠ .main result error := fun heq => ha ⟨result, error, heq⟩
    have hsame := (outside hgating hnot hstep).1
    constructor
    · intro hpc
      have hold : s = { initial m with pc := .signals } := h.before (hsame ▸ hpc)
      rw [hold, step_initial rfl hnot] at hstep
      contradiction
    · intro code hcode hpc
      have hold := h.failed code hcode (hsame ▸ hpc)
      rw [hold, step_initial rfl hnot] at hstep
      contradiction

/-- It holds at the start. -/
theorem initial (m : MainState) : (Program.initial m).Masking m := ⟨fun _ => rfl, nofun⟩

end Masking

/-- All threads have ended. -/
structure Over (s : Program) : Prop where
  listeners : ∀ l ∈ s.listeners, l.pc = .returned
  components : ∀ component, (s.components component).pc = .ended

/-- What holds of the threads while the program runs. -/
theorem phased_of_run {actions : List ProgramAction}
    (hrun : runActions (step m settings) (initial m) actions = some s) :
    s.Gating ∧ s.Phased settings.order ∧ s.Masking m := by
  have hstep : ∀ (u : Program) (a : ProgramAction) (u' : Program),
      u.Gating ∧ u.Phased settings.order ∧ u.Masking m → u.step m settings a = some u' →
        u'.Gating ∧ u'.Phased settings.order ∧ u'.Masking m := by
    rintro u a u' ⟨hgating, hphased, hmasking⟩ hstep
    exact ⟨hgating.step hstep, hphased.step hgating hstep, hmasking.step hgating hstep⟩
  exact runActions_invariant hstep ⟨Gating.initial m, Phased.initial m, Masking.initial m⟩ hrun

/-- `main` returns 0 when the threads of all listeners and components have ended, in every run, and it
returns 1 if the mask of the signals has failed, when no thread was started. -/
theorem returns_last {actions : List ProgramAction} {code : Int}
    (hrun : runActions (step m settings) (initial m) actions = some s) (hpc : s.pc = .returned code) :
    code = 0 ∧ s.Over ∨ code = 1 ∧ s = { initial m with pc := .returned 1 } := by
  obtain ⟨-, hphased, hmasking⟩ := phased_of_run hrun
  by_cases hcode : code = 0
  · refine .inl ⟨hcode, fun l hl => ?_, fun component => ?_⟩
    · obtain ⟨i, hi⟩ := List.mem_iff_getElem?.mp hl
      refine hphased (.joined i) ?_ l hi
      rw [hpc]
      exact hcode
    · refine hphased (.joinedComponent component) ?_
      rw [hpc]
      exact hcode
  · have hfailed := hmasking.failed code hcode hpc
    refine .inr ⟨?_, hfailed⟩
    rw [hfailed] at hpc
    cases hpc
    rfl

/-- A signal arrives, `main` tells all threads to end, and they end. -/
def shutsDown : List ProgramAction :=
  startsUp ++ [.main 15 0] ++ List.replicate 4 (.main 0 0) ++ List.replicate 3 (.listener 0 0 0) ++
    [.component .tcpCommService none, .component .jobDispatcher none] ++ List.replicate 4 (.main 0 0)

/-- `main` returns 0, and all threads have ended. -/
theorem returns_last_shutsDown :
    ∃ s, runActions (step StartupGate.directoryMain directorySettings)
        (initial StartupGate.directoryMain) shutsDown = some s ∧ s.pc = .returned 0 ∧
      ((0 : Int) = 0 ∧ s.Over ∨
        (0 : Int) = 1 ∧ s = { initial StartupGate.directoryMain with pc := .returned 1 }) := by
  have hsome : (runActions (step StartupGate.directoryMain directorySettings)
    (initial StartupGate.directoryMain) shutsDown).isSome = true := rfl
  have hrun := (Option.some_get hsome).symm
  exact ⟨_, hrun, rfl, returns_last hrun rfl⟩

end Program

end TinySox
