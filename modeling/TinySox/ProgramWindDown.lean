import TinySox.ProgramPhases

/-!
# How the program comes to its end

Once a shutdown is requested, `sigtimedwait` returns at most once more, and once a listener is told to
end, it accepts at most one more client. When `main` has told all threads, the work that is left is
bounded, and nobody can get stuck before all threads have ended and `main` has returned, provided that
the loops of the service and of the dispatcher come to their ends. The dispatcher's does when the jobs
of its workers return.

Threads that are not joined at that place may still report failures, as often as they like. Such a
report costs a bounded number of steps, so the bound grows with their number.
-/

namespace TinySox

open TinySox.Common

/-- `sigtimedwait` may return that often after a request. -/
def LifePc.waitsLeft : LifePc → ℕ
  | .signals | .first _ | .dns | .addServ | .addServFailed _ | .search | .addSrch | .addSrchFailed _
  | .continuing _ | .startup _ | .sigtimedwait => 1
  | .check | .requestListener _ | .requestComponent _ | .joinListener _ | .joinComponent _
  | .returned _ => 0

/-- That many clients may be accepted before the flag is read again. -/
def ServerListenerPc.acceptsLeft : ServerListenerPc → ℕ
  | .poll _ | .accept _ => 1
  | .unborn | .socket | .setsockopt _ _ | .bind _ | .listen _ | .sending _ _ _ | .waiting _ | .loop _
  | .create _ _ | .close _ | .returned => 0

/-- This listener has accepted a client. -/
def LifeEvent.isAccepted (i : ℕ) : LifeEvent → Bool
  | .accepted j _ => i = j
  | _ => false

/-- It is one client at most. -/
theorem ServerListenerPc.acceptsLeft_le (pc : ServerListenerPc) : pc.acceptsLeft ≤ 1 := by
  cases pc <;> simp [acceptsLeft]

/-- It is one wait at most. -/
theorem LifePc.waitsLeft_le (pc : LifePc) : pc.waitsLeft ≤ 1 := by
  cases pc <;> simp [waitsLeft]

/-- Before the startup continues, `main` still comes to `sigtimedwait`. -/
theorem LifePc.waitsLeft_of_isPrepared {pc : LifePc} (hpc : pc.isPrepared = true) : pc.waitsLeft = 1 := by
  cases pc <;> first | rfl | contradiction

/-- A listener that is told to end accepts no client unless it was on its way to it. -/
theorem ServerListener.Moves.acceptsLeft {settings : ListenerSettings} {l l' : ServerListener} {i : ℕ}
    (h : l.Moves settings l') (hpending : l.shutdownPending = true) :
    l'.pc.acceptsLeft + (listenerEvents i l.pc l'.pc).countP (LifeEvent.isAccepted i) ≤
      l.pc.acceptsLeft := by
  cases h with
  | polls fd hpc hnot =>
    rw [hpending] at hnot
    contradiction
  | option fd option trace hpc =>
    cases option <;> simp [hpc, listenerEvents, ListenOption.next, ServerListenerPc.acceptsLeft]
  | sent fd message hpc =>
    rw [hpc]
    cases message with
    | startup message => cases message <;> exact Nat.le_refl 0
    | startupContinue | newClient => exact Nat.le_refl 0
  | givesUp fd ec trace hmay =>
    cases hpc : l.pc <;> rw [hpc] at hmay <;>
      first | contradiction | simp [listenerEvents, ServerListenerPc.acceptsLeft, LifeEvent.isAccepted]
  | idle fd trace hpc => rcases hpc with hpc | hpc <;> simp [hpc, listenerEvents, ServerListenerPc.acceptsLeft]
  | socket _ _ hpc | bound _ _ hpc | ready _ _ hpc | told _ _ _ _ hpc | allowed _ hpc | leaves _ hpc
  | interrupted _ _ hpc | arrived _ _ hpc | accepted _ _ _ hpc | created _ _ _ _ hpc | closed _ _ hpc =>
    simp [hpc, listenerEvents, ServerListenerPc.acceptsLeft, LifeEvent.isAccepted]

/-- The most steps that a listener makes once it is allowed to go on and told to end, with that many
subscribers. -/
def ServerListenerPc.workLeft (k : ℕ) : ServerListenerPc → ℕ
  | .unborn | .returned => 0
  | .close _ => k + 2
  | .loop _ => k + 3
  | .waiting _ => k + 4
  | .create _ _ => 2 * k + 5
  | .accept _ => 2 * k + 6
  | .poll _ => 2 * k + 7
  | .listen _ => 2 * k + 6
  | .bind _ => 2 * k + 7
  | .setsockopt _ .linger => 2 * k + 8
  | .setsockopt _ .reusePort => 2 * k + 9
  | .setsockopt _ .reuseAddr => 2 * k + 10
  | .socket => 2 * k + 11
  | .sending _ (.startup .startupReady) left => k + 5 + left.length
  | .sending _ (.newClient _) left => k + 4 + left.length
  | .sending _ (.startup (.shutdown _)) left | .sending _ .startupContinue left => left.length + 1

/-- The same of the thread of a component. -/
def ComponentPc.workLeft (k : ℕ) : ComponentPc → ℕ
  | .unborn | .ended => 0
  | .running => k + 2
  | .sending _ left => left.length + 1

/-- The steps of `main` behind its requests, with that many listeners. -/
def LifePc.workLeft (n : ℕ) : LifePc → ℕ
  | .joinListener i => n - i + 3
  | .joinComponent .tcpCommService => 2
  | .joinComponent .jobDispatcher => 1
  | _ => 0

/-- `main` has told all threads to end. -/
def LifePc.isClosing : LifePc → Bool
  | .joinListener _ | .joinComponent _ => true
  | .returned code => code = 0
  | .signals | .first _ | .dns | .addServ | .addServFailed _ | .search | .addSrch | .addSrchFailed _
  | .continuing _ | .startup _ | .sigtimedwait | .check | .requestListener _ | .requestComponent _ => false

/-- A thread besides those that are joined begins to send a message. -/
def ProgramAction.isOther : ProgramAction → Bool
  | .other _ => true
  | .main _ _ | .listener _ _ _ | .component _ _ | .deliver _ => false

/-- All threads are started, allowed to go on and told to end when `main` joins them. -/
theorem Milestone.passed_of_isClosing {pc : LifePc} (hpc : pc.isClosing = true) {milestone : Milestone}
    (hlistener : ∀ i, milestone ≠ .joined i) (hcomponent : ∀ component, milestone ≠ .joinedComponent component) :
    milestone.passed pc := by
  cases pc with
  | joinListener | joinComponent =>
    cases milestone with
    | started | told | toldComponent => trivial
    | allowed | begun => rfl
    | joined i => exact absurd rfl (hlistener i)
    | joinedComponent component => exact absurd rfl (hcomponent component)
  | returned code =>
    have hzero : code = 0 := of_decide_eq_true hpc
    cases milestone <;> exact hzero
  | _ => contradiction

/-- A listener that is told to end comes closer to it with each step. -/
theorem ServerListener.Moves.workLeft {settings : ListenerSettings} {l l' : ServerListener}
    (h : l.Moves settings l') (hpending : l.shutdownPending = true) :
    l'.pc.workLeft settings.order.length < l.pc.workLeft settings.order.length := by
  cases h with
  | polls fd hpc hnot =>
    rw [hpending] at hnot
    contradiction
  | option fd option trace hpc =>
    cases option <;> simp [hpc, ListenOption.next, ServerListenerPc.workLeft]
  | sent fd message hpc =>
    rw [hpc]
    cases message with
    | startup message => cases message <;> simp [ProgramMessage.next, ServerListenerPc.workLeft]
    | startupContinue | newClient => simp [ProgramMessage.next, ServerListenerPc.workLeft]
  | told fd message subscriber left hpc =>
    rw [hpc]
    cases message with
    | startup message => cases message <;> simp [ServerListenerPc.workLeft]
    | startupContinue | newClient => simp [ServerListenerPc.workLeft]
  | givesUp fd ec trace hmay =>
    cases hpc : l.pc with
    | setsockopt fd option =>
      cases option <;> simp only [ServerListenerPc.workLeft] <;> omega
    | socket | bind | listen | poll | create | close => simp only [ServerListenerPc.workLeft]; omega
    | unborn | sending | waiting | loop | accept | returned =>
      rw [hpc] at hmay
      contradiction
  | idle fd trace hpc =>
    rcases hpc with hpc | hpc <;> simp only [hpc, ServerListenerPc.workLeft] <;> omega
  | socket _ _ hpc | bound _ _ hpc | ready _ _ hpc | allowed _ hpc | leaves _ hpc | interrupted _ _ hpc
  | arrived _ _ hpc | accepted _ _ _ hpc | created _ _ _ _ hpc | closed _ _ hpc =>
    simp only [hpc, ServerListenerPc.workLeft]
    omega

/-- And it can go on until it has ended, if it is allowed to. -/
theorem ServerListener.workerStep_isSome (settings : ListenerSettings) (l : ServerListener)
    (hborn : l.pc ≠ .unborn) (hallowed : l.startupAllowed = true) (hnot : l.pc ≠ .returned) :
    (l.workerStep settings 0 0).isSome = true := by
  simp only [workerStep]
  cases hpc : l.pc with
  | unborn => exact absurd hpc hborn
  | returned => exact absurd hpc hnot
  | sending fd message left => cases left <;> rfl
  | waiting fd =>
    simp only [hallowed]
    rfl
  | loop | setsockopt | bind | close => rfl
  | socket | listen | poll | accept | create => simp only; split_ifs <;> rfl

/-- So does a component. -/
theorem ComponentThread.Moves.workLeft {settings : ListenerSettings} {c c' : ComponentThread}
    (h : c.Moves settings c') :
    c'.pc.workLeft settings.order.length < c.pc.workLeft settings.order.length := by
  cases h with
  | givesUp _ hpc | ends hpc | sent _ hpc | told _ _ _ hpc => simp [hpc, ComponentPc.workLeft]

namespace Program

variable {m : MainState} {settings : ListenerSettings} {s s' : Program}

/-- The same of a listener of the program. -/
def acceptsLeft (s : Program) (i : ℕ) : ℕ := (s.listeners[i]?.elim 0 fun l => l.pc.acceptsLeft)

/-- The first request ends the loop of `main` soon, and a listener that was told ends its own. -/
structure Reacts (s : Program) : Prop where
  flag : .requested ∈ s.trace → s.isShutdownRequested = true
  waits : CountedAfter .requested (· == .waited) 1 s.trace s.pc.waitsLeft
  pending : ∀ (i : ℕ) (l : ServerListener), .told i ∈ s.trace → s.listeners[i]? = some l →
    l.shutdownPending = true
  accepts : ∀ i, CountedAfter (.told i) (LifeEvent.isAccepted i) 1 s.trace (s.acceptsLeft i)

/-- A listener that is not allowed yet looks the same when it is. -/
theorem acceptsLeft_visit_continue (s : Program) (subscriber : StartupSubscriber) (i : ℕ) :
    (s.visit none .startupContinue subscriber).acceptsLeft i = s.acceptsLeft i := by
  unfold visit
  split
  · cases subscriber with
    | listener j =>
      simp only [acceptsLeft, List.getElem?_modify]
      cases s.listeners[i]? with
      | none => rfl
      | some l => by_cases hij : j = i <;> simp [hij, ServerListener.onMessage]
    | shutdownHandler | startupHandler | jobDispatcher => rfl
  · rfl

/-- One listener is replaced. -/
theorem acceptsLeft_set {i : ℕ} {l l' : ServerListener} (hi : s.listeners[i]? = some l)
    (hlisteners : s'.listeners = s.listeners.set i l') (j : ℕ) :
    s'.acceptsLeft j = if i = j then l'.pc.acceptsLeft else s.acceptsLeft j := by
  rw [acceptsLeft, hlisteners]
  split_ifs with hij
  · subst hij
    rw [List.getElem?_set_self (List.getElem?_eq_some_iff.mp hi).1]
    rfl
  · rw [List.getElem?_set_ne hij]
    rfl

/-- What happens when the handlers hear something is neither a wait, nor a listener that is told or
accepts a client. -/
theorem Hears.events {source : Option ℕ} (h : s.Hears source s') :
    ∃ events, s'.trace = s.trace ++ events ∧ (∀ i, .told i ∉ events) ∧
      ∀ i, events.countP (LifeEvent.isAccepted i) = 0 := by
  cases h with
  | quiet => exact ⟨[], (List.append_nil _).symm, by simp, by simp⟩
  | requested => exact ⟨[.requested], rfl, by simp, by simp [LifeEvent.isAccepted]⟩
  | ready _ i => exact ⟨[.ready i], rfl, by simp, by simp [LifeEvent.isAccepted]⟩

namespace Reacts

/-- A step that respects the counts. -/
theorem moved (h : s.Reacts) {events : List LifeEvent} (htrace : s'.trace = s.trace ++ events)
    (hflag : .requested ∈ s'.trace → s'.isShutdownRequested = true)
    (hwaits : CountedAfter .requested (· == .waited) 1 s'.trace s'.pc.waitsLeft)
    (hpending : ∀ (i : ℕ) (l' : ServerListener), s'.listeners[i]? = some l' →
      ∃ l : ServerListener, s.listeners[i]? = some l ∧
        (l.shutdownPending = true → l'.shutdownPending = true))
    (htold : ∀ i, .told i ∉ events)
    (hleft : ∀ i, (∀ l : ServerListener, s.listeners[i]? = some l → l.shutdownPending = true) →
      s'.acceptsLeft i + events.countP (LifeEvent.isAccepted i) ≤ s.acceptsLeft i) : s'.Reacts := by
  have hold (i : ℕ) (hmem : .told i ∈ s'.trace) : .told i ∈ s.trace := by
    rw [htrace] at hmem
    exact (List.mem_append.mp hmem).resolve_right (htold i)
  refine ⟨hflag, hwaits, fun i l' hmem hi => ?_, fun i => ?_⟩
  · obtain ⟨l, hl, hkept⟩ := hpending i l' hi
    exact hkept (h.pending i l (hold i hmem) hl)
  · rw [htrace]
    exact (h.accepts i).append (htold i) fun hmem => hleft i fun l hl => h.pending i l hmem hl

/-- What is noted of the other threads has nothing to do with the waits. -/
theorem notes (h : s.Reacts) {requested : Bool} {trace : List LifeEvent}
    (hnotes : s.Notes requested trace) :
    (.requested ∈ trace → requested = true) ∧
      CountedAfter .requested (· == .waited) 1 trace s.pc.waitsLeft := by
  have hone {e : LifeEvent} (he : e ≠ .requested) (hwaited : (e == .waited) = false) :
      (.requested ∈ s.trace ++ [e] → s.isShutdownRequested = true) ∧
        CountedAfter .requested (· == .waited) 1 (s.trace ++ [e]) s.pc.waitsLeft := by
    constructor
    · intro hmem
      exact h.flag ((List.mem_append.mp hmem).resolve_right fun hlast =>
        he (List.mem_singleton.mp hlast).symm)
    · exact h.waits.concat (fun heq => absurd heq he) fun _ => by simp [hwaited]
  cases hnotes with
  | nothing => exact ⟨h.flag, h.waits⟩
  | requested hbefore =>
    exact ⟨fun _ => rfl, h.waits.concat (fun _ => LifePc.waitsLeft_le _) fun _ => by simp⟩
  | ready i => exact hone nofun rfl
  | failed i => exact hone nofun rfl
  | accepted i client => exact hone nofun rfl

/-- The handlers hear something. -/
theorem hears {source : Option ℕ} (h : s.Reacts) (hhears : s.Hears source s') : s'.Reacts := by
  obtain ⟨events, htrace, htold, haccepted⟩ := hhears.events
  obtain ⟨hflag, hwaits⟩ := h.notes hhears.notes
  rw [← hhears.pc_eq] at hwaits
  refine h.moved htrace hflag hwaits (fun i l' hi => ?_) htold fun i _ => ?_
  · rw [hhears.listeners_eq] at hi
    exact ⟨l', hi, id⟩
  · rw [haccepted i, acceptsLeft, hhears.listeners_eq]
    exact Nat.le_refl _

/-- A listener goes on. -/
theorem replaced (h : s.Reacts) {i : ℕ} {l l' : ServerListener} {events : List LifeEvent}
    (hi : s.listeners[i]? = some l) (hl : l.Moves settings l')
    (hlisteners : s'.listeners = s.listeners.set i l') (htrace : s'.trace = s.trace ++ events)
    (hpc : s'.pc = s.pc) (hnotes : s.Notes s'.isShutdownRequested s'.trace)
    (htold : ∀ j, .told j ∉ events)
    (hother : ∀ j, i ≠ j → events.countP (LifeEvent.isAccepted j) = 0)
    (hown : l.shutdownPending = true →
      l'.pc.acceptsLeft + events.countP (LifeEvent.isAccepted i) ≤ l.pc.acceptsLeft) : s'.Reacts := by
  obtain ⟨hflag, hwaits⟩ := h.notes hnotes
  rw [← hpc] at hwaits
  refine h.moved htrace hflag hwaits (fun j k' hj => ?_) htold fun j hj => ?_
  · rw [hlisteners] at hj
    by_cases hij : i = j
    · subst hij
      rw [List.getElem?_set_self (List.getElem?_eq_some_iff.mp hi).1] at hj
      cases hj
      exact ⟨l, hi, hl.later.pending⟩
    · rw [List.getElem?_set_ne hij] at hj
      exact ⟨k', hj, id⟩
  · rw [acceptsLeft_set hi hlisteners]
    split_ifs with hij
    · subst hij
      rw [acceptsLeft, hi]
      exact hown (hj l hi)
    · rw [hother j hij]
      exact Nat.le_refl _

/-- A listener makes a step. -/
theorem listenerMoves (h : s.Reacts) {i : ℕ} (hmoves : s.ListenerMoves settings i s') : s'.Reacts := by
  have hnotes := hmoves.notes
  have hsame := hmoves.pc_eq
  cases hmoves with
  | tells l fd message subscriber left hi hpc =>
    obtain ⟨events, htrace, htold, haccepted⟩ := (s.visit_startup (some i) message subscriber).events
    have htells : l.Moves settings { l with pc := .sending fd (.startup message) left } :=
      .told fd (.startup message) subscriber left hpc
    refine h.replaced hi htells rfl htrace hsame hnotes htold (fun j _ => haccepted j) fun _ => ?_
    rw [haccepted i]
    exact Nat.zero_le _
  | announces l fd id left subscriber hi hpc =>
    have htells : l.Moves settings { l with pc := .sending fd (.newClient id) left } :=
      .told fd (.newClient id) subscriber left hpc
    exact h.replaced hi htells rfl (List.append_nil _).symm hsame hnotes (fun _ => List.not_mem_nil)
      (fun _ _ => rfl) fun _ => Nat.zero_le _
  | moves l l' hi hl hpc =>
    refine h.replaced hi hl rfl rfl hsame hnotes (fun j => ?_) (fun j hij => ?_) hl.acceptsLeft
    · unfold listenerEvents
      split <;> simp
    · unfold listenerEvents
      split <;> simp [LifeEvent.isAccepted, Ne.symm hij]

/-- `main` goes on, and nothing happens to the listeners. -/
theorem goto (h : s.Reacts) (htrace : s'.trace = s.trace) (hlisteners : s'.listeners = s.listeners)
    (hflag : s'.isShutdownRequested = s.isShutdownRequested)
    (hwaits : .requested ∈ s.trace → s'.pc.waitsLeft ≤ s.pc.waitsLeft) : s'.Reacts := by
  constructor
  · rw [htrace, hflag]
    exact h.flag
  · rw [htrace]
    exact h.waits.mono hwaits
  · rw [htrace, hlisteners]
    exact h.pending
  · intro i
    rw [htrace, acceptsLeft, hlisteners]
    exact h.accepts i

/-- `main` makes a step. -/
theorem mainMoves (h : s.Reacts) (hmoves : s.MainMoves m settings s') : s'.Reacts := by
  have hflag {e : LifeEvent} (he : e ≠ .requested) (hmem : .requested ∈ s.trace ++ [e]) :
      s.isShutdownRequested = true :=
    h.flag ((List.mem_append.mp hmem).resolve_right fun hlast => he (List.mem_singleton.mp hlast).symm)
  cases hmoves with
  | masks pc hpc hnext =>
    refine h.goto rfl rfl rfl fun _ => ?_
    rw [hpc]
    exact LifePc.waitsLeft_le pc
  | started i hpc hi => exact h.goto rfl rfl rfl fun _ => by rw [hpc]; exact Nat.le_refl 1
  | allowed hpc => exact h.goto rfl rfl rfl fun _ => by rw [hpc]; exact Nat.le_refl 1
  | begins component hpc =>
    refine h.goto rfl rfl rfl fun _ => ?_
    rw [hpc]
    exact LifePc.waitsLeft_le _
  | goesOn hpc hquiet =>
    refine h.goto rfl rfl rfl fun hmem => ?_
    rw [h.flag hmem] at hquiet
    contradiction
  | leaves hpc => exact h.goto rfl rfl rfl fun _ => Nat.zero_le _
  | requested i hpc => exact h.goto rfl rfl rfl fun _ => Nat.zero_le _
  | joins i l hpc => exact h.goto rfl rfl rfl fun _ => Nat.zero_le _
  | joined i hpc => exact h.goto rfl rfl rfl fun _ => Nat.zero_le _
  | requestsComponent component hpc =>
    exact h.goto rfl rfl rfl fun _ => by cases component <;> exact Nat.zero_le _
  | joinsComponent component hpc =>
    exact h.goto rfl rfl rfl fun _ => by cases component <;> exact Nat.zero_le _
  | starts i l hpc hi =>
    refine h.moved (List.append_nil _).symm h.flag (h.waits.mono fun _ => ?_) (fun j k' hj => ?_)
      (fun _ => List.not_mem_nil) fun j _ => ?_
    · rw [hpc]
      exact Nat.le_refl 1
    · by_cases hij : i = j
      · subst hij
        rw [List.getElem?_set_self (List.getElem?_eq_some_iff.mp hi).1] at hj
        cases hj
        exact ⟨l, hi, id⟩
      · rw [List.getElem?_set_ne hij] at hj
        exact ⟨k', hj, id⟩
    · rw [acceptsLeft_set hi rfl]
      split_ifs
      · exact Nat.zero_le _
      · exact Nat.le_refl _
  | prepares heard pc hpc hpc' hhears =>
    refine (h.hears hhears).goto rfl rfl rfl fun _ => ?_
    rw [hhears.pc_eq, LifePc.waitsLeft_of_isPrepared hpc]
    exact LifePc.waitsLeft_le pc
  | performs call ok pc hpc hpc' =>
    have hwaits : CountedAfter .requested (· == .waited) 1 (s.trace ++ [.performed call ok]) pc.waitsLeft := by
      refine h.waits.concat nofun fun _ => ?_
      rw [LifePc.waitsLeft_of_isPrepared hpc]
      exact LifePc.waitsLeft_le pc
    exact h.moved rfl (hflag nofun) hwaits (fun i l hi => ⟨l, hi, id⟩) (by simp) fun i _ => Nat.le_refl _
  | continues hpc =>
    have hwaits : CountedAfter .requested (· == .waited) 1 (s.trace ++ [.continued]) 1 := by
      refine h.waits.concat (fun _ => Nat.le_refl 1) fun _ => ?_
      rw [LifePc.waitsLeft_of_isPrepared hpc]
      exact Nat.le_refl 1
    exact h.moved rfl (hflag nofun) hwaits (fun i l hi => ⟨l, hi, id⟩) (by simp) fun i _ => Nat.le_refl _
  | allows subscriber left hpc =>
    obtain ⟨hsame, htrace⟩ := Ordered.visit_continue_notes s subscriber
    have hlater := s.later_visit_continue subscriber
    refine h.moved (htrace.trans (List.append_nil _).symm) ?_ ?_ (fun i l' hi => ?_)
      (fun _ => List.not_mem_nil) fun i _ => ?_
    · intro hmem
      exact hsame.trans (h.flag (htrace ▸ hmem))
    · rw [htrace]
      refine h.waits.mono fun _ => ?_
      rw [hpc]
      exact Nat.le_refl 1
    · obtain ⟨l, hl, hkept⟩ := hlater.listeners i l' hi
      exact ⟨l, hl, hkept.pending⟩
    · exact (s.acceptsLeft_visit_continue subscriber i).le
  | waits pc hpc hnext =>
    have hzero : pc.waitsLeft = 0 := by rcases hnext with rfl | rfl <;> rfl
    have hwaits : CountedAfter .requested (· == .waited) 1 (s.trace ++ [.waited]) pc.waitsLeft := by
      refine h.waits.concat nofun fun _ => ?_
      rw [hpc, hzero]
      exact Nat.le_refl 1
    exact h.moved rfl (hflag nofun) hwaits (fun i l hi => ⟨l, hi, id⟩) (by simp) fun i _ => Nat.le_refl _
  | requests i l hpc hi =>
    have hleft (j : ℕ) : acceptsLeft { s with
        listeners := s.listeners.set i { l with shutdownPending := true }
        pc := .requestListener (i + 1)
        trace := s.trace ++ [.told i] } j = s.acceptsLeft j := by
      rw [acceptsLeft_set hi rfl]
      split_ifs with hij
      · subst hij
        rw [acceptsLeft, hi]
        rfl
      · rfl
    refine ⟨hflag nofun, h.waits.concat nofun fun _ => Nat.zero_le _, fun j k' hmem hj => ?_, fun j => ?_⟩
    · by_cases hij : i = j
      · subst hij
        rw [List.getElem?_set_self (List.getElem?_eq_some_iff.mp hi).1] at hj
        cases hj
        rfl
      · rw [List.getElem?_set_ne hij] at hj
        refine h.pending j k' ((List.mem_append.mp hmem).resolve_right fun hlast => ?_) hj
        cases List.mem_singleton.mp hlast
        exact hij rfl
    · rw [hleft]
      refine (h.accepts j).concat (fun _ => ?_) fun _ => Nat.le_refl _
      rw [acceptsLeft]
      cases s.listeners[j]? with
      | none => exact Nat.zero_le _
      | some k => exact k.pc.acceptsLeft_le

/-- One step. -/
theorem step (h : s.Reacts) (hgating : s.Gating) {a : ProgramAction}
    (hstep : s.step m settings a = some s') : s'.Reacts := by
  cases a with
  | main result error => exact h.mainMoves (mainStep_moves hstep)
  | listener i result error => exact h.listenerMoves (listenerStep_moves hgating hstep)
  | component component error =>
    obtain ⟨heard, thread, hhears, -, rfl⟩ := componentStep_moves hstep
    exact { h.hears hhears with }
  | other ec =>
    simp only [Program.step] at hstep
    split_ifs at hstep
    cases hstep
    exact { h with }
  | deliver k =>
    obtain ⟨heard, other, news, hhears, -, rfl, -⟩ := deliverStep_moves hstep
    exact { h.hears hhears with }

/-- Nothing has happened at the start. -/
theorem initial (m : MainState) : (Program.initial m).Reacts where
  flag hmem := absurd hmem List.not_mem_nil
  waits past later heq := by simp [Program.initial] at heq
  pending i l hmem := absurd hmem List.not_mem_nil
  accepts i past later heq := by simp [Program.initial] at heq

end Reacts

/-- In every run, `sigtimedwait` returns at most once after the first request of a shutdown, and a
listener accepts at most one client after it was told to end. -/
theorem reacts_to_shutdown {actions : List ProgramAction}
    (hrun : runActions (step m settings) (initial m) actions = some s) :
    (∀ past later, s.trace = past ++ .requested :: later → later.countP (· == .waited) ≤ 1) ∧
      ∀ i past later, s.trace = past ++ .told i :: later →
        later.countP (LifeEvent.isAccepted i) ≤ 1 := by
  have hstep : ∀ (u : Program) (a : ProgramAction) (u' : Program), u.Gating ∧ u.Reacts →
      u.step m settings a = some u' → u'.Gating ∧ u'.Reacts :=
    fun u a u' h hstep => ⟨h.1.step hstep, h.2.step h.1 hstep⟩
  have hreacts := (runActions_invariant hstep ⟨Gating.initial m, Reacts.initial m⟩ hrun).2
  constructor
  · intro past later hsplit
    exact (Nat.le_add_right _ _).trans (hreacts.waits past later hsplit)
  · intro i past later hsplit
    exact (Nat.le_add_right _ _).trans (hreacts.accepts i past later hsplit)

/-- The last part of that run: the listener has `poll` behind it when it is told, and accepts. -/
def acceptsLast : List ProgramAction :=
  startsUp ++ [.listener 0 0 0, .listener 0 0 0, .listener 0 1 0, .main 15 0, .main 0 0, .listener 0 5 0]

/-- It is the one client that may still come. -/
theorem reacts_to_shutdown_acceptsLast :
    ∃ s, runActions (step StartupGate.directoryMain directorySettings)
        (initial StartupGate.directoryMain) acceptsLast = some s ∧
      s.trace = [.ready 0, .performed .chdir true, .continued, .waited, .told 0, .accepted 0 5] ∧
      (∀ past later, s.trace = past ++ .requested :: later → later.countP (· == .waited) ≤ 1) ∧
        ∀ i past later, s.trace = past ++ .told i :: later →
          later.countP (LifeEvent.isAccepted i) ≤ 1 := by
  have hsome : (runActions (step StartupGate.directoryMain directorySettings)
    (initial StartupGate.directoryMain) acceptsLast).isSome = true := rfl
  have hrun := (Option.some_get hsome).symm
  exact ⟨_, hrun, rfl, reacts_to_shutdown hrun⟩

/-- The steps that are left to the components. -/
def componentsLeft (k : ℕ) (s : Program) : ℕ :=
  (s.components .tcpCommService).pc.workLeft k + (s.components .jobDispatcher).pc.workLeft k

/-- The most steps that are left when all threads are told to end. -/
def workLeft (k : ℕ) (s : Program) : ℕ :=
  s.pc.workLeft s.listeners.length + (s.listeners.map fun l => l.pc.workLeft k).sum +
    s.componentsLeft k + (s.others.map fun other => other.left.length + 1).sum

/-- One component is replaced. -/
theorem componentsLeft_setComponent (k : ℕ) (s : Program) (component : Component)
    (thread : ComponentThread) :
    (s.setComponent component thread).componentsLeft k + (s.components component).pc.workLeft k =
      s.componentsLeft k + thread.pc.workLeft k := by
  cases component with
  | tcpCommService =>
    have hother : (s.setComponent .tcpCommService thread).components .jobDispatcher =
        s.components .jobDispatcher := setComponent_of_ne s thread nofun
    rw [componentsLeft, setComponent_self, hother, componentsLeft]
    omega
  | jobDispatcher =>
    have hother : (s.setComponent .jobDispatcher thread).components .tcpCommService =
        s.components .tcpCommService := setComponent_of_ne s thread nofun
    rw [componentsLeft, setComponent_self, hother, componentsLeft]
    omega

/-- `main` does not turn back. -/
theorem MainMoves.closing (h : s.MainMoves m settings s') (hclosing : s.pc.isClosing = true) :
    s'.pc.isClosing = true ∧ s'.pc.workLeft s.listeners.length < s.pc.workLeft s.listeners.length ∧
      s'.listeners = s.listeners ∧ s'.components = s.components ∧ s'.others = s.others := by
  cases h with
  | joins i l hpc hi =>
    refine ⟨rfl, ?_, rfl, rfl, rfl⟩
    have hlt := (List.getElem?_eq_some_iff.mp hi).1
    simp only [hpc, LifePc.workLeft]
    omega
  | joined i hpc hi =>
    refine ⟨rfl, ?_, rfl, rfl, rfl⟩
    simp only [hpc, LifePc.workLeft]
    omega
  | joinsComponent component hpc =>
    cases component <;> exact ⟨rfl, by rw [hpc]; exact Nat.lt_succ_self _, rfl, rfl, rfl⟩
  | prepares _ _ hpc | performs _ _ _ hpc | continues hpc =>
    cases hs : s.pc <;> rw [hs] at hpc hclosing <;> contradiction
  | masks _ hpc | starts _ _ hpc | started _ hpc | allows _ _ hpc | allowed hpc | begins _ hpc
  | waits _ hpc | goesOn hpc | leaves hpc | requests _ _ hpc | requested _ hpc | requestsComponent _ hpc =>
    rw [hpc] at hclosing
    contradiction

/-- Each step leaves less to do, and one more message of another thread costs one step for each
subscriber and one more. -/
theorem workLeft_of_step (hgating : s.Gating) (hphased : s.Phased settings.order)
    (hclosing : s.pc.isClosing = true) {a : ProgramAction} (hstep : s.step m settings a = some s') :
    s'.pc.isClosing = true ∧
      s'.workLeft settings.order.length + (if !a.isOther then 1 else 0) ≤
        s.workLeft settings.order.length + if a.isOther then settings.order.length + 1 else 0 := by
  cases a with
  | main result error =>
    have hmoves : s.MainMoves m settings s' := mainStep_moves hstep
    obtain ⟨hclosing', hless, hlisteners, hcomponents, hothers⟩ := hmoves.closing hclosing
    refine ⟨hclosing', ?_⟩
    simp only [workLeft, componentsLeft, ProgramAction.isOther, hlisteners, hcomponents, hothers,
      Bool.not_false, if_true, Bool.false_eq_true, if_false]
    omega
  | listener i result error =>
    have hmoves := listenerStep_moves hgating hstep
    obtain ⟨l, l', hi, hl, hlisteners, hcomponents, hothers⟩ := hmoves.replaces
    have hpending : s.Met settings.order (.told i) :=
      hphased (.told i) (Milestone.passed_of_isClosing hclosing nofun nofun)
    have hless := hl.workLeft (hpending l hi)
    have hsum := sum_map_replaceAt hi (fun l => l.pc.workLeft settings.order.length) [l']
    rw [← set_eq_replaceAt hi, ← hlisteners, List.map_singleton, List.sum_singleton] at hsum
    have hlength : s'.listeners.length = s.listeners.length := by rw [hlisteners, List.length_set]
    refine ⟨hmoves.pc_eq ▸ hclosing, ?_⟩
    simp only [workLeft, componentsLeft, ProgramAction.isOther, hmoves.pc_eq, hlength, hcomponents, hothers,
      Bool.not_false, if_true, Bool.false_eq_true, if_false]
    omega
  | component component error =>
    obtain ⟨heard, thread, hhears, hmoves, rfl⟩ := componentStep_moves hstep
    have hless := hmoves.workLeft
    have hsum := heard.componentsLeft_setComponent settings.order.length component thread
    rw [hhears.components_eq] at hsum
    have hheard : heard.componentsLeft settings.order.length = s.componentsLeft settings.order.length := by
      rw [componentsLeft, hhears.components_eq, componentsLeft]
    have hpc : (heard.setComponent component thread).pc = s.pc := hhears.pc_eq
    have hlisteners : (heard.setComponent component thread).listeners = s.listeners := hhears.listeners_eq
    have hothers : (heard.setComponent component thread).others = s.others := hhears.others_eq
    refine ⟨hpc ▸ hclosing, ?_⟩
    simp only [workLeft, ProgramAction.isOther, hpc, hlisteners, hothers, Bool.not_false, if_true,
      Bool.false_eq_true, if_false]
    omega
  | other ec =>
    simp only [step] at hstep
    split_ifs at hstep
    cases hstep
    refine ⟨hclosing, ?_⟩
    simp only [workLeft, componentsLeft, ProgramAction.isOther, List.map_append, List.sum_append,
      List.map_singleton, List.sum_singleton, Bool.not_true, Bool.false_eq_true, if_true, if_false]
    omega
  | deliver k =>
    obtain ⟨heard, other, news, hhears, hk, rfl, hnews⟩ := deliverStep_moves hstep
    refine ⟨hhears.pc_eq ▸ hclosing, ?_⟩
    have hsum := sum_map_replaceAt hk (fun other => other.left.length + 1) news
    have hless : (news.map fun other => other.left.length + 1).sum < other.left.length + 1 := by
      rcases hnews with rfl | ⟨left, rfl, hlt⟩
      · exact Nat.succ_pos _
      · simpa using hlt
    simp only [workLeft, componentsLeft, ProgramAction.isOther, hhears.pc_eq, hhears.listeners_eq,
      hhears.components_eq, Bool.not_false, if_true, Bool.false_eq_true, if_false]
    omega

/-- The thread of a component comes out of its loop, and ends. -/
def endsLoop (s : Program) : ProgramAction → Bool
  | .component component none => (s.components component).pc = .running
  | _ => false

/-- The components that were told to end are out of their loops. -/
def LoopsEnd (s : Program) : Prop :=
  ∀ component, (s.components component).shutdownPending = true → (s.components component).pc ≠ .running

/-- A component that is out of its loop can go on until it has ended. -/
theorem componentStep_isSome {component : Component} (hborn : (s.components component).pc ≠ .unborn)
    (hloop : (s.components component).pc ≠ .running)
    (hnot : (s.components component).pc ≠ .ended) :
    (s.componentStep settings component none).isSome = true := by
  simp only [componentStep]
  cases hpc : (s.components component).pc with
  | unborn => exact absurd hpc hborn
  | ended => exact absurd hpc hnot
  | running => exact absurd hpc hloop
  | sending ec left => cases left <;> rfl

/-- Nobody waits for something that does not come. -/
theorem over_of_stuck (hphased : s.Phased settings.order) (hclosing : s.pc.isClosing = true)
    (horder : ∀ i < s.listeners.length, .listener i ∈ settings.order)
    (hstuck : ∀ a : ProgramAction, a.isOther = false → s.endsLoop a = false →
      s.step m settings a = none) (hloops : s.LoopsEnd) :
    s.pc = .returned 0 ∧ s.Over ∧ s.others = [] := by
  have hover : s.Over := by
    refine ⟨fun l hl => ?_, fun component => ?_⟩
    · obtain ⟨i, hi⟩ := List.mem_iff_getElem?.mp hl
      have hborn : s.Met settings.order (.started i) :=
        hphased _ (Milestone.passed_of_isClosing hclosing (by simp) (by simp))
      have hallowed : s.Met settings.order (.allowed i) :=
        hphased _ (Milestone.passed_of_isClosing hclosing (by simp) (by simp))
      by_contra hnot
      have henabled := l.workerStep_isSome settings (hborn l hi)
        (hallowed (horder i (List.getElem?_eq_some_iff.mp hi).1) l hi) hnot
      have hnone := hstuck (.listener i 0 0) rfl rfl
      simp only [step, listenerStep, hi, Option.bind_some, Option.map_eq_none_iff] at hnone
      rw [hnone] at henabled
      contradiction
    · have hborn : s.Met settings.order (.begun component) :=
        hphased _ (Milestone.passed_of_isClosing hclosing (by simp) (by simp))
      have hpending : s.Met settings.order (.toldComponent component) :=
        hphased _ (Milestone.passed_of_isClosing hclosing (by simp) (by simp))
      have hloop : (s.components component).pc ≠ .running := hloops component hpending
      by_contra hnot
      have henabled : (s.componentStep settings component none).isSome = true :=
        componentStep_isSome hborn hloop hnot
      have hnone : s.componentStep settings component none = none :=
        hstuck (.component component none) rfl (decide_eq_false hloop)
      rw [hnone] at henabled
      contradiction
  refine ⟨?_, hover, ?_⟩
  · have hmain := hstuck (.main 0 0) rfl rfl
    simp only [step, mainStep] at hmain
    cases hpc : s.pc with
    | returned code =>
      rw [hpc] at hclosing
      rw [of_decide_eq_true hclosing]
    | joinListener i =>
      simp only [hpc] at hmain
      cases hi : s.listeners[i]? with
      | none =>
        simp only [hi] at hmain
        contradiction
      | some l =>
        simp only [hi, hover.listeners l (List.mem_of_getElem? hi), if_true] at hmain
        contradiction
    | joinComponent component =>
      simp only [hpc, hover.components component, if_true] at hmain
      contradiction
    | _ =>
      rw [hpc] at hclosing
      contradiction
  · by_contra hsome
    have hpos : 0 < s.others.length := List.length_pos_of_ne_nil hsome
    have hnone := hstuck (.deliver 0) rfl rfl
    simp only [step, deliverStep, Option.map_eq_none_iff, List.getElem?_eq_none_iff] at hnone
    omega

/-- The number of listeners is that of the configuration. -/
theorem length_of_run {actions : List ProgramAction}
    (hrun : runActions (step m settings) (initial m) actions = some s) :
    s.listeners.length = m.config.listenAddrs.length := by
  have hstep : ∀ (u : Program) (a : ProgramAction) (u' : Program),
      u.Gating ∧ u.listeners.length = m.config.listenAddrs.length → u.step m settings a = some u' →
        u'.Gating ∧ u'.listeners.length = m.config.listenAddrs.length :=
    fun u a u' h hstep => ⟨h.1.step hstep, (length_of_step h.1 hstep).trans h.2⟩
  exact (runActions_invariant hstep ⟨Gating.initial m, List.length_map _⟩ hrun).2

/-- From the time when `main` has told all threads to end, every run makes a bounded number of steps
besides those of the messages that other threads still send. Where the components that were told to
end are out of their loops and nobody can go on, all threads have ended and `main` has returned. -/
theorem winds_down {actions later : List ProgramAction} {u : Program}
    (horder : ∀ i < m.config.listenAddrs.length, .listener i ∈ settings.order)
    (hrun : runActions (step m settings) (initial m) actions = some s)
    (hclosing : s.pc.isClosing = true) (hlater : runActions (step m settings) s later = some u) :
    later.countP (fun a => !a.isOther) ≤
        s.workLeft settings.order.length +
          (settings.order.length + 1) * later.countP ProgramAction.isOther ∧
      ((∀ a : ProgramAction, a.isOther = false → u.endsLoop a = false → u.step m settings a = none) →
        u.LoopsEnd → u.pc = .returned 0 ∧ u.Over ∧ u.others = []) := by
  obtain ⟨hgating, hphased, -⟩ := phased_of_run hrun
  have hkept : ∀ (v : Program) (a : ProgramAction) (v' : Program),
      v.Gating ∧ v.Phased settings.order ∧ v.pc.isClosing = true → v.step m settings a = some v' →
        v'.Gating ∧ v'.Phased settings.order ∧ v'.pc.isClosing = true := by
    rintro v a v' ⟨hgating, hphased, hclosing⟩ hstep
    exact ⟨hgating.step hstep, hphased.step hgating hstep,
      (workLeft_of_step hgating hphased hclosing hstep).1⟩
  have hready : s.Gating ∧ s.Phased settings.order ∧ s.pc.isClosing = true :=
    ⟨hgating, hphased, hclosing⟩
  have hmeets : RunMeets (step m settings)
      (fun v _ => v.Gating ∧ v.Phased settings.order ∧ v.pc.isClosing = true) s later :=
    RunMeets.of_invariant hkept (fun _ _ h => h) hready later
  constructor
  · have hless : ∀ (v : Program) (a : ProgramAction) (v' : Program),
        v.Gating ∧ v.Phased settings.order ∧ v.pc.isClosing = true → v.step m settings a = some v' →
          v'.workLeft settings.order.length + (if !a.isOther then 1 else 0) ≤
            v.workLeft settings.order.length + if a.isOther then settings.order.length + 1 else 0 :=
      fun v a v' h hstep => (workLeft_of_step h.1 h.2.1 h.2.2 hstep).2
    exact (Nat.le_add_left _ _).trans (runActions_countP_le hless hmeets hlater)
  · intro hstuck hloops
    obtain ⟨-, hphased', hclosing'⟩ := runActions_invariant hkept hready hlater
    have hall : runActions (step m settings) (initial m) (actions ++ later) = some u := by
      rw [runActions_append, hrun]
      exact hlater
    have hlength := length_of_run hall
    exact over_of_stuck hphased' hclosing' (fun i hi => horder i (hlength ▸ hi)) hstuck hloops

/-- Up to where `main` joins the first listener. -/
def tellsAll : List ProgramAction := startsUp ++ [.main 15 0] ++ List.replicate 4 (.main 0 0)

/-- The rest of it takes nine steps, and the bound is not far from that. -/
theorem winds_down_tellsAll :
    ∃ s u, runActions (step StartupGate.directoryMain directorySettings)
        (initial StartupGate.directoryMain) tellsAll = some s ∧ s.pc.isClosing = true ∧
      runActions (step StartupGate.directoryMain directorySettings) s
        (shutsDown.drop tellsAll.length) = some u ∧
      (shutsDown.drop tellsAll.length).countP (fun a => !a.isOther) ≤
        s.workLeft directorySettings.order.length + (directorySettings.order.length + 1) *
          (shutsDown.drop tellsAll.length).countP ProgramAction.isOther ∧
      ((∀ a : ProgramAction, a.isOther = false → u.endsLoop a = false →
        u.step StartupGate.directoryMain directorySettings a = none) →
          u.LoopsEnd → u.pc = .returned 0 ∧ u.Over ∧ u.others = []) := by
  have hsome : (runActions (step StartupGate.directoryMain directorySettings)
    (initial StartupGate.directoryMain) tellsAll).isSome = true := rfl
  have hrun := (Option.some_get hsome).symm
  have hlater : (runActions (step StartupGate.directoryMain directorySettings)
    ((runActions (step StartupGate.directoryMain directorySettings)
      (initial StartupGate.directoryMain) tellsAll).get hsome)
        (shutsDown.drop tellsAll.length)).isSome = true := rfl
  have hend := (Option.some_get hlater).symm
  exact ⟨_, _, hrun, rfl, hend, winds_down (by decide) hrun rfl hend⟩

end Program

end TinySox
