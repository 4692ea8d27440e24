import TinySox.Common.ThreadPool
import TinySox.ServerListener

/-!
# The life of the program

`main` from the moment its objects are there until it returns: the mask of the signals, the two
stages of the startup, the loop around `sigtimedwait`, and the shutdown. Around it are the listeners,
call by call, the two handlers of the startup, and the threads of the service and the dispatcher,
which run until they are told to end or give up. Any other thread may report a failure, but such
threads are there only behind the first stage, as they serve clients or pass on events.

A system call returns any result. What the dispatcher does with a client is left out, and so are the
logs and the signal that `ShutdownHandler` sends: a signal may arrive at any time. The trace is not
part of the program.
-/

namespace TinySox

open TinySox.Common

/-- The components besides the listeners that have a thread. -/
inductive Component
  | jobDispatcher
  | tcpCommService
  deriving DecidableEq, Repr

/-- Where the thread of a component stands. -/
inductive ComponentPc
  | unborn
  | running
  /-- inside `SendMessage` in `HandleError`, with these subscribers to go -/
  | sending (ec : Int) (left : List StartupSubscriber)
  | ended
  deriving DecidableEq, Repr

/-- A component, with its thread. -/
structure ComponentThread where
  shutdownPending : Bool
  pc : ComponentPc
  deriving DecidableEq, Repr

/-- Where `main` stands. -/
inductive LifePc
  /-- `sigaddset` and `pthread_sigmask` -/
  | signals
  /-- in the first stage of the startup -/
  | first (pc : StartupPc)
  /-- the condition of the block that initializes the UDNS context -/
  | dns
  /-- `dns_add_serv` -/
  | addServ
  /-- inside `SendMessage` in this block, with these subscribers to go -/
  | addServFailed (left : List StartupSubscriber)
  /-- the condition with the search domain -/
  | search
  /-- `dns_add_srch` -/
  | addSrch
  /-- inside `SendMessage` in this block -/
  | addSrchFailed (left : List StartupSubscriber)
  /-- inside `SendMessage` for `StartupContinueMessage` -/
  | continuing (left : List StartupSubscriber)
  /-- `Startup` of this component -/
  | startup (component : Component)
  | sigtimedwait
  /-- `if(shutdownHandler.IsShutdownRequested())` in the loop -/
  | check
  /-- `RequestShutdown` of this listener, and of the service after the last one -/
  | requestListener (i : ℕ)
  | requestComponent (component : Component)
  /-- `Shutdown` of this listener -/
  | joinListener (i : ℕ)
  | joinComponent (component : Component)
  | returned (code : Int)
  deriving DecidableEq, Repr

/-- What has happened. -/
inductive LifeEvent
  /-- `StartupHandler` has got the report of this listener -/
  | ready (i : ℕ)
  /-- this listener sends `ShutdownMessage` -/
  | failed (i : ℕ)
  | performed (call : PrivilegedCall) (ok : Bool)
  /-- `ShutdownHandler` has got the first request -/
  | requested
  /-- `StartupContinueMessage` is sent -/
  | continued
  /-- `sigtimedwait` has returned -/
  | waited
  /-- `RequestShutdown` of this listener -/
  | told (i : ℕ)
  /-- this listener has accepted a client -/
  | accepted (i : ℕ) (client : Int)
  deriving DecidableEq, Repr

/-- The message of another thread, and the subscribers that are still to be told. -/
structure OtherMessage where
  ec : Int
  left : List StartupSubscriber
  deriving DecidableEq, Repr

/-- The whole program, apart from what it does for its clients. -/
structure Program where
  startupHandler : StartupHandler
  shutdownHandler : ShutdownHandler
  pc : LifePc
  listeners : List ServerListener
  components : Component → ComponentThread
  others : List OtherMessage
  trace : List LifeEvent

/-- What can happen next. A call returns this result, and leaves this value in `errno`. -/
inductive ProgramAction
  | main (result : Int) (error : ℕ)
  | listener (i : ℕ) (result : Int) (error : ℕ)
  /-- the thread of a component goes on, and gives up with this error if there is one -/
  | component (component : Component) (error : Option ℕ)
  /-- another thread calls `SendMessage` -/
  | other (ec : Int)
  /-- and tells the next subscriber -/
  | deliver (k : ℕ)
  deriving DecidableEq, Repr

/-- `EAGAIN`, as `sigtimedwait` leaves it. -/
def sigAgain : ℕ := 11

/-- `SIGINT` -/
def sigint : Int := 2

/-- `SIGUSR2` -/
def sigusr2 : Int := 12

/-- `main` goes on there from the first stage. -/
def LifePc.ofStartup : StartupPc → LifePc
  | .secondStage => .dns
  | pc => .first pc

/-- `StartupContinueMessage` is still to be sent. -/
def LifePc.isEarly : LifePc → Bool
  | .signals | .first _ | .dns | .addServ | .addServFailed _ | .search | .addSrch | .addSrchFailed _ => true
  | .continuing _ | .startup _ | .sigtimedwait | .check | .requestListener _ | .requestComponent _
  | .joinListener _ | .joinComponent _ | .returned _ => false

/-- Other threads are there. -/
def LifePc.isSecond : LifePc → Bool
  | .continuing _ | .startup _ | .sigtimedwait | .check | .requestListener _ | .requestComponent _
  | .joinListener _ | .joinComponent _ => true
  | .signals | .first _ | .dns | .addServ | .addServFailed _ | .search | .addSrch | .addSrchFailed _
  | .returned _ => false

namespace Component

/-- The dispatcher is started first. -/
def afterStartup : Component → LifePc
  | .jobDispatcher => .startup .tcpCommService
  | .tcpCommService => .sigtimedwait

/-- The service is told first to end. -/
def afterRequest : Component → LifePc
  | .tcpCommService => .requestComponent .jobDispatcher
  | .jobDispatcher => .joinListener 0

/-- And it is joined first. -/
def afterJoin : Component → LifePc
  | .tcpCommService => .joinComponent .jobDispatcher
  | .jobDispatcher => .returned 0

end Component

/-- What the step of a listener from one place to another is. -/
def listenerEvents (i : ℕ) : ServerListenerPc → ServerListenerPc → List LifeEvent
  | .accept _, .create _ client => [.accepted i client]
  | .sending _ _ _, _ => []
  | _, .sending _ (.startup (.shutdown _)) _ => [.failed i]
  | _, _ => []

namespace Program

/-- All objects are there, and no thread was started. -/
def initial (m : MainState) : Program where
  startupHandler := ⟨Finset.range m.config.listenAddrs.length, false⟩
  shutdownHandler := ⟨false, 0⟩
  pc := .signals
  listeners := m.config.listenAddrs.map .initial
  components _ := ⟨false, .unborn⟩
  others := []
  trace := []

/-- `shutdownHandler.IsShutdownRequested()` -/
def isShutdownRequested (s : Program) : Bool := s.shutdownHandler.shutdownRequested

/-- Something happens. -/
def emit (s : Program) (events : List LifeEvent) : Program := { s with trace := s.trace ++ events }

/-- One subscriber is told. -/
def visit (s : Program) (source : Option ℕ) (message : ProgramMessage)
    (subscriber : StartupSubscriber) : Program :=
  if subscriber.readyForMessage message.msgType then
    match subscriber, message with
    | .shutdownHandler, .startup message =>
      { s with shutdownHandler := s.shutdownHandler.onMessage message }.emit
        (if s.isShutdownRequested then [] else [.requested])
    | .startupHandler, .startup message =>
      { s with startupHandler := s.startupHandler.onMessage source message }.emit
        (match source, message with
        | some i, .startupReady => [.ready i]
        | _, _ => [])
    | .listener i, .startupContinue =>
      { s with listeners := s.listeners.modify i ServerListener.onMessage }
    | _, _ => s
  else s

/-- A component goes on. -/
def setComponent (s : Program) (component : Component) (thread : ComponentThread) : Program :=
  { s with components := Function.update s.components component thread }

variable (m : MainState) (settings : ListenerSettings) (s : Program)

/-- `messageBroker.SendMessage(nullptr,StartupContinueMessage())` -/
def continueStartup : Program := { s with pc := .continuing settings.order }.emit [.continued]

/-- The next step of `main`. -/
def mainStep (result : Int) (error : ℕ) : Option Program :=
  match s.pc with
  | .signals => some { s with pc := if result ≠ 0 then .returned 1 else .first (.startListener 0) }
  | .first (.startListener i) =>
    match s.listeners[i]? with
    | some l =>
      some { s with
        listeners := s.listeners.set i { l with pc := .socket }
        pc := .first (.startListener (i + 1)) }
    | none => some { s with pc := .first .wait }
  | .first .wait =>
    if s.startupHandler.shutdownRequested || decide (s.startupHandler.awaitedTargets = ∅) then
      some { s with pc := .first (.guard .setns) }
    else none
  | .first (.guard call) =>
    let entered := !s.isShutdownRequested && m.configured call
    some { s with pc := .ofStartup (if entered then m.enterBlock settings.order call else call.next) }
  | .first .openNetNS =>
    some { s with pc := .first (if result < 0 then .sending .setns settings.order else .recheck) }
  | .first .recheck =>
    let next := if s.isShutdownRequested then PrivilegedCall.setns.next else .perform .setns
    some { s with pc := .ofStartup next }
  | .first (.perform call) =>
    let next := if result < 0 then .sending call settings.order else call.next
    some ({ s with pc := .ofStartup next }.emit [.performed call (0 ≤ result)])
  | .first (.sending call []) => some { s with pc := .ofStartup call.next }
  | .first (.sending call (subscriber :: left)) =>
    some { s.visit none (.startup (.shutdown 1)) subscriber with pc := .first (.sending call left) }
  | .first .secondStage => none
  | .dns =>
    let custom := !s.isShutdownRequested && (m.args.lookup (ascii "-dns")).isSome
    some { s with pc := if custom then .addServ else .search }
  | .addServ => some { s with pc := if result ≠ 1 then .addServFailed settings.order else .search }
  | .addServFailed [] => some { s with pc := .search }
  | .addServFailed (subscriber :: left) =>
    some { s.visit none (.startup (.shutdown 1)) subscriber with pc := .addServFailed left }
  | .search =>
    if !s.isShutdownRequested && m.config.udnsSearchDomainIsSet then some { s with pc := .addSrch }
    else some (s.continueStartup settings)
  | .addSrch =>
    if result < 0 then some { s with pc := .addSrchFailed settings.order }
    else some (s.continueStartup settings)
  | .addSrchFailed [] => some (s.continueStartup settings)
  | .addSrchFailed (subscriber :: left) =>
    some { s.visit none (.startup (.shutdown 1)) subscriber with pc := .addSrchFailed left }
  | .continuing [] => some { s with pc := .startup .jobDispatcher }
  | .continuing (subscriber :: left) =>
    some { s.visit none .startupContinue subscriber with pc := .continuing left }
  | .startup component =>
    some { s.setComponent component { s.components component with pc := .running } with
      pc := component.afterStartup }
  | .sigtimedwait =>
    let fails := result < 0 ∧ error ≠ sigAgain ∧ error ≠ eintr
    let signalled := 0 < result ∧ result ≠ sigusr2 ∧ result ≠ sigint
    some ({ s with pc := if fails ∨ signalled then .requestListener 0 else .check }.emit [.waited])
  | .check => some { s with pc := if s.isShutdownRequested then .requestListener 0 else .sigtimedwait }
  | .requestListener i =>
    match s.listeners[i]? with
    | some l =>
      some ({ s with
        listeners := s.listeners.set i { l with shutdownPending := true }
        pc := .requestListener (i + 1) }.emit [.told i])
    | none => some { s with pc := .requestComponent .tcpCommService }
  | .requestComponent component =>
    some { s.setComponent component { s.components component with shutdownPending := true } with
      pc := component.afterRequest }
  | .joinListener i =>
    match s.listeners[i]? with
    | some l => if l.pc = .returned then some { s with pc := .joinListener (i + 1) } else none
    | none => some { s with pc := .joinComponent .tcpCommService }
  | .joinComponent component =>
    if (s.components component).pc = .ended then some { s with pc := component.afterJoin } else none
  | .returned _ => none

/-- The next step of a listener. -/
def listenerStep (i : ℕ) (result : Int) (error : ℕ) : Option Program :=
  s.listeners[i]?.bind fun l => (l.workerStep settings result error).map fun l' =>
    let told :=
      match l.pc with
      | .sending _ message (subscriber :: _) => s.visit (some i) message subscriber
      | _ => s
    { told with listeners := told.listeners.set i l' }.emit (listenerEvents i l.pc l'.pc)

/-- The next step of a component's thread. What its loop does, and what follows until the thread has
ended, is one step here: the broadcast of the service, and the workers that the dispatcher joins. That
this step comes is not said. -/
def componentStep (component : Component) (error : Option ℕ) : Option Program :=
  let thread := s.components component
  match thread.pc with
  | .running =>
    match error with
    | some ec => some (s.setComponent component { thread with pc := .sending ec settings.order })
    | none =>
      if thread.shutdownPending then some (s.setComponent component { thread with pc := .ended })
      else none
  | .sending _ [] => some (s.setComponent component { thread with pc := .ended })
  | .sending ec (subscriber :: left) =>
    some ((s.visit none (.startup (.shutdown ec)) subscriber).setComponent component
      { thread with pc := .sending ec left })
  | .unborn | .ended => none

/-- Another thread goes on with its message. -/
def deliverStep (k : ℕ) : Option Program :=
  s.others[k]?.map fun other =>
    match other.left with
    | [] => { s with others := replaceAt s.others k [] }
    | subscriber :: left =>
      { s.visit none (.startup (.shutdown other.ec)) subscriber with
        others := replaceAt s.others k [{ other with left }] }

/-- One step. -/
def step : ProgramAction → Option Program
  | .main result error => s.mainStep m settings result error
  | .listener i result error => s.listenerStep settings i result error
  | .component component error => s.componentStep settings component error
  | .other ec =>
    if s.pc.isSecond then some { s with others := s.others ++ [⟨ec, settings.order⟩] } else none
  | .deliver k => s.deliverStep k

end Program

end TinySox
