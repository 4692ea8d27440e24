import TinySox.Common.LabelledRun
import TinySox.EndpointRoundTrip
import TinySox.StartupGate

/-!
# A listener

`TCPServerListener` with its thread, from the socket to the end of `Worker`. Each step is a system
call, the registration of a client, a look at one of the two flags, or one subscriber that is told of
a message. What a subscriber does with a message is left to the program around the listener, and the
logs are left out.

The trace says which calls were made, what was sent, and when the listener was told to continue. It is
not part of the program.
-/

namespace TinySox

open TinySox.Common

/-- What `main` and the listeners send. -/
inductive ProgramMessage
  | startup (message : StartupMessage)
  | startupContinue
  /-- `JobCompleteMessage`, with the handler of a new client -/
  | newClient (handlerID : ℕ)
  deriving DecidableEq, Repr

/-- `message.msgType` -/
def ProgramMessage.msgType : ProgramMessage → MsgType
  | .startup message => message.msgType
  | .startupContinue => .startupContinue
  | .newClient _ => .jobComplete

/-- The options that the listening socket is given. -/
inductive ListenOption
  | reuseAddr
  | reusePort
  | linger
  deriving DecidableEq, Repr

/-- The integers that the option is set to: `linger lLinger={1,0}` has two. -/
def ListenOption.value : ListenOption → List Int
  | .reuseAddr | .reusePort => [1]
  | .linger => [1, 0]

/-- The calls that `Worker` makes, with their arguments. -/
inductive ListenerCall
  | socket (v6 : Bool)
  | setsockopt (fd : Int) (option : ListenOption) (value : List Int)
  | bind (fd : Int) (target : Bytes)
  | listen (fd : Int) (backlog : ℕ)
  | poll (fd : Int) (timeout : Int)
  | accept (fd : Int)
  | createHandlerFromSocket (client : Int)
  | close (fd : Int)
  deriving DecidableEq, Repr

/-- The code takes the result of the call for a failure. -/
def ListenerCall.fails : ListenerCall → Int → Bool
  | .socket _, result => result = -1
  | .setsockopt _ _ _, result | .bind _ _, result | .listen _ _, result | .close _, result => result ≠ 0
  | .poll _ _, result => result < 0
  | .accept _, result => result < 1
  | .createHandlerFromSocket _, result => handlerError < result.toNat

/-- What has happened. -/
inductive ListenerEvent
  | returned (call : ListenerCall) (result : Int)
  /-- the call has failed, with this value in `errno` -/
  | failed (call : ListenerCall) (error : ℕ)
  | send (message : ProgramMessage)
  /-- `OnMessage` was called -/
  | allowed
  deriving DecidableEq, Repr

/-- Where `Worker` stands. -/
inductive ServerListenerPc
  | unborn
  | socket
  | setsockopt (fd : Int) (option : ListenOption)
  | bind (fd : Int)
  | listen (fd : Int)
  /-- inside `SendMessage`, with these subscribers to go -/
  | sending (fd : Int) (message : ProgramMessage) (left : List StartupSubscriber)
  /-- `while(!startupAllowed.load()) {}` -/
  | waiting (fd : Int)
  /-- `while (!shutdownPending.load())` -/
  | loop (fd : Int)
  | poll (fd : Int)
  | accept (fd : Int)
  | create (fd client : Int)
  | close (fd : Int)
  | returned
  deriving DecidableEq, Repr

/-- The fields of `TCPServerListener`, and its thread. -/
structure ServerListener where
  endpoint : IPEndpoint
  shutdownPending : Bool
  startupAllowed : Bool
  pc : ServerListenerPc
  trace : List ListenerEvent
  deriving DecidableEq, Repr

/-- What does not change: the byte order of the host, `config.GetServiceIntervalMS()`, and the
subscribers in the order in which they are told. -/
structure ListenerSettings where
  host : ByteOrder
  serviceInterval : Int
  order : List StartupSubscriber

/-- What can happen to a listener. A call returns this result, and leaves this value in `errno`. -/
inductive ListenerAction
  /-- `Startup` -/
  | startup
  | work (result : Int) (error : ℕ)
  /-- `OnMessage` -/
  | allow
  /-- `OnShutdown` -/
  | shutdown
  deriving DecidableEq, Repr

/-- `EINTR` -/
def eintr : ℕ := 4

/-- A call that may end the thread is next. -/
def ServerListenerPc.mayFail : ServerListenerPc → Bool
  | .socket | .setsockopt _ _ | .bind _ | .listen _ | .poll _ | .create _ _ | .close _ => true
  | .unborn | .sending _ _ _ | .waiting _ | .loop _ | .accept _ | .returned => false

/-- The listener has been let out of the spin. -/
def ServerListenerPc.isReleased : ServerListenerPc → Bool
  | .loop _ | .poll _ | .accept _ | .create _ _ | .close _ | .sending _ (.newClient _) _
  | .sending _ .startupContinue _ => true
  | .unborn | .socket | .setsockopt _ _ | .bind _ | .listen _ | .sending _ (.startup _) _
  | .waiting _ | .returned => false

/-- What follows after the option is set. -/
def ListenOption.next (fd : Int) : ListenOption → ServerListenerPc
  | .reuseAddr => .setsockopt fd .reusePort
  | .reusePort => .setsockopt fd .linger
  | .linger => .bind fd

/-- What follows after the message is sent. -/
def ProgramMessage.next (fd : Int) : ProgramMessage → ServerListenerPc
  | .startup .startupReady => .waiting fd
  | .newClient _ => .loop fd
  | .startup (.shutdown _) | .startupContinue => .returned

namespace ServerListener

/-- The constructor. -/
def initial (listenAt : IPEndpoint) : ServerListener := ⟨listenAt, false, false, .unborn, []⟩

/-- `OnMessage` -/
def onMessage (l : ServerListener) : ServerListener :=
  { l with startupAllowed := true, trace := l.trace ++ [.allowed] }

variable (settings : ListenerSettings) (l : ServerListener)

/-- `sender.SendMessage(this, message)` -/
def send (fd : Int) (message : ProgramMessage) : ServerListener :=
  { l with pc := .sending fd message settings.order, trace := l.trace ++ [.send message] }

/-- `HandleError` -/
def handleError (fd ec : Int) : ServerListener := l.send settings fd (.startup (.shutdown ec))

/-- A call has returned, and the listener goes on there. -/
def returns (call : ListenerCall) (result : Int) (pc : ServerListenerPc) : ServerListener :=
  { l with pc, trace := l.trace ++ [.returned call result] }

/-- A call has failed. -/
def fails (call : ListenerCall) (error : ℕ) : ServerListener :=
  { l with trace := l.trace ++ [.failed call error] }

/-- A call that ends the thread if it fails, with the value in `errno`. -/
def check (fd : Int) (call : ListenerCall) (result : Int) (error : ℕ) (pc : ServerListenerPc) :
    ServerListener :=
  if call.fails result then (l.fails call error).handleError settings fd error
  else l.returns call result pc

/-- The next step of `Worker`. -/
def workerStep (result : Int) (error : ℕ) : Option ServerListener :=
  match l.pc with
  | .socket =>
    if l.endpoint.address.isValid then
      some (l.check settings result (.socket l.endpoint.address.isV6) result error
        (.setsockopt result .reuseAddr))
    else some (l.handleError settings (-1) 1)
  | .setsockopt fd option =>
    some (l.check settings fd (.setsockopt fd option option.value) result error (option.next fd))
  | .bind fd =>
    some (l.check settings fd (.bind fd (l.endpoint.listenSockaddr settings.host)) result error
      (.listen fd))
  | .listen fd =>
    if (ListenerCall.listen fd 1).fails result then
      some ((l.fails (.listen fd 1) error).handleError settings fd error)
    else some ((l.returns (.listen fd 1) result l.pc).send settings fd (.startup .startupReady))
  | .sending fd message [] => some { l with pc := message.next fd }
  | .sending fd message (_ :: left) => some { l with pc := .sending fd message left }
  | .waiting fd => if l.startupAllowed then some { l with pc := .loop fd } else none
  | .loop fd => some { l with pc := if l.shutdownPending then .close fd else .poll fd }
  | .poll fd =>
    let call := .poll fd settings.serviceInterval
    if call.fails result then
      if error = eintr then some { l.fails call error with pc := .close fd }
      else some ((l.fails call error).handleError settings fd error)
    else some (l.returns call result (if result = 0 then .loop fd else .accept fd))
  | .accept fd =>
    if (ListenerCall.accept fd).fails result then some { l.fails (.accept fd) error with pc := .loop fd }
    else some (l.returns (.accept fd) result (.create fd result))
  | .create fd client =>
    let call := .createHandlerFromSocket client
    if call.fails result then some ((l.fails call error).handleError settings fd 1)
    else some ((l.returns call result l.pc).send settings fd (.newClient result.toNat))
  | .close fd => some (l.check settings fd (.close fd) result error .returned)
  | .unborn | .returned => none

/-- What a step of `Worker` can do, apart from the trace. -/
inductive Moves : ServerListener → Prop
  | socket (fd : Int) (trace : List ListenerEvent) (hpc : l.pc = .socket) :
    Moves { l with pc := .setsockopt fd .reuseAddr, trace }
  | option (fd : Int) (option : ListenOption) (trace : List ListenerEvent)
    (hpc : l.pc = .setsockopt fd option) : Moves { l with pc := option.next fd, trace }
  | bound (fd : Int) (trace : List ListenerEvent) (hpc : l.pc = .bind fd) :
    Moves { l with pc := .listen fd, trace }
  | ready (fd : Int) (trace : List ListenerEvent) (hpc : l.pc = .listen fd) :
    Moves { l with pc := .sending fd (.startup .startupReady) settings.order, trace }
  | givesUp (fd ec : Int) (trace : List ListenerEvent) (hpc : l.pc.mayFail = true) :
    Moves { l with pc := .sending fd (.startup (.shutdown ec)) settings.order, trace }
  | sent (fd : Int) (message : ProgramMessage) (hpc : l.pc = .sending fd message []) :
    Moves { l with pc := message.next fd }
  | told (fd : Int) (message : ProgramMessage) (subscriber : StartupSubscriber)
    (left : List StartupSubscriber) (hpc : l.pc = .sending fd message (subscriber :: left)) :
    Moves { l with pc := .sending fd message left }
  | allowed (fd : Int) (hpc : l.pc = .waiting fd) (hallowed : l.startupAllowed = true) :
    Moves { l with pc := .loop fd }
  | polls (fd : Int) (hpc : l.pc = .loop fd) (hpending : l.shutdownPending = false) :
    Moves { l with pc := .poll fd }
  | leaves (fd : Int) (hpc : l.pc = .loop fd) (hpending : l.shutdownPending = true) :
    Moves { l with pc := .close fd }
  | idle (fd : Int) (trace : List ListenerEvent) (hpc : l.pc = .poll fd ∨ l.pc = .accept fd) :
    Moves { l with pc := .loop fd, trace }
  | interrupted (fd : Int) (trace : List ListenerEvent) (hpc : l.pc = .poll fd) :
    Moves { l with pc := .close fd, trace }
  | arrived (fd : Int) (trace : List ListenerEvent) (hpc : l.pc = .poll fd) :
    Moves { l with pc := .accept fd, trace }
  | accepted (fd client : Int) (trace : List ListenerEvent) (hpc : l.pc = .accept fd) :
    Moves { l with pc := .create fd client, trace }
  | created (fd client : Int) (id : ℕ) (trace : List ListenerEvent) (hpc : l.pc = .create fd client) :
    Moves { l with pc := .sending fd (.newClient id) settings.order, trace }
  | closed (fd : Int) (trace : List ListenerEvent) (hpc : l.pc = .close fd) :
    Moves { l with pc := .returned, trace }

variable {settings l} in
/-- Every step does one of these things. -/
theorem workerStep_moves {l' : ServerListener} {result : Int} {error : ℕ}
    (hstep : l.workerStep settings result error = some l') : l.Moves settings l' := by
  cases hpc : l.pc with
  | unborn | returned =>
    simp only [workerStep, hpc] at hstep
    contradiction
  | socket =>
    simp only [workerStep, hpc, check] at hstep
    split_ifs at hstep
    · cases hstep
      exact .givesUp _ _ _ (by rw [hpc]; rfl)
    · cases hstep
      exact .socket _ _ hpc
    · cases hstep
      exact .givesUp _ _ _ (by rw [hpc]; rfl)
  | setsockopt fd option =>
    simp only [workerStep, hpc, check] at hstep
    split_ifs at hstep
    · cases hstep
      exact .givesUp _ _ _ (by rw [hpc]; rfl)
    · cases hstep
      exact .option fd option _ hpc
  | bind fd =>
    simp only [workerStep, hpc, check] at hstep
    split_ifs at hstep
    · cases hstep
      exact .givesUp _ _ _ (by rw [hpc]; rfl)
    · cases hstep
      exact .bound fd _ hpc
  | listen fd =>
    simp only [workerStep, hpc] at hstep
    split_ifs at hstep
    · cases hstep
      exact .givesUp _ _ _ (by rw [hpc]; rfl)
    · cases hstep
      exact .ready fd _ hpc
  | sending fd message left =>
    cases left with
    | nil =>
      simp only [workerStep, hpc] at hstep
      cases hstep
      exact .sent fd message hpc
    | cons subscriber left =>
      simp only [workerStep, hpc] at hstep
      cases hstep
      exact .told fd message subscriber left hpc
  | waiting fd =>
    simp only [workerStep, hpc] at hstep
    split_ifs at hstep with hallowed
    cases hstep
    exact .allowed fd hpc hallowed
  | loop fd =>
    simp only [workerStep, hpc] at hstep
    cases hstep
    split_ifs with hpending
    · exact .leaves fd hpc hpending
    · exact .polls fd hpc ((Bool.not_eq_true _).mp hpending)
  | poll fd =>
    simp only [workerStep, hpc] at hstep
    split_ifs at hstep
    · cases hstep
      exact .interrupted fd _ hpc
    · cases hstep
      exact .givesUp _ _ _ (by rw [hpc]; rfl)
    · cases hstep
      exact .idle fd _ (.inl hpc)
    · cases hstep
      exact .arrived fd _ hpc
  | accept fd =>
    simp only [workerStep, hpc] at hstep
    split_ifs at hstep
    · cases hstep
      exact .idle fd _ (.inr hpc)
    · cases hstep
      exact .accepted fd result _ hpc
  | create fd client =>
    simp only [workerStep, hpc] at hstep
    split_ifs at hstep
    · cases hstep
      exact .givesUp _ _ _ (by rw [hpc]; rfl)
    · cases hstep
      exact .created fd client _ _ hpc
  | close fd =>
    simp only [workerStep, hpc, check] at hstep
    split_ifs at hstep
    · cases hstep
      exact .givesUp _ _ _ (by rw [hpc]; rfl)
    · cases hstep
      exact .closed fd _ hpc

/-- One step. A second call of `Startup` does nothing. -/
def step : ListenerAction → Option ServerListener
  | .startup => some (if l.pc = .unborn then { l with pc := .socket } else l)
  | .work result error => l.workerStep settings result error
  | .allow => some l.onMessage
  | .shutdown => some { l with shutdownPending := true }

end ServerListener

end TinySox
