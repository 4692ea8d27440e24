import TinySox.Common.LabelledRun
import TinySox.MainOptions
import TinySox.MessageBroker

/-!
# The first stage of the startup

`main` starts the listeners and waits until each of them has reported, or one has failed. Then it
enters a network namespace, changes its directory, its group and its user, as the options say, and
skips what is left once a shutdown is requested. The wait reads `StartupHandler`, and the checks read
`ShutdownHandler`. `SendMessage` tells the two one after the other, in the order of the addresses.

A system call may fail at any time. The signal that `ShutdownHandler` sends is left out: nobody waits
for it yet.
-/

namespace TinySox

/-- The subscribers of the broker. -/
inductive StartupSubscriber
  | shutdownHandler
  | startupHandler
  | jobDispatcher
  | listener (i : ℕ)
  deriving DecidableEq, Repr

/-- `ReadyForMessage` -/
def StartupSubscriber.readyForMessage : StartupSubscriber → MsgType → Bool
  | .shutdownHandler, msgType => msgType = .shutdown
  | .startupHandler, msgType => msgType = .startupReady || msgType = .shutdown
  | .jobDispatcher, msgType => msgType = .jobComplete
  | .listener _, msgType => msgType = .startupContinue

/-- What is sent in the first stage. -/
inductive StartupMessage
  | startupReady
  | shutdown (ec : Int)
  deriving DecidableEq, Repr

/-- `message.msgType` -/
def StartupMessage.msgType : StartupMessage → MsgType
  | .startupReady => .startupReady
  | .shutdown _ => .shutdown

/-- The fields of `StartupHandler`. The targets are the listeners. -/
structure StartupHandler where
  awaitedTargets : Finset ℕ
  shutdownRequested : Bool

/-- `StartupHandler::OnMessage` -/
def StartupHandler.onMessage (h : StartupHandler) (source : Option ℕ) : StartupMessage → StartupHandler
  | .shutdown _ => { h with shutdownRequested := true }
  | .startupReady =>
    match source with
    | some i => { h with awaitedTargets := h.awaitedTargets.erase i }
    | none => h

/-- The fields of `ShutdownHandler`. -/
structure ShutdownHandler where
  shutdownRequested : Bool
  ec : Int

/-- `ShutdownHandler::OnMessage` -/
def ShutdownHandler.onMessage (h : ShutdownHandler) : StartupMessage → ShutdownHandler
  | .shutdown ec => if h.shutdownRequested then h else ⟨true, ec⟩
  | .startupReady => h

/-- The calls that change what the process may do. -/
inductive PrivilegedCall
  | setns
  | chdir
  | setgid
  | setuid
  deriving DecidableEq, Repr

/-- Where `TCPServerListener::Worker` stands, up to its loop. -/
inductive StartupListener
  | unborn
  /-- it makes a socket that listens -/
  | setup
  /-- inside `SendMessage`, with these subscribers to go -/
  | sending (message : StartupMessage) (left : List StartupSubscriber)
  /-- `while(!startupAllowed.load()) {}` -/
  | waiting
  /-- it has returned after an error -/
  | failed
  deriving DecidableEq, Repr

/-- Where `main` stands. -/
inductive StartupPc
  /-- `listener->Startup()` of this listener -/
  | startListener (i : ℕ)
  /-- `startupHandler.WaitForStartupReady()` -/
  | wait
  /-- the condition of the block with this call -/
  | guard (call : PrivilegedCall)
  /-- `open(config.GetNetNS().c_str(),O_RDONLY)` -/
  | openNetNS
  /-- the condition right before `setns` -/
  | recheck
  | perform (call : PrivilegedCall)
  /-- inside `SendMessage` in this block, with these subscribers to go -/
  | sending (call : PrivilegedCall) (left : List StartupSubscriber)
  /-- behind the last block -/
  | secondStage
  deriving DecidableEq, Repr

/-- What has happened. -/
inductive StartupEvent
  /-- `StartupHandler` has got the report of this listener -/
  | ready (i : ℕ)
  /-- this listener sends `ShutdownMessage` -/
  | failed (i : ℕ)
  | performed (call : PrivilegedCall) (ok : Bool)
  deriving DecidableEq, Repr

/-- The two handlers, `main`, and the listeners. The trace is not part of the program. -/
structure StartupGate where
  startupHandler : StartupHandler
  shutdownHandler : ShutdownHandler
  pc : StartupPc
  listeners : List StartupListener
  trace : List StartupEvent

/-- What can happen next: a step of `main`, whose system call succeeds or not, or a step of a
listener, which fails with this error if it does. -/
inductive StartupAction
  | main (ok : Bool)
  | listener (i : ℕ) (ec : Option Int)
  deriving DecidableEq, Repr

/-- Where `main` goes after the block with this call. -/
def PrivilegedCall.next : PrivilegedCall → StartupPc
  | .setns => .guard .chdir
  | .chdir => .guard .setgid
  | .setgid => .guard .setuid
  | .setuid => .secondStage

namespace MainState

/-- The option for this call is given. -/
def configured (m : MainState) : PrivilegedCall → Bool
  | .setns => m.config.netns ≠ []
  | .chdir => (m.args.lookup (ascii "-cd")).isSome
  | .setgid => (m.args.lookup (ascii "-rg")).isSome
  | .setuid => (m.args.lookup (ascii "-ru")).isSome

/-- The value of the option is rejected: `gid<1` and `uid<1`. -/
def rejected (m : MainState) : PrivilegedCall → Bool
  | .setns | .chdir => false
  | .setgid => atoi ((m.args.lookup (ascii "-rg")).getD []) < 1
  | .setuid => atoi ((m.args.lookup (ascii "-ru")).getD []) < 1

/-- Where `main` goes if the condition of the block is true. -/
def enterBlock (m : MainState) (order : List StartupSubscriber) (call : PrivilegedCall) : StartupPc :=
  if call = .setns then .openNetNS
  else if m.rejected call then .sending call order
  else .perform call

end MainState

namespace StartupGate

/-- All threads are still to be started. -/
def initial (m : MainState) : StartupGate where
  startupHandler := ⟨Finset.range m.config.listenAddrs.length, false⟩
  shutdownHandler := ⟨false, 0⟩
  pc := .startListener 0
  listeners := List.replicate m.config.listenAddrs.length .unborn
  trace := []

/-- One subscriber is told. -/
def visit (s : StartupGate) (source : Option ℕ) (message : StartupMessage)
    (subscriber : StartupSubscriber) : StartupGate :=
  if subscriber.readyForMessage message.msgType then
    match subscriber with
    | .shutdownHandler => { s with shutdownHandler := s.shutdownHandler.onMessage message }
    | .startupHandler =>
      { s with
        startupHandler := s.startupHandler.onMessage source message
        trace := s.trace ++
          match source, message with
          | some i, .startupReady => [.ready i]
          | _, _ => [] }
    | .jobDispatcher | .listener _ => s
  else s

/-- `shutdownHandler.IsShutdownRequested()` -/
def isShutdownRequested (s : StartupGate) : Bool := s.shutdownHandler.shutdownRequested

variable (m : MainState) (order : List StartupSubscriber) (s : StartupGate)

/-- The next step of `main`. -/
def mainStep (ok : Bool) : Option StartupGate :=
  match s.pc with
  | .startListener i =>
    match s.listeners[i]? with
    | some _ => some { s with listeners := s.listeners.set i .setup, pc := .startListener (i + 1) }
    | none => some { s with pc := .wait }
  | .wait =>
    if s.startupHandler.shutdownRequested || decide (s.startupHandler.awaitedTargets = ∅) then
      some { s with pc := .guard .setns }
    else some s
  | .guard call =>
    some { s with
      pc := if !s.isShutdownRequested && m.configured call then m.enterBlock order call else call.next }
  | .openNetNS => some { s with pc := if ok then .recheck else .sending .setns order }
  | .recheck =>
    some { s with pc := if s.isShutdownRequested then PrivilegedCall.setns.next else .perform .setns }
  | .perform call =>
    some { s with
      pc := if ok then call.next else .sending call order
      trace := s.trace ++ [.performed call ok] }
  | .sending call [] => some { s with pc := call.next }
  | .sending call (subscriber :: left) =>
    some { s.visit none (.shutdown 1) subscriber with pc := .sending call left }
  | .secondStage => none

/-- The next step of a listener. -/
def listenerStep (i : ℕ) (ec : Option Int) : Option StartupGate :=
  match s.listeners[i]? with
  | some .setup =>
    match ec with
    | none => some { s with listeners := s.listeners.set i (.sending .startupReady order) }
    | some ec =>
      some { s with
        listeners := s.listeners.set i (.sending (.shutdown ec) order)
        trace := s.trace ++ [.failed i] }
  | some (.sending message []) =>
    let done : StartupListener :=
      match message with
      | .startupReady => .waiting
      | .shutdown _ => .failed
    some { s with listeners := s.listeners.set i done }
  | some (.sending message (subscriber :: left)) =>
    some { s.visit (some i) message subscriber with listeners := s.listeners.set i (.sending message left) }
  | _ => none

/-- One step, with the subscribers in this order. -/
def step : StartupAction → Option StartupGate
  | .main ok => s.mainStep m order ok
  | .listener i ec => s.listenerStep order i ec

end StartupGate

end TinySox
