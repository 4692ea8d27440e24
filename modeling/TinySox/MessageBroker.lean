import Mathlib.Algebra.GroupWithZero.Nat
import Mathlib.Data.Finset.Basic
import TinySox.Common.LabelledRun
import TinySox.Common.Mutex

/-!
# The message broker

`MessageBroker::SendMessage` in its two builds, on any number of threads. Both call the subscribers
outside `opLock`, so what a subscriber does may send again on the same thread. The debug build keeps
a table of the threads that are sending. An entry is a pointer to the set of senders, a local
variable of the outermost call, and a call that finds its own source in the set gives up.

The subscribers are fixed, and what the code on a thread will send is given as a tree.
-/

namespace TinySox

open TinySox.Common

/-- `MsgType` -/
inductive MsgType
  | shutdown
  | jobComplete
  | startupReady
  | startupContinue
  deriving DecidableEq, Repr

/-- `IMessage`. The payload is what its kinds add. -/
structure IMessage (Payload : Type) where
  msgType : MsgType
  payload : Payload
  deriving DecidableEq, Repr

/-- The subscribers, in the order of the set, and what they are ready for. -/
structure Subscribers (Subscriber : Type) where
  subscribers : List Subscriber
  readyForMessage : Subscriber → MsgType → Bool

/-- `NDEBUG` is defined for the release build. -/
inductive Build
  | release
  | debug
  deriving DecidableEq, Repr

/-- The sends of a piece of code, one after another. Each says what the subscribers send while they
handle the message. -/
inductive Sends (Subscriber Source Payload : Type)
  | done
  | send (source : Source) (message : IMessage Payload)
      (onMessage : Subscriber → Sends Subscriber Source Payload) (next : Sends Subscriber Source Payload)

/-- What others can see of the sends of a thread. -/
inductive BrokerEvent (Subscriber Source Payload : Type)
  /-- `subscriber->OnMessage(source,message)` -/
  | onMessage (subscriber : Subscriber) (source : Source) (message : IMessage Payload)
  /-- `logger->Error()<<"recursion detected while sending a message of type "<<message.msgType` -/
  | recursionDetected (source : Source) (message : IMessage Payload)
  deriving DecidableEq, Repr

/-- A pointer to the variable `newSenders` of a call: the thread, and how many calls are below. -/
structure SetRef where
  thread : ℕ
  depth : ℕ
  deriving DecidableEq, Repr

/-- Where a call of `SendMessage` stands. -/
inductive SendPc
  | lock
  /-- copies the subscribers, and checks for recursion in the debug build -/
  | enter
  /-- leaves the first critical section, to return if a recursion was detected -/
  | enterUnlock (recursion : Bool)
  /-- `for(const auto &subscriber: curSubscribers)` -/
  | deliver
  | finishLock
  /-- `curSenders->erase(source)` and what follows -/
  | finish
  | finishUnlock
  deriving DecidableEq, Repr

section Broker

variable {Subscriber Source Payload : Type}

/-- A call of `SendMessage`, with what is left of the `OnMessage` that it has called. -/
structure SendFrame (Subscriber Source Payload : Type) where
  source : Source
  message : IMessage Payload
  onMessage : Subscriber → Sends Subscriber Source Payload
  pc : SendPc
  curSenders : Option SetRef
  curSubscribers : List Subscriber
  running : Sends Subscriber Source Payload

/-- The call before it does anything. -/
def SendFrame.ofSend (source : Source) (message : IMessage Payload)
    (onMessage : Subscriber → Sends Subscriber Source Payload) : SendFrame Subscriber Source Payload :=
  ⟨source, message, onMessage, .lock, none, [], .done⟩

/-- A thread: what it has still to send, the calls under way with the innermost first, and what
others have seen. -/
structure SendThread (Subscriber Source Payload : Type) where
  code : Sends Subscriber Source Payload
  stack : List (SendFrame Subscriber Source Payload)
  trace : List (BrokerEvent Subscriber Source Payload)

/-- The broker and all threads. `newSenders` are the sets on their stacks, as long as they live. -/
structure MessageBroker (Subscriber Source Payload : Type) where
  opLock : Option ℕ
  callers : ℕ → Option SetRef
  newSenders : SetRef → Option (Finset Source)
  threads : List (SendThread Subscriber Source Payload)

namespace MessageBroker

/-- No thread has sent anything. -/
def initial (programs : List (Sends Subscriber Source Payload)) :
    MessageBroker Subscriber Source Payload where
  opLock := none
  callers _ := none
  newSenders _ := none
  threads := programs.map fun code => ⟨code, [], []⟩

variable (s : MessageBroker Subscriber Source Payload) (t : ℕ)
  (thread : SendThread Subscriber Source Payload)

/-- The thread goes on like this. -/
def put : MessageBroker Subscriber Source Payload := { s with threads := s.threads.set t thread }

/-- `SendMessage` is called, and has its own set. -/
def call (frame : SendFrame Subscriber Source Payload) : MessageBroker Subscriber Source Payload :=
  { s with newSenders := Function.update s.newSenders ⟨t, thread.stack.length⟩ (some ∅) }.put t
    { thread with stack := frame :: thread.stack }

/-- `SendMessage` returns, and its set is gone. -/
def leave (below : List (SendFrame Subscriber Source Payload)) :
    MessageBroker Subscriber Source Payload :=
  { s with newSenders := Function.update s.newSenders ⟨t, below.length⟩ none }.put t
    { thread with stack := below }

/-- The innermost call goes on like this. -/
def top (frame : SendFrame Subscriber Source Payload)
    (below : List (SendFrame Subscriber Source Payload)) : MessageBroker Subscriber Source Payload :=
  s.put t { thread with stack := frame :: below }

/-- Something is written to the set. -/
def write (ref : SetRef) (senders : Finset Source) : MessageBroker Subscriber Source Payload :=
  { s with newSenders := Function.update s.newSenders ref (some senders) }

variable [DecidableEq Source] (env : Subscribers Subscriber)

/-- The first critical section of the debug build. A pointer to a set that is gone is not followed. -/
def enterDebug (f : SendFrame Subscriber Source Payload)
    (below : List (SendFrame Subscriber Source Payload)) :
    Option (MessageBroker Subscriber Source Payload) :=
  let accept (ref : SetRef) : SendFrame Subscriber Source Payload :=
    { f with curSenders := some ref, curSubscribers := env.subscribers, pc := .enterUnlock false }
  match s.callers t with
  | none =>
    let own : SetRef := ⟨t, below.length⟩
    (s.newSenders own).map fun senders =>
      { s.write own (insert f.source senders) with callers := Function.update s.callers t (some own) }.top
        t thread (accept own) below
  | some ref =>
    (s.newSenders ref).map fun senders =>
      if f.source ∈ senders then
        s.top t { thread with trace := thread.trace ++ [.recursionDetected f.source f.message] }
          { f with curSenders := some ref, pc := .enterUnlock true } below
      else (s.write ref (insert f.source senders)).top t thread (accept ref) below

/-- The last critical section of the debug build. -/
def finishDebug (f : SendFrame Subscriber Source Payload)
    (below : List (SendFrame Subscriber Source Payload)) :
    Option (MessageBroker Subscriber Source Payload) :=
  f.curSenders.bind fun ref => (s.newSenders ref).map fun senders =>
    let left := senders.erase f.source
    { s.write ref left with
      callers := if left = ∅ then Function.update s.callers t none else s.callers }.top t thread
      { f with pc := .finishUnlock } below

/-- The next step of the innermost call. -/
def frameStep (build : Build) (f : SendFrame Subscriber Source Payload)
    (below : List (SendFrame Subscriber Source Payload)) :
    Option (MessageBroker Subscriber Source Payload) :=
  match f.pc with
  | .lock =>
    if s.opLock = none then some ({ s with opLock := some t }.top t thread { f with pc := .enter } below)
    else none
  | .enter =>
    match build with
    | .release => some (s.top t thread
        { f with curSubscribers := env.subscribers, pc := .enterUnlock false } below)
    | .debug => s.enterDebug t thread env f below
  | .enterUnlock recursion =>
    if recursion then some ({ s with opLock := none }.leave t thread below)
    else some ({ s with opLock := none }.top t thread { f with pc := .deliver } below)
  | .deliver =>
    match f.running with
    | .send source message onMessage next =>
      some (s.call t { thread with stack := { f with running := next } :: below }
        (.ofSend source message onMessage))
    | .done =>
      match f.curSubscribers with
      | [] =>
        match build with
        | .release => some (s.leave t thread below)
        | .debug => some (s.top t thread { f with pc := .finishLock } below)
      | subscriber :: rest =>
        if env.readyForMessage subscriber f.message.msgType then
          some (s.top t { thread with trace := thread.trace ++ [.onMessage subscriber f.source f.message] }
            { f with curSubscribers := rest, running := f.onMessage subscriber } below)
        else some (s.top t thread { f with curSubscribers := rest } below)
  | .finishLock =>
    if s.opLock = none then some ({ s with opLock := some t }.top t thread { f with pc := .finish } below)
    else none
  | .finish => s.finishDebug t thread f below
  | .finishUnlock => some ({ s with opLock := none }.leave t thread below)

/-- The next step of a thread. -/
def threadStep (build : Build) : Option (MessageBroker Subscriber Source Payload) :=
  match thread.stack with
  | f :: below => s.frameStep t thread env build f below
  | [] =>
    match thread.code with
    | .done => none
    | .send source message onMessage next =>
      some (s.call t { thread with code := next } (.ofSend source message onMessage))

end MessageBroker

/-- One step, of the thread with this number. -/
def MessageBroker.step [DecidableEq Source] (env : Subscribers Subscriber) (build : Build)
    (s : MessageBroker Subscriber Source Payload) (t : ℕ) :
    Option (MessageBroker Subscriber Source Payload) :=
  s.threads[t]?.bind fun thread => s.threadStep t thread env build

end Broker

end TinySox
