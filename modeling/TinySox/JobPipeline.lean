import TinySox.Common.Custody
import TinySox.Common.LabelledRun
import TinySox.Common.ThreadPool
import TinySox.Handshake
import TinySox.TunnelJob

/-!
# The pipeline from results to jobs and back

`JobFactory`, the threads that run the jobs, the listener that accepts clients, and what they share:
the registry of `TCPCommService`, the descriptors of the process, and the claim objects. A task is
anything that will go on by itself: a listener that has created a handler and is to announce it, a
result that was sent, a call of `CreateJobsFromResult`, or a job. A step is one operation of one task,
in any order.

The counter of the claims wraps as an `int` does. The ids of the handlers have 64 bits in the
code and are natural numbers here; what is proved of the pipeline says so where it needs that none of
them has come to the error codes, that is, that there were no more than `2^64-101` handlers.

`discarded` keeps the tasks that a shutdown, the lack of a worker or the end of a listener puts an end
to, `disposals` the calls of `DisposeHandler`, and the holdings of a program what it has created,
claimed, disclaimed and disposed of. They are not part of the program.
-/

namespace TinySox

open TinySox.Common

/-- What a task has to do with each handler. -/
abbrev Custodian := Holdings ℕ ClaimRef

/-- `IJob`, with the state that its constructor has claimed. -/
inductive Job
  | clientHandshake (state : State)
  | tcpTunnel (state : State) (isReader : Bool)
  deriving DecidableEq, Repr

/-- How a task goes on after a program that does not leave with a result. -/
inductive Next
  /-- the dispatcher gives the jobs to workers -/
  | spawn (jobs : List Job)
  /-- the tunnel enters its main loop with the helpers of these handlers -/
  | copy (state : State) (reader writer : ℕ) (readerFd writerFd : Int)
  deriving DecidableEq, Repr

namespace JobFactory

/-- The loop over `handlerClaimStates`, which closes the sockets that nobody claims. -/
def disposeUnclaimed : List HandlerClaimState → JobProg JobResult Unit
  | [] => pure ()
  | cState :: rest =>
    if cState.counter < 1 then do
      JobProg.disposeHandler cState.handlerID
      disposeUnclaimed rest
    else
      disposeUnclaimed rest

/-- `CreateJobsFromResult`, with the constructors of the jobs. -/
def createJobsFromResult : JobResult → JobProg JobResult (List Job)
  | .terminal state => do
    disposeUnclaimed state.handlerClaimStates
    pure []
  | .newClient handlerID => do
    let state ← State.empty.addHandler handlerID
    let claimed ← state.claimAllHandlers
    pure [.clientHandshake claimed]
  | .modeConnect state => do
    let forReader ← state.claimAllHandlers
    let forWriter ← state.claimAllHandlers
    pure [.tcpTunnel forReader true, .tcpTunnel forWriter false]

end JobFactory

namespace TCPTunnel

variable {A : Type}

/-- `TerminalResultDisclaim` -/
def terminalResultDisclaim (state : State) : JobProg JobResult A := do
  let disclaimed ← state.disclaimAllHandlers
  .exit (.terminal disclaimed)

/-- `Job_TCPTunnel::Execute` up to its main loop. -/
def prepare (state : State) (isReader : Bool) : JobProg JobResult Next :=
  match state.handlerClaimStates with
  | [first, second] => do
    let reader := if isReader then second.handlerID else first.handlerID
    let writer := if isReader then first.handlerID else second.handlerID
    let rHandler ← JobProg.getHandler reader
    let wHandler ← JobProg.getHandler writer
    match rHandler, wHandler with
    | some readerFd, some writerFd => pure (.copy state reader writer readerFd writerFd)
    | _, _ => terminalResultDisclaim state
  | _ => terminalResultDisclaim state

end TCPTunnel

/-- What the jobs read of the configuration and of the host. -/
structure Settings where
  config : Config
  host : ByteOrder
  inet : InetPton
  tcpBuffSz : ℕ

/-- `Execute`, up to the main loop of a tunnel. -/
def Job.execute (env : Settings) : Job → JobProg JobResult Next
  | .clientHandshake state => do
    let done ← Handshake.execute env.config env.host env.inet state
    done.elim
  | .tcpTunnel state isReader => TCPTunnel.prepare state isReader

/-- The same stake for every handler of a state, by its claim. -/
def State.holdings (stake : ClaimRef → HandlerClaimState → Stake ClaimRef) (s : State) : Custodian :=
  fun id =>
    match s.entries.find? fun e => e.2.handlerID = id with
    | some e => stake e.1 e.2
    | none => .nothing

/-- A new client is announced once, a terminal result owes what it lists as unclaimed, and the
result of a handshake owes all that it lists. -/
def JobResult.holdings : JobResult → Custodian
  | .terminal state =>
    state.holdings fun c cState => if cState.counter < 1 then .owes (some c) else .nothing
  | .newClient handlerID => Function.update (fun _ => .nothing) handlerID (.owes none)
  | .modeConnect state => state.holdings fun c _ => .owes (some c)

/-- A handshake is the only one to claim its client, and the two directions of a tunnel share
their handlers. -/
def Job.holdings : Job → Custodian
  | .clientHandshake state => state.holdings fun c _ => .alone c 1
  | .tcpTunnel state _ => state.holdings fun c _ => .shared c

/-- The holdings after one more operation. -/
def recordHoldings (held : Custodian) : (o : JobOp) → o.Answer → Custodian
  | .newClaim id, (c : ClaimRef) => Function.update held id (.owes (some c))
  | .claim c, (cState : HandlerClaimState) =>
    Function.update held cState.handlerID
      (.alone c (((held cState.handlerID).claims.getD 0) + 1))
  | .disclaim c, (cState : HandlerClaimState) =>
    match held cState.handlerID with
    | .alone _ (n + 1) =>
      Function.update held cState.handlerID (if n = 0 then .owes (some c) else .alone c n)
    | .shared _ =>
      Function.update held cState.handlerID
        (if cState.counter < 1 then .owes (some c) else .nothing)
    | _ => held
  | .connectAndCreateHandler _ _, (id : ℕ) =>
    if handlerError < id then held else Function.update held id (.owes none)
  | .disposeHandler id, _ => Function.update held id .nothing
  | _, _ => held

/-- What the tasks share. -/
structure Shared where
  /-- the descriptor of each registered handler -/
  commHandlers : ℕ → Option Int
  handlerIdCounter : ℕ
  /-- the descriptor in the helpers that were created with a handler, which jobs may keep -/
  helperFds : ℕ → Option Int
  openFds : Int → Bool
  claims : ClaimRef → Option HandlerClaimState
  disposals : List ℕ

/-- What an `int` makes of a value. -/
def wrapInt (n : Int) : Int := n.bmod (2 ^ 32)

/-- Nothing happens to a small value. -/
theorem wrapInt_eq {n : Int} (hlow : -2 ^ 31 ≤ n) (hhigh : n < 2 ^ 31) : wrapInt n = n :=
  Int.bmod_eq_of_le_mul_two (by omega) (by omega)

/-- It does not matter where a sum is wrapped. -/
theorem wrapInt_add (n d : Int) : wrapInt (wrapInt n + d) = wrapInt (n + d) := Int.bmod_add_bmod

namespace Shared

/-- The handler is registered. -/
def isRegistered (sh : Shared) (id : ℕ) : Bool := (sh.commHandlers id).isSome

/-- `socket` or `accept` may return this descriptor. -/
def canOpen (sh : Shared) (fd : Int) : Bool := decide (0 ≤ fd ∧ sh.openFds fd = false)

/-- No handler was given the number of an error: there were no more than `2^64-101` of them. -/
def FewHandlers (sh : Shared) : Prop := sh.handlerIdCounter ≤ handlerError

instance (sh : Shared) : Decidable sh.FewHandlers :=
  inferInstanceAs (Decidable (sh.handlerIdCounter ≤ handlerError))

/-- `CreateHandlerFromSocket`, on a descriptor that was just opened. -/
def createHandlerFromSocket (sh : Shared) (fd : Int) : Shared :=
  { sh with
    commHandlers := Function.update sh.commHandlers (sh.handlerIdCounter + 1) (some fd)
    handlerIdCounter := sh.handlerIdCounter + 1
    helperFds := Function.update sh.helperFds (sh.handlerIdCounter + 1) (some fd)
    openFds := Function.update sh.openFds fd true }

/-- `GetHandler` and `CommHandler::IsValid` -/
def getHandler (sh : Shared) (id : ℕ) : Option Int := (sh.commHandlers id).filter fun fd => -1 < fd

/-- `DisposeHandler` -/
def disposeHandler (sh : Shared) (id : ℕ) : Shared :=
  match sh.commHandlers id with
  | some fd =>
    { sh with
      commHandlers := Function.update sh.commHandlers id none
      openFds := Function.update sh.openFds fd false
      disposals := id :: sh.disposals }
  -- "Cannot dispose already disposed handler id"
  | none => { sh with disposals := id :: sh.disposals }

/-- `counter.fetch_add(d)`, if the answer is what the counter is afterwards. -/
def fetchAdd (sh : Shared) (c : ClaimRef) (d : Int) (answer : HandlerClaimState) : Option Shared :=
  match sh.claims c with
  | some cState =>
    if answer = ⟨wrapInt (cState.counter + d), cState.handlerID⟩ then
      some { sh with claims := Function.update sh.claims c (some answer) }
    else none
  | none => none

/-- Perform the operation, if this can be its answer. A new connection gets the descriptor. -/
def perform (sh : Shared) (fd : Int) : (o : JobOp) → o.Answer → Option Shared
  | .newClaim id, (c : ClaimRef) =>
    if sh.claims c = none then some { sh with claims := Function.update sh.claims c (some ⟨0, id⟩) }
    else none
  | .claim c, (answer : HandlerClaimState) => sh.fetchAdd c 1 answer
  | .disclaim c, (answer : HandlerClaimState) => sh.fetchAdd c (-1) answer
  | .getState c, (answer : HandlerClaimState) =>
    if sh.claims c = some answer then some sh else none
  | .getHandler id, (answer : Option Int) => if sh.getHandler id = answer then some sh else none
  | .connectAndCreateHandler _ _, (id : ℕ) =>
    if sh.canOpen fd = true ∧ id = sh.handlerIdCounter + 1 then some (sh.createHandlerFromSocket fd)
    else if handlerError < id then some sh
    else none
  | .disposeHandler id, _ => some (sh.disposeHandler id)
  | _, _ => some sh

/-- The objects that count the claims. -/
def objects (sh : Shared) (c : ClaimRef) : Option (Int × ℕ) :=
  (sh.claims c).map fun cState => (cState.counter, cState.handlerID)

end Shared

/-- What goes on by itself. -/
inductive Task
  /-- a listener between `CreateHandlerFromSocket` and `SendMessage` -/
  | accepted (id : ℕ)
  /-- a result that was sent and is not yet processed -/
  | result (r : JobResult)
  /-- `CreateJobsFromResult`, or a job outside the main loop of a tunnel -/
  | program (p : JobProg JobResult Next) (held : Custodian)
  /-- the main loop of a tunnel, with the helpers of these handlers -/
  | copying (state : State) (reader writer : ℕ) (t : Tunnel)

/-- What the task has to do with each handler. -/
def Task.holdings : Task → Custodian
  | .accepted id => (JobResult.newClient id).holdings
  | .result r => r.holdings
  | .program _ held => held
  | .copying state _ _ _ => state.holdings fun c _ => .shared c

/-- What a task does next. -/
inductive TaskMove
  /-- the listener sends `NewClientJobResult` -/
  | announce
  /-- `CreateJobsFromResult` is called -/
  | process
  /-- the result is ignored, because a shutdown is pending -/
  | discard
  /-- the next operation, with its answer and the descriptor for a new connection -/
  | call (e : Event JobOp.Answer) (fd : Int)
  /-- the job returns its result -/
  | finish
  /-- there are workers for this many of the new jobs -/
  | spawn (workers : ℕ)
  /-- the main loop starts, with the helpers in the state they are in -/
  | enter (t : Tunnel)
  | copy (a : TunnelAction)
  /-- the main loop has ended -/
  | leave

/-- A new job. -/
def Job.start (env : Settings) (job : Job) : Task := .program (job.execute env) job.holdings

/-- What the tasks share after the move, the tasks that take the place of this one, and those that
are put an end to. -/
def Task.step (env : Settings) (sh : Shared) :
    Task → TaskMove → Option (Shared × List Task × List Task)
  | .accepted id, .announce =>
    -- "Error registering handler for incoming connection socket"
    if handlerError < id then some (sh, [], [.accepted id])
    else some (sh, [.result (.newClient id)], [])
  | .result r, .process =>
    some (sh, [.program (do
      let jobs ← JobFactory.createJobsFromResult r
      pure (.spawn jobs)) r.holdings], [])
  | .result r, .discard => some (sh, [], [.result r])
  | .program p held, .call e fd =>
    (p.follow [e]).bind fun q => (sh.perform fd e.1 e.2).map fun sh' =>
      (sh', [.program q (recordHoldings held e.1 e.2)], [])
  | .program (.exit r) _, .finish => some (sh, [.result r], [])
  | .program (.pure (.spawn jobs)) _, .spawn workers =>
    some (sh, (jobs.take workers).map (Job.start env), (jobs.drop workers).map (Job.start env))
  | .program (.pure (.copy state reader writer readerFd writerFd)) _, .enter t =>
    if t.pc = .loop ∧ t.reader.fd = readerFd ∧ t.writer.fd = writerFd then
      some (sh, [.copying state reader writer t], [])
    else none
  | .copying state reader writer t, .copy a =>
    (t.step env.tcpBuffSz a).map fun t' => (sh, [.copying state reader writer t'], [])
  | .copying state reader writer t, .leave =>
    if t.pc = .done then
      some (sh, [.program (TCPTunnel.terminalResultDisclaim state)
        (Task.copying state reader writer t).holdings], [])
    else none
  | _, _ => none

/-- The whole system. -/
structure Pipeline where
  shared : Shared
  tasks : List Task
  discarded : List Task

/-- What can happen next. -/
inductive PipelineAction
  /-- a listener accepts a client on this descriptor, and creates its handler -/
  | accept (fd : Int)
  /-- the task with this number makes a move -/
  | task (i : ℕ) (move : TaskMove)

namespace Pipeline

/-- Nobody has connected yet. Some descriptors are open for other purposes. -/
def initial (openFds : Int → Bool) : Pipeline :=
  ⟨⟨fun _ => none, 0, fun _ => none, openFds, fun _ => none, []⟩, [], []⟩

/-- One step of the system. -/
def step (env : Settings) (s : Pipeline) : PipelineAction → Option Pipeline
  | .accept fd =>
    if s.shared.canOpen fd then
      some { s with
        shared := s.shared.createHandlerFromSocket fd
        tasks := .accepted (s.shared.handlerIdCounter + 1) :: s.tasks }
    else none
  | .task i move =>
    s.tasks[i]?.bind fun task => (task.step env s.shared move).map fun next =>
      { shared := next.1
        tasks := replaceAt s.tasks i next.2.1
        discarded := s.discarded ++ next.2.2 }

end Pipeline

end TinySox
