import Mathlib.Logic.Function.Basic
import TinySox.Common.EffectProgram
import TinySox.IPEndpoint

/-!
# The programs that jobs run

The operations through which a job, or the factory that creates it, reaches the rest of
the process: the claim counters, the registry of handlers, the helpers of a handler, the
connection service and the resolver. Each of them is atomic. `State` is the list of a
job's claims with the counter values that its last operation on them returned.
-/

namespace TinySox

open TinySox.Common

/-- `User` -/
structure User where
  login : Bytes
  password : Bytes
  deriving DecidableEq, Repr

/-- The settings that the handshake reads. -/
structure Config where
  minCTimeSec : Int
  maxCTimeSec : Int
  udnsSearchDomainIsSet : Bool
  users : List User
  deriving DecidableEq, Repr

namespace Config

/-- `GetUser`: the user that the table has under this name. -/
def getUser (c : Config) (name : Bytes) : Option User := c.users.find? fun u => u.login = name

/-- `AddUser`: a map keeps the first user that is inserted under a name. -/
def addUser (c : Config) (user : User) : Config :=
  if (c.getUser user.login).isSome then c else { c with users := c.users ++ [user] }

/-- A user is found under the login it was added with. -/
theorem getUser_login {c : Config} {name : Bytes} {user : User}
    (hfound : c.getUser name = some user) : user.login = name := by
  have hlogin := List.find?_some hfound
  simpa using hlogin

/-- Adding a user makes its name known, and changes what is found under no other name. -/
theorem getUser_addUser (c : Config) (user : User) (name : Bytes) :
    (c.addUser user).getUser name =
      (c.getUser name).or (if user.login = name then some user else none) := by
  unfold addUser
  split_ifs with hknown hname hname
  · subst hname
    obtain ⟨found, hfound⟩ := Option.isSome_iff_exists.mp hknown
    rw [hfound, Option.some_or]
  · rw [Option.or_none]
  · simp [getUser, List.find?_append, hname]
  · simp [getUser, List.find?_append, hname]

end Config

/-- A pointer to a `HandlerClaim`. -/
abbrev ClaimRef := ℕ

/-- `HandlerClaimState`: a value of the counter, which is an `int`, and the handler it counts the
claims of. -/
structure HandlerClaimState where
  counter : Int
  handlerID : ℕ
  deriving DecidableEq, Repr

/-- `State`: the vectors `handlerClaims` and `handlerClaimStates`, entry by entry. -/
structure State where
  entries : List (ClaimRef × HandlerClaimState)
  deriving DecidableEq, Repr

namespace State

/-- The default constructor. -/
def empty : State := ⟨[]⟩

/-- `handlerClaims` -/
def handlerClaims (s : State) : List ClaimRef := s.entries.map Prod.fst

/-- `handlerClaimStates` -/
def handlerClaimStates (s : State) : List HandlerClaimState := s.entries.map Prod.snd

end State

/-- `IJobResult` with its three kinds. -/
inductive JobResult
  | terminal (state : State)
  | newClient (handlerID : ℕ)
  | modeConnect (state : State)
  deriving DecidableEq, Repr

/-- `JobResultType` -/
inductive JobResultType
  | terminal
  | newClient
  | clientModeConnect
  deriving DecidableEq, Repr

/-- `resultType` -/
def JobResult.resultType : JobResult → JobResultType
  | .terminal _ => .terminal
  | .newClient _ => .newClient
  | .modeConnect _ => .clientModeConnect

/-- `HANDLER_ERROR (UINT64_MAX-100)`: every larger id is an error code. -/
def handlerError : ℕ := 2 ^ 64 - 1 - 100

/-- `HANDLER_ERROR_CONN_REFUSED (UINT64_MAX-1)` -/
def handlerErrorConnRefused : ℕ := 2 ^ 64 - 1 - 1

/-- `HANDLER_ERROR_NET_UNAVAIL (UINT64_MAX-2)` -/
def handlerErrorNetUnavail : ℕ := 2 ^ 64 - 1 - 2

/-- `timeval` -/
structure Timeval where
  tvSec : Int
  tvUsec : Int
  deriving DecidableEq, Repr

/-- What a program asks the rest of the process for. A helper is named by its handler. -/
inductive JobOp
  /-- `std::make_shared<HandlerClaim>(id)` -/
  | newClaim (id : ℕ)
  | claim (c : ClaimRef)
  | disclaim (c : ClaimRef)
  | getState (c : ClaimRef)
  | getHandler (id : ℕ)
  /-- the reader's `Transfer` -/
  | transferIn (id len : ℕ) (allowPartial : Bool)
  /-- the writer's `Transfer` of these bytes, not partial -/
  | transferOut (id : ℕ) (data : Bytes)
  | connectAndCreateHandler (target : IPEndpoint) (timeout : Timeval)
  | disposeHandler (id : ℕ)
  | getsockname (fd : Int)
  | dnsNew
  | dnsOpen
  | dnsResolveA6 (name : Bytes) (nosrch : Bool)
  | dnsResolveA4 (name : Bytes) (nosrch : Bool)
  | dnsClose
  | dnsFree
  deriving DecidableEq, Repr

/-- What a transfer into a buffer returns, and the bytes it stored there. -/
structure TransferIn where
  ret : Int
  data : Bytes
  deriving DecidableEq, Repr

/-- An address record of a resolver's answer. -/
abbrev AddrRecord (len : ℕ) := { raw : Bytes // raw.length = len }

/-- The type of the answer to an operation. -/
@[reducible] def JobOp.Answer : JobOp → Type
  | .newClaim _ => ClaimRef
  | .claim _ | .disclaim _ | .getState _ => HandlerClaimState
  -- the descriptor of a registered handler with its helpers
  | .getHandler _ => Option Int
  | .transferIn _ _ _ => TransferIn
  | .transferOut _ _ => Int
  | .connectAndCreateHandler _ _ => ℕ
  | .disposeHandler _ => Unit
  -- nothing if the call fails
  | .getsockname _ => Option SockAddr
  -- whether the call succeeds
  | .dnsNew | .dnsOpen => Bool
  -- the records of the answer, if `dns_status` is 0
  | .dnsResolveA6 _ _ => Option (List (AddrRecord ipv6AddrLen))
  | .dnsResolveA4 _ _ => Option (List (AddrRecord ipv4AddrLen))
  | .dnsClose | .dnsFree => Unit

/-- A program that may leave with an `R`. -/
abbrev JobProg (R A : Type) := Prog JobOp.Answer R A

namespace JobProg

variable {R : Type}

/-- A new claim object, which nobody claims yet. -/
abbrev newClaim (id : ℕ) : JobProg R ClaimRef := .perform (JobOp.newClaim id)

/-- `HandlerClaim::Claim` -/
abbrev claim (c : ClaimRef) : JobProg R HandlerClaimState := .perform (JobOp.claim c)

/-- `HandlerClaim::Disclaim` -/
abbrev disclaim (c : ClaimRef) : JobProg R HandlerClaimState := .perform (JobOp.disclaim c)

/-- `HandlerClaim::GetState` -/
abbrev getState (c : ClaimRef) : JobProg R HandlerClaimState := .perform (JobOp.getState c)

/-- `GetHandler` and `CommHandler::IsValid`: the descriptor, if the handler is registered. -/
abbrev getHandler (id : ℕ) : JobProg R (Option Int) := .perform (JobOp.getHandler id)

/-- `reader->Transfer(buff, len, allowPartial)` -/
abbrev transferIn (id len : ℕ) (allowPartial : Bool) : JobProg R TransferIn :=
  .perform (JobOp.transferIn id len allowPartial)

/-- `writer->Transfer(buff, len, false)` with the bytes that the buffer holds -/
abbrev transferOut (id : ℕ) (data : Bytes) : JobProg R Int := .perform (JobOp.transferOut id data)

/-- `ConnectAndCreateHandler`: the id of the new handler, or an error code. -/
abbrev connectAndCreateHandler (target : IPEndpoint) (timeout : Timeval) : JobProg R ℕ :=
  .perform (JobOp.connectAndCreateHandler target timeout)

/-- `DisposeHandler` -/
abbrev disposeHandler (id : ℕ) : JobProg R Unit := .perform (JobOp.disposeHandler id)

/-- `getsockname` -/
abbrev getsockname (fd : Int) : JobProg R (Option SockAddr) := .perform (JobOp.getsockname fd)

/-- `dns_new` -/
abbrev dnsNew : JobProg R Bool := .perform JobOp.dnsNew

/-- `dns_open` -/
abbrev dnsOpen : JobProg R Bool := .perform JobOp.dnsOpen

/-- `dns_resolve_a6` and `dns_status` -/
abbrev dnsResolveA6 (name : Bytes) (nosrch : Bool) :
    JobProg R (Option (List (AddrRecord ipv6AddrLen))) := .perform (JobOp.dnsResolveA6 name nosrch)

/-- `dns_resolve_a4` and `dns_status` -/
abbrev dnsResolveA4 (name : Bytes) (nosrch : Bool) :
    JobProg R (Option (List (AddrRecord ipv4AddrLen))) := .perform (JobOp.dnsResolveA4 name nosrch)

/-- `dns_close` -/
abbrev dnsClose : JobProg R Unit := .perform JobOp.dnsClose

/-- `dns_free` -/
abbrev dnsFree : JobProg R Unit := .perform JobOp.dnsFree

end JobProg

namespace State

variable {R : Type}

/-- Apply an operation to every claim, and collect the states it returns. -/
def refresh (op : ClaimRef → JobProg R HandlerClaimState) :
    List ClaimRef → JobProg R (List (ClaimRef × HandlerClaimState))
  | [] => pure []
  | c :: rest => do
    let s ← op c
    let entries ← refresh op rest
    pure ((c, s) :: entries)

/-- `ClaimAllHandlers` -/
def claimAllHandlers (s : State) : JobProg R State := do
  let entries ← refresh JobProg.claim s.handlerClaims
  pure ⟨entries⟩

/-- `DisclaimAllHandlers` -/
def disclaimAllHandlers (s : State) : JobProg R State := do
  let entries ← refresh JobProg.disclaim s.handlerClaims
  pure ⟨entries⟩

/-- `AddHandler` -/
def addHandler (s : State) (id : ℕ) : JobProg R State := do
  let entries ← refresh JobProg.getState s.handlerClaims
  let newClaim ← JobProg.newClaim id
  let newState ← JobProg.getState newClaim
  pure ⟨entries ++ [(newClaim, newState)]⟩

/-- `AddHandlerWithClaim` -/
def addHandlerWithClaim (s : State) (id : ℕ) : JobProg R State := do
  let entries ← refresh JobProg.getState s.handlerClaims
  let newClaim ← JobProg.newClaim id
  let newState ← JobProg.claim newClaim
  pure ⟨entries ++ [(newClaim, newState)]⟩

end State

/-- A claim object that did not exist is none of those whose handlers are known. -/
theorem owners_update {owner : ClaimRef → Option ℕ} {refs : List ClaimRef} {ids : List ℕ}
    {c : ClaimRef} (id : ℕ) (howns : refs.map owner = ids.map some) (hnew : owner c = none) :
    refs.map (Function.update owner c (some id)) = ids.map some := by
  rw [← howns]
  apply List.map_congr_left
  intro c' hc'
  apply Function.update_of_ne
  rintro rfl
  have hmem : owner c' ∈ ids.map some := by
    rw [← howns]
    exact List.mem_map_of_mem hc'
  rw [hnew] at hmem
  simp at hmem

end TinySox
