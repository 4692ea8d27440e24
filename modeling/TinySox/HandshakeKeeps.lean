import TinySox.Handshake

/-!
# Talking to the client

Everything that a handshake does before it acts on a request: it reads from the client, answers it
with one of a few messages and asks the resolver, or gives up. A contract that allows these
operations and takes no notice of them is kept all along, and its ghost state is afterwards what it
was before.
-/

namespace TinySox

open TinySox.Common

/-- The operation is one of the resolver. -/
def JobOp.IsDns : JobOp → Prop
  | .dnsNew | .dnsOpen | .dnsResolveA6 _ _ | .dnsResolveA4 _ _ | .dnsClose | .dnsFree => True
  | _ => False

/-- The operation counts claims or asks for a handler or its socket. -/
def JobOp.IsAccounting : JobOp → Prop
  | .newClaim _ | .claim _ | .disclaim _ | .getState _ | .getHandler _ | .getsockname _ => True
  | _ => False

namespace Handshake

/-- A check that fails ends the job. -/
theorem keeps_failUnless {σ : Type} {C : Contract JobOp.Answer σ} {exits : JobResult → σ → Prop}
    {g : σ} {state : State}
    (hfails : C.Keeps exits g (failWithDisclaim state : HandshakeProg Unit)) (ok : Bool) :
    C.Keeps exits g (failUnless ok state) := by
  unfold failUnless
  split
  · exact Contract.Keeps.pure ()
  · exact hfails

/-- The messages that a client gets before its request. -/
inductive Announces (cfg : Config) : Bytes → Prop
  | noMethod : Announces cfg [0x05, 0xFF]
  | method (methods : Bytes) (m : UInt8)
      (hfirst : firstSupported (cfg.getUser []).isSome methods = some m) : Announces cfg [0x05, m]
  | admitted : Announces cfg [0x01, 0x00]
  | refused : Announces cfg [0x01, 0x01]

/-- The contract allows to talk to this client, takes no notice of it, and allows to give up the
handlers of this state. -/
structure Talks (cfg : Config) {σ : Type} (C : Contract JobOp.Answer σ)
    (exits : JobResult → σ → Prop) (g : σ) (state : State) (id : ℕ) : Prop where
  transferIn : ∀ len allowPartial, C.Keeps exits g (JobProg.transferIn id len allowPartial)
  announces : ∀ data, Announces cfg data → C.Keeps exits g (JobProg.transferOut id data)
  dns : ∀ o : JobOp, o.IsDns → C.Keeps exits g (Prog.perform o : JobProg JobResult o.Answer)
  fails : ∀ {A : Type} {ends : A → σ → Prop}, C.wp exits ends (failWithDisclaim state) g

namespace Talks

variable {σ : Type} {C : Contract JobOp.Answer σ} {exits : JobResult → σ → Prop} {g : σ}
  {state : State} {id : ℕ} {buff : Bytes} {cfg : Config}

/-- A failed login is answered before the job ends. -/
theorem sendAuthFail {A : Type} {ends : A → σ → Prop} (h : Talks cfg C exits g state id) :
    C.wp exits ends (sendAuthFailWithDisclaim state id) g := by
  unfold sendAuthFailWithDisclaim
  apply (h.announces _ .refused).wp_bind
  intro _
  exact h.fails

/-- A field is read. -/
theorem receive (h : Talks cfg C exits g state id) (len : ℕ) :
    C.Keeps exits g (receive state id buff len) := by
  unfold Handshake.receive
  apply (h.transferIn len false).bind
  intro r
  apply (keeps_failUnless h.fails _).bind
  intro _
  exact Contract.Keeps.pure _

/-- The method selection. -/
theorem selectMethod (h : Talks cfg C exits g state id) :
    C.Keeps exits g (selectMethod cfg state id buff) := by
  unfold Handshake.selectMethod
  apply (h.receive 1).bind
  intro buff
  apply (keeps_failUnless h.fails _).bind
  intro _
  apply (h.receive 1).bind
  intro buff
  apply (h.receive _).bind
  intro buff
  dsimp only
  split
  · apply (h.announces _ .noMethod).bind
    intro _
    apply (h.transferIn buffLen true).bind
    intro _
    exact h.fails
  · rename_i m hfirst
    apply (h.announces _ (.method _ m hfirst)).bind
    intro r
    apply (keeps_failUnless h.fails _).bind
    intro _
    exact Contract.Keeps.pure _

/-- The login. -/
theorem login (h : Talks cfg C exits g state id) : C.Keeps exits g (login cfg state id buff) := by
  unfold Handshake.login
  apply (h.receive 1).bind
  intro buff
  split
  · exact h.sendAuthFail
  · apply (h.receive 1).bind
    intro buff
    apply (h.receive _).bind
    intro nameBuff
    apply (h.receive 1).bind
    intro buff
    apply (h.receive _).bind
    intro buff
    dsimp only
    split
    · apply (h.announces _ .admitted).bind
      intro r
      apply (keeps_failUnless h.fails _).bind
      intro _
      exact Contract.Keeps.pure _
    · exact h.sendAuthFail

/-- An address of a fixed length. -/
theorem readRawAddress (h : Talks cfg C exits g state id) (len : ℕ) :
    C.Keeps exits g (readRawAddress state id buff len) := by
  unfold Handshake.readRawAddress
  apply (h.receive len).bind
  intro buff
  exact Contract.Keeps.pure _

/-- The resolver. -/
theorem resolve (h : Talks cfg C exits g state id) (dname : Bytes) :
    C.Keeps exits g (resolve cfg state dname) := by
  unfold Handshake.resolve
  apply (h.dns .dnsNew trivial).bind
  intro created
  apply (keeps_failUnless h.fails _).bind
  intro _
  apply (h.dns .dnsOpen trivial).bind
  intro opened
  split
  · apply (h.dns (.dnsResolveA6 _ _) trivial).bind
    intro ans6
    apply (h.dns (.dnsResolveA4 _ _) trivial).bind
    intro ans4
    apply (h.dns .dnsClose trivial).bind
    intro _
    apply (h.dns .dnsFree trivial).bind
    intro _
    exact Contract.Keeps.pure _
  · apply (h.dns .dnsFree trivial).bind
    intro _
    exact h.fails

/-- A name. -/
theorem readDomainName {inet : InetPton} (h : Talks cfg C exits g state id) :
    C.Keeps exits g (readDomainName cfg inet state id buff) := by
  unfold Handshake.readDomainName
  apply (h.receive 1).bind
  intro buff
  apply (h.receive _).bind
  intro buff
  dsimp only
  split
  · exact Contract.Keeps.pure _
  · apply (h.resolve _).bind
    intro destIPs
    exact Contract.Keeps.pure _

/-- A destination. -/
theorem readDestination {inet : InetPton} {atyp : UInt8} (h : Talks cfg C exits g state id) :
    C.Keeps exits g (readDestination cfg inet state id atyp buff) := by
  unfold Handshake.readDestination
  split_ifs
  · exact h.readRawAddress _
  · exact h.readRawAddress _
  · exact h.readDomainName
  · exact h.fails

/-- A request. -/
theorem readRequest {host : ByteOrder} {inet : InetPton} (h : Talks cfg C exits g state id) :
    C.Keeps exits g (readRequest cfg host inet state id buff) := by
  unfold Handshake.readRequest
  apply (h.receive 1).bind
  intro buff
  apply (keeps_failUnless h.fails _).bind
  intro _
  apply (h.receive 2).bind
  intro buff
  apply (h.receive 1).bind
  intro addrBuff
  apply h.readDestination.bind
  intro dest
  apply (h.receive 2).bind
  intro buff
  exact Contract.Keeps.pure _

/-- Everything before the check of the command. -/
theorem negotiate {host : ByteOrder} {inet : InetPton} (h : Talks cfg C exits g state id) :
    C.Keeps exits g (negotiate cfg host inet state id buff) := by
  unfold Handshake.negotiate
  apply h.selectMethod.bind
  intro selected
  dsimp only
  split
  · apply h.login.bind
    intro buff
    exact h.readRequest
  · exact h.readRequest

end Talks

/-- The same for whatever the client is told. -/
structure Chats {σ : Type} (C : Contract JobOp.Answer σ) (exits : JobResult → σ → Prop) (g : σ)
    (state : State) (id : ℕ) : Prop where
  transferIn : ∀ len allowPartial, C.Keeps exits g (JobProg.transferIn id len allowPartial)
  transferOut : ∀ data, C.Keeps exits g (JobProg.transferOut id data)
  dns : ∀ o : JobOp, o.IsDns → C.Keeps exits g (Prog.perform o : JobProg JobResult o.Answer)
  fails : ∀ {A : Type} {ends : A → σ → Prop}, C.wp exits ends (failWithDisclaim state) g

/-- What is allowed for every message is allowed for those of the negotiation. -/
theorem Chats.negotiate {σ : Type} {C : Contract JobOp.Answer σ} {exits : JobResult → σ → Prop}
    {g : σ} {state : State} {id : ℕ} {buff : Bytes} {cfg : Config} {host : ByteOrder}
    {inet : InetPton} (h : Chats C exits g state id) :
    C.Keeps exits g (Handshake.negotiate cfg host inet state id buff) :=
  have htalks : Talks cfg C exits g state id :=
    ⟨h.transferIn, fun data _ => h.transferOut data, h.dns, h.fails⟩
  htalks.negotiate

section Performs

variable {P : JobOp → Prop} (hP : ∀ {o : JobOp}, o.IsAccounting → P o) {R A : Type} {state : State}
  {host : ByteOrder}

/-- An operation on all claims. -/
theorem performs_refresh {op : ClaimRef → JobProg R HandlerClaimState}
    (hop : ∀ c, Contract.Performs P (op c)) (refs : List ClaimRef) :
    Contract.Performs P (State.refresh op refs) := by
  induction refs with
  | nil => exact Contract.Keeps.pure _
  | cons c rest ih =>
    unfold State.refresh
    apply (hop c).bind
    intro s
    apply ih.bind
    intro entries
    exact Contract.Keeps.pure _

include hP

/-- Giving up the claims. -/
theorem performs_disclaimAllHandlers :
    Contract.Performs P (state.disclaimAllHandlers : JobProg R State) := by
  unfold State.disclaimAllHandlers
  have hop (c : ClaimRef) : Contract.Performs P (JobProg.disclaim c : JobProg R HandlerClaimState) :=
    Contract.Performs.perform (hP trivial)
  apply (performs_refresh hop _).bind
  intro entries
  exact Contract.Keeps.pure _

/-- Failing. -/
theorem performs_failWithDisclaim {ends : A → Unit → Prop} :
    (Contract.allowing P).wp (fun _ _ => True) ends (failWithDisclaim state) () := by
  unfold failWithDisclaim
  apply (performs_disclaimAllHandlers hP).wp_bind
  intro _
  trivial

/-- A new handler joins the state. -/
theorem performs_addHandlerWithClaim (target : ℕ) :
    Contract.Performs P (state.addHandlerWithClaim target : JobProg R State) := by
  unfold State.addHandlerWithClaim
  have hop (c : ClaimRef) : Contract.Performs P (JobProg.getState c : JobProg R HandlerClaimState) :=
    Contract.Performs.perform (hP trivial)
  apply (performs_refresh hop _).bind
  intro entries
  apply (Contract.Performs.perform (P := P) (o := .newClaim target) (hP trivial)).bind
  intro (newClaim : ClaimRef)
  apply (Contract.Performs.perform (P := P) (o := .claim newClaim) (hP trivial)).bind
  intro newState
  exact Contract.Keeps.pure _

/-- A connection was made. -/
theorem performs_adoptTarget (target : ℕ) : Contract.Performs P (adoptTarget host target state) := by
  unfold adoptTarget
  apply (Contract.Performs.perform (P := P) (o := .getHandler target) (hP trivial)).bind
  intro (handler : Option Int)
  cases handler with
  | none => exact performs_failWithDisclaim hP
  | some fd =>
    apply (performs_addHandlerWithClaim hP target).bind
    intro finalState
    apply (Contract.Performs.perform (P := P) (o := .getsockname fd) (hP trivial)).bind
    intro (name : Option SockAddr)
    cases name with
    | none => exact performs_failWithDisclaim hP
    | some sa =>
      apply (keeps_failUnless (performs_failWithDisclaim hP) _).bind
      intro _
      exact Contract.Keeps.pure _

/-- The attempts to connect. -/
theorem performs_connectAny {port : UInt16} {ct : Timeval} {attempt : Attempt} {ips : List IPAddress}
    (hdial : ∀ ip ∈ ips, P (.connectAndCreateHandler ⟨ip, port⟩ ct)) :
    Contract.Performs P (connectAny host port ct attempt ips) := by
  induction ips generalizing attempt with
  | nil => exact Contract.Keeps.pure _
  | cons ip rest ih =>
    obtain ⟨hfirst, hrest⟩ := List.forall_mem_cons.mp hdial
    unfold connectAny
    apply (Contract.Performs.perform hfirst).bind
    intro (target : ℕ)
    split_ifs
    · exact ih hrest
    · exact performs_adoptTarget hP target

/-- The branch on the command. -/
theorem performs_perform {cfg : Config} {req : Request}
    (hdial : ∀ ip ∈ req.destIPs, P (.connectAndCreateHandler ⟨ip, req.port⟩
      (connectTimeout cfg req.destIPs.length))) :
    Contract.Performs P (perform cfg host state req) := by
  unfold perform
  split_ifs
  · exact performs_connectAny hP hdial
  · exact Contract.Keeps.pure _

end Performs

end Handshake

end TinySox
