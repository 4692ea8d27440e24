import TinySox.Handshake
import TinySox.SocksFormat

/-!
# What a handshake has read, sent and dialled

The transcript of a handshake is the ghost state of its contracts. A contract of this kind
says when a connection may be attempted, and what is known of the answers at each point
of the conversation. The rules here are for the building blocks of the handshake.
-/

namespace TinySox

open TinySox.Common

/-- A connection attempt with its outcome. -/
structure Dial where
  target : IPEndpoint
  timeout : Timeval
  answer : ℕ
  deriving DecidableEq, Repr

/-- The conversation so far. -/
structure Transcript where
  received : Bytes
  /-- some transfer from the client returned less than was asked for -/
  short : Bool
  /-- what was sent, with the result of the transfer -/
  replies : List (Bytes × Int)
  dials : List Dial
  deriving DecidableEq, Repr

namespace Transcript

/-- Nothing has happened. -/
def empty : Transcript := ⟨[], false, [], []⟩

/-- Bytes arrive that complete a transfer. -/
def receive (g : Transcript) (data : Bytes) : Transcript := { g with received := g.received ++ data }

/-- Bytes are handed to the writer. -/
def reply (g : Transcript) (data : Bytes) (r : Int) : Transcript :=
  { g with replies := g.replies ++ [(data, r)] }

/-- The transcript after one more operation. -/
def record (g : Transcript) : (o : JobOp) → o.Answer → Transcript
  | .transferIn _ len _, (r : TransferIn) =>
    { g.receive r.data with short := g.short || decide (r.ret < len) }
  | .transferOut _ data, (r : Int) => g.reply data r
  | .connectAndCreateHandler target timeout, (answer : ℕ) =>
    { g with dials := g.dials ++ [⟨target, timeout, answer⟩] }
  | _, _ => g

/-- What was received, replied or dialled before stays where it is. -/
structure Extends (g g' : Transcript) : Prop where
  received : g.received <+: g'.received
  replies : g.replies <+: g'.replies
  dials : g.dials <+: g'.dials

/-- Recording an operation extends the transcript. -/
theorem extends_record (g : Transcript) (o : JobOp) (a : o.Answer) : g.Extends (g.record o a) := by
  cases o with
  | transferIn id len allowPartial =>
    exact ⟨List.prefix_append _ _, List.prefix_refl _, List.prefix_refl _⟩
  | transferOut id data => exact ⟨List.prefix_refl _, List.prefix_append _ _, List.prefix_refl _⟩
  | connectAndCreateHandler target timeout =>
    exact ⟨List.prefix_refl _, List.prefix_refl _, List.prefix_append _ _⟩
  | _ => exact ⟨List.prefix_refl _, List.prefix_refl _, List.prefix_refl _⟩

end Transcript

/-- The transcript of a list of events. -/
def transcript (t : List (Event JobOp.Answer)) : Transcript :=
  t.foldl (fun g e => g.record e.1 e.2) .empty

/-- A transfer stores at most what is asked for, and all of it if it says so. -/
def JobOp.WellFormed : (o : JobOp) → o.Answer → Prop
  | .transferIn _ len _, (r : TransferIn) =>
    r.data.length ≤ len ∧ ((len : Int) ≤ r.ret → r.data.length = len)
  | _, _ => True

/-- Some connections may be attempted in some states of the conversation, and `world` tells what
is known of the answers in each of them. -/
def conversation (mayDial : Transcript → IPEndpoint → Timeval → Prop)
    (world : Transcript → (o : JobOp) → o.Answer → Prop) : Contract JobOp.Answer Transcript where
  may g o :=
    match o with
    | .connectAndCreateHandler target timeout => mayDial g target timeout
    | _ => True
  gives := world
  next := Transcript.record

/-- Every answer that the world can give is well formed. -/
def WorldSound (world : Transcript → (o : JobOp) → o.Answer → Prop) : Prop :=
  ∀ g o a, world g o a → o.WellFormed a

/-- Storing at the front puts the block there. -/
@[simp] theorem take_storeAt_front (buff block : Bytes) :
    (storeAt buff 0 block).take block.length = block := by
  rw [storeAt, List.take_zero, List.nil_append, List.take_left]

/-- The first byte of a block is the first byte of the buffer. -/
@[simp] theorem byteAt_storeAt_front (buff rest : Bytes) (b : UInt8) :
    byteAt (storeAt buff 0 (b :: rest)) 0 = b := rfl

/-- The second byte of a block is the second byte of the buffer. -/
@[simp] theorem byteAt_storeAt_second (buff rest : Bytes) (b c : UInt8) :
    byteAt (storeAt buff 0 (b :: c :: rest)) 1 = c := rfl

namespace Handshake

variable {A : Type} {mayDial : Transcript → IPEndpoint → Timeval → Prop}
  {world : Transcript → (o : JobOp) → o.Answer → Prop}
  {exits : JobResult → Transcript → Prop} {ends : A → Transcript → Prop} {g : Transcript}

/-- A transfer from the client may return anything that the world allows. -/
theorem wp_transferIn {id len : ℕ} {allowPartial : Bool} {ends : TransferIn → Transcript → Prop}
    (hends : ∀ r : TransferIn, world g (.transferIn id len allowPartial) r →
      ends r { g.receive r.data with short := g.short || decide (r.ret < len) }) :
    (conversation mayDial world).wp exits ends (JobProg.transferIn id len allowPartial) g :=
  ⟨trivial, hends⟩

/-- And so may a transfer to the client. -/
theorem wp_transferOut {id : ℕ} {data : Bytes} {ends : Int → Transcript → Prop}
    (hends : ∀ r : Int, world g (.transferOut id data) r → ends r (g.reply data r)) :
    (conversation mayDial world).wp exits ends (JobProg.transferOut id data) g :=
  ⟨trivial, hends⟩

/-- Reading or changing claim counters is not part of the conversation. -/
theorem wp_refresh {op : ClaimRef → HandshakeProg HandlerClaimState} {refs : List ClaimRef}
    {ends : List (ClaimRef × HandlerClaimState) → Transcript → Prop}
    (hop : ∀ c (ends : HandlerClaimState → Transcript → Prop), (∀ s, ends s g) →
      (conversation mayDial world).wp exits ends (op c) g)
    (hends : ∀ entries, entries.map Prod.fst = refs → ends entries g) :
    (conversation mayDial world).wp exits ends (State.refresh op refs) g := by
  induction refs generalizing ends with
  | nil => exact hends [] rfl
  | cons c rest ih =>
    rw [State.refresh, Contract.wp_bind]
    refine hop c _ fun s => ?_
    rw [Contract.wp_bind]
    refine ih fun entries hentries => ?_
    exact hends ((c, s) :: entries) (by rw [List.map_cons, hentries])

/-- The claims are given up, whatever their counters were. -/
theorem wp_disclaimAllHandlers {state : State} {ends : State → Transcript → Prop}
    (hends : ∀ s : State, s.handlerClaims = state.handlerClaims → ends s g) :
    (conversation mayDial world).wp exits ends state.disclaimAllHandlers g := by
  rw [State.disclaimAllHandlers, Contract.wp_bind]
  refine wp_refresh (fun c ends hends => ⟨trivial, fun s _ => hends s⟩) fun entries hentries => ?_
  exact hends ⟨entries⟩ hentries

/-- The early exits end with a terminal result. -/
theorem wp_failWithDisclaim {state : State} (hexits : ∀ s, exits (.terminal s) g) :
    (conversation mayDial world).wp exits ends (failWithDisclaim state) g := by
  rw [failWithDisclaim, Contract.wp_bind]
  exact wp_disclaimAllHandlers fun s _ => hexits s

/-- A failed login is answered first. -/
theorem wp_sendAuthFail {state : State} {id : ℕ}
    (hexits : ∀ r s, exits (.terminal s) (g.reply [0x01, 0x01] r)) :
    (conversation mayDial world).wp exits ends (sendAuthFailWithDisclaim state id) g := by
  rw [sendAuthFailWithDisclaim, Contract.wp_bind]
  exact wp_transferOut fun r _ => wp_failWithDisclaim fun s => hexits r s

/-- A check is passed, or ends the job. -/
theorem wp_failUnless {ok : Bool} {state : State} {ends : Unit → Transcript → Prop}
    (hok : ok = true → ends () g) (hexits : ok = false → ∀ s, exits (.terminal s) g) :
    (conversation mayDial world).wp exits ends (failUnless ok state) g := by
  unfold failUnless
  cases ok with
  | true => exact hok rfl
  | false => exact wp_failWithDisclaim (hexits rfl)

/-- A field is read in full, or the job ends. -/
theorem wp_receive (hworld : WorldSound world) {state : State} {id len : ℕ} {buff : Bytes}
    {ends : Bytes → Transcript → Prop}
    (hfull : ∀ data, data.length = len →
      (∃ r : TransferIn, r.data = data ∧ world g (.transferIn id len false) r) →
      ends (storeAt buff 0 data) (g.receive data))
    (hshort : ∀ r : TransferIn, world g (.transferIn id len false) r → r.ret < len →
      ∀ s, exits (.terminal s) { g.receive r.data with short := true }) :
    (conversation mayDial world).wp exits ends (receive state id buff len) g := by
  rw [receive, Contract.wp_bind]
  refine wp_transferIn fun r hr => ?_
  rw [Contract.wp_bind]
  refine wp_failUnless (fun hok => ?_) fun hfail s => ?_
  · have hle : (len : Int) ≤ r.ret := of_decide_eq_true hok
    have hlen := (hworld _ _ _ hr).2 hle
    have hnot : decide (r.ret < len) = false := decide_eq_false (Int.not_lt.mpr hle)
    rw [hnot, Bool.or_false]
    exact hfull r.data hlen ⟨r, rfl, hr⟩
  · have hlt : r.ret < len := Int.not_le.mp (of_decide_eq_false hfail)
    rw [decide_eq_true hlt, Bool.or_true]
    exact hshort r hr hlt s

/-- A user table with one user, whose password is a single byte. -/
def oneUser : Config := ⟨5, 30, false, [⟨[117], [112]⟩]⟩

/-- No text is the text form of an address. -/
def noLiterals : InetPton :=
  ⟨fun _ => none, fun _ => none, InetPton.length_none ipv4AddrLen, InetPton.length_none ipv6AddrLen⟩

/-- The state of a new client's handshake. -/
def oneHandler : State := ⟨[(0, ⟨1, 1⟩)]⟩

/-- The field arrives in full. -/
def field (data : Bytes) : Event JobOp.Answer :=
  ⟨.transferIn 1 data.length false, ⟨data.length, data⟩⟩

/-- The bytes are sent in full. -/
def sent (data : Bytes) : Event JobOp.Answer := ⟨.transferOut 1 data, (data.length : Int)⟩

end Handshake

end TinySox
