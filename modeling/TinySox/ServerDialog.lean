import TinySox.HandshakeConnect
import TinySox.HandshakeKeeps

/-!
# The server's side of the dialog

What a handshake does with its client and with the resolver, seen from outside: which messages it
sends and when it listens, how much it reads and writes at most, and what becomes of the resolver
context. A request is followed field by field, so that it shows when it was read as a whole. The bytes
of the client and the outcome of every operation are left open.
-/

namespace TinySox

open TinySox.Common

/-- The fields of a request, in their order. -/
inductive RequestField
  | version
  /-- with the reserved byte behind it -/
  | command
  | addrType
  /-- an address, or the length of a name -/
  | address
  | name
  | port
  deriving DecidableEq, Repr

/-- How far the dialog has come. -/
inductive DialogPhase
  /-- the client offers its methods -/
  | greeting
  /-- none of them was acceptable -/
  | rejected
  /-- the client is to log in -/
  | login
  /-- and has failed to, or did not send what was asked for -/
  | refused
  /-- the client is to send this field of its request -/
  | request (field : RequestField)
  /-- the last field was read -/
  | requested
  /-- the destination is dialled -/
  | dialling
  /-- the reply was sent -/
  | replied (rep : UInt8)
  deriving DecidableEq, Repr

/-- What there is of a resolver context. -/
inductive ResolverContext
  | absent
  | created
  | opened
  /-- it was closed, or could not be opened -/
  | closed
  deriving DecidableEq, Repr

/-- The state of the dialog, with the transfers so far and the bytes that they were to move. -/
structure Dialog where
  phase : DialogPhase
  resolver : ResolverContext
  reads : ℕ
  asked : ℕ
  writes : ℕ
  sent : ℕ
  deriving DecidableEq, Repr

/-- The reply to a request: the version, a code, a reserved byte, and an address of either family with
its port. -/
def IsReply (data : Bytes) : Prop :=
  byteAt data 0 = 0x05 ∧ byteAt data 2 = 0x00 ∧
    (byteAt data 3 = 0x01 ∧ data.length = 10 ∨ byteAt data 3 = 0x04 ∧ data.length = 22)

instance (data : Bytes) : Decidable (IsReply data) := inferInstanceAs (Decidable (_ ∧ _))

namespace RequestField

/-- The field can be read with so many bytes. -/
def fits : RequestField → ℕ → Bool
  | version, len | addrType, len => len = 1
  | command, len | port, len => len = 2
  | address, len => len = ipv4AddrLen ∨ len = ipv6AddrLen ∨ len = 1
  | name, len => len ≤ 255

/-- What comes after the field. -/
def next : RequestField → ℕ → DialogPhase
  | version, _ => .request command
  | command, _ => .request addrType
  | addrType, _ => .request address
  | address, len => .request (if len = 1 then name else port)
  | name, _ => .request port
  | port, _ => .requested

end RequestField

namespace DialogPhase

/-- So many bytes of the client are listened to, and it may have to send them all or not. -/
def hears : DialogPhase → ℕ → Bool → Bool
  | greeting, _, allowPartial | login, _, allowPartial => !allowPartial
  | request field, len, allowPartial => !allowPartial && field.fits len
  | rejected, _, allowPartial => allowPartial
  | _, _, _ => false

/-- The phase after `len` bytes were read. -/
def next : DialogPhase → ℕ → DialogPhase
  | request field, len => field.next len
  | phase, _ => phase

/-- The phase after a read of `len` bytes has returned: a client that does not send them all is not
served. -/
def heard (phase : DialogPhase) (len : ℕ) (ret : Int) : DialogPhase :=
  if len ≤ ret then phase.next len else refused

/-- The phase that a message to the client leads to, if this is the time for it. -/
def say (phase : DialogPhase) (data : Bytes) : Option DialogPhase :=
  match phase with
  | greeting =>
    if data = [0x05, 0xFF] then some rejected
    else if data = [0x05, 0x02] then some login
    else if data = [0x05, 0x00] then some (request .version)
    else none
  | login =>
    if data = [0x01, 0x00] then some (request .version)
    else if data = [0x01, 0x01] then some refused
    else none
  | requested | dialling => if IsReply data then some (replied (byteAt data 1)) else none
  | rejected | refused | request _ | replied _ => none

end DialogPhase

namespace Dialog

/-- Nothing was read or sent yet. -/
def start : Dialog := ⟨.greeting, .absent, 0, 0, 0, 0⟩

/-- The dialog after one more operation. -/
def next (g : Dialog) : (o : JobOp) → o.Answer → Dialog
  | .transferIn _ len _, (r : TransferIn) =>
    { g with phase := g.phase.heard len r.ret, reads := g.reads + 1, asked := g.asked + len }
  | .transferOut _ data, _ =>
    { g with
      phase := (g.phase.say data).getD g.phase
      writes := g.writes + 1
      sent := g.sent + data.length }
  | .connectAndCreateHandler _ _, _ => { g with phase := .dialling }
  | .dnsNew, (ok : Bool) => { g with resolver := if ok then .created else .absent }
  | .dnsOpen, (ok : Bool) => { g with resolver := if ok then .opened else .closed }
  | .dnsClose, _ => { g with resolver := .closed }
  | .dnsFree, _ => { g with resolver := .absent }
  | _, _ => g

/-- The operation is one for this time: the transfers fit into the buffer and are few, the client is
heard and told as the phase has it, names are resolved before the port is read and addresses dialled
after it, the resolver is asked while its context is open, and nothing else happens while there is
one. -/
def May (client : ℕ) (g : Dialog) : JobOp → Prop
  | .transferIn id len allowPartial =>
    id = client ∧ g.resolver = .absent ∧ g.phase.hears len allowPartial = true ∧ len ≤ buffLen ∧
      g.reads < 14 ∧ g.asked + len ≤ 1032
  | .transferOut id data =>
    id = client ∧ g.resolver = .absent ∧ (g.phase.say data).isSome = true ∧ data.length ≤ buffLen ∧
      g.writes < 3 ∧ g.sent + data.length ≤ 26
  | .connectAndCreateHandler _ _ => g.resolver = .absent ∧ (g.phase = .requested ∨ g.phase = .dialling)
  | .dnsNew => g.resolver = .absent ∧ g.phase = .request .port
  | .dnsOpen => g.resolver = .created
  | .dnsResolveA6 _ _ | .dnsResolveA4 _ _ | .dnsClose => g.resolver = .opened
  | .dnsFree => g.resolver = .closed
  | .disposeHandler _ => False
  | _ => g.resolver = .absent

/-- The job may end: there is no resolver context, and handlers are handed on only after a reply of
success. -/
def Closes (res : JobResult) (g : Dialog) : Prop :=
  g.resolver = .absent ∧ ∀ s, res = .modeConnect s → g.phase = .replied 0x00

end Dialog

/-- There were few transfers, and they were to move few bytes. -/
structure Dialog.Short (g : Dialog) : Prop where
  reads : g.reads ≤ 14
  asked : g.asked ≤ 1032
  writes : g.writes ≤ 3
  sent : g.sent ≤ 26

/-- An operation for its time keeps the dialog short. -/
theorem Dialog.Short.next {client : ℕ} {g : Dialog} {o : JobOp} (h : g.Short) (hmay : g.May client o)
    (answer : o.Answer) : (g.next o answer).Short := by
  cases o with
  | transferIn id len allowPartial =>
    obtain ⟨-, -, -, -, hfew, hfit⟩ := hmay
    exact ⟨hfew, hfit, h.writes, h.sent⟩
  | transferOut id data =>
    obtain ⟨-, -, -, -, hfew, hfit⟩ := hmay
    exact ⟨h.reads, h.asked, hfew, hfit⟩
  | _ => exact ⟨h.reads, h.asked, h.writes, h.sent⟩

/-- The dialog with this client, whatever is answered. -/
def dialog (client : ℕ) : Contract JobOp.Answer Dialog := ⟨Dialog.May client, fun _ _ _ => True, Dialog.next⟩

/-- The dialog that a list of events is. -/
def dialogOf (t : List (Event JobOp.Answer)) : Dialog := t.foldl (fun g e => g.next e.1 e.2) .start

/-- The dialog is in this phase, and was not longer than this. -/
structure Dialog.At (g : Dialog) (phase : DialogPhase) (reads asked writes sent : ℕ) : Prop where
  phase : g.phase = phase
  resolver : g.resolver = .absent
  reads : g.reads ≤ reads
  asked : g.asked ≤ asked
  writes : g.writes ≤ writes
  sent : g.sent ≤ sent

/-- It was not longer than this, either. -/
theorem Dialog.At.mono {g : Dialog} {phase : DialogPhase} {n n' a a' w w' b b' : ℕ}
    (h : g.At phase n a w b) (hin : n ≤ n' ∧ a ≤ a') (hout : w ≤ w' ∧ b ≤ b') :
    g.At phase n' a' w' b' :=
  ⟨h.phase, h.resolver, Nat.le_trans h.reads hin.1, Nat.le_trans h.asked hin.2,
    Nat.le_trans h.writes hout.1, Nat.le_trans h.sent hout.2⟩

namespace Handshake

variable {A : Type} {cfg : Config} {host : ByteOrder} {inet : InetPton} {state : State} {client : ℕ}
  {g : Dialog} {phase : DialogPhase} {n a w b : ℕ} {buff : Bytes}

/-- The claims can be given up as long as there is no resolver context. -/
theorem dialog_refresh {op : ClaimRef → HandshakeProg HandlerClaimState} {refs : List ClaimRef}
    (hop : ∀ c, (dialog client).Keeps Dialog.Closes g (op c)) :
    (dialog client).Keeps Dialog.Closes g (State.refresh op refs) := by
  induction refs with
  | nil => exact Contract.Keeps.pure _
  | cons c rest ih =>
    unfold State.refresh
    apply (hop c).bind
    intro s
    apply ih.bind
    intro entries
    exact Contract.Keeps.pure _

/-- And then the job may end. -/
theorem dialog_fail {ends : A → Dialog → Prop} (hresolver : g.resolver = .absent) :
    (dialog client).wp Dialog.Closes ends (failWithDisclaim state) g := by
  unfold failWithDisclaim State.disclaimAllHandlers
  have hop (c : ClaimRef) : (dialog client).Keeps Dialog.Closes g (JobProg.disclaim c) :=
    Contract.Keeps.perform hresolver fun _ => rfl
  apply Contract.Keeps.wp_bind ((dialog_refresh hop).bind fun entries => Contract.Keeps.pure _)
  intro disclaimed
  exact ⟨hresolver, fun s heq => nomatch heq⟩

/-- A check that fails ends the job. -/
theorem dialog_failUnless {ends : Unit → Dialog → Prop} {ok : Bool} (hresolver : g.resolver = .absent)
    (hends : ok = true → ends () g) : (dialog client).wp Dialog.Closes ends (failUnless ok state) g := by
  unfold failUnless
  split
  · rename_i hok
    exact hends hok
  · exact dialog_fail hresolver

/-- A field of at most `m` bytes is read. -/
theorem dialog_receive {ends : Bytes → Dialog → Prop} {len m : ℕ} (hat : g.At phase n a w b)
    (hhears : phase.hears len false = true) (hfew : n < 14) (hlen : len ≤ m) (hfit : m ≤ buffLen)
    (hshort : a + m ≤ 1032)
    (hends : ∀ buff g', Dialog.At g' (phase.next len) (n + 1) (a + m) w b → ends buff g') :
    (dialog client).wp Dialog.Closes ends (receive state client buff len) g := by
  have hasked : g.asked + len ≤ a + m := Nat.add_le_add hat.asked hlen
  have hhears : g.phase.hears len false = true := by rw [hat.phase, hhears]
  have hmay : g.May client (.transferIn client len false) :=
    ⟨rfl, hat.resolver, hhears, Nat.le_trans hlen hfit, Nat.lt_of_le_of_lt hat.reads hfew,
      Nat.le_trans hasked hshort⟩
  unfold receive
  apply Contract.wp_perform_bind hmay
  intro (r : TransferIn) _
  rw [Contract.wp_bind]
  have hresolver : (g.next (.transferIn client len false) r).resolver = .absent := hat.resolver
  apply dialog_failUnless hresolver
  intro hwhole
  have hnext : g.phase.heard len r.ret = phase.next len := by
    rw [DialogPhase.heard, if_pos (of_decide_eq_true hwhole), hat.phase]
  exact hends _ _ ⟨hnext, hat.resolver, Nat.succ_le_succ hat.reads, hasked, hat.writes, hat.sent⟩

/-- A message of at most `m` bytes is sent. -/
theorem dialog_tell {B : Type} {ends : B → Dialog → Prop} {data : Bytes} {m : ℕ} {next : DialogPhase}
    {f : Int → HandshakeProg B} (hat : g.At phase n a w b) (hsay : phase.say data = some next)
    (hfew : w < 3) (hlen : data.length ≤ m) (hshort : b + m ≤ 26)
    (hends : ∀ r g', Dialog.At g' next n a (w + 1) (b + m) →
      (dialog client).wp Dialog.Closes ends (f r) g') :
    (dialog client).wp Dialog.Closes ends (JobProg.transferOut client data >>= f) g := by
  have hsent : g.sent + data.length ≤ b + m := Nat.add_le_add hat.sent hlen
  have hnext : g.phase.say data = some next := by rw [hat.phase, hsay]
  have hmay : g.May client (.transferOut client data) := by
    refine ⟨rfl, hat.resolver, ?_, ?_, Nat.lt_of_le_of_lt hat.writes hfew, Nat.le_trans hsent hshort⟩
    · rw [hnext]
      rfl
    · unfold buffLen
      omega
  apply Contract.wp_perform_bind hmay
  intro r _
  have hphase : (g.phase.say data).getD g.phase = next := by rw [hnext, Option.getD_some]
  exact hends r _ ⟨hphase, hat.resolver, hat.reads, hat.asked, Nat.succ_le_succ hat.writes, hsent⟩

/-- A length that the client sends is one byte. -/
theorem toNat_byteAt_le (buff : Bytes) (i : ℕ) : (byteAt buff i).toNat ≤ 255 :=
  Nat.le_of_lt_succ (UInt8.toNat_lt _)

/-- The method selection. -/
theorem dialog_selectMethod {ends : UInt8 × Bytes → Dialog → Prop} (hat : g.At .greeting 0 0 0 0)
    (hends : ∀ r g', Dialog.At g' (if r.1 = 0x02 then .login else .request .version) 3 257 1 2 →
      ends r g') :
    (dialog client).wp Dialog.Closes ends (selectMethod cfg state client buff) g := by
  unfold selectMethod
  rw [Contract.wp_bind]
  apply dialog_receive hat rfl (by decide) (Nat.le_refl 1) (by decide) (by decide)
  intro buff g hat
  rw [Contract.wp_bind]
  apply dialog_failUnless hat.resolver
  intro _
  rw [Contract.wp_bind]
  apply dialog_receive hat rfl (by decide) (Nat.le_refl 1) (by decide) (by decide)
  intro buff g hat
  rw [Contract.wp_bind]
  apply dialog_receive hat rfl (by decide) (toNat_byteAt_le buff 0) (by decide) (by decide)
  intro buff g hat
  dsimp only
  split
  · -- the client is told, and may close the connection first
    apply dialog_tell hat rfl (by decide) (List.length_take_le 2 _) (by decide)
    intro _ g hat
    have hmay : g.May client (.transferIn client buffLen true) := by
      refine ⟨rfl, hat.resolver, ?_, Nat.le_refl _, Nat.lt_of_le_of_lt hat.reads (by decide), ?_⟩
      · rw [hat.phase]
        rfl
      · exact Nat.le_trans (Nat.add_le_add_right hat.asked _) (by decide)
    apply Contract.wp_perform_bind hmay
    intro _ _
    exact dialog_fail hat.resolver
  · rename_i m hfirst
    have hsupported : m = 0x00 ∨ m = 0x02 := by
      have hfound := List.find?_some hfirst
      simp only [Bool.or_eq_true, Bool.and_eq_true, decide_eq_true_eq] at hfound
      exact hfound.imp_left And.right
    have hsay : DialogPhase.greeting.say [0x05, m] =
        some (if m = 0x02 then .login else .request .version) := by
      rcases hsupported with rfl | rfl <;> decide
    have htake (buff : Bytes) : (storeAt buff 0 [0x05, m]).take 2 = [0x05, m] := take_storeAt_front buff [0x05, m]
    rw [htake]
    apply dialog_tell hat hsay (by decide) (Nat.le_refl 2) (by decide)
    intro r g hat
    rw [Contract.wp_bind]
    apply dialog_failUnless hat.resolver
    intro _
    exact hends _ _ hat

/-- The login. -/
theorem dialog_login {ends : Bytes → Dialog → Prop} (hat : g.At .login 3 257 1 2)
    (hends : ∀ buff g', Dialog.At g' (.request .version) 8 770 2 4 → ends buff g') :
    (dialog client).wp Dialog.Closes ends (login cfg state client buff) g := by
  have hrefuse (g : Dialog) (n a : ℕ) (hat : g.At .login n a 1 2) :
      (dialog client).wp Dialog.Closes ends (sendAuthFailWithDisclaim state client) g := by
    unfold sendAuthFailWithDisclaim
    apply dialog_tell hat rfl (by decide) (Nat.le_refl 2) (by decide)
    intro _ g hat
    exact dialog_fail hat.resolver
  unfold login
  rw [Contract.wp_bind]
  apply dialog_receive hat rfl (by decide) (Nat.le_refl 1) (by decide) (by decide)
  intro buff g hat
  split
  · exact hrefuse g _ _ hat
  · rw [Contract.wp_bind]
    apply dialog_receive hat rfl (by decide) (Nat.le_refl 1) (by decide) (by decide)
    intro buff g hat
    rw [Contract.wp_bind]
    apply dialog_receive hat rfl (by decide) (toNat_byteAt_le buff 0) (by decide) (by decide)
    intro nameBuff g hat
    rw [Contract.wp_bind]
    apply dialog_receive hat rfl (by decide) (Nat.le_refl 1) (by decide) (by decide)
    intro buff g hat
    rw [Contract.wp_bind]
    apply dialog_receive hat rfl (by decide) (toNat_byteAt_le buff 0) (by decide) (by decide)
    intro buff g hat
    dsimp only
    split
    · apply dialog_tell hat rfl (by decide) (List.length_take_le 2 _) (by decide)
      intro r g hat
      rw [Contract.wp_bind]
      apply dialog_failUnless hat.resolver
      intro _
      exact hends _ _ hat
    · exact hrefuse g _ _ hat

/-- The resolver: its context is freed before the request goes on, or the job ends. -/
theorem dialog_resolve {ends : List IPAddress → Dialog → Prop} {dname : Bytes}
    (hat : g.At (.request .port) n a w b)
    (hends : ∀ ips g', Dialog.At g' (.request .port) n a w b → ends ips g') :
    (dialog client).wp Dialog.Closes ends (resolve cfg state dname) g := by
  have hnew : g.May client .dnsNew := ⟨hat.resolver, hat.phase⟩
  unfold resolve
  apply Contract.wp_perform_bind hnew
  intro (created : Bool) _
  cases created with
  | false =>
    rw [Contract.wp_bind]
    exact dialog_fail rfl
  | true =>
    rw [failUnless, if_pos rfl, Prog.pure_bind']
    apply Contract.wp_perform_bind (o := JobOp.dnsOpen) rfl
    intro (opened : Bool) _
    cases opened with
    | false =>
      rw [if_neg Bool.false_ne_true]
      apply Contract.wp_perform_bind (o := JobOp.dnsFree) rfl
      intro _ _
      exact dialog_fail rfl
    | true =>
      rw [if_pos rfl]
      apply Contract.wp_perform_bind (o := JobOp.dnsResolveA6 _ _) rfl
      intro ans6 _
      apply Contract.wp_perform_bind (o := JobOp.dnsResolveA4 _ _) rfl
      intro ans4 _
      apply Contract.wp_perform_bind (o := JobOp.dnsClose) rfl
      intro _ _
      apply Contract.wp_perform_bind (o := JobOp.dnsFree) rfl
      intro _ _
      exact hends _ _ ⟨hat.phase, rfl, hat.reads, hat.asked, hat.writes, hat.sent⟩

/-- An address of a fixed length. -/
theorem dialog_readRawAddress {ends : List IPAddress × Bytes → Dialog → Prop} {len : ℕ}
    (hlen : len = ipv4AddrLen ∨ len = ipv6AddrLen) (hat : g.At (.request .address) 11 774 2 4)
    (hends : ∀ r g', Dialog.At g' (.request .port) 13 1030 2 4 → ends r g') :
    (dialog client).wp Dialog.Closes ends (readRawAddress state client buff len) g := by
  have hnext : DialogPhase.next (.request .address) len = .request .port := by
    rcases hlen with rfl | rfl <;> rfl
  have hhears : DialogPhase.hears (.request .address) len false = true := by
    rcases hlen with rfl | rfl <;> rfl
  have hle : len ≤ 16 := by
    rcases hlen with rfl | rfl <;> decide
  unfold readRawAddress
  rw [Contract.wp_bind]
  apply dialog_receive hat hhears (by decide) hle (by decide) (by decide)
  intro buff g hat
  rw [hnext] at hat
  exact hends _ _ (hat.mono (by decide) (by decide))

/-- A name. -/
theorem dialog_readDomainName {ends : List IPAddress × Bytes → Dialog → Prop}
    (hat : g.At (.request .address) 11 774 2 4)
    (hends : ∀ r g', Dialog.At g' (.request .port) 13 1030 2 4 → ends r g') :
    (dialog client).wp Dialog.Closes ends (readDomainName cfg inet state client buff) g := by
  unfold readDomainName
  rw [Contract.wp_bind]
  apply dialog_receive hat rfl (by decide) (Nat.le_refl 1) (by decide) (by decide)
  intro buff g hat
  rw [Contract.wp_bind]
  apply dialog_receive hat (decide_eq_true (toNat_byteAt_le buff 0)) (by decide)
    (toNat_byteAt_le buff 0) (by decide) (by decide)
  intro buff g hat
  dsimp only
  split
  · exact hends _ _ hat
  · rw [Contract.wp_bind]
    apply dialog_resolve hat
    intro destIPs g hat
    exact hends _ _ hat

/-- A destination. -/
theorem dialog_readDestination {ends : List IPAddress × Bytes → Dialog → Prop} {atyp : UInt8}
    (hat : g.At (.request .address) 11 774 2 4)
    (hends : ∀ r g', Dialog.At g' (.request .port) 13 1030 2 4 → ends r g') :
    (dialog client).wp Dialog.Closes ends (readDestination cfg inet state client atyp buff) g := by
  unfold readDestination
  split_ifs
  · exact dialog_readRawAddress (.inl rfl) hat hends
  · exact dialog_readRawAddress (.inr rfl) hat hends
  · exact dialog_readDomainName hat hends
  · exact dialog_fail hat.resolver

/-- A request. -/
theorem dialog_readRequest {ends : Request × Bytes → Dialog → Prop}
    (hat : g.At (.request .version) 8 770 2 4)
    (hends : ∀ r g', Dialog.At g' .requested 14 1032 2 4 → ends r g') :
    (dialog client).wp Dialog.Closes ends (readRequest cfg host inet state client buff) g := by
  unfold readRequest
  rw [Contract.wp_bind]
  apply dialog_receive hat rfl (by decide) (Nat.le_refl 1) (by decide) (by decide)
  intro buff g hat
  rw [Contract.wp_bind]
  apply dialog_failUnless hat.resolver
  intro _
  rw [Contract.wp_bind]
  apply dialog_receive hat rfl (by decide) (Nat.le_refl 2) (by decide) (by decide)
  intro buff g hat
  rw [Contract.wp_bind]
  apply dialog_receive hat rfl (by decide) (Nat.le_refl 1) (by decide) (by decide)
  intro addrBuff g hat
  rw [Contract.wp_bind]
  apply dialog_readDestination hat
  intro dest g hat
  rw [Contract.wp_bind]
  apply dialog_receive hat rfl (by decide) (Nat.le_refl 2) (by decide) (by decide)
  intro buff g hat
  exact hends _ _ hat

/-- Everything before the check of the command. -/
theorem dialog_negotiate {ends : Request × Bytes → Dialog → Prop} (hat : g.At .greeting 0 0 0 0)
    (hends : ∀ r g', Dialog.At g' .requested 14 1032 2 4 → ends r g') :
    (dialog client).wp Dialog.Closes ends (negotiate cfg host inet state client buff) g := by
  unfold negotiate
  rw [Contract.wp_bind]
  apply dialog_selectMethod hat
  intro r g hat
  dsimp only
  split_ifs with hlogin
  · rw [if_pos hlogin] at hat
    rw [Contract.wp_bind]
    apply dialog_login hat
    intro buff g hat
    exact dialog_readRequest hat hends
  · rw [if_neg hlogin] at hat
    exact dialog_readRequest (hat.mono (by decide) (by decide)) hends

/-- A new handler joins the state. -/
theorem dialog_addHandlerWithClaim {target : ℕ} (hresolver : g.resolver = .absent) :
    (dialog client).Keeps Dialog.Closes g (state.addHandlerWithClaim target) := by
  unfold State.addHandlerWithClaim
  have hop (c : ClaimRef) : (dialog client).Keeps Dialog.Closes g (JobProg.getState c) :=
    Contract.Keeps.perform hresolver fun _ => rfl
  apply (dialog_refresh hop).bind
  intro entries
  apply (Contract.Keeps.perform (o := JobOp.newClaim target) hresolver fun _ => rfl).bind
  intro (newClaim : ClaimRef)
  apply (Contract.Keeps.perform (o := JobOp.claim newClaim) hresolver fun _ => rfl).bind
  intro newState
  exact Contract.Keeps.pure _

/-- A connection was made. -/
theorem dialog_adoptTarget {target : ℕ} (hresolver : g.resolver = .absent) :
    (dialog client).Keeps Dialog.Closes g (adoptTarget host target state) := by
  unfold adoptTarget
  apply (Contract.Keeps.perform (o := JobOp.getHandler target) hresolver fun _ => rfl).bind
  intro (handler : Option Int)
  cases handler with
  | none => exact dialog_fail hresolver
  | some fd =>
    apply (dialog_addHandlerWithClaim hresolver).bind
    intro finalState
    apply (Contract.Keeps.perform (o := JobOp.getsockname fd) hresolver fun _ => rfl).bind
    intro (name : Option SockAddr)
    cases name with
    | none => exact dialog_fail hresolver
    | some sa =>
      apply (keeps_failUnless (dialog_fail hresolver) _).bind
      intro _
      exact Contract.Keeps.pure _

/-- The attempts to connect. -/
theorem dialog_connectAny {ends : Attempt → Dialog → Prop} {port : UInt16} {ct : Timeval}
    {attempt : Attempt} {ips : List IPAddress} (hserves : phase = .requested ∨ phase = .dialling)
    (hat : g.At phase n a w b)
    (hends : ∀ attempt g' phase, phase = .requested ∨ phase = .dialling → Dialog.At g' phase n a w b →
      ends attempt g') :
    (dialog client).wp Dialog.Closes ends (connectAny host port ct attempt ips) g := by
  induction ips generalizing g phase attempt with
  | nil => exact hends _ _ _ hserves hat
  | cons ip rest ih =>
    have hmay : g.May client (.connectAndCreateHandler ⟨ip, port⟩ ct) := by
      refine ⟨hat.resolver, ?_⟩
      rw [hat.phase]
      exact hserves
    unfold connectAny
    apply Contract.wp_perform_bind hmay
    intro (target : ℕ) _
    have hdialled : Dialog.At { g with phase := .dialling } .dialling n a w b :=
      ⟨rfl, hat.resolver, hat.reads, hat.asked, hat.writes, hat.sent⟩
    split_ifs
    · exact ih (.inr rfl) hdialled
    · apply Contract.wp_mono (fun _ _ h => h) _ (dialog_adoptTarget hdialled.resolver)
      rintro attempt _ rfl
      exact hends _ _ _ (.inr rfl) hdialled

/-- The branch on the command. -/
theorem dialog_perform {ends : Attempt → Dialog → Prop} {req : Request}
    (hat : g.At .requested n a w b) (hends : ∀ attempt g' phase, phase = .requested ∨ phase = .dialling → Dialog.At g' phase n a w b →
      ends attempt g') :
    (dialog client).wp Dialog.Closes ends (perform cfg host state req) g := by
  unfold perform
  split_ifs
  · exact dialog_connectAny (.inl rfl) hat hends
  · exact hends _ _ _ (.inl rfl) hat

/-- What the client is told of the attempts is a reply. -/
theorem isReply_replyBytes (host : ByteOrder) (attempt : Attempt) : IsReply (replyBytes host attempt) := by
  refine ⟨rfl, rfl, ?_⟩
  have hatyp : byteAt (replyBytes host attempt) 3 = if attempt.bindEP.address.isV6 then 0x04 else 0x01 := rfl
  have hlength : (replyBytes host attempt).length =
      4 + ((if attempt.bindEP.address.isV6 then ipv6AddrLen else ipv4AddrLen) + 2) := by
    rw [replyBytes, List.length_append, IPEndpoint.length_toRawBuff]
    rfl
  rw [hatyp, hlength]
  split_ifs
  · exact .inr ⟨rfl, rfl⟩
  · exact .inl ⟨rfl, rfl⟩

/-- The reply, and the end of the job. -/
theorem dialog_respond {ends : Empty → Dialog → Prop} {cmd : UInt8} {attempt : Attempt}
    (hserves : phase = .requested ∨ phase = .dialling) (hat : g.At phase n a 2 4) :
    (dialog client).wp Dialog.Closes ends (respond host client cmd attempt buff) g := by
  have hreply := isReply_replyBytes host attempt
  have hsay : phase.say (replyBytes host attempt) = some (.replied attempt.rep) := by
    rcases hserves with rfl | rfl <;> exact if_pos hreply
  have hlength : (replyBytes host attempt).length ≤ 22 := by
    rcases hreply.2.2 with ⟨-, hlength⟩ | ⟨-, hlength⟩ <;> omega
  unfold respond
  dsimp only
  rw [take_storeAt_front]
  apply dialog_tell hat hsay (by decide) hlength (by decide)
  intro r g hat
  rw [Contract.wp_bind]
  apply dialog_failUnless hat.resolver
  intro _
  split_ifs with hdone
  · have hop (c : ClaimRef) : (dialog client).Keeps Dialog.Closes g (JobProg.disclaim c) :=
      Contract.Keeps.perform hat.resolver fun _ => rfl
    apply Contract.Keeps.wp_bind ((dialog_refresh hop).bind fun entries => Contract.Keeps.pure _)
    intro disclaimed
    refine ⟨hat.resolver, fun s _ => ?_⟩
    rw [hat.phase, hdone.2]
  · exact dialog_fail hat.resolver

/-- A handshake keeps to the dialog. -/
theorem dialog_execute {ends : Empty → Dialog → Prop} {claimed : HandlerClaimState}
    (hstate : state.handlerClaimStates = [claimed]) :
    (dialog claimed.handlerID).wp Dialog.Closes ends (execute cfg host inet state) .start := by
  unfold execute
  rw [hstate]
  apply Contract.wp_perform_bind (o := JobOp.getHandler _) rfl
  intro (handler : Option Int) _
  cases handler with
  | none => exact dialog_fail rfl
  | some fd =>
    unfold converse
    rw [Contract.wp_bind]
    apply dialog_negotiate ⟨rfl, rfl, Nat.le_refl _, Nat.le_refl _, Nat.le_refl _, Nat.le_refl _⟩
    intro r g hat
    dsimp only
    rw [Contract.wp_bind]
    apply dialog_perform hat
    intro attempt g phase hserves hat
    exact dialog_respond hserves hat

/-- Whatever the client sends and however the operations turn out, each operation of a handshake is one
for its time, the reads ask for 1032 bytes at most and the messages have 26 together, and when the job
ends there is no resolver context, and its handlers are handed on only after a reply of success. -/
theorem dialog_kept {claimed : HandlerClaimState} {t : List (Event JobOp.Answer)}
    {q : HandshakeProg Empty} (hstate : state.handlerClaimStates = [claimed])
    (hrun : (execute cfg host inet state).follow t = some q) :
    (∀ o k, q = .call o k → (dialogOf t).May claimed.handlerID o) ∧ (dialogOf t).Short ∧
      ∀ res, q = .exit res → (dialogOf t).Closes res := by
  have hkept : (dialog claimed.handlerID).Kept .start t := Contract.kept_of_forall fun _ _ _ => trivial
  have hwp : (dialog claimed.handlerID).wp Dialog.Closes (fun _ _ => True) (execute cfg host inet state)
      .start := dialog_execute hstate
  have hrest := Contract.wp_follow hrun hwp hkept
  refine ⟨?_, ?_, ?_⟩
  · rintro o k rfl
    exact hrest.1
  · have hshort : ∀ (g : Dialog) (o : JobOp) (answer : o.Answer), g.Short → g.May claimed.handlerID o →
        True → (g.next o answer).Short := fun g o answer hshort hmay _ => hshort.next hmay answer
    have hstart : Dialog.start.Short := ⟨Nat.zero_le _, Nat.zero_le _, Nat.zero_le _, Nat.zero_le _⟩
    exact Contract.invariant_of_follow hshort hrun hwp hkept hstart
  · rintro res rfl
    exact hrest

/-- A handshake that resolves a name with two addresses. -/
theorem dialog_kept_named :
    (dialogOf namedEvents).reads ≤ 14 ∧ (dialogOf namedEvents).resolver = .absent ∧
      (dialogOf namedEvents).phase = .replied 0x00 := by
  have hrun : (execute oneUser .little noLiterals oneHandler).follow namedEvents =
      some (.exit (.modeConnect ⟨[(0, ⟨0, 1⟩), (1, ⟨0, 2⟩)]⟩)) := rfl
  have hstate : oneHandler.handlerClaimStates = [⟨1, 1⟩] := rfl
  obtain ⟨-, hshort, hends⟩ := dialog_kept hstate hrun
  obtain ⟨hresolver, hreplied⟩ := hends _ rfl
  exact ⟨hshort.reads, hresolver, hreplied _ rfl⟩

end Handshake

end TinySox
