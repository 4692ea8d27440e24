import TinySox.HandshakeTransfers
import TinySox.SocksCodec
import TinySox.TunnelCompletion

/-!
# The two streams of a client's connection

A connection from its first byte on: the handshake with its transfers, and then the two tunnels that
take over the helpers of the client. The factory and the preparation of the tunnels, which touch no
stream, are one step.

What the client sends is its request, and nothing of it reaches the target; what it sends after the
request is forwarded, also if it did not wait for the reply. What it receives are the replies of the
handshake, and nothing of the target's bytes comes before their end.
-/

namespace TinySox

open TinySox.Common

namespace Handshake

/-- The replies to a client whose request is granted. -/
def grantReplies (host : ByteOrder) (method : UInt8) (attempt : Attempt) : List Bytes :=
  [0x05, method] :: (if method = 0x02 then [[0x01, 0x00]] else []) ++ [replyBytes host attempt]

/-- The client has sent a request and nothing else, its destination was dialled with success, and the
client was told that it is connected. -/
structure Granted (cfg : Config) (host : ByteOrder) (inet : InetPton) (dns : Resolver)
    (g : Transcript) : Prop where
  request : ∃ dest port, ConnectBytes cfg dest port g.received ∧
    DialledWithSuccess port (dest.candidates cfg inet dns) g.dials
  replies : ∃ method attempt, attempt.rep = 0x00 ∧
    g.replies.map Prod.fst = grantReplies host method attempt
  whole : g.Whole

/-- The request is read, and the client was told of its method and of its login. -/
structure Negotiated (cfg : Config) (inet : InetPton) (dns : Resolver) (req : Request)
    (g : Transcript) : Prop where
  request : req.cmd = 0x01 → ∃ dest, ConnectBytes cfg dest req.port g.received ∧
    req.destIPs = dest.candidates cfg inet dns
  dials : g.dials = []
  replies : ∃ method, g.replies =
    ([0x05, method], 2) :: if method = 0x02 then [([0x01, 0x00], 2)] else []

variable {cfg : Config} {host : ByteOrder} {inet : InetPton} {dns : Resolver} {state : State}
  {mayDial : Transcript → IPEndpoint → Timeval → Prop}
  {world : Transcript → (o : JobOp) → o.Answer → Prop} {exits : JobResult → Transcript → Prop}
  {id : ℕ} {buff : Bytes} {g : Transcript}

/-- Everything up to the command, if the early exits are all right. -/
theorem negotiated_negotiate (hworld : WorldSound world) (hdns : WorldResolves dns world)
    (hexits : ∀ s g, exits (.terminal s) g) :
    (conversation mayDial world).wp exits (fun r g => Negotiated cfg inet dns r.1 g)
      (negotiate cfg host inet state id buff) .empty := by
  rw [negotiate, Contract.wp_bind]
  refine wp_selectMethod hworld (fun g s _ => hexits s g) (fun _ s _ => hexits s _)
    (fun _ g s _ _ => hexits s g) (fun _ _ _ s _ _ => hexits s _) fun methods m buff hfirst => ?_
  dsimp only
  split_ifs with hm
  · subst hm
    rw [Contract.wp_bind]
    refine wp_login hworld (fun g s _ => hexits s g) (fun _ _ s _ => hexits s _)
      (fun _ _ _ s _ => hexits s _) (fun _ _ _ s _ _ => hexits s _)
      fun username password buff hmatch => ?_
    refine wp_readRequest hworld hdns (fun g s _ => hexits s g) (fun g s _ => hexits s g)
      fun cmd rsv dest port buff => ⟨fun hcmd => ⟨dest, ?_, rfl⟩, rfl, 0x02, rfl⟩
    obtain rfl : cmd = 0x01 := hcmd
    obtain ⟨user, huser, hpassword⟩ := credentialsMatch_iff.mp hmatch
    have hbytes : ConnectBytes cfg dest port (greetingBytes methods ++
        (loginBytes username password ++ requestBytes 0x01 rsv dest port)) :=
      .login methods username password user rsv hfirst huser hpassword
    rw [← List.append_assoc] at hbytes
    exact hbytes
  · refine wp_readRequest hworld hdns (fun g s _ => hexits s g) (fun g s _ => hexits s g)
      fun cmd rsv dest port buff => ⟨fun hcmd => ⟨dest, ?_, rfl⟩, rfl, m, ?_⟩
    · obtain rfl : cmd = 0x01 := hcmd
      obtain rfl : m = 0x00 := (hfirst.1.resolve_left hm).1
      exact .anonymous methods rsv hfirst
    · rw [if_neg hm]
      rfl

/-- The last reply grants the request, or the job gives up. -/
theorem granted_respond {req : Request} {attempt : Attempt} {dials : List Dial}
    {ends : Empty → Transcript → Prop} (hnegotiated : Negotiated cfg inet dns req g)
    (hdialled : req.cmd = 0x01 → attempt.rep = 0x00 →
      DialledWithSuccess req.port req.destIPs dials)
    (hexits : ∀ s g, exits (.terminal s) g)
    (hconnect : ∀ s g, Granted cfg host inet dns g → exits (.modeConnect s) g) :
    (conversation mayDial world).wp exits ends (respond host id req.cmd attempt buff)
      (g.dial dials) := by
  rw [respond, Contract.wp_bind, take_storeAt_front]
  refine wp_transferOut fun r _ => ?_
  rw [Contract.wp_bind]
  refine wp_failUnless (fun hok => ?_) fun _ s => hexits s _
  have hfull : ((replyBytes host attempt).length : Int) ≤ r := of_decide_eq_true hok
  split_ifs with hdone
  · rw [Contract.wp_bind]
    refine wp_disclaimAllHandlers fun s _ => hconnect s _ ?_
    obtain ⟨hcmd, hrep⟩ := hdone
    obtain ⟨dest, hbytes, hips⟩ := hnegotiated.request hcmd
    obtain ⟨method, hreplies⟩ := hnegotiated.replies
    constructor
    · refine ⟨dest, req.port, hbytes, ?_⟩
      rw [← hips, Transcript.reply, Transcript.dial, hnegotiated.dials]
      exact hdialled hcmd hrep
    · refine ⟨method, attempt, hrep, ?_⟩
      rw [Transcript.reply, Transcript.dial, hreplies, grantReplies]
      split_ifs <;> rfl
    · rw [Transcript.Whole, Transcript.reply, Transcript.dial, hreplies]
      intro reply hreply
      split_ifs at hreply <;> grind
  · exact wp_failWithDisclaim fun s => hexits s _

/-- A handshake that hands over has granted a request. -/
theorem granted_execute (hworld : WorldSound world) (hdns : WorldResolves dns world) :
    (conversation (fun _ _ _ => True) world).wp
      (fun r g => ∀ s, r = .modeConnect s → Granted cfg host inet dns g) (fun _ _ => True)
      (execute cfg host inet state) .empty := by
  have hexits : ∀ s (g : Transcript) s', JobResult.terminal s = .modeConnect s' →
      Granted cfg host inet dns g := fun s g s' h => nomatch h
  unfold execute
  split
  · rw [Contract.wp_bind]
    refine wp_silent (fun _ => rfl) trivial fun handler _ => ?_
    cases handler with
    | none => exact wp_failWithDisclaim fun s => hexits s _
    | some fd =>
      dsimp only
      rw [converse, Contract.wp_bind]
      refine Contract.wp_mono (fun _ _ h => h) (fun read g hnegotiated => ?_)
        (negotiated_negotiate hworld hdns hexits)
      obtain ⟨req, buff⟩ := read
      dsimp only at hnegotiated ⊢
      rw [Contract.wp_bind, perform]
      split_ifs with hcmd
      · refine wp_connectAny (fun _ _ _ _ _ _ => trivial) (fun _ s _ => hexits s _)
          fun dials attempt _ hsuccess => ?_
        have hfails : (0x01 : UInt8) ≠ 0x00 := by decide
        exact granted_respond hnegotiated (fun _ hrep => hsuccess hfails hrep) hexits
          fun s g h _ _ => h
      · rw [← g.dial_nil]
        exact granted_respond hnegotiated (fun h => absurd h hcmd) hexits fun s g h _ _ => h
  · exact wp_failWithDisclaim fun s => hexits s _

end Handshake

/-- The buffer is cleared, and the helpers are those of the two handlers. -/
def newTunnel (buffSz errno : ℕ) (reader writer : TCPCommHelper) : Tunnel :=
  ⟨.loop, false, errno, reader, writer, List.replicate buffSz 0, [], []⟩

/-- A client's connection: the handshake, and the tunnels from the client and to it. -/
structure Relay where
  talk : Conversation
  tunnels : Option (Tunnel × Tunnel)

/-- What can happen next. -/
inductive RelayAction
  | talk (a : ConversationAction)
  /-- the result of the handshake becomes two jobs, on a target with the descriptor `fd` -/
  | connect (fd : Int) (upErrno downErrno : ℕ)
  | up (a : TunnelAction)
  | down (a : TunnelAction)

/-- The answers of the action agree with the resolver. -/
def RelayAction.Resolved (dns : Resolver) : RelayAction → Prop
  | .talk (.answer e) => dns.Answers e.1 e.2
  | _ => True

namespace Relay

/-- The block that a tunnel reads comes next in the stream. -/
def readsNext (unread : Bytes) (t : Tunnel) : TunnelAction → Bool
  | .transfer _ block =>
    match t.pc with
    | .reading _ => block.isPrefixOf unread
    | _ => true
  | _ => true

/-- The tunnel from the client has consumed some bytes of the stream. -/
def advance (s : Relay) (up down : Tunnel) (n : ℕ) : Relay :=
  ⟨{ s.talk with unread := s.talk.unread.drop n }, some (up, down)⟩

/-- One step of a job or of the threads around it. -/
def step (buffSz : ℕ) (s : Relay) : RelayAction → Option Relay
  | .talk a =>
    match s.tunnels with
    | none => (s.talk.step a).map fun talk => ⟨talk, none⟩
    | some _ => none
  | .connect fd upErrno downErrno =>
    match s.tunnels, s.talk.prog with
    | none, .exit (.modeConnect _) => some ⟨s.talk, some
        (newTunnel buffSz upErrno s.talk.reader (newTCPCommHelper fd false),
          newTunnel buffSz downErrno (newTCPCommHelper fd true) s.talk.writer)⟩
    | _, _ => none
  | .up a =>
    match s.tunnels with
    | some (up, down) =>
      if readsNext s.talk.unread up a then
        (up.step buffSz a).map fun up' => s.advance up' down (up.consumed a)
      else none
    | none => none
  | .down a =>
    match s.tunnels with
    | some (up, down) => (down.step buffSz a).map fun down' => ⟨s.talk, some (up, down')⟩
    | none => none

/-- The next statement of a tunnel repeats a write that had already sent a part of the buffer. -/
def repeatsBytes (s : Relay) : Bool :=
  match s.tunnels with
  | some (up, down) => up.repeatsBytes || down.repeatsBytes
  | none => false

/-- What the socket to the client has accepted. -/
def toClient (s : Relay) : Bytes :=
  match s.tunnels with
  | some (_, down) => s.talk.sent ++ down.accepted
  | none => s.talk.sent

/-- Both tunnels carry their streams on from where the handshake has stopped. -/
structure Carrying (p : HandshakeProg Empty) (stream : Bytes) (buffSz : ℕ) (talk : Conversation)
    (up down : Tunnel) : Prop where
  follow : ∃ final, p.follow talk.events = some (.exit (.modeConnect final))
  answers : ∀ e ∈ talk.events, e.1.WellFormed e.2
  told : talk.log.Whole → talk.sent = talk.log.told
  stream : talk.log.received ++ up.input ++ talk.unread = stream
  up : up.Carries Eq buffSz
  down : down.Carries Eq buffSz

/-- What holds between any two steps. -/
structure Relays (p : HandshakeProg Empty) (stream : Bytes) (buffSz : ℕ) (dns : Resolver)
    (s : Relay) : Prop where
  talk : s.tunnels = none → s.talk.Faithful p stream
  tunnels : ∀ up down, s.tunnels = some (up, down) → Carrying p stream buffSz s.talk up down
  resolved : ∀ e ∈ s.talk.events, dns.Answers e.1 e.2

/-- A client has just been accepted. -/
structure Started (p : HandshakeProg Empty) (stream : Bytes) (s : Relay) : Prop where
  talk : s.talk.Started p stream
  tunnels : s.tunnels = none

variable {p : HandshakeProg Empty} {stream unread : Bytes} {buffSz : ℕ} {dns : Resolver}
  {talk : Conversation} {s s' : Relay} {up down t t' : Tunnel}

/-- What a tunnel reads is taken from the front of the stream. -/
theorem input_step {a : TunnelAction} (hstep : t.step buffSz a = some t')
    (hreads : readsNext unread t a = true) :
    t'.input ++ unread.drop (t.consumed a) = t.input ++ unread := by
  cases Tunnel.step_moves hstep with
  | reading f a block res hpc hblock hmoves =>
    simp only [readsNext, hpc, List.isPrefixOf_iff_prefix] at hreads
    obtain ⟨rest, rfl⟩ := hreads
    simp only [Tunnel.consumed, hpc, ← hblock, List.drop_left, List.append_assoc]
  | writing dr f a block res hpc hmoves => simp only [Tunnel.consumed, hpc, List.drop_zero]
  | notice side n => cases side <;> rfl
  | _ => rfl

/-- A step that repeats no write carries the stream on. -/
theorem carries_step {a : TunnelAction} (h : t.Carries Eq buffSz) (honce : t.repeatsBytes = false)
    (hstep : t.step buffSz a = some t') : t'.Carries Eq buffSz := by
  have happend : ∀ r acc x : Bytes, r = acc → r ++ x = acc ++ x := fun r acc x heq => by rw [heq]
  refine h.step happend (fun hrepeat => ?_) hstep
  rw [honce] at hrepeat
  contradiction

/-- The accepted bytes are the first of those that were read. -/
theorem accepted_prefix (h : t.Carries Eq buffSz) : t.accepted <+: t.input := by
  obtain ⟨r, a, x, y, rfl, hhand, hinput, haccepted⟩ := h.stream
  rw [hinput, haccepted]
  exact (List.prefix_append_right_inj r).mpr (hhand.accepted_le h.pc)

/-- A new tunnel has carried nothing yet. -/
theorem carries_newTunnel {errno : ℕ} {reader writer : TCPCommHelper} (hstatus : reader.status ≤ 0) :
    (newTunnel buffSz errno reader writer).Carries Eq buffSz := by
  have hstarted : (newTunnel buffSz errno reader writer).Started buffSz :=
    ⟨rfl, hstatus, List.length_replicate, rfl, rfl⟩
  exact hstarted.carries rfl

/-- The tunnels take over the stream where the handshake has left it. -/
theorem Carrying.start {final : State} (h : talk.Faithful p stream)
    (hprog : talk.prog = .exit (.modeConnect final)) (fd : Int) (upErrno downErrno : ℕ) :
    Carrying p stream buffSz talk (newTunnel buffSz upErrno talk.reader (newTCPCommHelper fd false))
      (newTunnel buffSz downErrno (newTCPCommHelper fd true) talk.writer) := by
  have hcurrent := h.current
  have hwritten : talk.written = [] := by
    cases hframe : talk.frame <;> simp only [Conversation.written, hframe, hprog]
  have hgot : talk.got = [] := by
    cases hframe : talk.frame with
    | none =>
      simp only [Conversation.Current, hframe] at hcurrent
      exact hcurrent
    | some f =>
      simp only [Conversation.Current, hframe, hprog] at hcurrent
      exact hcurrent.2.elim
  constructor
  · exact ⟨final, hprog ▸ h.follow⟩
  · exact h.answers
  · intro hwhole
    rw [h.told hwhole, hwritten, List.append_nil]
  · have hstream := h.stream
    rw [hgot] at hstream
    exact hstream
  · exact carries_newTunnel h.status
  · exact carries_newTunnel (Int.le_refl 0)

/-- Neither tunnel disturbs what the other one carries. -/
theorem Carrying.step_up {a : TunnelAction} (h : Carrying p stream buffSz talk up down)
    (honce : up.repeatsBytes = false) (hreads : readsNext talk.unread up a = true)
    (hstep : up.step buffSz a = some t) :
    Carrying p stream buffSz { talk with unread := talk.unread.drop (up.consumed a) } t down := by
  constructor
  · exact h.follow
  · exact h.answers
  · exact h.told
  · have hinput := input_step hstep hreads
    have hstream := h.stream
    rw [List.append_assoc, ← hinput, ← List.append_assoc] at hstream
    exact hstream
  · exact carries_step h.up honce hstep
  · exact h.down

/-- The only new event is the answer of the action, or that of a transfer. -/
theorem resolved_step {talk' : Conversation} {a : ConversationAction}
    (h : ∀ e ∈ talk.events, dns.Answers e.1 e.2) (ha : (RelayAction.talk a).Resolved dns)
    (hstep : talk.step a = some talk') : ∀ e ∈ talk'.events, dns.Answers e.1 e.2 := by
  have hmore (e : Event JobOp.Answer) (he : dns.Answers e.1 e.2) :
      ∀ e' ∈ talk.events ++ [e], dns.Answers e'.1 e'.2 := by
    rw [List.forall_mem_append, List.forall_mem_singleton]
    exact ⟨h, he⟩
  cases Conversation.step_moves hstep with
  | notice side n => cases side <;> exact h
  | answer e prog hop hfollow => exact hmore e ha
  | enterIn err id len allowPartial k =>
    cases transferEnter talk.reader len allowPartial with
    | running f => exact h
    | returned v => exact hmore _ trivial
  | enterOut err id data k =>
    cases transferEnter talk.writer data.length false with
    | running f => exact h
    | returned v => exact hmore _ trivial
  | transferIn f a r id len allowPartial k =>
    cases r.outcome with
    | running f' => exact h
    | returned v => exact hmore _ trivial
  | transferOut f a r id data k =>
    cases r.outcome with
    | running f' => exact h
    | returned v => exact hmore _ trivial

/-- Every step that repeats no write keeps both streams. -/
theorem Relays.step {a : RelayAction} (h : s.Relays p stream buffSz dns)
    (hcond : s.repeatsBytes = false ∧ a.Resolved dns) (hstep : s.step buffSz a = some s') :
    s'.Relays p stream buffSz dns := by
  obtain ⟨honce, hresolved⟩ := hcond
  obtain ⟨talk, tunnels⟩ := s
  cases a with
  | talk a =>
    simp only [Relay.step] at hstep
    cases tunnels with
    | some pair => contradiction
    | none =>
      obtain ⟨talk', hnext, rfl⟩ := Option.map_eq_some_iff.mp hstep
      have hfaithful := (h.talk rfl).step hnext
      exact ⟨fun _ => hfaithful, (fun _ _ hnone => nomatch hnone),
        resolved_step h.resolved hresolved hnext⟩
  | connect fd upErrno downErrno =>
    simp only [Relay.step] at hstep
    split at hstep
    · rename_i final hprog
      cases hstep
      refine ⟨(fun hnone => nomatch hnone), fun up down hpair => ?_, h.resolved⟩
      cases hpair
      exact .start (h.talk rfl) hprog fd upErrno downErrno
    · contradiction
  | up a =>
    simp only [Relay.step] at hstep
    cases tunnels with
    | none => contradiction
    | some pair =>
      obtain ⟨up, down⟩ := pair
      simp only [Option.ite_none_right_eq_some, Option.map_eq_some_iff] at hstep
      obtain ⟨hreads, up', hnext, rfl⟩ := hstep
      have hup : up.repeatsBytes = false := (Bool.or_eq_false_iff.mp honce).1
      have hcarrying := (h.tunnels up down rfl).step_up hup hreads hnext
      refine ⟨(fun hnone => nomatch hnone), fun u d hpair => ?_, h.resolved⟩
      cases hpair
      exact hcarrying
  | down a =>
    simp only [Relay.step] at hstep
    cases tunnels with
    | none => contradiction
    | some pair =>
      obtain ⟨up, down⟩ := pair
      obtain ⟨down', hnext, rfl⟩ := Option.map_eq_some_iff.mp hstep
      have hdown : down.repeatsBytes = false := (Bool.or_eq_false_iff.mp honce).2
      obtain ⟨hfollow, hanswers, htold, hstream, hup, hcarries⟩ := h.tunnels up down rfl
      refine ⟨(fun hnone => nomatch hnone), fun u d hpair => ?_, h.resolved⟩
      cases hpair
      exact ⟨hfollow, hanswers, htold, hstream, hup, carries_step hcarries hdown hnext⟩

/-- An accepted client has said nothing yet. -/
theorem Started.relays (h : s.Started p stream) : s.Relays p stream buffSz dns := by
  refine ⟨fun _ => h.talk.faithful, fun up down hpair => ?_, ?_⟩
  · rw [h.tunnels] at hpair
    contradiction
  · rw [h.talk.events]
    exact fun e he => absurd he List.not_mem_nil

/-- The streams of a connection. In every run that repeats no write after a part of the buffer was sent,
the handshake has received a part of what the client sends. Once there are tunnels, that part was one
request, whose destination was dialled with success; the target has accepted the next bytes of the
stream, and the client the replies that grant the request, followed by the first bytes of what the
target has sent. -/
theorem streams_relayed {cfg : Config} {host : ByteOrder} {inet : InetPton} {state : State}
    {actions : List RelayAction} {s₀ : Relay}
    (hstart : s₀.Started (Handshake.execute cfg host inet state) stream)
    (honce : RunMeets (step buffSz) (fun s _ => s.repeatsBytes = false) s₀ actions)
    (hresolved : ∀ a ∈ actions, a.Resolved dns)
    (hrun : runActions (step buffSz) s₀ actions = some s) :
    s.talk.log.received <+: stream ∧
      ∀ up down, s.tunnels = some (up, down) →
        Handshake.Granted cfg host inet dns s.talk.log ∧
          s.talk.log.received ++ up.input ++ s.talk.unread = stream ∧ up.accepted <+: up.input ∧
          s.toClient = s.talk.log.told ++ down.accepted ∧ down.accepted <+: down.input := by
  have hs : s.Relays (Handshake.execute cfg host inet state) stream buffSz dns :=
    runActions_invariant_of_meets (fun _ _ _ h hcond hstep => h.step hcond hstep) hstart.relays
      (honce.and (RunMeets.of_mem hresolved s₀)) hrun
  have hworld : WorldSound fun _ o a => o.WellFormed a ∧ dns.Answers o a := fun _ _ _ h => h.1
  have hdns : WorldResolves dns fun _ o a => o.WellFormed a ∧ dns.Answers o a :=
    fun _ _ _ => ⟨fun _ h => h.2, fun _ h => h.2⟩
  constructor
  · cases hpair : s.tunnels with
    | none =>
      have hstream := (hs.talk hpair).stream
      rw [← hstream, List.append_assoc]
      exact List.prefix_append _ _
    | some pair =>
      have hstream := (hs.tunnels pair.1 pair.2 hpair).stream
      rw [← hstream, List.append_assoc]
      exact List.prefix_append _ _
  · intro up down hpair
    obtain ⟨⟨final, hfollow⟩, hanswers, htold, hstream, hup, hdown⟩ := hs.tunnels up down hpair
    have hgranted : Handshake.Granted cfg host inet dns s.talk.log :=
      Contract.wp_follow hfollow (Handshake.granted_execute hworld hdns)
        (Contract.kept_of_forall fun e he _ => ⟨hanswers e he, hs.resolved e he⟩) final rfl
    refine ⟨hgranted, hstream, accepted_prefix hup, ?_, accepted_prefix hdown⟩
    rw [toClient, hpair, htold hgranted.whole]

/-- An accepted client of a server without passwords, about to ask for `10.0.0.1:80` and to go on at
once. -/
def eagerClient : Relay :=
  ⟨⟨Handshake.execute ⟨5, 30, false, [⟨[], []⟩]⟩ .little Handshake.noLiterals Handshake.oneHandler,
    newTCPCommHelper 7 true, newTCPCommHelper 7 false, 0, none, [],
    [5, 1, 0, 5, 1, 0, 1, 10, 0, 0, 1, 0, 80, 65, 66], [], []⟩, none⟩

/-- A transfer of the handshake moves all its `n` bytes at once. -/
def transferAll (n : ℕ) : List RelayAction :=
  [.talk (.enter 0), .talk (.transfer .look), .talk (.transfer (.call n 0)), .talk (.transfer .settle)]

/-- The request is read and granted. -/
def grantRequest : List RelayAction :=
  .talk (.answer ⟨.getHandler 1, some 7⟩) ::
    ([1, 1, 1, 2, 1, 2, 1, 4, 2].flatMap transferAll ++
    [.talk (.answer ⟨.connectAndCreateHandler ⟨.ofRaw [10, 0, 0, 1], 80⟩ ⟨30, 0⟩, (2 : ℕ)⟩),
      .talk (.answer ⟨.getHandler 2, some 8⟩), .talk (.answer ⟨.getState 0, ⟨1, 1⟩⟩),
      .talk (.answer ⟨.newClaim 2, (1 : ℕ)⟩), .talk (.answer ⟨.claim 1, ⟨1, 2⟩⟩),
      .talk (.answer ⟨.getsockname 8, some Handshake.localEndpoint⟩)] ++
    transferAll 10 ++
    [.talk (.answer ⟨.disclaim 0, ⟨0, 1⟩⟩), .talk (.answer ⟨.disclaim 1, ⟨0, 2⟩⟩), .connect 8 0 0])

/-- A tunnel reads a block and writes it. -/
def copyBlock (block : Bytes) : List TunnelAction :=
  [.control, .control, .control, .transfer .look [], .transfer (.call block.length 0) block,
    .transfer .settle [], .control, .transfer .look [], .transfer (.call block.length 0) [],
    .transfer .settle []]

/-- Then one block goes in either direction. -/
def exchange : List RelayAction :=
  grantRequest ++ (copyBlock [65, 66]).map .up ++ (copyBlock [67]).map .down

/-- The bytes behind the request reach the target, and the client gets the target's byte behind its
replies. -/
theorem streams_relayed_exchange :
    ∃ s up down, runActions (step 4) eagerClient exchange = some s ∧ s.tunnels = some (up, down) ∧
      up.accepted = [65, 66] ∧
      s.toClient = [5, 0, 5, 0, 0, 1, 9, 9, 9, 9, 144, 31, 67] ∧
      s.talk.log.received ++ up.input ++ s.talk.unread =
        [5, 1, 0, 5, 1, 0, 1, 10, 0, 0, 1, 0, 80, 65, 66] ∧
      down.accepted <+: down.input := by
  have hresult : ((runActions (step 4) eagerClient exchange).bind fun s =>
      s.tunnels.map fun pair => (pair.1.accepted, s.toClient)) =
        some ([65, 66], [5, 0, 5, 0, 0, 1, 9, 9, 9, 9, 144, 31, 67]) := by decide +kernel
  obtain ⟨s, hrun, hs⟩ := Option.bind_eq_some_iff.mp hresult
  obtain ⟨⟨up, down⟩, hpair, hout⟩ := Option.map_eq_some_iff.mp hs
  obtain ⟨haccepted, htoClient⟩ := Prod.mk.inj hout
  have hstart : eagerClient.Started
      (Handshake.execute ⟨5, 30, false, [⟨[], []⟩]⟩ .little Handshake.noLiterals Handshake.oneHandler)
      [5, 1, 0, 5, 1, 0, 1, 10, 0, 0, 1, 0, 80, 65, 66] :=
    ⟨⟨rfl, rfl, rfl, rfl, rfl, rfl, rfl⟩, rfl⟩
  have honce : RunMeets (step 4) (fun s _ => s.repeatsBytes = false) eagerClient exchange := by
    decide +kernel
  have hresolved : ∀ a ∈ exchange, a.Resolved Handshake.oneName := by
    have htransfer (n : ℕ) : ∀ a ∈ transferAll n, a.Resolved Handshake.oneName := by
      simp only [transferAll, List.forall_mem_cons, RelayAction.Resolved, List.not_mem_nil,
        false_implies, implies_true, and_self]
    have hgrant : ∀ a ∈ grantRequest, a.Resolved Handshake.oneName := by
      rw [grantRequest, List.forall_mem_cons, List.forall_mem_append, List.forall_mem_append,
        List.forall_mem_append, List.forall_mem_flatMap]
      refine ⟨trivial, ⟨⟨fun n _ => htransfer n, ?_⟩, htransfer 10⟩, ?_⟩
      · simp only [List.forall_mem_cons, List.not_mem_nil, false_implies, implies_true, and_true]
        exact ⟨trivial, trivial, trivial, trivial, trivial, trivial⟩
      · simp only [List.forall_mem_cons, List.not_mem_nil, false_implies, implies_true, and_true]
        exact ⟨trivial, trivial, trivial⟩
    simp only [exchange, List.forall_mem_append, List.forall_mem_map]
    exact ⟨⟨hgrant, fun _ _ => trivial⟩, fun _ _ => trivial⟩
  obtain ⟨-, htunnels⟩ := streams_relayed hstart honce hresolved hrun
  obtain ⟨-, hstream, -, -, hdown⟩ := htunnels up down hpair
  exact ⟨s, up, down, hrun, hpair, haccepted, htoClient, hstream, hdown⟩

end Relay

end TinySox
