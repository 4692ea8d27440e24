import TinySox.SocksCodec

/-!
# The outcome of a CONNECT request

The last part of `Execute`, from the check of the command on: the connection attempts, the reply
and the result. What the client is told, what the job hands on and what was dialled agree on every
path. The claim objects answer with the handler they were made for; everything else is left open.
-/

namespace TinySox

open TinySox.Common

/-- What the last part of a handshake has done. -/
structure ConnectLog where
  /-- the handler that a claim object was made for -/
  owner : ClaimRef → Option ℕ
  dials : List Dial
  /-- the answers of `getsockname` -/
  sockNames : List SockAddr
  /-- what was sent, with the result of the transfer -/
  replies : List (Bytes × Int)

namespace ConnectLog

/-- Bytes are handed to the writer. -/
def reply (g : ConnectLog) (data : Bytes) (r : Int) : ConnectLog :=
  { g with replies := g.replies ++ [(data, r)] }

/-- The log after one more operation. -/
def record (g : ConnectLog) : (o : JobOp) → o.Answer → ConnectLog
  | .newClaim id, (c : ClaimRef) => { g with owner := Function.update g.owner c (some id) }
  | .connectAndCreateHandler target timeout, (answer : ℕ) =>
    { g with dials := g.dials ++ [⟨target, timeout, answer⟩] }
  | .getsockname _, some sa => { g with sockNames := g.sockNames ++ [sa] }
  | .transferOut _ data, (r : Int) => g.reply data r
  | _, _ => g

/-- A new claim object is one that did not exist, and it answers with the handler it was made
for. -/
def Answers (g : ConnectLog) : (o : JobOp) → o.Answer → Prop
  | .newClaim _, (c : ClaimRef) => g.owner c = none
  | .claim c, (s : HandlerClaimState) | .disclaim c, (s : HandlerClaimState)
  | .getState c, (s : HandlerClaimState) => g.owner c = some s.handlerID
  | _, _ => True

/-- The claim objects of the state were made for these handlers. -/
def Owns (g : ConnectLog) (s : State) (ids : List ℕ) : Prop :=
  s.handlerClaims.map g.owner = ids.map some

end ConnectLog

/-- The log of a list of events. -/
def connectLog (owner : ClaimRef → Option ℕ) (t : List (Event JobOp.Answer)) : ConnectLog :=
  t.foldl (fun g e => g.record e.1 e.2) ⟨owner, [], [], []⟩

/-- The reply code of an error that has one of its own. -/
def Dial.code (d : Dial) : Option UInt8 :=
  if d.answer = handlerErrorConnRefused then some 0x05
  else if d.answer = handlerErrorNetUnavail then some 0x03
  else none

/-- The code of the last attempt that failed with such an error, or that of a general failure. -/
def failureCode (dials : List Dial) : UInt8 := ((dials.filterMap Dial.code).getLast?).getD 0x01

/-- The loop computes the code step by step. -/
theorem failureCode_append (dials : List Dial) (d : Dial) :
    failureCode (dials ++ [d]) = Handshake.failureRep (failureCode dials) d.answer := by
  have hdistinct : handlerErrorConnRefused ≠ handlerErrorNetUnavail := by decide
  unfold failureCode Handshake.failureRep
  rw [List.filterMap_append]
  by_cases hrefused : d.answer = handlerErrorConnRefused
  · have hcode : d.code = some 0x05 := by rw [Dial.code, if_pos hrefused]
    simp [hcode, hrefused, hdistinct]
  · by_cases hnet : d.answer = handlerErrorNetUnavail
    · have hcode : d.code = some 0x03 := by rw [Dial.code, if_neg hrefused, if_pos hnet]
      simp [hcode, hnet]
    · have hcode : d.code = none := by rw [Dial.code, if_neg hrefused, if_neg hnet]
      simp [hcode, hrefused, hnet]

/-- No failure is reported as a success. -/
theorem failureCode_ne_zero (dials : List Dial) : failureCode dials ≠ 0x00 := by
  unfold failureCode
  cases hlast : (dials.filterMap Dial.code).getLast? with
  | none => decide
  | some code =>
    obtain ⟨d, -, hd⟩ := List.mem_filterMap.mp (List.mem_of_getLast? hlast)
    unfold Dial.code at hd
    split_ifs at hd <;> cases hd <;> decide

/-- One more address was dialled without success. -/
theorem FailedDials.append {port : UInt16} {ip : IPAddress} {ips : List IPAddress} {d : Dial}
    {dials : List Dial} (h : FailedDials port ips dials) (htarget : d.target = ⟨ip, port⟩)
    (hfailed : handlerError < d.answer) : FailedDials port (ips ++ [ip]) (dials ++ [d]) := by
  constructor
  · rw [List.map_append, List.map_append, h.1, List.map_singleton, htarget, List.map_singleton]
  · intro e he
    rcases List.mem_append.mp he with hbefore | hlast
    · exact h.2 e hbefore
    · rw [List.mem_singleton.mp hlast]
      exact hfailed

namespace Handshake

/-- `Execute` once the request is decoded. -/
def serve (cfg : Config) (host : ByteOrder) (state : State) (id : ℕ) (req : Request)
    (buff : Bytes) : HandshakeProg Empty := do
  let attempt ← perform cfg host state req
  respond host id req.cmd attempt buff

/-- What the connection attempts for a request have come to. -/
inductive Performed (host : ByteOrder) (req : Request) (client : ℕ) (g : ConnectLog)
    (attempt : Attempt) : Prop
  | unsupported (hcmd : req.cmd ≠ 0x01) (hdials : g.dials = []) (hrep : attempt.rep = 0x07)
      (hbind : attempt.bindEP = .unset)
  | refused (hcmd : req.cmd = 0x01) (hdials : FailedDials req.port req.destIPs g.dials)
      (hrep : attempt.rep = failureCode g.dials) (hbind : attempt.bindEP = .unset)
  | connected (last : Dial) (sa : SockAddr) (hcmd : req.cmd = 0x01)
      (hdials : Dialled req.port req.destIPs g.dials) (hlast : g.dials.getLast? = some last)
      (hmade : last.answer ≤ handlerError) (hrep : attempt.rep = 0x00)
      (hname : g.sockNames = [sa]) (hbind : attempt.bindEP = .ofSockaddr host sa)
      (howns : g.Owns attempt.finalState [client, last.answer])

/-- The attempts are over, and nothing has been sent yet. -/
structure Ready (host : ByteOrder) (req : Request) (client : ℕ) (attempt : Attempt)
    (g : ConnectLog) : Prop where
  performed : Performed host req client g attempt
  replies : g.replies = []
  owns : ∃ ids, g.Owns attempt.finalState ids

/-- The next address may be dialled: the ones before it were, and no connection was made. -/
def DialsNext (req : Request) (g : ConnectLog) (target : IPEndpoint) : Prop :=
  ∃ done ip rest, req.destIPs = done ++ ip :: rest ∧ target = ⟨ip, req.port⟩ ∧
    FailedDials req.port done g.dials

/-- The reply may be sent: it is the first one, and it tells what was performed. -/
def RepliesOnce (host : ByteOrder) (req : Request) (client : ℕ) (g : ConnectLog) (id : ℕ)
    (data : Bytes) : Prop :=
  g.replies = [] ∧ id = client ∧
    ∃ attempt, Performed host req client g attempt ∧ data = replyBytes host attempt

/-- How the job may end. -/
inductive Ended (host : ByteOrder) (req : Request) (client : ℕ) (res : JobResult)
    (g : ConnectLog) : Prop
  | silent (s : State) (hcmd : req.cmd = 0x01) (hdials : Dialled req.port req.destIPs g.dials)
      (hreplies : g.replies = []) (hres : res = .terminal s)
  | failed (attempt : Attempt) (n : Int) (s : State) (hperformed : Performed host req client g attempt)
      (hreplies : g.replies = [(replyBytes host attempt, n)])
      (hfails : req.cmd = 0x01 → attempt.rep = 0x00 → n < (replyBytes host attempt).length)
      (hres : res = .terminal s)
  | established (attempt : Attempt) (n : Int) (s : State) (ids : List ℕ)
      (hperformed : Performed host req client g attempt)
      (hreplies : g.replies = [(replyBytes host attempt, n)])
      (hfull : (replyBytes host attempt).length ≤ n) (hcmd : req.cmd = 0x01)
      (hrep : attempt.rep = 0x00) (howns : g.Owns attempt.finalState ids)
      (hids : s.handlerClaimStates.map HandlerClaimState.handlerID = ids)
      (hres : res = .modeConnect s)

/-- What is known of the answers, and what the last part of a handshake may do. -/
def serving (host : ByteOrder) (req : Request) (client : ℕ) : Contract JobOp.Answer ConnectLog where
  may g o :=
    match o with
    | .connectAndCreateHandler target _ => DialsNext req g target
    | .transferOut id data => RepliesOnce host req client g id data
    | _ => True
  gives := ConnectLog.Answers
  next := ConnectLog.record

variable {A : Type} {host : ByteOrder} {req : Request} {client : ℕ} {g : ConnectLog}
  {exits : JobResult → ConnectLog → Prop} {state : State} {ids : List ℕ}

/-- Reading or changing claim counters leaves the log as it is, and tells the handlers. -/
theorem serving_refresh {op : ClaimRef → HandshakeProg HandlerClaimState} {refs : List ClaimRef}
    {ends : List (ClaimRef × HandlerClaimState) → ConnectLog → Prop}
    (hop : ∀ c (ends : HandlerClaimState → ConnectLog → Prop),
      (∀ s, g.owner c = some s.handlerID → ends s g) → (serving host req client).wp exits ends (op c) g)
    (howns : refs.map g.owner = ids.map some)
    (hends : ∀ entries, entries.map Prod.fst = refs →
      entries.map (fun e => e.2.handlerID) = ids → ends entries g) :
    (serving host req client).wp exits ends (State.refresh op refs) g := by
  induction refs generalizing ends ids with
  | nil =>
    apply hends [] rfl
    simpa using howns
  | cons c rest ih =>
    cases ids with
    | nil => simp at howns
    | cons id ids =>
      simp only [List.map_cons, List.cons.injEq] at howns
      rw [State.refresh, Contract.wp_bind]
      apply hop
      intro s hs
      rw [Contract.wp_bind]
      apply ih howns.2
      intro entries hrefs hids
      have hid : s.handlerID = id := Option.some.inj (hs.symm.trans howns.1)
      apply hends ((c, s) :: entries)
      · rw [List.map_cons, hrefs]
      · rw [List.map_cons, hids, hid]

/-- Giving up the claims tells the handlers. -/
theorem serving_disclaimAllHandlers {ends : State → ConnectLog → Prop} (howns : g.Owns state ids)
    (hends : ∀ s : State, s.handlerClaimStates.map HandlerClaimState.handlerID = ids → ends s g) :
    (serving host req client).wp exits ends state.disclaimAllHandlers g := by
  rw [State.disclaimAllHandlers, Contract.wp_bind]
  refine serving_refresh (fun c ends hends => ⟨trivial, fun s hs => hends s hs⟩) howns
    fun entries _ hids => ?_
  apply hends ⟨entries⟩
  rw [State.handlerClaimStates, List.map_map]
  exact hids

/-- The early exits end with a terminal result. -/
theorem serving_failWithDisclaim {ends : A → ConnectLog → Prop} (howns : g.Owns state ids)
    (hexits : ∀ s, exits (.terminal s) g) :
    (serving host req client).wp exits ends (failWithDisclaim state) g := by
  rw [failWithDisclaim, Contract.wp_bind]
  exact serving_disclaimAllHandlers howns fun s _ => hexits s

/-- A check is passed, or ends the job. -/
theorem serving_failUnless {ok : Bool} {ends : Unit → ConnectLog → Prop} (howns : g.Owns state ids)
    (hok : ok = true → ends () g) (hexits : ok = false → ∀ s, exits (.terminal s) g) :
    (serving host req client).wp exits ends (failUnless ok state) g := by
  unfold failUnless
  cases ok with
  | true => exact hok rfl
  | false => exact serving_failWithDisclaim howns (hexits rfl)

/-- A handler joins the end of a state. -/
theorem serving_addHandlerWithClaim {target : ℕ} {ends : State → ConnectLog → Prop}
    (howns : g.Owns state ids)
    (hends : ∀ (owner : ClaimRef → Option ℕ) (s : State),
      ConnectLog.Owns { g with owner := owner } s (ids ++ [target]) →
        ends s { g with owner := owner }) :
    (serving host req client).wp exits ends (state.addHandlerWithClaim target) g := by
  rw [State.addHandlerWithClaim, Contract.wp_bind]
  refine serving_refresh (fun c ends hends => ⟨trivial, fun s hs => hends s hs⟩) howns
    fun entries hrefs _ => ?_
  apply Contract.wp_perform_bind trivial
  intro (c : ClaimRef) (hnew : g.owner c = none)
  apply Contract.wp_perform_bind trivial
  intro (s : HandlerClaimState) _
  apply hends (Function.update g.owner c (some target))
  have hold := owners_update target howns hnew
  simp only [ConnectLog.Owns, State.handlerClaims, List.map_append, List.map_cons, List.map_nil,
    hrefs, Function.update_self]
  rw [← hold]
  rfl

/-- After a successful attempt the job ends without a reply, or the target has joined the state
behind the client, with its local endpoint found out. -/
theorem serving_adoptTarget {last : Dial} (hcmd : req.cmd = 0x01)
    (hdials : Dialled req.port req.destIPs g.dials) (hlast : g.dials.getLast? = some last)
    (hmade : last.answer ≤ handlerError) (hnames : g.sockNames = []) (hreplies : g.replies = [])
    (howns : g.Owns state [client]) :
    (serving host req client).wp (Ended host req client) (Ready host req client)
      (adoptTarget host last.answer state) g := by
  have hsilent (owner : ClaimRef → Option ℕ) (names : List SockAddr) (s : State) :
      Ended host req client (.terminal s) { g with owner := owner, sockNames := names } :=
    .silent s hcmd hdials hreplies rfl
  rw [adoptTarget]
  apply Contract.wp_perform_bind trivial
  intro (handler : Option Int) _
  cases handler with
  | none => exact serving_failWithDisclaim howns fun s => hsilent g.owner g.sockNames s
  | some fd =>
    dsimp only
    rw [Contract.wp_bind]
    apply serving_addHandlerWithClaim howns
    intro owner finalState howns'
    apply Contract.wp_perform_bind trivial
    intro (name : Option SockAddr) _
    cases name with
    | none => exact serving_failWithDisclaim howns' fun s => hsilent owner g.sockNames s
    | some sa =>
      dsimp only
      rw [Contract.wp_bind]
      have hname : g.sockNames ++ [sa] = [sa] := by rw [hnames, List.nil_append]
      have hnamed : ConnectLog.Owns { g with owner := owner, sockNames := g.sockNames ++ [sa] }
          finalState [client, last.answer] := howns'
      exact serving_failUnless hnamed
        (fun _ => ⟨.connected last sa hcmd hdials hlast hmade rfl hname rfl hnamed, hreplies, _,
          hnamed⟩)
        (fun _ s => hsilent owner (g.sockNames ++ [sa]) s)

/-- The loop goes on with the addresses that are left, after the others were dialled in vain. -/
theorem serving_connectAny {ct : Timeval} {done ips : List IPAddress} {attempt : Attempt}
    (hcmd : req.cmd = 0x01) (hips : req.destIPs = done ++ ips)
    (hdone : FailedDials req.port done g.dials) (hrep : attempt.rep = failureCode g.dials)
    (hbind : attempt.bindEP = .unset) (hnames : g.sockNames = []) (hreplies : g.replies = [])
    (howns : g.Owns attempt.finalState [client]) :
    (serving host req client).wp (Ended host req client) (Ready host req client)
      (connectAny host req.port ct attempt ips) g := by
  induction ips generalizing g done attempt with
  | nil =>
    rw [List.append_nil] at hips
    exact ⟨.refused hcmd (hips ▸ hdone) hrep hbind, hreplies, _, howns⟩
  | cons ip rest ih =>
    have hmay : DialsNext req g ⟨ip, req.port⟩ := ⟨done, ip, rest, hips, rfl, hdone⟩
    rw [connectAny]
    apply Contract.wp_perform_bind hmay
    intro (target : ℕ) _
    have hlast : (g.dials ++ [Dial.mk ⟨ip, req.port⟩ ct target]).getLast? =
        some ⟨⟨ip, req.port⟩, ct, target⟩ := List.getLast?_concat
    split_ifs with hfailed
    · have hnext : req.destIPs = (done ++ [ip]) ++ rest := by
        rw [hips, List.append_assoc, List.singleton_append]
      have hcode := failureCode_append g.dials ⟨⟨ip, req.port⟩, ct, target⟩
      rw [← hrep] at hcode
      exact ih hnext (hdone.append rfl hfailed) hcode.symm hbind hnames hreplies howns
    · have hmade : (Dial.mk ⟨ip, req.port⟩ ct target).answer ≤ handlerError :=
        Nat.le_of_not_lt hfailed
      have hdialled : Dialled req.port req.destIPs
          (g.dials ++ [⟨⟨ip, req.port⟩, ct, target⟩]) :=
        .inr ⟨done, ip, rest, g.dials, _, hips, rfl, hdone, rfl, hmade⟩
      exact serving_adoptTarget hcmd hdialled hlast hmade hnames hreplies howns

/-- The branch on the command. -/
theorem serving_perform {cfg : Config} (hdials : g.dials = []) (hnames : g.sockNames = [])
    (hreplies : g.replies = []) (howns : g.Owns state [client]) :
    (serving host req client).wp (Ended host req client) (Ready host req client)
      (perform cfg host state req) g := by
  unfold perform
  split_ifs with hcmd
  · have hnone : FailedDials req.port [] g.dials := by
      rw [hdials]
      exact ⟨rfl, fun d hd => absurd hd List.not_mem_nil⟩
    have hrep : (0x01 : UInt8) = failureCode g.dials := by
      rw [hdials]
      rfl
    have howns' : g.Owns (Attempt.mk 0x01 .unset state).finalState [client] := howns
    exact serving_connectAny hcmd rfl hnone hrep rfl hnames hreplies howns'
  · exact ⟨.unsupported hcmd hdials rfl rfl, hreplies, _, howns⟩

/-- A reply does not change what was performed. -/
theorem Performed.reply {attempt : Attempt} (h : Performed host req client g attempt) (data : Bytes)
    (n : Int) : Performed host req client (g.reply data n) attempt := by
  cases h with
  | unsupported hcmd hdials hrep hbind => exact .unsupported hcmd hdials hrep hbind
  | refused hcmd hdials hrep hbind => exact .refused hcmd hdials hrep hbind
  | connected last sa hcmd hdials hlast hmade hrep hname hbind howns =>
    exact .connected last sa hcmd hdials hlast hmade hrep hname hbind howns

/-- The reply is sent, and the job ends. -/
theorem serving_respond {attempt : Attempt} {buff : Bytes} {ends : Empty → ConnectLog → Prop}
    (h : Ready host req client attempt g) :
    (serving host req client).wp (Ended host req client) ends
      (respond host client req.cmd attempt buff) g := by
  obtain ⟨hperformed, hreplies, ids, howns⟩ := h
  rw [respond]
  apply Contract.wp_perform_bind
  · rw [take_storeAt_front]
    exact ⟨hreplies, rfl, attempt, hperformed, rfl⟩
  intro (n : Int) _
  rw [take_storeAt_front, Contract.wp_bind]
  have hsent : (g.reply (replyBytes host attempt) n).replies = [(replyBytes host attempt, n)] := by
    rw [ConnectLog.reply, hreplies, List.nil_append]
  have hperformed' := hperformed.reply (replyBytes host attempt) n
  have howns' : (g.reply (replyBytes host attempt) n).Owns attempt.finalState ids := howns
  apply serving_failUnless howns'
  · intro hok
    have hfull : ((replyBytes host attempt).length : Int) ≤ n := of_decide_eq_true hok
    split_ifs with hdone
    · rw [Contract.wp_bind]
      apply serving_disclaimAllHandlers howns'
      intro s hids
      exact .established attempt n s ids hperformed' hsent hfull hdone.1 hdone.2 howns' hids rfl
    · apply serving_failWithDisclaim howns'
      intro s
      exact .failed attempt n s hperformed' hsent (fun hcmd hrep => absurd ⟨hcmd, hrep⟩ hdone) rfl
  · intro hbad s
    have hshort : n < (replyBytes host attempt).length := Int.not_le.mp (of_decide_eq_false hbad)
    exact .failed attempt n s hperformed' hsent (fun _ _ => hshort) rfl

/-- The last part of a handshake keeps to its contract. -/
theorem serving_serve {cfg : Config} {buff : Bytes} {ends : Empty → ConnectLog → Prop}
    (hdials : g.dials = []) (hnames : g.sockNames = []) (hreplies : g.replies = [])
    (howns : g.Owns state [client]) :
    (serving host req client).wp (Ended host req client) ends
      (serve cfg host state client req buff) g := by
  rw [serve, Contract.wp_bind]
  apply Contract.wp_mono (fun _ _ h => h) _ (serving_perform hdials hnames hreplies howns)
  exact fun attempt g' h => serving_respond h

/-- The second byte of a reply is its code. -/
theorem byteAt_replyBytes (host : ByteOrder) (attempt : Attempt) :
    byteAt (replyBytes host attempt) 1 = attempt.rep := rfl

/-- The reply tells how the connection attempts went. -/
structure ReplyAgrees (dials : List Dial) (data : Bytes) : Prop where
  made : byteAt data 1 = 0x00 ↔ ∃ d ∈ dials, d.answer ≤ handlerError
  failed : (∀ d ∈ dials, handlerError < d.answer) → byteAt data 1 = failureCode dials

/-- What was dialled, what the client was told and what the job hands on agree. -/
structure ConnectOutcome (req : Request) (client : ℕ) (g : ConnectLog) (res : JobResult) : Prop where
  dialled : Dialled req.port req.destIPs g.dials
  once : g.replies.length ≤ 1
  agrees : ∀ reply ∈ g.replies, ReplyAgrees g.dials reply.1
  mode : (∃ s, res = .modeConnect s) ↔
    ∃ reply ∈ g.replies, byteAt reply.1 1 = 0x00 ∧ (reply.1.length : Int) ≤ reply.2
  handlers : ∀ s, res = .modeConnect s → ∃ last, g.dials.getLast? = some last ∧
    last.answer ≤ handlerError ∧
      s.handlerClaimStates.map HandlerClaimState.handlerID = [client, last.answer]
  terminal : (∀ s, res ≠ .modeConnect s) → ∃ s, res = .terminal s

/-- The reply of a CONNECT request agrees with the attempts. -/
theorem Performed.replyAgrees {attempt : Attempt} (h : Performed host req client g attempt)
    (hcmd : req.cmd = 0x01) : ReplyAgrees g.dials (replyBytes host attempt) := by
  cases h with
  | unsupported hother => exact absurd hcmd hother
  | refused _ hdials hrep =>
    constructor
    · rw [byteAt_replyBytes, hrep]
      constructor
      · intro hzero
        exact absurd hzero (failureCode_ne_zero g.dials)
      · rintro ⟨d, hd, hmade⟩
        exact absurd (hdials.2 d hd) (Nat.not_lt.mpr hmade)
    · intro _
      rw [byteAt_replyBytes, hrep]
  | connected last sa _ hdials hlast hmade hrep =>
    have hmem : last ∈ g.dials := List.mem_of_getLast? hlast
    constructor
    · rw [byteAt_replyBytes, hrep]
      exact ⟨fun _ => ⟨last, hmem, hmade⟩, fun _ => rfl⟩
    · intro hall
      exact absurd (hall last hmem) (Nat.not_lt.mpr hmade)

/-- The addresses of a CONNECT request were dialled in order. -/
theorem Performed.dialled {attempt : Attempt} (h : Performed host req client g attempt)
    (hcmd : req.cmd = 0x01) : Dialled req.port req.destIPs g.dials := by
  cases h with
  | unsupported hother => exact absurd hcmd hother
  | refused _ hdials => exact .inl hdials
  | connected last sa _ hdials => exact hdials

/-- A reply of success names the target of the last attempt. -/
theorem Performed.target {attempt : Attempt} (h : Performed host req client g attempt)
    (hcmd : req.cmd = 0x01) (hrep : attempt.rep = 0x00) (howns : g.Owns attempt.finalState ids) :
    ∃ last, g.dials.getLast? = some last ∧ last.answer ≤ handlerError ∧
      ids = [client, last.answer] := by
  cases h with
  | unsupported hother => exact absurd hcmd hother
  | refused _ hdials hcode =>
    rw [hrep] at hcode
    exact absurd hcode.symm (failureCode_ne_zero g.dials)
  | connected last sa _ hdials hlast hmade _ _ _ htarget =>
    refine ⟨last, hlast, hmade, ?_⟩
    have hsame : ids.map some = [client, last.answer].map some := howns.symm.trans htarget
    exact List.map_injective_iff.mpr (fun _ _ h => Option.some.inj h) hsame

/-- The ways in which the job ends are those that agree. -/
theorem Ended.outcome {res : JobResult} (h : Ended host req client res g) (hcmd : req.cmd = 0x01) :
    ConnectOutcome req client g res := by
  cases h with
  | silent s _ hdials hreplies hres =>
    subst hres
    constructor
    · exact hdials
    · simp [hreplies]
    · simp [hreplies]
    · simp [hreplies]
    · simp
    · exact fun _ => ⟨s, rfl⟩
  | failed attempt n s hperformed hreplies hfails hres =>
    subst hres
    have hunsent (hrep : byteAt (replyBytes host attempt) 1 = 0x00) :
        n < (replyBytes host attempt).length := hfails hcmd hrep
    constructor
    · exact hperformed.dialled hcmd
    · simp [hreplies]
    · simpa [hreplies] using hperformed.replyAgrees hcmd
    · simpa [hreplies] using hunsent
    · simp
    · exact fun _ => ⟨s, rfl⟩
  | established attempt n s ids hperformed hreplies hfull _ hrep howns hids hres =>
    subst hres
    constructor
    · exact hperformed.dialled hcmd
    · simp [hreplies]
    · simpa [hreplies] using hperformed.replyAgrees hcmd
    · simp [hreplies, byteAt_replyBytes, hrep, hfull]
    · intro s' hs
      cases hs
      obtain ⟨last, hlast, hmade, rfl⟩ := hperformed.target hcmd hrep howns
      exact ⟨last, hlast, hmade, hids⟩
    · exact fun hnot => absurd rfl (hnot s)

/-- Outcome agreement of a CONNECT request. However the connection attempts, `getsockname` and the
transfer of the reply turn out: the addresses are dialled in order, the reply is sent at most once
and tells the outcome of the attempts, and the handlers of the client and of the connected target
are handed on exactly if a reply of success was sent in full. -/
theorem connect_outcome {cfg : Config} {inet : InetPton} {owner : ClaimRef → Option ℕ} {c : ClaimRef}
    {claimed : HandlerClaimState} {buff : Bytes} {before t : List (Event JobOp.Answer)}
    {q : HandshakeProg Empty} (hstate : state.entries = [(c, claimed)])
    (howner : owner c = some claimed.handlerID) (hcmd : req.cmd = 0x01)
    (hrequest : (execute cfg host inet state).follow before =
      some (serve cfg host state claimed.handlerID req buff))
    (hrun : (execute cfg host inet state).follow (before ++ t) = some q)
    (hanswers : (serving host req claimed.handlerID).Kept ⟨owner, [], [], []⟩ t) :
    (∀ target timeout k, q = .call (.connectAndCreateHandler target timeout) k →
      DialsNext req (connectLog owner t) target) ∧
    (∀ id data k, q = .call (.transferOut id data) k → (connectLog owner t).replies = [] ∧
      id = claimed.handlerID ∧ ReplyAgrees (connectLog owner t).dials data) ∧
    ∀ res, q = .exit res → ConnectOutcome req claimed.handlerID (connectLog owner t) res := by
  have howns : ConnectLog.Owns ⟨owner, [], [], []⟩ state [claimed.handlerID] := by
    rw [ConnectLog.Owns, State.handlerClaims, hstate]
    simp [howner]
  rw [Prog.follow_append, hrequest, Option.bind_some] at hrun
  have hserve : (serving host req claimed.handlerID).wp (Ended host req claimed.handlerID)
      (fun _ _ => True) (serve cfg host state claimed.handlerID req buff) ⟨owner, [], [], []⟩ :=
    serving_serve rfl rfl rfl howns
  have hrest := Contract.wp_follow hrun hserve hanswers
  refine ⟨?_, ?_, ?_⟩
  · rintro target timeout k rfl
    exact hrest.1
  · rintro id data k rfl
    obtain ⟨hnone, hid, attempt, hperformed, rfl⟩ := hrest.1
    exact ⟨hnone, hid, hperformed.replyAgrees hcmd⟩
  · rintro res rfl
    exact Ended.outcome hrest hcmd

/-- The only claim object is that of the client. -/
def clientOnly : ClaimRef → Option ℕ := fun c => if c = 0 then some 1 else none

/-- A request for a name with two addresses. -/
def namedRequest : Request :=
  ⟨0x01, [.ofRaw (List.replicate 16 1), .ofRaw [10, 0, 0, 1]], 80⟩

/-- The first address cannot be reached and the second one can, so both handlers are handed on. -/
theorem connect_outcome_named :
    ConnectOutcome namedRequest 1 (connectLog clientOnly (namedEvents.drop 23))
      (.modeConnect ⟨[(0, ⟨0, 1⟩), (1, ⟨0, 2⟩)]⟩) := by
  obtain ⟨buff, hrequest⟩ : ∃ buff, (execute oneUser .little noLiterals oneHandler).follow
      (namedEvents.take 23) = some (serve oneUser .little oneHandler 1 namedRequest buff) := ⟨_, rfl⟩
  have hrun : (execute oneUser .little noLiterals oneHandler).follow
      (namedEvents.take 23 ++ namedEvents.drop 23) =
        some (.exit (.modeConnect ⟨[(0, ⟨0, 1⟩), (1, ⟨0, 2⟩)]⟩)) := rfl
  have hanswers : (serving .little namedRequest 1).Kept ⟨clientOnly, [], [], []⟩
      (namedEvents.drop 23) := by
    simp [Contract.Kept, serving, ConnectLog.Answers, ConnectLog.record, ConnectLog.reply,
      namedEvents, sent, clientOnly]
  have hstate : oneHandler.entries = [(0, HandlerClaimState.mk 1 1)] := rfl
  have howner : clientOnly 0 = some (HandlerClaimState.mk 1 1).handlerID := rfl
  exact (connect_outcome hstate howner rfl hrequest hrun hanswers).2.2 _ rfl

end Handshake

end TinySox
