import TinySox.JobCustody

/-!
# The wiring of a tunnel

Which handlers the claim objects of a job were made for, and which connections the job has made. The
states of a job are rebuilt at every operation on its claims; the wiring says that the positions stay
the same: the client comes first, and the target that its own handshake has connected second.
-/

namespace TinySox

open TinySox.Common

/-- What a program has made so far. -/
structure Wires where
  /-- the handler that a claim object was made for -/
  owner : ClaimRef → Option ℕ
  /-- the handlers of the connections that it has made -/
  targets : List ℕ

namespace Wires

/-- The wires after one more operation. -/
def record (g : Wires) : (o : JobOp) → o.Answer → Wires
  | .newClaim id, (c : ClaimRef) => { g with owner := Function.update g.owner c (some id) }
  | .connectAndCreateHandler _ _, (answer : ℕ) =>
    if handlerError < answer then g else { g with targets := g.targets ++ [answer] }
  | _, _ => g

/-- A new claim object is one that did not exist, and a claim object answers with the handler it was
made for. -/
def Answers (g : Wires) : (o : JobOp) → o.Answer → Prop
  | .newClaim _, (c : ClaimRef) => g.owner c = none
  | .claim c, (st : HandlerClaimState) | .disclaim c, (st : HandlerClaimState)
  | .getState c, (st : HandlerClaimState) => ∀ id, g.owner c = some id → st.handlerID = id
  | _, _ => True

end Wires

/-- The program may use the helpers of this handler only, and make connections for it. -/
def wiring (client : Option ℕ) : Contract JobOp.Answer Wires where
  may _ o :=
    match o with
    | .transferIn id _ _ | .transferOut id _ => client = some id
    | .connectAndCreateHandler _ _ => client ≠ none
    | _ => True
  gives := Wires.Answers
  next := Wires.record

/-- The state lists these handlers in this order, with claim objects that were made for them. -/
structure State.Lists (s : State) (g : Wires) (ids : List ℕ) : Prop where
  order : s.ids = ids
  owns : s.handlerClaims.map g.owner = ids.map some

/-- What the handshake of a client may return: the client, and the one connection it has made. -/
def HandsOn (client : ℕ) : JobResult → Wires → Prop
  | .terminal _, _ => True
  | .newClient _, _ => False
  | .modeConnect s, g => ∃ target, g.targets = [target] ∧ s.Lists g [client, target]

variable {A : Type} {client : Option ℕ} {exits : JobResult → Wires → Prop} {g : Wires}
  {state : State} {ids : List ℕ}

/-- The operation on a claim object tells the handler that the object was made for. -/
def Tells (client : Option ℕ) (op : ClaimRef → JobProg JobResult HandlerClaimState) : Prop :=
  ∀ (exits : JobResult → Wires → Prop) (ends : HandlerClaimState → Wires → Prop) (g : Wires) c id,
    g.owner c = some id → (∀ st : HandlerClaimState, st.handlerID = id → ends st g) →
      (wiring client).wp exits ends (op c) g

/-- A claim tells the handler. -/
theorem tells_claim : Tells client JobProg.claim := by
  intro exits ends g c id hc hends
  exact ⟨trivial, fun (st : HandlerClaimState) hst => hends st (hst id hc)⟩

/-- And so does a disclaim. -/
theorem tells_disclaim : Tells client JobProg.disclaim := by
  intro exits ends g c id hc hends
  exact ⟨trivial, fun (st : HandlerClaimState) hst => hends st (hst id hc)⟩

/-- And so does a look at the counter. -/
theorem tells_getState : Tells client JobProg.getState := by
  intro exits ends g c id hc hends
  exact ⟨trivial, fun (st : HandlerClaimState) hst => hends st (hst id hc)⟩

/-- Claim after claim, the handlers are told in order. -/
theorem wiring_refresh {op : ClaimRef → JobProg JobResult HandlerClaimState} {refs : List ClaimRef}
    {ends : List (ClaimRef × HandlerClaimState) → Wires → Prop} (hop : Tells client op)
    (howns : refs.map g.owner = ids.map some)
    (hends : ∀ entries, State.Lists ⟨entries⟩ g ids → ends entries g) :
    (wiring client).wp exits ends (State.refresh op refs) g := by
  induction refs generalizing ends ids with
  | nil =>
    apply hends []
    have hnil : ids = [] := by simpa using howns.symm
    exact ⟨hnil.symm, howns⟩
  | cons c rest ih =>
    cases ids with
    | nil => simp at howns
    | cons id ids =>
      have hboth := howns
      simp only [List.map_cons, List.cons.injEq] at hboth
      rw [State.refresh, Contract.wp_bind]
      apply hop _ _ g c id hboth.1
      intro st hst
      rw [Contract.wp_bind]
      apply ih hboth.2
      intro entries hentries
      apply hends ((c, st) :: entries)
      constructor
      · change st.handlerID :: State.ids ⟨entries⟩ = id :: ids
        rw [hst, hentries.order]
      · change g.owner c :: (State.handlerClaims ⟨entries⟩).map g.owner = some id :: ids.map some
        rw [hboth.1, hentries.owns]

/-- A state that is claimed lists the same handlers in the same order. -/
theorem wiring_claimAll {ends : State → Wires → Prop} (hs : state.Lists g ids)
    (hends : ∀ s : State, s.Lists g ids → ends s g) :
    (wiring client).wp exits ends state.claimAllHandlers g := by
  rw [State.claimAllHandlers, Contract.wp_bind]
  apply wiring_refresh tells_claim hs.owns
  intro entries hentries
  exact hends ⟨entries⟩ hentries

/-- And so does a state that is given up. -/
theorem wiring_disclaimAll {ends : State → Wires → Prop} (hs : state.Lists g ids)
    (hends : ∀ s : State, s.Lists g ids → ends s g) :
    (wiring client).wp exits ends state.disclaimAllHandlers g := by
  rw [State.disclaimAllHandlers, Contract.wp_bind]
  apply wiring_refresh tells_disclaim hs.owns
  intro entries hentries
  exact hends ⟨entries⟩ hentries

namespace Handshake

variable {host : ByteOrder} {client : ℕ}

/-- A handshake that fails returns a terminal result. -/
theorem wiring_failWithDisclaim {ends : A → Wires → Prop} (hs : state.Lists g ids) :
    (wiring (some client)).wp (HandsOn client) ends (failWithDisclaim state) g := by
  unfold failWithDisclaim
  rw [Contract.wp_bind]
  apply wiring_disclaimAll hs
  intro s _
  trivial

/-- A handshake talks to its own client. -/
theorem chats_wiring (hs : state.Lists g ids) :
    Chats (wiring (some client)) (HandsOn client) g state client := by
  constructor
  · exact fun len allowPartial => Contract.Keeps.perform rfl fun _ => rfl
  · exact fun data => Contract.Keeps.perform rfl fun _ => rfl
  · intro o ho
    cases o with
    | dnsNew | dnsOpen | dnsResolveA6 | dnsResolveA4 | dnsClose | dnsFree =>
      exact Contract.Keeps.perform trivial fun _ => rfl
    | newClaim | claim | disclaim | getState | getHandler | transferIn | transferOut
    | connectAndCreateHandler | disposeHandler | getsockname => exact ho.elim
  · exact wiring_failWithDisclaim hs

/-- The target joins the state behind the client. -/
theorem wiring_addHandlerWithClaim {target : ℕ} {ends : State → Wires → Prop}
    (hs : state.Lists g ids)
    (hends : ∀ (owner : ClaimRef → Option ℕ) (s : State),
      s.Lists { g with owner := owner } (ids ++ [target]) → ends s { g with owner := owner }) :
    (wiring (some client)).wp (HandsOn client) ends (state.addHandlerWithClaim target) g := by
  rw [State.addHandlerWithClaim, Contract.wp_bind]
  apply wiring_refresh tells_getState hs.owns
  intro entries hentries
  apply Contract.wp_perform_bind trivial
  intro (c : ClaimRef) (hnew : g.owner c = none)
  rw [Contract.wp_bind]
  change (wiring (some client)).wp _ _ _ { g with owner := Function.update g.owner c (some target) }
  apply tells_claim _ _ _ c target (Function.update_self ..)
  intro st hst
  apply hends
  constructor
  · change (entries ++ [(c, st)]).map (fun e => e.2.handlerID) = ids ++ [target]
    rw [List.map_append, List.map_singleton, hst]
    exact congrArg (· ++ [target]) hentries.order
  · have hold := owners_update target hentries.owns hnew
    change ((entries ++ [(c, st)]).map Prod.fst).map (Function.update g.owner c (some target)) = _
    simp only [List.map_append, List.map_cons, List.map_nil, Function.update_self]
    exact congrArg (· ++ [some target]) hold

/-- What the attempts of the handshake have come to. -/
def Wired (client : ℕ) (attempt : Attempt) (g : Wires) : Prop :=
  ∃ ids, attempt.finalState.Lists g ids ∧
    (attempt.rep = 0x00 → ∃ target, g.targets = [target] ∧ ids = [client, target])

/-- A connection that was made is the first one, and it is the last. -/
theorem wiring_adoptTarget {target : ℕ} (hs : state.Lists g [client]) (htargets : g.targets = [target]) :
    (wiring (some client)).wp (HandsOn client) (Wired client) (adoptTarget host target state) g := by
  rw [adoptTarget]
  apply Contract.wp_perform_bind trivial
  intro (handler : Option Int) _
  change (wiring (some client)).wp _ _ _ g
  cases handler with
  | none => exact wiring_failWithDisclaim hs
  | some fd =>
    dsimp only
    rw [Contract.wp_bind]
    apply wiring_addHandlerWithClaim hs
    intro owner finalState hfinal
    apply Contract.wp_perform_bind trivial
    intro (name : Option SockAddr) _
    change (wiring (some client)).wp _ _ _ { g with owner := owner }
    cases name with
    | none => exact wiring_failWithDisclaim hfinal
    | some sa =>
      dsimp only
      apply (keeps_failUnless (wiring_failWithDisclaim hfinal) _).wp_bind
      intro _
      exact ⟨[client, target], hfinal, fun _ => ⟨target, htargets, rfl⟩⟩

/-- The loop ends with the first connection. -/
theorem wiring_connectAny {port : UInt16} {ct : Timeval} {ips : List IPAddress} {attempt : Attempt}
    (hs : attempt.finalState.Lists g [client]) (htargets : g.targets = [])
    (hrep : attempt.rep ≠ 0x00) :
    (wiring (some client)).wp (HandsOn client) (Wired client)
      (connectAny host port ct attempt ips) g := by
  induction ips generalizing attempt with
  | nil => exact ⟨[client], hs, fun hzero => (hrep hzero).elim⟩
  | cons ip rest ih =>
    have hmay : some client ≠ none := fun h => nomatch h
    rw [connectAny]
    apply Contract.wp_perform_bind hmay
    intro (target : ℕ) _
    change (wiring (some client)).wp _ _ _
      (if handlerError < target then g else { g with targets := g.targets ++ [target] })
    by_cases hfailed : handlerError < target
    · rw [if_pos hfailed, if_pos hfailed]
      apply ih
      · exact hs
      · exact failureRep_ne_zero hrep target
    · rw [if_neg hfailed, if_neg hfailed]
      have hs' : attempt.finalState.Lists { g with targets := g.targets ++ [target] } [client] :=
        ⟨hs.order, hs.owns⟩
      have hone : g.targets ++ [target] = [target] := by rw [htargets, List.nil_append]
      exact wiring_adoptTarget hs' hone

/-- The branch on the command. -/
theorem wiring_perform {cfg : Config} {req : Request} (hs : state.Lists g [client])
    (htargets : g.targets = []) :
    (wiring (some client)).wp (HandsOn client) (Wired client) (perform cfg host state req) g := by
  unfold perform
  split
  · apply wiring_connectAny
    · exact hs
    · exact htargets
    · exact (by decide : (0x01 : UInt8) ≠ 0x00)
  · exact ⟨[client], hs, fun hzero => absurd hzero (by decide : (0x07 : UInt8) ≠ 0x00)⟩

/-- The result hands the client and its target on, in this order. -/
theorem wiring_respond {cmd : UInt8} {attempt : Attempt} {buff : Bytes} {ends : Empty → Wires → Prop}
    (hwired : Wired client attempt g) :
    (wiring (some client)).wp (HandsOn client) ends (respond host client cmd attempt buff) g := by
  obtain ⟨ids, hs, htarget⟩ := hwired
  unfold respond
  apply ((chats_wiring hs).transferOut _).wp_bind
  intro r
  apply (keeps_failUnless (wiring_failWithDisclaim hs) _).wp_bind
  intro _
  split
  · rename_i hok
    obtain ⟨target, htargets, rfl⟩ := htarget hok.2
    rw [Contract.wp_bind]
    apply wiring_disclaimAll hs
    intro s hlists
    exact ⟨target, htargets, hlists⟩
  · exact wiring_failWithDisclaim hs

/-- A handshake that has claimed its client hands on the client and the connection it has made. -/
theorem wiring_execute {cfg : Config} {inet : InetPton} {ends : Empty → Wires → Prop}
    (hs : state.Lists g [client]) (htargets : g.targets = []) :
    (wiring (some client)).wp (HandsOn client) ends (execute cfg host inet state) g := by
  have hfirst : state.handlerClaimStates.map HandlerClaimState.handlerID = [client] := by
    rw [← State.ids_eq_map, hs.order]
  unfold execute
  split
  · rename_i claimed hstates
    rw [hstates, List.map_singleton, List.cons.injEq] at hfirst
    rw [hfirst.1]
    apply Contract.wp_perform_bind trivial
    intro (handler : Option Int) _
    change (wiring (some client)).wp _ _ _ g
    cases handler with
    | none => exact wiring_failWithDisclaim hs
    | some fd =>
      dsimp only
      unfold converse
      apply (chats_wiring hs).negotiate.wp_bind
      intro negotiated
      rw [Contract.wp_bind]
      apply Contract.wp_mono (fun _ _ h => h) _ (wiring_perform hs htargets)
      intro attempt g' hwired
      exact wiring_respond hwired
  · exact wiring_failWithDisclaim hs

end Handshake

/-- A helper: one direction of a handler. -/
abbrev HelperKey := ℕ × Side

/-- Both helpers of a handler. -/
def bothSides (id : ℕ) : List HelperKey := [(id, .reader), (id, .writer)]

/-- The helpers whose methods a job calls. -/
def Job.helpers : Job → List HelperKey
  | .clientHandshake state => state.ids.flatMap bothSides
  | .tcpTunnel state isReader =>
    match state.handlerClaimStates with
    | [first, second] =>
      if isReader then [(second.handlerID, .reader), (first.handlerID, .writer)]
      else [(first.handlerID, .reader), (second.handlerID, .writer)]
    | _ => []

/-- The directions of a tunnel: the one that reads from the target writes to the client. -/
theorem Job.helpers_tcpTunnel {state : State} {client target : ℕ} (isReader : Bool)
    (hids : state.ids = [client, target]) :
    (Job.tcpTunnel state isReader).helpers =
      if isReader then [(target, .reader), (client, .writer)]
      else [(client, .reader), (target, .writer)] := by
  rw [State.ids_eq_map] at hids
  simp only [helpers]
  split
  · rename_i first second hstates
    rw [hstates] at hids
    simp only [List.map_cons, List.map_nil, List.cons.injEq, and_true] at hids
    rw [hids.1, hids.2]
  · rename_i hother
    cases hstates : state.handlerClaimStates with
    | nil => simp [hstates] at hids
    | cons first rest =>
      cases rest with
      | nil => simp [hstates] at hids
      | cons second rest =>
        cases rest with
        | nil => exact (hother first second hstates).elim
        | cons third rest => simp [hstates] at hids

/-- The handler whose helpers a job uses before the main loop of a tunnel. -/
def Job.talksTo (client : ℕ) : Job → Option ℕ
  | .clientHandshake _ => some client
  | .tcpTunnel _ _ => none

/-- A handshake hands on what it has, and a tunnel returns a terminal result. -/
def Job.Returns (client : ℕ) : Job → JobResult → Wires → Prop
  | .clientHandshake _, r, g => HandsOn client r g
  | .tcpTunnel _ _, r, _ => ∃ s, r = .terminal s

/-- A tunnel enters its main loop with the helpers that it has the directions for. -/
def Job.Enters : Job → Next → Wires → Prop
  | .clientHandshake _, _, _ => False
  | .tcpTunnel state isReader, next, g => ∃ reader writer readerFd writerFd,
    next = .copy state reader writer readerFd writerFd ∧
      (Job.tcpTunnel state isReader).helpers = [(reader, .reader), (writer, .writer)] ∧
        state.Lists g state.ids

/-- A tunnel gives up its handlers. -/
theorem TCPTunnel.wiring_terminal {ends : A → Wires → Prop} {client' : ℕ} {isReader : Bool}
    (hs : state.Lists g ids) :
    (wiring none).wp ((Job.tcpTunnel state isReader).Returns client') ends
      (terminalResultDisclaim state) g := by
  unfold terminalResultDisclaim
  rw [Contract.wp_bind]
  apply wiring_disclaimAll hs
  intro s _
  exact ⟨s, rfl⟩

/-- A tunnel enters its main loop, or gives up its handlers. -/
theorem TCPTunnel.wiring_prepare {client' : ℕ} (isReader : Bool) (hs : state.Lists g state.ids) :
    (wiring none).wp ((Job.tcpTunnel state isReader).Returns client')
      (Job.tcpTunnel state isReader).Enters (prepare state isReader) g := by
  unfold prepare
  split
  · rename_i first second hstates
    apply Contract.wp_perform_bind trivial
    intro (rHandler : Option Int) _
    apply Contract.wp_perform_bind trivial
    intro (wHandler : Option Int) _
    change (wiring none).wp _ _ _ g
    split
    · refine ⟨_, _, _, _, rfl, ?_, hs⟩
      rw [Job.helpers, hstates]
      cases isReader <;> rfl
    · exact wiring_terminal hs
  · exact wiring_terminal hs

/-- The handlers of the job are where they belong. -/
def Job.Lists (client : ℕ) (g : Wires) : Job → Prop
  | .clientHandshake state => state.Lists g [client] ∧ g.targets = []
  | .tcpTunnel state _ => state.Lists g state.ids

/-- Every job keeps to its wiring. -/
theorem Job.wiring_execute {env : Settings} {job : Job} {client : ℕ} (hjob : job.Lists client g) :
    (wiring (job.talksTo client)).wp (job.Returns client) job.Enters (job.execute env) g := by
  cases job with
  | clientHandshake state =>
    unfold execute
    rw [Contract.wp_bind]
    exact Handshake.wiring_execute hjob.1 hjob.2
  | tcpTunnel state isReader => exact TCPTunnel.wiring_prepare isReader hjob

/-- The jobs that are made of a result: one for a new client, and one for each direction of a
tunnel. -/
def Creates : JobResult → List Job → Wires → Prop
  | .terminal _, jobs, _ => jobs = []
  | .newClient id, jobs, g =>
    ∃ state, jobs = [.clientHandshake state] ∧ state.Lists g [id] ∧ g.targets = []
  | .modeConnect s, jobs, g =>
    ∃ forReader forWriter, jobs = [.tcpTunnel forReader true, .tcpTunnel forWriter false] ∧
      forReader.Lists g s.ids ∧ forWriter.Lists g s.ids

namespace JobFactory

variable {exits : JobResult → Wires → Prop}

/-- Closing what nobody claims is not part of the wiring. -/
theorem wiring_disposeUnclaimed {cStates : List HandlerClaimState} {ends : Unit → Wires → Prop}
    (hends : ends () g) : (wiring none).wp exits ends (disposeUnclaimed cStates) g := by
  induction cStates with
  | nil => exact hends
  | cons cState rest ih =>
    unfold disposeUnclaimed
    split
    · exact ⟨trivial, fun _ _ => ih⟩
    · exact ih

/-- The handshake of a new client claims this client. -/
theorem wiring_newClient (id : ℕ) (htargets : g.targets = []) :
    (wiring none).wp exits (Creates (.newClient id)) (createJobsFromResult (.newClient id)) g := by
  unfold createJobsFromResult State.addHandler
  rw [Contract.wp_bind]
  change (wiring none).wp _ _ (JobProg.newClaim id >>= _) _
  apply Contract.wp_perform_bind trivial
  intro (c : ClaimRef) _
  rw [Contract.wp_bind]
  change (wiring none).wp _ _ _ { g with owner := Function.update g.owner c (some id) }
  apply tells_getState _ _ _ c id (Function.update_self ..)
  intro st hst
  change (wiring none).wp _ _ (State.claimAllHandlers _ >>= _) _
  rw [Contract.wp_bind]
  have hs : (State.mk ([] ++ [(c, st)])).Lists { g with owner := Function.update g.owner c (some id) }
      [id] :=
    ⟨congrArg (fun x => [x]) hst, congrArg (fun x => [x]) (Function.update_self ..)⟩
  apply wiring_claimAll hs
  intro s hlists
  exact ⟨s, rfl, hlists, htargets⟩

/-- The directions of a tunnel list the handlers in the order of the result. -/
theorem wiring_modeConnect (hs : state.Lists g state.ids) :
    (wiring none).wp exits (Creates (.modeConnect state)) (createJobsFromResult (.modeConnect state))
      g := by
  unfold createJobsFromResult
  rw [Contract.wp_bind]
  apply wiring_claimAll hs
  intro forReader hreader
  rw [Contract.wp_bind]
  apply wiring_claimAll hs
  intro forWriter hwriter
  exact ⟨forReader, forWriter, rfl, hreader, hwriter⟩

/-- What the result lists must have claim objects that were made for it. -/
def Known (g : Wires) : JobResult → Prop
  | .terminal _ | .newClient _ => True
  | .modeConnect state => state.Lists g state.ids

/-- `CreateJobsFromResult` uses no helper and makes no connection. -/
theorem wiring_createJobsFromResult {r : JobResult} (hr : Known g r) (htargets : g.targets = []) :
    (wiring none).wp exits (Creates r) (createJobsFromResult r) g := by
  cases r with
  | terminal state =>
    unfold createJobsFromResult
    rw [Contract.wp_bind]
    apply wiring_disposeUnclaimed
    rfl
  | newClient id => exact wiring_newClient id htargets
  | modeConnect state => exact wiring_modeConnect hr

end JobFactory

end TinySox
