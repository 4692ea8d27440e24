import Mathlib.Data.List.Nodup
import TinySox.HandshakeKeeps
import TinySox.JobPipeline

/-!
# What jobs do with their handlers

The contract between a job and the rest of the process, in terms of what the job holds: it uses
only handlers that it has claimed, disposes only of handlers that it owes, and returns a result
that names everything it still holds. It claims a handler at most twice, so the counters stay far from
their ends. `CreateJobsFromResult` and both kinds of jobs keep it.
-/

namespace TinySox

open TinySox.Common

/-- What a program may do with what it holds, and what it may rely on. A handler that the program
holds has the descriptor of its helpers. -/
def custody (fds : ℕ → Option Int) : Contract JobOp.Answer Custodian where
  may held o :=
    match o with
    | .newClaim id => held id = .owes none
    | .claim c => ∃ id n, (held id).ref = some c ∧ (held id).claims = some n ∧ n < 2
    | .disclaim c => ∃ id, (held id).ref = some c ∧ (held id).isClaim
    | .getState c => ∃ id, (held id).ref = some c
    | .transferIn id _ _ | .transferOut id _ => (held id).isClaim
    | .disposeHandler id => ∃ ref, held id = .owes ref
    | _ => True
  gives held o :=
    match o with
    | .claim c => fun (st : HandlerClaimState) =>
      ∀ id n, (held id).ref = some c → (held id).claims = some n → st = ⟨n + 1, id⟩
    | .disclaim c => fun (st : HandlerClaimState) => ∀ id, (held id).ref = some c →
      st.handlerID = id ∧ ∀ n, (held id).claims = some n → st.counter = n - 1
    | .getState c => fun (st : HandlerClaimState) => ∀ id, (held id).ref = some c →
      st.handlerID = id
    | .getHandler id => fun (h : Option Int) => held id ≠ .nothing → h ≠ none ∧ h = fds id
    | .connectAndCreateHandler _ _ => fun (id : ℕ) => id ≤ handlerError → held id = .nothing
    | _ => fun _ => True
  next := recordHoldings

namespace State

variable {s s' : State} {stake : ClaimRef → HandlerClaimState → Stake ClaimRef} {held : Custodian}

/-- The handlers that the state lists. -/
def ids (s : State) : List ℕ := s.entries.map fun e => e.2.handlerID

/-- Which claim counts for which handler. -/
def claimed (s : State) : List (ClaimRef × ℕ) := s.entries.map fun e => (e.1, e.2.handlerID)

/-- The handlers are those that are claimed. -/
theorem ids_eq (s : State) : s.ids = s.claimed.map Prod.snd := by
  rw [ids, claimed, List.map_map]
  rfl

/-- The handlers of a state are those of its counter values. -/
theorem ids_eq_map (s : State) : s.ids = s.handlerClaimStates.map HandlerClaimState.handlerID := by
  rw [ids, handlerClaimStates, List.map_map]
  rfl

/-- The claims are those that count for the handlers. -/
theorem handlerClaims_eq (s : State) : s.handlerClaims = s.claimed.map Prod.fst := by
  rw [handlerClaims, claimed, List.map_map]
  rfl

/-- A state that lists a handler says what there is to do with it. -/
theorem holdings_of_mem (hnodup : s.ids.Nodup) {e : ClaimRef × HandlerClaimState}
    (he : e ∈ s.entries) : s.holdings stake e.2.handlerID = stake e.1 e.2 := by
  have hfind : (s.entries.find? fun e' => e'.2.handlerID = e.2.handlerID) = some e := by
    obtain ⟨entries⟩ := s
    rw [ids] at hnodup
    dsimp only at hnodup he ⊢
    induction entries with
    | nil => exact nomatch he
    | cons first rest ih =>
      rw [List.map_cons, List.nodup_cons] at hnodup
      rcases List.mem_cons.mp he with rfl | hmem
      · exact List.find?_cons_of_pos (by simp)
      · have hne : first.2.handlerID ≠ e.2.handlerID := fun heq =>
          hnodup.1 (heq ▸ List.mem_map_of_mem hmem)
        rw [List.find?_cons_of_neg (by simpa using hne)]
        exact ih hnodup.2 hmem
  rw [holdings, hfind]

/-- There is nothing to do with a handler that the state does not list. -/
theorem holdings_of_not_mem {id : ℕ} (hid : id ∉ s.ids) : s.holdings stake id = .nothing := by
  have hfind : (s.entries.find? fun e => e.2.handlerID = id) = none := by
    rw [List.find?_eq_none]
    intro e he heq
    exact hid (List.mem_map.mpr ⟨e, he, of_decide_eq_true heq⟩)
  rw [holdings, hfind]

/-- Who holds what the state lists, as it lists it, and nothing else, holds what it says. -/
theorem eq_holdings (hnodup : s.ids.Nodup)
    (hlisted : ∀ e ∈ s.entries, held e.2.handlerID = stake e.1 e.2)
    (hother : ∀ id, id ∉ s.ids → held id = .nothing) : held = s.holdings stake := by
  funext id
  by_cases hid : id ∈ s.ids
  · obtain ⟨e, he, rfl⟩ := List.mem_map.mp hid
    rw [hlisted e he, holdings_of_mem hnodup he]
  · rw [hother id hid, holdings_of_not_mem hid]

/-- A stake in a handler is what the state says about an entry that lists it. -/
theorem exists_of_holdings {id : ℕ} (hid : s.holdings stake id ≠ .nothing) :
    ∃ e ∈ s.entries, e.2.handlerID = id ∧ s.holdings stake id = stake e.1 e.2 := by
  cases hfind : s.entries.find? fun e => e.2.handlerID = id with
  | none =>
    rw [holdings, hfind] at hid
    exact (hid rfl).elim
  | some e =>
    refine ⟨e, List.mem_of_find?_eq_some hfind, ?_, ?_⟩
    · simpa using List.find?_some hfind
    · rw [holdings, hfind]

/-- The state lists exactly what is held, and each handler once. -/
structure Holds (s : State) (stake : ClaimRef → Stake ClaimRef) (held : Custodian) : Prop where
  nodup : s.ids.Nodup
  eq : held = s.holdings fun c _ => stake c

namespace Holds

variable {kind : ClaimRef → Stake ClaimRef}

/-- What is held of a listed handler. -/
theorem of_mem (h : s.Holds kind held) {c : ClaimRef} {id : ℕ} (hmem : (c, id) ∈ s.claimed) :
    held id = kind c := by
  obtain ⟨e, he, heq⟩ := List.mem_map.mp hmem
  cases heq
  rw [h.eq, holdings_of_mem h.nodup he]

/-- Nothing is held of the others. -/
theorem of_not_mem (h : s.Holds kind held) {id : ℕ} (hid : id ∉ s.ids) : held id = .nothing := by
  rw [h.eq, holdings_of_not_mem hid]

/-- It only matters which claim counts for which handler. -/
theorem congr (h : s.Holds kind held) (hclaimed : s'.claimed = s.claimed) : s'.Holds kind held := by
  have hids : s'.ids = s.ids := by rw [ids_eq, hclaimed, ids_eq]
  have hnodup : s'.ids.Nodup := by
    rw [hids]
    exact h.nodup
  refine ⟨hnodup, eq_holdings hnodup (fun e he => h.of_mem ?_) fun id hid => h.of_not_mem ?_⟩
  · rw [← hclaimed]
    exact List.mem_map_of_mem he
  · rwa [← hids]

end Holds

end State

variable {held : Custodian} {c : ClaimRef} {id n : ℕ}

/-- A claim is recorded. -/
theorem recordHoldings_claim (hclaims : (held id).claims = some n) (counter : Int) :
    recordHoldings held (.claim c) (⟨counter, id⟩ : HandlerClaimState) =
      Function.update held id (.alone c (n + 1)) := by
  simp only [recordHoldings]
  rw [hclaims, Option.getD_some]

/-- Giving up one of the claims that the task has alone is recorded. -/
theorem recordHoldings_disclaim_alone (hheld : held id = .alone c (n + 1)) (counter : Int) :
    recordHoldings held (.disclaim c) (⟨counter, id⟩ : HandlerClaimState) =
      Function.update held id (if n = 0 then .owes (some c) else .alone c n) := by
  simp only [recordHoldings]
  rw [hheld]

/-- Giving up a shared claim is recorded, with what the counter says. -/
theorem recordHoldings_disclaim_shared (hheld : held id = .shared c) (counter : Int) :
    recordHoldings held (.disclaim c) (⟨counter, id⟩ : HandlerClaimState) =
      Function.update held id (if counter < 1 then .owes (some c) else .nothing) := by
  simp only [recordHoldings]
  rw [hheld]

/-- Each handler is listed once. -/
def JobResult.WellFormed : JobResult → Prop
  | .terminal state | .modeConnect state => state.ids.Nodup
  | .newClient _ => True

/-- The result names what the job still holds. -/
def Returned (r : JobResult) (held : Custodian) : Prop := r.WellFormed ∧ held = r.holdings

variable {A : Type} {ends : A → Custodian → Prop} {fds : ℕ → Option Int}

/-- An operation on a claim turns what is held of its handler into something else. -/
def Converts (fds : ℕ → Option Int) (op : ClaimRef → JobProg JobResult HandlerClaimState)
    (before : ClaimRef → Stake ClaimRef) (after : ClaimRef → HandlerClaimState → Stake ClaimRef) :
    Prop :=
  ∀ (held : Custodian) (c : ClaimRef) (id : ℕ) (ends : HandlerClaimState → Custodian → Prop),
    held id = before c →
    (∀ st : HandlerClaimState, st.handlerID = id → ends st (Function.update held id (after c st))) →
    (custody fds).wp Returned ends (op c) held

/-- An operation on all claims of a state converts them one by one. -/
theorem wp_refresh_custody {op : ClaimRef → JobProg JobResult HandlerClaimState}
    {before : ClaimRef → Stake ClaimRef} {after : ClaimRef → HandlerClaimState → Stake ClaimRef}
    (hop : Converts fds op before after) {claimed : List (ClaimRef × ℕ)}
    {ends : List (ClaimRef × HandlerClaimState) → Custodian → Prop}
    (hnodup : (claimed.map Prod.snd).Nodup) (hheld : ∀ e ∈ claimed, held e.2 = before e.1)
    (hends : ∀ entries held', (State.mk entries).claimed = claimed →
      (∀ e ∈ entries, held' e.2.handlerID = after e.1 e.2) →
      (∀ id, id ∉ claimed.map Prod.snd → held' id = held id) → ends entries held') :
    (custody fds).wp Returned ends (State.refresh op (claimed.map Prod.fst)) held := by
  induction claimed generalizing held ends with
  | nil => exact hends [] held rfl (fun e he => nomatch he) fun _ _ => rfl
  | cons first rest ih =>
    obtain ⟨c, id⟩ := first
    rw [List.map_cons, List.nodup_cons] at hnodup
    rw [List.map_cons, State.refresh, Contract.wp_bind]
    apply hop held c id _ (hheld _ List.mem_cons_self)
    intro st hst
    rw [Contract.wp_bind]
    have hother (e : ClaimRef × ℕ) (he : e ∈ rest) : e.2 ≠ id := fun heq =>
      hnodup.1 (List.mem_map.mpr ⟨e, he, heq⟩)
    apply ih hnodup.2
    · intro e he
      rw [Function.update_of_ne (hother e he)]
      exact hheld e (List.mem_cons_of_mem _ he)
    · intro entries held' hentries hafter hsame
      apply hends
      · rw [State.claimed, List.map_cons, hst]
        exact congrArg ((c, id) :: ·) hentries
      · intro e he
        rcases List.mem_cons.mp he with rfl | hmem
        · dsimp only
          rw [hst, hsame id hnodup.1, Function.update_self]
        · exact hafter e hmem
      · intro id' hid'
        rw [List.map_cons, List.mem_cons, not_or] at hid'
        rw [hsame id' hid'.2, Function.update_of_ne hid'.1]

/-- The same for all claims of a state that lists what is held. -/
theorem wp_refresh_all {op : ClaimRef → JobProg JobResult HandlerClaimState}
    {before : ClaimRef → Stake ClaimRef} {after : ClaimRef → HandlerClaimState → Stake ClaimRef}
    (hop : Converts fds op before after) {s : State} (hs : s.Holds before held)
    {ends : State → Custodian → Prop}
    (hends : ∀ s' : State, s'.claimed = s.claimed → s'.ids.Nodup → ends s' (s'.holdings after)) :
    (custody fds).wp Returned ends (do
      let entries ← State.refresh op s.handlerClaims
      pure ⟨entries⟩) held := by
  rw [Contract.wp_bind, State.handlerClaims_eq]
  have hnodup : (s.claimed.map Prod.snd).Nodup := by
    rw [← State.ids_eq]
    exact hs.nodup
  refine wp_refresh_custody hop hnodup (fun e he => hs.of_mem he) fun entries held' hentries hafter hsame => ?_
  have hids : (State.mk entries).ids = s.ids := by rw [State.ids_eq, hentries, State.ids_eq]
  have hnodup' : (State.mk entries).ids.Nodup := by
    rw [hids]
    exact hs.nodup
  have hheld' : held' = (State.mk entries).holdings after := by
    refine State.eq_holdings hnodup' hafter fun id hid => ?_
    rw [hids] at hid
    rw [hsame id (by rwa [← State.ids_eq]), hs.of_not_mem hid]
  rw [hheld']
  exact hends _ hentries hnodup'

/-- A claim by the only task that has to do with the handler. -/
theorem wp_claim {ends : HandlerClaimState → Custodian → Prop}
    (href : (held id).ref = some c) (hclaims : (held id).claims = some n) (hn : n < 2)
    (hends : ∀ st : HandlerClaimState, st.handlerID = id →
      ends st (Function.update held id (.alone c (n + 1)))) :
    (custody fds).wp Returned ends (JobProg.claim c) held := by
  apply And.intro ⟨id, n, href, hclaims, hn⟩
  intro (st : HandlerClaimState) hst
  obtain rfl := hst id n href hclaims
  change ends _ (recordHoldings held (.claim c) _)
  rw [recordHoldings_claim hclaims]
  exact hends _ rfl

/-- The first claim on a handler. -/
theorem converts_claim_first :
    Converts fds JobProg.claim (fun c => .owes (some c)) fun c _ => .alone c 1 := by
  intro held c id ends hheld hends
  apply wp_claim (by rw [hheld]; rfl) (by rw [hheld]; rfl) Nat.two_pos
  exact hends

/-- The second claim on a handler. -/
theorem converts_claim_second :
    Converts fds JobProg.claim (fun c => .alone c 1) fun c _ => .alone c 2 := by
  intro held c id ends hheld hends
  apply wp_claim (by rw [hheld]; rfl) (by rw [hheld]; rfl) Nat.one_lt_two
  exact hends

/-- A state is asked for without any effect. -/
theorem converts_getState : Converts fds JobProg.getState (fun c => .alone c 1) fun c _ => .alone c 1 := by
  intro held c id ends hheld hends
  have href : (held id).ref = some c := by
    rw [hheld]
    rfl
  apply And.intro ⟨id, href⟩
  intro (st : HandlerClaimState) hst
  have hnext := hends st (hst id href)
  dsimp only at hheld hnext
  rwa [← hheld, Function.update_eq_self] at hnext

/-- The only claim on a handler is given up, which leaves it to be disposed of or handed on. -/
theorem wp_disclaim_alone {ends : HandlerClaimState → Custodian → Prop}
    (hheld : held id = .alone c 1)
    (hends : ∀ st : HandlerClaimState, st.handlerID = id → st.counter = 0 →
      ends st (Function.update held id (.owes (some c)))) :
    (custody fds).wp Returned ends (JobProg.disclaim c) held := by
  have href : (held id).ref = some c := by
    rw [hheld]
    rfl
  have hclaim : (held id).isClaim := by
    rw [hheld]
    trivial
  apply And.intro ⟨id, href, hclaim⟩
  intro (st : HandlerClaimState) hst
  obtain ⟨rfl, hcounter⟩ := hst id href
  change ends _ (recordHoldings held (.disclaim c) _)
  rw [recordHoldings_disclaim_alone hheld, if_pos rfl]
  exact hends st rfl (hcounter 1 (by rw [hheld]; rfl))

/-- What is left of a handler after the result has told the counter. -/
abbrev leftOver (c : ClaimRef) (st : HandlerClaimState) : Stake ClaimRef :=
  if st.counter < 1 then .owes (some c) else .nothing

/-- The handshake gives up its claim. -/
theorem converts_disclaim_alone : Converts fds JobProg.disclaim (fun c => .alone c 1) leftOver := by
  intro held c id ends hheld hends
  apply wp_disclaim_alone hheld
  intro st hid hcounter
  have hnext := hends st hid
  rwa [leftOver, if_pos (by omega)] at hnext

/-- The handshake gives up its claim in favour of the tunnels. -/
theorem converts_disclaim_owes :
    Converts fds JobProg.disclaim (fun c => .alone c 1) fun c _ => .owes (some c) := by
  intro held c id ends hheld hends
  exact wp_disclaim_alone hheld fun st hid _ => hends st hid

/-- A tunnel gives up its claim. -/
theorem converts_disclaim_shared : Converts fds JobProg.disclaim .shared leftOver := by
  intro held c id ends hheld hends
  have href : (held id).ref = some c := by
    rw [hheld]
    rfl
  have hclaim : (held id).isClaim := by
    rw [hheld]
    trivial
  apply And.intro ⟨id, href, hclaim⟩
  intro (st : HandlerClaimState) hst
  obtain ⟨rfl, -⟩ := hst id href
  change ends _ (recordHoldings held (.disclaim c) _)
  rw [recordHoldings_disclaim_shared hheld]
  exact hends st rfl

/-- The result of a job that gives everything up names what is left over. -/
theorem wp_disclaimAll_terminal {kind : ClaimRef → Stake ClaimRef} {s : State}
    (hop : Converts fds JobProg.disclaim kind leftOver) (hs : s.Holds kind held) :
    (custody fds).wp Returned ends (do
      let disclaimed ← s.disclaimAllHandlers
      .exit (.terminal disclaimed) : JobProg JobResult A) held := by
  rw [Contract.wp_bind]
  exact wp_refresh_all hop hs fun s' _ hnodup => ⟨hnodup, rfl⟩

namespace Handshake

variable {state : State} {id : ℕ} {buff : Bytes} {cfg : Config}

/-- A handshake holds its handlers alone. -/
abbrev HoldsAlone (s : State) (held : Custodian) : Prop := s.Holds (fun c => .alone c 1) held

/-- A failing handshake gives up all it holds. -/
theorem wp_failWithDisclaim_custody (hs : HoldsAlone state held) :
    (custody fds).wp Returned ends (failWithDisclaim state : HandshakeProg A) held :=
  wp_disclaimAll_terminal converts_disclaim_alone hs

/-- The handshake talks to a client that it has claimed, and fails with everything given up. -/
theorem chats_custody (hs : HoldsAlone state held) (hid : (held id).isClaim) :
    Chats (custody fds) Returned held state id := by
  constructor
  · exact fun len allowPartial => Contract.Keeps.perform hid fun _ => rfl
  · exact fun data => Contract.Keeps.perform hid fun _ => rfl
  · intro o ho
    cases o with
    | dnsNew | dnsOpen | dnsResolveA6 | dnsResolveA4 | dnsClose | dnsFree =>
      exact Contract.Keeps.perform trivial fun _ => rfl
    | newClaim | claim | disclaim | getState | getHandler | transferIn | transferOut
    | connectAndCreateHandler | disposeHandler | getsockname => exact ho.elim
  · exact wp_failWithDisclaim_custody hs

/-- A handler that the task owes is added to what a state lists, with a claim. -/
theorem wp_addHandlerWithClaim_custody {target : ℕ} {ends : State → Custodian → Prop}
    (hs : HoldsAlone state held) (hnew : held target = .nothing)
    (hends : ∀ s held', HoldsAlone s held' → (∀ id, id ≠ target → held' id = held id) →
      ends s held') :
    (custody fds).wp Returned ends (state.addHandlerWithClaim target)
      (Function.update held target (.owes none)) := by
  have hnot : target ∉ state.claimed.map Prod.snd := by
    intro hmem
    obtain ⟨e, he, rfl⟩ := List.mem_map.mp hmem
    rw [hs.of_mem he] at hnew
    cases hnew
  have hlisted (e : ClaimRef × ℕ) (he : e ∈ state.claimed) :
      Function.update held target (.owes none) e.2 = .alone e.1 1 := by
    rw [Function.update_of_ne fun heq => hnot (List.mem_map.mpr ⟨e, he, heq⟩)]
    exact hs.of_mem he
  rw [State.addHandlerWithClaim, Contract.wp_bind, State.handlerClaims_eq]
  apply wp_refresh_custody converts_getState (by rw [← State.ids_eq]; exact hs.nodup) hlisted
  intro entries held₁ hentries hafter hsame
  have htarget : held₁ target = .owes none := by rw [hsame target hnot, Function.update_self]
  have hids : (State.mk entries).ids = state.ids := by rw [State.ids_eq, hentries, State.ids_eq]
  apply Contract.wp_perform_bind htarget
  intro (c : ClaimRef) _
  change (custody fds).wp _ _ _ (Function.update held₁ target (.owes (some c)))
  rw [Contract.wp_bind]
  apply wp_claim (by rw [Function.update_self]; rfl) (by rw [Function.update_self]; rfl) Nat.two_pos
  intro st hst
  rw [Function.update_idem]
  have hids' : (State.mk (entries ++ [(c, st)])).ids = state.ids ++ [target] := by
    rw [← hids, ← hst]
    exact List.map_append
  have hnodup : (State.mk (entries ++ [(c, st)])).ids.Nodup := by
    rw [hids', List.nodup_append]
    refine ⟨hs.nodup, List.nodup_singleton target, fun id hid id' hid' heq => ?_⟩
    rw [heq, List.mem_singleton.mp hid', State.ids_eq] at hid
    exact hnot hid
  apply hends
  · refine ⟨hnodup, State.eq_holdings hnodup (fun e he => ?_) fun id hid => ?_⟩
    · rcases List.mem_append.mp he with hold | hlast
      · have hne : e.2.handlerID ≠ target := by
          intro heq
          apply hnot
          rw [← State.ids_eq, ← hids, ← heq]
          exact List.mem_map_of_mem hold
        rw [Function.update_of_ne hne]
        exact hafter e hold
      · cases List.mem_singleton.mp hlast
        dsimp only
        rw [hst, Function.update_self]
    · rw [hids', List.mem_append, List.mem_singleton, not_or] at hid
      rw [Function.update_of_ne hid.2, hsame id (by rw [← State.ids_eq]; exact hid.1),
        Function.update_of_ne hid.2]
      exact hs.of_not_mem hid.1
  · intro id hne
    rw [Function.update_of_ne hne]
    by_cases hmem : id ∈ state.ids
    · rw [← hids] at hmem
      obtain ⟨e, he, rfl⟩ := List.mem_map.mp hmem
      rw [hafter e he]
      have hclaimed : (e.1, e.2.handlerID) ∈ state.claimed := by
        rw [← hentries]
        exact List.mem_map_of_mem he
      exact (hs.of_mem hclaimed).symm
    · rw [State.ids_eq] at hmem
      rw [hsame id hmem, Function.update_of_ne hne]

/-- A connection that was made is claimed, or given up with everything else. -/
theorem wp_adoptTarget_custody {host : ByteOrder} {target : ℕ}
    {ends : Attempt → Custodian → Prop} (hs : HoldsAlone state held)
    (hnew : held target = .nothing) (hid : (held id).isClaim)
    (hends : ∀ attempt held', HoldsAlone attempt.finalState held' → (held' id).isClaim →
      ends attempt held') :
    (custody fds).wp Returned ends (adoptTarget host target state)
      (Function.update held target (.owes none)) := by
  have hne : id ≠ target := by
    rintro rfl
    rw [hnew] at hid
    exact hid
  rw [adoptTarget]
  apply Contract.wp_perform_bind trivial
  intro (handler : Option Int) hvalid
  change (custody fds).wp _ _ _ (Function.update held target (.owes none))
  cases handler with
  | none =>
    refine ((hvalid ?_).1 rfl).elim
    rw [Function.update_self]
    exact fun h => nomatch h
  | some fd =>
    dsimp only
    rw [Contract.wp_bind]
    apply wp_addHandlerWithClaim_custody hs hnew
    intro finalState held' hfinal hsame
    apply Contract.wp_perform_bind trivial
    intro (name : Option SockAddr) _
    change (custody fds).wp _ _ _ held'
    cases name with
    | none => exact wp_failWithDisclaim_custody hfinal
    | some sa =>
      dsimp only
      apply (keeps_failUnless (wp_failWithDisclaim_custody hfinal) _).wp_bind
      intro _
      apply hends _ held' hfinal
      rw [hsame id hne]
      exact hid

/-- The connection attempts end with the client and perhaps one more handler. -/
theorem wp_connectAny_custody {host : ByteOrder} {port : UInt16} {ct : Timeval}
    {ips : List IPAddress} {attempt : Attempt} {ends : Attempt → Custodian → Prop}
    (hs : HoldsAlone attempt.finalState held) (hid : (held id).isClaim)
    (hends : ∀ attempt' held', HoldsAlone attempt'.finalState held' → (held' id).isClaim →
      ends attempt' held') :
    (custody fds).wp Returned ends (connectAny host port ct attempt ips) held := by
  induction ips generalizing attempt with
  | nil => exact hends attempt held hs hid
  | cons ip rest ih =>
    rw [connectAny]
    apply Contract.wp_perform_bind trivial
    intro (target : ℕ) hnew
    change (custody fds).wp _ _ _
      (if handlerError < target then held else Function.update held target (.owes none))
    by_cases hfailed : handlerError < target
    · rw [if_pos hfailed, if_pos hfailed]
      apply ih
      exact hs
    · rw [if_neg hfailed, if_neg hfailed]
      exact wp_adoptTarget_custody hs (hnew (Nat.le_of_not_lt hfailed)) hid hends

/-- The command is performed with the client and perhaps one more handler. -/
theorem wp_perform_custody {host : ByteOrder} {req : Request} {ends : Attempt → Custodian → Prop}
    (hs : HoldsAlone state held) (hid : (held id).isClaim)
    (hends : ∀ attempt held', HoldsAlone attempt.finalState held' → (held' id).isClaim →
      ends attempt held') :
    (custody fds).wp Returned ends (perform cfg host state req) held := by
  unfold perform
  split
  · apply wp_connectAny_custody
    · exact hs
    · exact hid
    · exact hends
  · exact hends _ held hs hid

/-- After the reply, everything is handed on or given up. -/
theorem wp_respond_custody {host : ByteOrder} {cmd : UInt8} {attempt : Attempt}
    {ends : Empty → Custodian → Prop} (hs : HoldsAlone attempt.finalState held)
    (hid : (held id).isClaim) :
    (custody fds).wp Returned ends (respond host id cmd attempt buff) held := by
  unfold respond
  apply ((chats_custody hs hid).transferOut _).wp_bind
  intro r
  apply (keeps_failUnless (wp_failWithDisclaim_custody hs) _).wp_bind
  intro _
  split
  · rw [Contract.wp_bind]
    exact wp_refresh_all converts_disclaim_owes hs fun s' _ hnodup => ⟨hnodup, rfl⟩
  · exact wp_failWithDisclaim_custody hs

/-- The handshake keeps the contract, and its result names all that it holds. -/
theorem wp_execute_custody {host : ByteOrder} {inet : InetPton} {ends : Empty → Custodian → Prop}
    (hs : HoldsAlone state held) :
    (custody fds).wp Returned ends (execute cfg host inet state) held := by
  unfold execute
  split
  · rename_i claimed hstates
    have hmem : claimed ∈ state.handlerClaimStates := by
      rw [hstates]
      exact List.mem_singleton_self claimed
    obtain ⟨e, he, rfl⟩ := List.mem_map.mp hmem
    have hid : (held e.2.handlerID).isClaim := by
      rw [hs.of_mem (List.mem_map_of_mem he)]
      trivial
    apply Contract.wp_perform_bind trivial
    intro (handler : Option Int) _
    change (custody fds).wp _ _ _ held
    cases handler with
    | none => exact wp_failWithDisclaim_custody hs
    | some fd =>
      dsimp only
      unfold converse
      apply (chats_custody hs hid).negotiate.wp_bind
      intro negotiated
      rw [Contract.wp_bind]
      apply wp_perform_custody hs hid
      intro attempt held' hs' hid'
      exact wp_respond_custody hs' hid'
  · exact wp_failWithDisclaim_custody hs

end Handshake

/-- A job lists each of its handlers once. -/
def Job.WellFormed : Job → Prop
  | .clientHandshake state | .tcpTunnel state _ => state.ids.Nodup

/-- What a program may end with. The jobs that are created take over what the program holds, and a
tunnel enters its main loop with the helpers of two handlers that it lists. -/
def Continues (fds : ℕ → Option Int) : Next → Custodian → Prop
  | .spawn jobs, held => (∀ job ∈ jobs, job.WellFormed) ∧
    ∀ id, SplitsTo (held id) (jobs.map fun job => job.holdings id)
  | .copy state reader writer readerFd writerFd, held =>
    state.Holds .shared held ∧ reader ∈ state.ids ∧ writer ∈ state.ids ∧
      fds reader = some readerFd ∧ fds writer = some writerFd

/-- A tunnel keeps the contract up to its main loop. -/
theorem TCPTunnel.wp_prepare {state : State} (hs : state.Holds .shared held) (isReader : Bool) :
    (custody fds).wp Returned (Continues fds) (TCPTunnel.prepare state isReader) held := by
  have hfail {A : Type} {ends : A → Custodian → Prop} :
      (custody fds).wp Returned ends (terminalResultDisclaim state) held :=
    wp_disclaimAll_terminal converts_disclaim_shared hs
  unfold prepare
  split
  · rename_i first second hstates
    have hids : state.ids = [first.handlerID, second.handlerID] := by
      rw [State.ids_eq_map, hstates]
      rfl
    have hheld (id : ℕ) (hid : id ∈ state.ids) : held id ≠ .nothing := by
      obtain ⟨e, he, rfl⟩ := List.mem_map.mp hid
      rw [hs.of_mem (List.mem_map_of_mem he)]
      exact fun h => nomatch h
    have hreader : (if isReader then second.handlerID else first.handlerID) ∈ state.ids := by
      rw [hids]
      cases isReader <;> simp
    have hwriter : (if isReader then first.handlerID else second.handlerID) ∈ state.ids := by
      rw [hids]
      cases isReader <;> simp
    apply Contract.wp_perform_bind trivial
    intro (rHandler : Option Int) hr
    apply Contract.wp_perform_bind trivial
    intro (wHandler : Option Int) hw
    change (custody fds).wp _ _ _ held
    have hrFd := (hr (hheld _ hreader)).2
    have hwFd := (hw (hheld _ hwriter)).2
    split
    · exact ⟨hs, hreader, hwriter, hrFd.symm, hwFd.symm⟩
    · exact hfail
  · exact hfail

/-- Every job keeps the contract. -/
theorem Job.wp_execute {env : Settings} {job : Job} (hjob : job.WellFormed) :
    (custody fds).wp Returned (Continues fds) (job.execute env) job.holdings := by
  cases job with
  | clientHandshake state =>
    have hs : Handshake.HoldsAlone state (Job.clientHandshake state).holdings := ⟨hjob, rfl⟩
    unfold execute
    rw [Contract.wp_bind]
    exact Handshake.wp_execute_custody hs
  | tcpTunnel state isReader =>
    have hs : state.Holds .shared (Job.tcpTunnel state isReader).holdings := ⟨hjob, rfl⟩
    exact TCPTunnel.wp_prepare hs isReader

namespace JobFactory

/-- The loop disposes of all that is owed. -/
theorem wp_disposeUnclaimed {cStates : List HandlerClaimState} {ends : Unit → Custodian → Prop}
    (hnodup : (cStates.map HandlerClaimState.handlerID).Nodup)
    (howed : ∀ st ∈ cStates, st.counter < 1 → ∃ ref, held st.handlerID = .owes ref)
    (hall : ∀ id, held id ≠ .nothing → ∃ st ∈ cStates, st.handlerID = id ∧ st.counter < 1)
    (hends : ends () fun _ => .nothing) :
    (custody fds).wp Returned ends (disposeUnclaimed cStates) held := by
  induction cStates generalizing held with
  | nil =>
    have hheld : held = fun _ => .nothing := by
      funext id
      by_contra hid
      obtain ⟨st, hst, -⟩ := hall id hid
      exact nomatch hst
    rw [hheld]
    exact hends
  | cons first rest ih =>
    rw [List.map_cons, List.nodup_cons] at hnodup
    unfold disposeUnclaimed
    by_cases hcounter : first.counter < 1
    · rw [if_pos hcounter]
      apply Contract.wp_perform_bind (howed first List.mem_cons_self hcounter)
      intro _ _
      change (custody fds).wp _ _ _ (Function.update held first.handlerID .nothing)
      apply ih hnodup.2
      · intro st hst hlow
        have hne : st.handlerID ≠ first.handlerID := fun heq =>
          hnodup.1 (heq ▸ List.mem_map_of_mem hst)
        rw [Function.update_of_ne hne]
        exact howed st (List.mem_cons_of_mem _ hst) hlow
      · intro id hid
        have hne : id ≠ first.handlerID := by
          rintro rfl
          rw [Function.update_self] at hid
          exact hid rfl
        rw [Function.update_of_ne hne] at hid
        obtain ⟨st, hst, rfl, hlow⟩ := hall id hid
        rcases List.mem_cons.mp hst with rfl | hmem
        · exact (hne rfl).elim
        · exact ⟨st, hmem, rfl, hlow⟩
    · rw [if_neg hcounter]
      apply ih hnodup.2
      · exact fun st hst => howed st (List.mem_cons_of_mem _ hst)
      · intro id hid
        obtain ⟨st, hst, rfl, hlow⟩ := hall id hid
        rcases List.mem_cons.mp hst with rfl | hmem
        · exact (hcounter hlow).elim
        · exact ⟨st, hmem, rfl, hlow⟩

/-- After a terminal result, everything that it owes is disposed of. -/
theorem wp_terminal {state : State} (hnodup : state.ids.Nodup) :
    (custody fds).wp Returned (fun jobs held => Continues fds (.spawn jobs) held)
      (createJobsFromResult (.terminal state)) (JobResult.terminal state).holdings := by
  unfold createJobsFromResult
  rw [Contract.wp_bind]
  apply wp_disposeUnclaimed
  · rw [← State.ids_eq_map]
    exact hnodup
  · intro st hst hlow
    obtain ⟨e, he, rfl⟩ := List.mem_map.mp hst
    refine ⟨some e.1, ?_⟩
    rw [JobResult.holdings, State.holdings_of_mem hnodup he, if_pos hlow]
  · intro id hid
    rw [JobResult.holdings] at hid
    obtain ⟨e, he, rfl, hstake⟩ := State.exists_of_holdings hid
    refine ⟨e.2, List.mem_map_of_mem he, rfl, ?_⟩
    by_contra hlow
    rw [hstake, if_neg hlow] at hid
    exact hid rfl
  · change Continues fds (.spawn []) fun _ => .nothing
    exact ⟨(fun job hjob => nomatch hjob), fun id => .nothing _ fun x hx => nomatch hx⟩

/-- A new client is claimed by its handshake. -/
theorem wp_newClient (handlerID : ℕ) :
    (custody fds).wp Returned (fun jobs held => Continues fds (.spawn jobs) held)
      (createJobsFromResult (.newClient handlerID)) (JobResult.newClient handlerID).holdings := by
  have howed : (JobResult.newClient handlerID).holdings handlerID = .owes none := by
    rw [JobResult.holdings, Function.update_self]
  unfold createJobsFromResult State.addHandler
  rw [Contract.wp_bind]
  change (custody fds).wp _ _ (JobProg.newClaim handlerID >>= _) _
  apply Contract.wp_perform_bind howed
  intro (c : ClaimRef) _
  change (custody fds).wp _ _ _ (Function.update (Function.update _ handlerID _) handlerID (.owes (some c)))
  rw [Function.update_idem]
  have hself : Function.update (fun _ => Stake.nothing) handlerID (.owes (some c)) handlerID =
      .owes (some c) := Function.update_self ..
  have hmay : (custody fds).may (Function.update (fun _ => .nothing) handlerID (.owes (some c)))
      (.getState c) := ⟨handlerID, by rw [hself]; rfl⟩
  apply Contract.wp_perform_bind hmay
  intro (st : HandlerClaimState) hst
  have hid : st.handlerID = handlerID := hst handlerID (by rw [hself]; rfl)
  change (custody fds).wp _ _ _ (Function.update _ handlerID (.owes (some c)))
  have hnodup : (State.mk [(c, st)]).ids.Nodup := List.nodup_singleton _
  have hs : (State.mk [(c, st)]).Holds (fun c => .owes (some c))
      (Function.update (fun _ => Stake.nothing) handlerID (.owes (some c))) := by
    refine ⟨hnodup, State.eq_holdings hnodup (fun e he => ?_) fun id hnot => ?_⟩
    · cases List.mem_singleton.mp he
      rw [hid, Function.update_self]
    · have hne : id ≠ handlerID := fun heq =>
        hnot (by rw [heq, ← hid]; exact List.mem_singleton_self _)
      rw [Function.update_of_ne hne]
  change (custody fds).wp _ _ (State.claimAllHandlers _ >>= _) _
  rw [Contract.wp_bind]
  apply wp_refresh_all converts_claim_first hs
  intro s' _ hnodup'
  refine ⟨fun job hjob => ?_, fun id => .whole _⟩
  cases List.mem_singleton.mp hjob
  exact hnodup'

/-- What a handshake hands on is claimed by both directions of the tunnel. -/
theorem wp_modeConnect {state : State} (hnodup : state.ids.Nodup) :
    (custody fds).wp Returned (fun jobs held => Continues fds (.spawn jobs) held)
      (createJobsFromResult (.modeConnect state)) (JobResult.modeConnect state).holdings := by
  unfold createJobsFromResult
  have hs : state.Holds (fun c => .owes (some c)) (JobResult.modeConnect state).holdings :=
    ⟨hnodup, rfl⟩
  rw [Contract.wp_bind]
  apply wp_refresh_all converts_claim_first hs
  intro forReader hreader hnodupR
  rw [Contract.wp_bind]
  have hsR : state.Holds (fun c => .alone c 1) (forReader.holdings fun c _ => .alone c 1) :=
    State.Holds.congr ⟨hnodupR, rfl⟩ hreader.symm
  apply wp_refresh_all converts_claim_second hsR
  intro forWriter hwriter hnodupW
  have hsW : forReader.Holds (fun c => .alone c 2) (forWriter.holdings fun c _ => .alone c 2) :=
    State.Holds.congr ⟨hnodupW, rfl⟩ (hreader.trans hwriter.symm)
  constructor
  · intro job hjob
    rcases List.mem_cons.mp hjob with rfl | hmem
    · exact hnodupR
    · cases List.mem_singleton.mp hmem
      exact hnodupW
  · intro id
    by_cases hid : id ∈ forWriter.ids
    · obtain ⟨e, he, rfl⟩ := List.mem_map.mp hid
      have hsRW : forWriter.Holds .shared (forReader.holdings fun c _ => .shared c) :=
        State.Holds.congr ⟨hnodupR, rfl⟩ (hwriter.trans hreader.symm)
      have hmem : (e.1, e.2.handlerID) ∈ forWriter.claimed := List.mem_map_of_mem he
      have hreaderStake := hsRW.of_mem hmem
      have hwriterStake : forWriter.holdings (fun c _ => .shared c) e.2.handlerID = .shared e.1 :=
        State.holdings_of_mem hnodupW he
      have htotal : forWriter.holdings (fun c _ => .alone c 2) e.2.handlerID = .alone e.1 2 :=
        State.holdings_of_mem hnodupW he
      rw [htotal]
      refine .claims e.1 2 _ ?_ ?_ fun x hx => .inr ?_
      · simp [Job.holdings, hreaderStake, hwriterStake, Stake.exclusive]
      · simp [Job.holdings, hreaderStake, hwriterStake, Stake.sharing]
      · simpa [Job.holdings, hreaderStake, hwriterStake] using hx
    · rw [State.holdings_of_not_mem hid]
      refine .nothing _ fun x hx => ?_
      have hidR : id ∉ forReader.ids := by
        rw [State.ids_eq, hreader, ← hwriter, ← State.ids_eq]
        exact hid
      simpa [Job.holdings, State.holdings_of_not_mem hid, State.holdings_of_not_mem hidR] using hx

/-- `CreateJobsFromResult` keeps the contract: what the result owes is disposed of, or taken over by
the new jobs. -/
theorem wp_createJobsFromResult {r : JobResult} (hr : r.WellFormed) :
    (custody fds).wp Returned (fun jobs held => Continues fds (.spawn jobs) held) (createJobsFromResult r)
      r.holdings := by
  cases r with
  | terminal state => exact wp_terminal hr
  | newClient handlerID => exact wp_newClient handlerID
  | modeConnect state => exact wp_modeConnect hr

end JobFactory

end TinySox
