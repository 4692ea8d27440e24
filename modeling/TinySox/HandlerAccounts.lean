import TinySox.JobCustody

/-!
# The registry keeps the accounts of the handlers

The operations of a task, performed on what the tasks share, answer as the contract of the jobs
promises, and they keep the accounts: a handler is registered as long as some task has to do with
it, and the counter of its claim object counts the claims of all tasks. There are never more than two
of them, so the counter does not wrap. No id of a handler may be the number of an error.
-/

namespace TinySox

open TinySox.Common

namespace Shared

variable {sh sh' : Shared} {l r : List Custodian} {held : Custodian} {fds : ℕ → Option Int}

/-- The handler exists. -/
def Live (sh : Shared) (id : ℕ) : Prop := sh.isRegistered id = true

/-- A registered handler has a descriptor. -/
theorem live_iff {id : ℕ} : sh.Live id ↔ ∃ fd, sh.commHandlers id = some fd :=
  Option.isSome_iff_exists

/-- What holds of the shared state at all times. -/
structure Sound (sh : Shared) : Prop where
  registered : ∀ id fd, sh.commHandlers id = some fd → id ≤ sh.handlerIdCounter
  helpers : ∀ id fd, sh.helperFds id = some fd → id ≤ sh.handlerIdCounter
  claims : ∀ c st, sh.claims c = some st → st.handlerID ≤ sh.handlerIdCounter
  counters : ∀ c st, sh.claims c = some st → 0 ≤ st.counter ∧ st.counter ≤ 2
  helper : ∀ id fd, sh.commHandlers id = some fd → sh.helperFds id = some fd
  opened : ∀ id fd, sh.commHandlers id = some fd → 0 ≤ fd ∧ sh.openFds fd = true
  distinct : ∀ id id' fd, sh.commHandlers id = some fd → sh.commHandlers id' = some fd → id = id'
  once : sh.disposals.Nodup
  gone : ∀ id ∈ sh.disposals, id ≤ sh.handlerIdCounter ∧ sh.commHandlers id = none

/-- A claim object that changes is an object that changes. -/
theorem objects_update (sh : Shared) (c : ClaimRef) (st : HandlerClaimState) :
    objects { sh with claims := Function.update sh.claims c (some st) } =
      Function.update sh.objects c (some (st.counter, st.handlerID)) := by
  funext c'
  by_cases hc : c' = c
  · subst hc
    simp only [objects, Function.update_self, Option.map_some]
  · simp only [objects, Function.update_of_ne hc]

/-- The claim object behind an object. -/
theorem claims_of_objects {c : ClaimRef} {n : Int} {id : ℕ} (h : sh.objects c = some (n, id)) :
    sh.claims c = some ⟨n, id⟩ := by
  obtain ⟨⟨counter, handlerID⟩, hclaim, heq⟩ := Option.map_eq_some_iff.mp h
  cases heq
  exact hclaim

/-- Nothing but the claims changes. -/
structure SameHandlers (sh sh' : Shared) : Prop where
  commHandlers : sh'.commHandlers = sh.commHandlers
  handlerIdCounter : sh'.handlerIdCounter = sh.handlerIdCounter
  helperFds : sh'.helperFds = sh.helperFds
  openFds : sh'.openFds = sh.openFds
  disposals : sh'.disposals = sh.disposals

/-- A change of the claims that adds none for handlers that do not exist yet, and no third one. -/
theorem Sound.of_same (h : sh.Sound) (hsame : SameHandlers sh sh')
    (hclaims : ∀ c st, sh'.claims c = some st →
      st.handlerID ≤ sh.handlerIdCounter ∧ 0 ≤ st.counter ∧ st.counter ≤ 2) :
    sh'.Sound := by
  obtain ⟨hreg, hcounter, hhelper, hopen, hdisposals⟩ := hsame
  refine ⟨?_, ?_, ?_, ?_, ?_, ?_, ?_, ?_, ?_⟩
  · rw [hreg, hcounter]
    exact h.registered
  · rw [hhelper, hcounter]
    exact h.helpers
  · rw [hcounter]
    exact fun c st hst => (hclaims c st hst).1
  · exact fun c st hst => (hclaims c st hst).2
  · rw [hreg, hhelper]
    exact h.helper
  · rw [hreg, hopen]
    exact h.opened
  · rw [hreg]
    exact h.distinct
  · rw [hdisposals]
    exact h.once
  · rw [hdisposals, hcounter, hreg]
    exact h.gone

/-- Changing a claim for an existing handler keeps the shared state sound. -/
theorem Sound.update_claim (h : sh.Sound) {c : ClaimRef} {st : HandlerClaimState}
    (hid : st.handlerID ≤ sh.handlerIdCounter) (hcounter : 0 ≤ st.counter ∧ st.counter ≤ 2) :
    Sound { sh with claims := Function.update sh.claims c (some st) } := by
  refine h.of_same ⟨rfl, rfl, rfl, rfl, rfl⟩ fun c' st' hst' => ?_
  dsimp only at hst'
  by_cases hc : c' = c
  · subst hc
    rw [Function.update_self] at hst'
    cases hst'
    exact ⟨hid, hcounter⟩
  · rw [Function.update_of_ne hc] at hst'
    exact ⟨h.claims c' st' hst', h.counters c' st' hst'⟩

/-- A new handler keeps the shared state sound. -/
theorem Sound.create (h : sh.Sound) {fd : Int} (hopen : sh.canOpen fd = true) :
    (sh.createHandlerFromSocket fd).Sound := by
  obtain ⟨hfd, hclosed⟩ := of_decide_eq_true hopen
  have hcases (id : ℕ) (fd' : Int)
      (hid : (sh.createHandlerFromSocket fd).commHandlers id = some fd') :
      id = sh.handlerIdCounter + 1 ∧ fd' = fd ∨
        id ≠ sh.handlerIdCounter + 1 ∧ sh.commHandlers id = some fd' ∧ fd' ≠ fd := by
    change Function.update _ _ _ _ = _ at hid
    by_cases heq : id = sh.handlerIdCounter + 1
    · rw [heq, Function.update_self] at hid
      exact .inl ⟨heq, (Option.some.inj hid).symm⟩
    · rw [Function.update_of_ne heq] at hid
      refine .inr ⟨heq, hid, fun hfd' => ?_⟩
      rw [hfd'] at hid
      rw [(h.opened id fd hid).2] at hclosed
      contradiction
  refine ⟨fun id fd' hid => ?_, fun id fd' hid => ?_, fun c st hst => ?_, h.counters,
    fun id fd' hid => ?_, fun id fd' hid => ?_, fun id id' fd' hid hid' => ?_, h.once,
    fun id hid => ?_⟩
  · rcases hcases id fd' hid with ⟨rfl, -⟩ | ⟨-, hold, -⟩
    · exact Nat.le_refl _
    · exact Nat.le_succ_of_le (h.registered id fd' hold)
  · change Function.update _ _ _ _ = _ at hid
    by_cases heq : id = sh.handlerIdCounter + 1
    · rw [heq]
      exact Nat.le_refl _
    · rw [Function.update_of_ne heq] at hid
      exact Nat.le_succ_of_le (h.helpers id fd' hid)
  · exact Nat.le_succ_of_le (h.claims c st hst)
  · change Function.update _ _ _ _ = _
    rcases hcases id fd' hid with ⟨rfl, rfl⟩ | ⟨hne, hold, -⟩
    · exact Function.update_self ..
    · rw [Function.update_of_ne hne]
      exact h.helper id fd' hold
  · change _ ∧ Function.update _ _ _ _ = _
    rcases hcases id fd' hid with ⟨rfl, rfl⟩ | ⟨-, hold, hne⟩
    · exact ⟨hfd, Function.update_self ..⟩
    · rw [Function.update_of_ne hne]
      exact h.opened id fd' hold
  · rcases hcases id fd' hid with ⟨rfl, rfl⟩ | ⟨-, hold, hne⟩
    · rcases hcases id' fd' hid' with ⟨rfl, -⟩ | ⟨-, -, hne'⟩
      · rfl
      · exact (hne' rfl).elim
    · rcases hcases id' fd' hid' with ⟨-, rfl⟩ | ⟨-, hold', -⟩
      · exact (hne rfl).elim
      · exact h.distinct id id' fd' hold hold'
  · obtain ⟨hle, hnone⟩ := h.gone id hid
    refine ⟨Nat.le_succ_of_le hle, ?_⟩
    change Function.update _ _ _ _ = _
    rw [Function.update_of_ne (by omega)]
    exact hnone

/-- Disposing of a registered handler keeps the shared state sound. -/
theorem Sound.dispose (h : sh.Sound) {id : ℕ} {fd : Int} (hid : sh.commHandlers id = some fd) :
    (sh.disposeHandler id).Sound := by
  have heq : sh.disposeHandler id =
      { sh with
        commHandlers := Function.update sh.commHandlers id none
        openFds := Function.update sh.openFds fd false
        disposals := id :: sh.disposals } := by
    rw [disposeHandler, hid]
  have hcases (id' : ℕ) (fd' : Int) (hid' : Function.update sh.commHandlers id none id' = some fd') :
      id' ≠ id ∧ sh.commHandlers id' = some fd' := by
    by_cases hsame : id' = id
    · rw [hsame, Function.update_self] at hid'
      cases hid'
    · rw [Function.update_of_ne hsame] at hid'
      exact ⟨hsame, hid'⟩
  rw [heq]
  refine ⟨fun id' fd' hid' => ?_, h.helpers, h.claims, h.counters, fun id' fd' hid' => ?_,
    fun id' fd' hid' => ?_, fun id' id'' fd' hid' hid'' => ?_, ?_, fun id' hid' => ?_⟩
  · exact h.registered id' fd' (hcases id' fd' hid').2
  · exact h.helper id' fd' (hcases id' fd' hid').2
  · obtain ⟨hne, hold⟩ := hcases id' fd' hid'
    have hfd : fd' ≠ fd := by
      rintro rfl
      exact hne (h.distinct id' id fd' hold hid)
    dsimp only
    rw [Function.update_of_ne hfd]
    exact h.opened id' fd' hold
  · exact h.distinct id' id'' fd' (hcases id' fd' hid').2 (hcases id'' fd' hid'').2
  · refine List.nodup_cons.mpr ⟨fun hmem => ?_, h.once⟩
    rw [(h.gone id hmem).2] at hid
    cases hid
  · dsimp only
    rcases List.mem_cons.mp hid' with rfl | hmem
    · exact ⟨h.registered id' fd hid, Function.update_self ..⟩
    · obtain ⟨hle, hnone⟩ := h.gone id' hmem
      refine ⟨hle, ?_⟩
      by_cases hsame : id' = id
      · rw [hsame, Function.update_self]
      · rw [Function.update_of_ne hsame]
        exact hnone

/-- What one operation of a task does: its answer is as the contract promises, and the accounts
come out right with the operation recorded. -/
structure Serves (fds : ℕ → Option Int) (sh sh' : Shared) (l r : List Custodian) (held : Custodian)
    (o : JobOp) (a : o.Answer) : Prop where
  gives : (custody fds).gives held o a
  custody : Custody sh'.objects sh'.Live (l ++ recordHoldings held o a :: r)
  sound : sh'.Sound
  helperFds : ∀ id fd, sh.helperFds id = some fd → sh'.helperFds id = some fd

/-- Adding to a claim creates no handler. -/
theorem fetchAdd_same {c : ClaimRef} {d : Int} {answer : HandlerClaimState}
    (hadd : sh.fetchAdd c d answer = some sh') : SameHandlers sh sh' := by
  unfold fetchAdd at hadd
  split at hadd
  · split at hadd
    · cases hadd
      exact ⟨rfl, rfl, rfl, rfl, rfl⟩
    · cases hadd
  · cases hadd

/-- An operation takes the next number or none. -/
theorem perform_numbers {o : JobOp} {a : o.Answer} {fd : Int}
    (hperform : sh.perform fd o a = some sh') :
    sh'.handlerIdCounter = sh.handlerIdCounter ∨ sh'.handlerIdCounter = sh.handlerIdCounter + 1 := by
  cases o with
  | connectAndCreateHandler target timeout =>
    simp only [perform] at hperform
    split_ifs at hperform
    · cases hperform
      exact .inr rfl
    · cases hperform
      exact .inl rfl
  | newClaim | getState | getHandler =>
    simp only [perform, Option.ite_none_right_eq_some, Option.some.injEq] at hperform
    obtain ⟨-, rfl⟩ := hperform
    exact .inl rfl
  | claim | disclaim => exact .inl (fetchAdd_same hperform).handlerIdCounter
  | disposeHandler id =>
    cases hperform
    unfold disposeHandler
    split <;> exact .inl rfl
  | transferIn | transferOut | getsockname | dnsNew | dnsOpen | dnsResolveA6 | dnsResolveA4
  | dnsClose | dnsFree =>
    cases hperform
    exact .inl rfl

/-- The next handler does not exist yet. -/
theorem Sound.not_live_next (h : sh.Sound) : ¬sh.Live (sh.handlerIdCounter + 1) := by
  intro hlive
  obtain ⟨fd, hfd⟩ := live_iff.mp hlive
  have hle := h.registered _ fd hfd
  omega

section Operations

variable (h : sh.Sound) (hcustody : Custody sh.objects sh.Live (l ++ held :: r))

include h hcustody

/-- An operation that touches no handler. -/
theorem serves_silent {o : JobOp} {a : o.Answer} (hgives : (custody fds).gives held o a)
    (hrecord : recordHoldings held o a = held) : Serves fds sh sh l r held o a := by
  refine ⟨hgives, ?_, h, fun _ _ hfd => hfd⟩
  rw [hrecord]
  exact hcustody

/-- What a task has to do with exists. -/
theorem le_counter_of_held {id : ℕ} (hid : held id ≠ .nothing) : id ≤ sh.handlerIdCounter := by
  obtain ⟨fd, hfd⟩ := live_iff.mp ((hcustody.accounted id).live_of_mem hid)
  exact h.registered id fd hfd

/-- A new claim object. -/
theorem serves_newClaim {id : ℕ} {c : ClaimRef} (hmay : held id = .owes none)
    (hfresh : sh.claims c = none) :
    Serves fds sh { sh with claims := Function.update sh.claims c (some ⟨0, id⟩) } l r held
      (.newClaim id) c := by
  refine ⟨trivial, ?_, h.update_claim ?_ ⟨Int.le_refl 0, Int.zero_le_ofNat 2⟩, fun _ _ hfd => hfd⟩
  · rw [objects_update]
    apply hcustody.enroll hmay
    rw [objects, hfresh, Option.map_none]
  · exact le_counter_of_held h hcustody (by rw [hmay]; exact fun hx => nomatch hx)

/-- A claim of a task that is the only one with a stake. -/
theorem serves_claim {id n : ℕ} {c : ClaimRef} {answer : HandlerClaimState}
    (href : (held id).ref = some c) (hclaims : (held id).claims = some n) (hn : n < 2)
    (hadd : sh.fetchAdd c 1 answer = some sh') :
    Serves fds sh sh' l r held (.claim c) answer := by
  obtain ⟨k, hbacked⟩ := hcustody.backed id
  have hobject := hbacked.counted href hclaims
  rw [fetchAdd, claims_of_objects hobject] at hadd
  simp only [Option.ite_none_right_eq_some, Option.some.injEq] at hadd
  rw [wrapInt_eq (by omega) (by omega)] at hadd
  obtain ⟨rfl, rfl⟩ := hadd
  have hfew : 0 ≤ (n : Int) + 1 ∧ (n : Int) + 1 ≤ 2 := by omega
  refine ⟨fun id' n' href' hclaims' => ?_, ?_, h.update_claim ?_ hfew, fun _ _ hfd => hfd⟩
  · obtain rfl := hcustody.object_id href' _ id hobject
    rw [hclaims] at hclaims'
    cases hclaims'
    rfl
  · rw [objects_update, recordHoldings_claim hclaims]
    exact hcustody.claim href hclaims
  · exact h.claims c ⟨n, id⟩ (claims_of_objects hobject)

omit h in
/-- Where there is a claim, the counter shows one. -/
theorem one_le_of_claim {id : ℕ} {c : ClaimRef} {m : Int} (href : (held id).ref = some c)
    (hclaim : (held id).isClaim) (hobject : sh.objects c = some (m, id)) : 1 ≤ m := by
  have haccounted := hcustody.accounted id
  obtain ⟨k, hbacked⟩ := hcustody.backed id
  cases hheld : held id with
  | nothing | owes ref =>
    rw [hheld] at hclaim
    exact hclaim.elim
  | alone c' n =>
    rw [hheld] at href hbacked
    cases href
    obtain ⟨hpos, hcount⟩ := hbacked
    rw [hobject] at hcount
    cases hcount
    omega
  | shared c' =>
    rw [hheld] at href haccounted
    cases href
    obtain ⟨-, hcount, -⟩ := haccounted.others_shared hobject
    omega

/-- A task that has a claim gives it up. -/
theorem serves_disclaim {id : ℕ} {c : ClaimRef} {answer : HandlerClaimState}
    (href : (held id).ref = some c) (hclaim : (held id).isClaim)
    (hadd : sh.fetchAdd c (-1) answer = some sh') :
    Serves fds sh sh' l r held (.disclaim c) answer := by
  obtain ⟨k, hbacked⟩ := hcustody.backed id
  obtain ⟨m, hobject⟩ := hbacked.object href
  have hpos := one_le_of_claim hcustody href hclaim hobject
  have htwo : m ≤ 2 := (h.counters c ⟨m, id⟩ (claims_of_objects hobject)).2
  have hfew : 0 ≤ m + -1 ∧ m + -1 ≤ 2 := by omega
  rw [fetchAdd, claims_of_objects hobject] at hadd
  simp only [Option.ite_none_right_eq_some, Option.some.injEq] at hadd
  rw [wrapInt_eq (by omega) (by omega)] at hadd
  obtain ⟨rfl, rfl⟩ := hadd
  refine ⟨fun id' href' => ?_, ?_, h.update_claim ?_ hfew, fun _ _ hfd => hfd⟩
  · obtain rfl := hcustody.object_id href' _ id hobject
    refine ⟨rfl, fun n hn => ?_⟩
    have hcounted := hbacked.counted href hn
    rw [hobject] at hcounted
    cases hcounted
    rfl
  · rw [objects_update]
    cases hheld : held id with
    | nothing =>
      rw [hheld] at hclaim
      exact hclaim.elim
    | owes ref =>
      rw [hheld] at hclaim
      exact hclaim.elim
    | alone c' n =>
      rw [hheld] at href hbacked
      cases href
      obtain ⟨hpos, hcount⟩ := hbacked
      obtain ⟨n, rfl⟩ := Nat.exists_eq_add_of_le' hpos
      rw [hobject] at hcount
      cases hcount
      have hcounter : (((n + 1 : ℕ) : Int) + -1) = n := by omega
      rw [recordHoldings_disclaim_alone hheld]
      dsimp only
      rw [hcounter]
      exact hcustody.disclaim_alone hheld
    | shared c' =>
      rw [hheld] at href
      cases href
      rw [recordHoldings_disclaim_shared hheld]
      exact hcustody.disclaim_shared hheld hobject
  · exact h.claims c ⟨m, id⟩ (claims_of_objects hobject)

/-- The descriptor of a handler that a task has to do with. -/
theorem serves_getHandler {id : ℕ}
    (hfds : ∀ id fd, sh.helperFds id = some fd → fds id = some fd) :
    Serves fds sh sh l r held (.getHandler id) (sh.getHandler id) := by
  refine serves_silent h hcustody (fun hid => ?_) rfl
  obtain ⟨fd, hfd⟩ := live_iff.mp ((hcustody.accounted id).live_of_mem hid)
  have hvalid : sh.getHandler id = some fd := by
    have hpos := (h.opened id fd hfd).1
    rw [getHandler, hfd, Option.filter_some, if_pos (decide_eq_true (by omega))]
  rw [hvalid, hfds id fd (h.helper id fd hfd)]
  exact ⟨(fun hnone => nomatch hnone), rfl⟩

/-- A new handler appears in the hands of a task. -/
theorem custody_create {fd : Int} :
    Custody (sh.createHandlerFromSocket fd).objects (sh.createHandlerFromSocket fd).Live
      (l ++ Function.update held (sh.handlerIdCounter + 1) (.owes none) :: r) := by
  refine hcustody.open (h.not_live_next) (fun c n hobject => ?_) fun id => ?_
  · have hle := h.claims c _ (claims_of_objects hobject)
    dsimp only at hle
    omega
  · change (Function.update sh.commHandlers _ (some fd) id).isSome = true ↔
      _ ∨ (sh.commHandlers id).isSome = true
    by_cases heq : id = sh.handlerIdCounter + 1
    · rw [heq, Function.update_self]
      exact iff_of_true rfl (.inl rfl)
    · rw [Function.update_of_ne heq]
      exact (or_iff_right heq).symm

/-- A connection that was made. -/
theorem serves_connect {target : IPEndpoint} {timeout : Timeval} {fd : Int}
    (hopen : sh.canOpen fd = true) (hfew : (sh.createHandlerFromSocket fd).FewHandlers) :
    Serves fds sh (sh.createHandlerFromSocket fd) l r held
      (.connectAndCreateHandler target timeout) (sh.handlerIdCounter + 1) := by
  have hle : ¬handlerError < sh.handlerIdCounter + 1 := Nat.not_lt.mpr hfew
  refine ⟨fun _ => ?_, ?_, h.create hopen, fun id fd' hfd' => ?_⟩
  · by_contra hid
    exact h.not_live_next ((hcustody.accounted _).live_of_mem hid)
  · rw [recordHoldings, if_neg hle]
    exact custody_create h hcustody
  · change Function.update _ _ _ _ = _
    have hlt := h.helpers id fd' hfd'
    rw [Function.update_of_ne (by omega)]
    exact hfd'

/-- A task disposes of what it owes, which is registered. -/
theorem serves_dispose {id : ℕ} {ref : Option ClaimRef} (hheld : held id = .owes ref) :
    Serves fds sh (sh.disposeHandler id) l r held (.disposeHandler id) () := by
  obtain ⟨fd, hfd⟩ := live_iff.mp
    ((hcustody.accounted id).live_of_mem (by rw [hheld]; exact fun hx => nomatch hx))
  have heq : sh.disposeHandler id =
      { sh with
        commHandlers := Function.update sh.commHandlers id none
        openFds := Function.update sh.openFds fd false
        disposals := id :: sh.disposals } := by
    rw [disposeHandler, hfd]
  refine ⟨trivial, ?_, h.dispose hfd, ?_⟩
  · rw [heq]
    refine hcustody.dispose hheld fun id' => ?_
    change (Function.update sh.commHandlers id none id').isSome = true ↔
      _ ∧ (sh.commHandlers id').isSome = true
    by_cases hsame : id' = id
    · rw [hsame, Function.update_self]
      exact iff_of_false (fun hx => nomatch hx) fun hx => hx.1 rfl
    · rw [Function.update_of_ne hsame]
      exact (and_iff_right hsame).symm
  · rw [heq]
    exact fun _ _ hfd => hfd

/-- The shared state serves any operation that the contract allows. -/
theorem serves_perform {o : JobOp} {a : o.Answer} {fd : Int}
    (hfds : ∀ id fd, sh.helperFds id = some fd → fds id = some fd)
    (hmay : (custody fds).may held o) (hperform : sh.perform fd o a = some sh')
    (hfew : sh'.FewHandlers) : Serves fds sh sh' l r held o a := by
  cases o with
  | newClaim id =>
    simp only [perform, Option.ite_none_right_eq_some, Option.some.injEq] at hperform
    obtain ⟨hfresh, rfl⟩ := hperform
    exact serves_newClaim h hcustody hmay hfresh
  | claim c =>
    obtain ⟨id, n, href, hclaims, hn⟩ := hmay
    exact serves_claim h hcustody href hclaims hn hperform
  | disclaim c =>
    obtain ⟨id, href, hclaim⟩ := hmay
    exact serves_disclaim h hcustody href hclaim hperform
  | getState c =>
    simp only [perform, Option.ite_none_right_eq_some, Option.some.injEq] at hperform
    obtain ⟨hclaim, rfl⟩ := hperform
    refine serves_silent h hcustody (fun id href => ?_) rfl
    obtain ⟨k, hbacked⟩ := hcustody.backed id
    obtain ⟨n, hobject⟩ := hbacked.object href
    rw [claims_of_objects hobject] at hclaim
    cases hclaim
    rfl
  | getHandler id =>
    simp only [perform, Option.ite_none_right_eq_some, Option.some.injEq] at hperform
    obtain ⟨rfl, rfl⟩ := hperform
    exact serves_getHandler h hcustody hfds
  | connectAndCreateHandler target timeout =>
    simp only [perform] at hperform
    split_ifs at hperform with hmade hfailed
    · obtain ⟨hopen, rfl⟩ := hmade
      cases hperform
      exact serves_connect h hcustody hopen hfew
    · cases hperform
      refine serves_silent h hcustody (fun hle => (Nat.not_lt.mpr hle hfailed).elim) ?_
      rw [recordHoldings, if_pos hfailed]
  | disposeHandler id =>
    cases hperform
    obtain ⟨ref, hheld⟩ := hmay
    exact serves_dispose h hcustody hheld
  | transferIn | transferOut | getsockname | dnsNew | dnsOpen | dnsResolveA6 | dnsResolveA4
  | dnsClose | dnsFree =>
    cases hperform
    exact serves_silent h hcustody trivial rfl

end Operations

end Shared

end TinySox
