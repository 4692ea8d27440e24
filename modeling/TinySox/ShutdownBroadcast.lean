import TinySox.TunnelWindDown

/-!
# The broadcast of the service

What the service has told a helper stays told: the jobs read the counter of the notifications but
never write it, and a new handler has a number of its own. Under the lock no handler comes or goes,
so once the service has gone through all of them, each handler that was registered is cancelled, in
both directions.
-/

namespace TinySox

open TinySox.Common

variable {env : Settings} {sh : Shared} {tr : Tracked} {helpers : Helpers}
  {next : Shared × List Task × List Task} {move : TaskMove} {status : Int} {intCnt : ℕ}

/-- A new handler comes with new helpers, and leaves the others alone. -/
theorem Helpers.drives_create (helpers : Helpers) (id : ℕ) (fd : Int) (k : HelperKey) :
    (helpers k).Drives (helpers.create id fd k) ∨
      k.1 = id ∧ ∃ sockFD isReader, helpers.create id fd k = newTCPCommHelper sockFD isReader := by
  by_cases hwriter : k = (id, .writer)
  · subst hwriter
    exact .inr ⟨rfl, fd, false, by rw [create, Function.update_self]⟩
  · by_cases hreader : k = (id, .reader)
    · subst hreader
      refine .inr ⟨rfl, fd, true, ?_⟩
      rw [create, Function.update_of_ne hwriter, Function.update_self]
    · rw [create, Function.update_of_ne hwriter, Function.update_of_ne hreader]
      exact .inl (.refl _)

/-- A move of a task that is no notice notifies no helper, apart from those of a new handler. -/
theorem Helpers.drives_after
    (hstep : (tr.task.view helpers).step env sh (tr.task.viewMove helpers move) = some next)
    (hnotice : move.isNotice = false) (hint : intCnt < nHup) (k : HelperKey) :
    (helpers k).Drives (helpers.after sh status intCnt next move k) ∨
      k.1 = sh.handlerIdCounter + 1 ∧
        ∃ fd isReader, helpers.after sh status intCnt next move k = newTCPCommHelper fd isReader := by
  obtain ⟨client, role, task⟩ := tr
  have hmoves := Tracked.step_moves client role hstep
  generalize Tracked.successors env ⟨client, role, task⟩ move next.2.1 = news at hmoves
  cases hmoves with
  | announce | failed | process | discard | finish | spawn | enter | leave => exact .inl (.refl _)
  | call p q held held' e fd sh' hfollow hperform =>
    have hused (key : HelperKey) : (helpers k).Drives (helpers.used key status intCnt k) := by
      by_cases hk : k = key
      · subst hk
        rw [Helpers.used, Function.update_self]
        exact ⟨rfl, fun _ => hint⟩
      · rw [Helpers.used, Function.update_of_ne hk]
        exact .refl _
    obtain ⟨o, a⟩ := e
    cases o with
    | transferIn id len allowPartial => exact .inl (hused (id, .reader))
    | transferOut id data => exact .inl (hused (id, .writer))
    | connectAndCreateHandler target timeout =>
      simp only [Helpers.after]
      split
      · rename_i hmade
        have hnext : sh'.handlerIdCounter = sh.handlerIdCounter + 1 :=
          (Shared.perform_numbers hperform).resolve_left (Nat.ne_of_gt hmade)
        rw [← hnext]
        exact helpers.drives_create _ fd k
      · exact .inl (.refl _)
    | newClaim | claim | disclaim | getState | getHandler | disposeHandler | getsockname | dnsNew
    | dnsOpen | dnsResolveA6 | dnsResolveA4 | dnsClose | dnsFree => exact .inl (.refl _)
  | copy state reader writer t t' a hcopy =>
    left
    have ha : ∀ side n, a ≠ .notice side n := by
      rintro side n rfl
      cases hnotice
    obtain ⟨hreader, hwriter⟩ := Tunnel.drives_step hcopy ha
    change (helpers k).Drives (helpers.store reader writer t' k)
    by_cases hkw : k = (writer, .writer)
    · subst hkw
      rw [Helpers.store, Function.update_self]
      exact hwriter
    · rw [Helpers.store, Function.update_of_ne hkw]
      by_cases hkr : k = (reader, .reader)
      · subst hkr
        rw [Function.update_self]
        exact hreader
      · rw [Function.update_of_ne hkr]
        exact .refl _

namespace HelperPipeline

variable {s s' : HelperPipeline}

/-- What a step that is no notice does to the helpers. -/
structure Handles (s s' : HelperPipeline) : Prop where
  counter : s.shared.handlerIdCounter ≤ s'.shared.handlerIdCounter
  intCnt : ∀ k, (s.helpers k).intCnt < nHup → (s'.helpers k).intCnt < nHup
  word : ∀ k, (s.helpers k).extCnt ≤ nCancel → (s'.helpers k).extCnt ≤ nCancel
  extCnt : ∀ k, k.1 ≤ s.shared.handlerIdCounter → (s'.helpers k).extCnt = (s.helpers k).extCnt

/-- The helpers of the others are as they were, and those of a new handler are new. -/
theorem Handles.of_drives (hcounter : s.shared.handlerIdCounter ≤ s'.shared.handlerIdCounter)
    (hdrives : ∀ k, (s.helpers k).Drives (s'.helpers k) ∨ k.1 = s.shared.handlerIdCounter + 1 ∧
      ∃ fd isReader, s'.helpers k = newTCPCommHelper fd isReader) : s.Handles s' := by
  refine ⟨hcounter, fun k hint => ?_, fun k hword => ?_, fun k hk => ?_⟩
  · rcases hdrives k with ⟨-, hkeep⟩ | ⟨-, fd, isReader, hnew⟩
    · exact hkeep hint
    · rw [hnew]
      change 0 < nHup
      decide
  · rcases hdrives k with ⟨hsame, -⟩ | ⟨-, fd, isReader, hnew⟩
    · exact Nat.le_trans (Nat.le_of_eq hsame) hword
    · rw [hnew]
      change 1 ≤ nCancel
      decide
  · rcases hdrives k with ⟨hsame, -⟩ | ⟨hnumber, -⟩
    · exact hsame
    · exact absurd hk (by omega)

/-- A new client has helpers of its own. -/
theorem handles_accept {fd : Int} (hstep : s.step env (.accept fd) = some s') : s.Handles s' := by
  simp only [step, Option.ite_none_right_eq_some, Option.some.injEq] at hstep
  obtain ⟨-, rfl⟩ := hstep
  exact .of_drives (Nat.le_succ _) (s.helpers.drives_create _ fd)

/-- The tasks do not notify helpers. -/
theorem handles_task (h : s.Wired) {i : ℕ} (hint : intCnt < nHup)
    (hstep : s.step env (.task i move status intCnt) = some s') : s.Handles s' := by
  simp only [step, Option.bind_eq_some_iff] at hstep
  obtain ⟨tr, hi, hstep⟩ := hstep
  split at hstep
  · contradiction
  · rename_i hnotice
    obtain ⟨next, hnext, rfl⟩ := Option.map_eq_some_iff.mp hstep
    apply Handles.of_drives
    · exact ((h.wired tr (List.mem_of_getElem? hi)).follows hnext).counter
    · exact Helpers.drives_after hnext (Bool.not_eq_true _ ▸ hnotice) hint

end HelperPipeline

namespace Shared

/-- An operation that does not end under the lock neither adds nor removes a handler, as long as there
are few. -/
theorem perform_commHandlers {sh sh' : Shared} {fd : Int} {e : Event JobOp.Answer}
    (hperform : sh.perform fd e.1 e.2 = some sh') (hlocks : eventLocks e = false)
    (hfew : sh'.FewHandlers) : sh'.commHandlers = sh.commHandlers := by
  obtain ⟨o, a⟩ := e
  cases o with
  | newClaim | getState =>
    simp only [perform, Option.ite_none_right_eq_some, Option.some.injEq] at hperform
    obtain ⟨-, rfl⟩ := hperform
    rfl
  | claim | disclaim => exact (fetchAdd_same hperform).commHandlers
  | getHandler | disposeHandler => cases hlocks
  | connectAndCreateHandler target timeout =>
    simp only [eventLocks, decide_eq_false_iff_not, Nat.not_le] at hlocks
    simp only [perform, if_pos hlocks] at hperform
    split_ifs at hperform with hmade
    · -- a new handler would have the number of an error
      obtain ⟨-, hid⟩ := hmade
      cases hperform
      rw [hid] at hlocks
      exact absurd hfew (Nat.not_le.mpr hlocks)
    · cases hperform
      rfl
  | transferIn | transferOut | getsockname | dnsNew | dnsOpen | dnsResolveA6 | dnsResolveA4
  | dnsClose | dnsFree =>
    cases hperform
    rfl

end Shared

/-- Where the lock is not taken, the handlers stay. -/
theorem Task.step_commHandlers {task : Task}
    (hstep : task.step env sh move = some next)
    (hlocks : ∀ e fd, move = .call e fd → eventLocks e = false) (hfew : next.1.FewHandlers) :
    next.1.commHandlers = sh.commHandlers := by
  cases Task.step_moves hstep with
  | call p q held e fd sh' hfollow hperform =>
    exact Shared.perform_commHandlers hperform (hlocks e fd rfl) hfew
  | announce | failed | process | discard | finish | spawn | enter | copy | leave => rfl

/-- An operation is the same with the helpers that the pointers lead to. -/
theorem Task.viewMove_call {task : Task} {e : Event JobOp.Answer} {fd : Int}
    (hmove : task.viewMove helpers move = .call e fd) : move = .call e fd := by
  unfold viewMove at hmove
  split at hmove
  · cases hmove
  · exact hmove

/-- A cancelled helper shows it. -/
theorem TCPCommHelper.cancel_extCnt {h : TCPCommHelper} (hword : h.extCnt ≤ nCancel) :
    h.cancel.extCnt = nCancel := by
  unfold cancel
  split
  · rfl
  · omega

end TinySox
