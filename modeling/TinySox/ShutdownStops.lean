import TinySox.ShutdownBroadcast

/-!
# The shutdown stops the tunnels

The dispatcher may cancel a tunnel before the broadcast of the service or after it. Before, the
tunnel has its handlers registered, so that they are told. After, it depends on when the handlers
were created: the listener may register a client behind the broadcast, and as long as the flag of
the dispatcher is not set, a tunnel is made of it that nobody cancels in the middle of a write.
-/

namespace TinySox

open TinySox.Common

variable {env : Settings} {sh : Shared} {tr : Tracked} {helpers : Helpers}
  {next : Shared × List Task × List Task} {move : TaskMove} {status : Int} {intCnt : ℕ}
  {service : ServicePc} {told : List ℕ} {m : JobMark}

/-- A job has done nothing since it was told to stop. -/
structure JobMark.Untouched (m : JobMark) : Prop where
  statements : m.statements = 0
  reads : m.reads = 0
  writes : m.writes = 0

/-- Then it is within all bounds. -/
theorem JobMark.Untouched.within (h : m.Untouched) : m.Within 0 1 1 :=
  ⟨by rw [h.statements]; decide, by rw [h.reads]; decide, by rw [h.writes]; decide⟩

/-- What the mark of a tunnel in its main loop satisfies. -/
structure Tunnel.Marked (service : ServicePc) (told : List ℕ) (m : JobMark) (reader writer : ℕ)
    (t : Tunnel) : Prop where
  cancel : t.cancel = m.cancelled
  loaded : t.pc.Loaded
  reached : m.cancelled = true → service.left.isSome = true →
    t.pc.isSettled = true ∨ reader ∈ told ∨ writer ∈ told
  winds : service = .terminated → m.cancelled = true → t.pc.Winds (reader ∈ told) m
  untouched : ¬(service = .terminated ∧ m.cancelled = true) → m.Untouched

/-- What the mark of a task satisfies. Only a job that is yet to enter its main loop can do so. -/
def Task.Marked (service : ServicePc) (told : List ℕ) (m : JobMark) : Task → Prop
  | .accepted _ | .result _ => m.Untouched
  | .program p _ => m.Within 0 1 1 ∧ (m.Untouched ∨ p.Leaves)
  | .copying _ reader writer t => t.Marked service told m reader writer

/-- No job has started more than one call on each side. -/
theorem Task.Marked.within {task : Task} (h : task.Marked service told m) : m.Within 0 1 1 := by
  cases task with
  | accepted id => exact JobMark.Untouched.within h
  | result r => exact JobMark.Untouched.within h
  | program p held => exact h.1
  | copying state reader writer t =>
    by_cases hover : service = .terminated ∧ m.cancelled = true
    · exact (Tunnel.Marked.winds h hover.1 hover.2).within
    · exact (Tunnel.Marked.untouched h hover).within

/-- A new job has done nothing. -/
theorem JobMark.untouched_fresh : JobMark.fresh.Untouched := ⟨rfl, rfl, rfl⟩

/-- A new task has done nothing. -/
theorem Task.marked_program {p : JobProg JobResult Next} {held : Custodian} (h : m.Untouched) :
    (Task.program p held).Marked service told m := ⟨h.within, .inl h⟩

/-- A tunnel with its flag set does not begin another round. -/
theorem Tunnel.settled_step {buffSz : ℕ} {t t' : Tunnel} {a : TunnelAction}
    (h : t.pc.isSettled = true) (hcancel : t.cancel = true) (hstep : t.step buffSz a = some t') :
    t'.pc.isSettled = true := by
  cases step_moves hstep with
  | notice side n => cases side <;> exact h
  | cancel => exact h
  | loop =>
    dsimp only
    rw [if_pos hcancel]
    rfl
  | shutdownReader | shutdownWriter => rfl
  | writerStatus hpc | read hpc | write _ hpc | readerStatus _ _ hpc | reading _ _ _ _ hpc
  | writing _ _ _ _ _ hpc =>
    rw [hpc] at h
    cases h

/-- A step of a tunnel keeps its mark in order, with the helpers that its pointers lead to. -/
theorem Tunnel.Marked.step {reader writer buffSz : ℕ} {state : State} {t t' : Tunnel}
    {a : TunnelAction} (h : t.Marked service told m reader writer)
    (htold : service = .terminated → ∀ id ∈ told, ∀ side, (helpers (id, side)).extCnt = nCancel)
    (hint : ∀ k, (helpers k).intCnt < nHup)
    (hnotice : ∀ side n, a ≠ .notice side n) (hcancel : a ≠ .cancel)
    (hstep : (helpers.see reader writer t).step buffSz a = some t') :
    t'.Marked service told
      (m.after (service = .terminated) (.copying state reader writer t) (.copy a)) reader writer := by
  have hreader (hservice : service = .terminated) (hr : reader ∈ told) :
      (helpers.see reader writer t).reader.extCnt = nCancel := htold hservice reader hr .reader
  have hflag : t'.cancel = m.cancelled := (cancel_step hstep hcancel).trans h.cancel
  have hloaded : t'.pc.Loaded := loaded_step (t := helpers.see reader writer t) h.loaded hstep
  have hreached (hc : m.cancelled = true) (hleft : service.left.isSome = true) :
      t'.pc.isSettled = true ∨ reader ∈ told ∨ writer ∈ told := by
    rcases h.reached hc hleft with hsettled | hone
    · exact .inl (settled_step (t := helpers.see reader writer t) hsettled (h.cancel.trans hc) hstep)
    · exact .inr hone
  cases a with
  | notice side n => exact absurd rfl (hnotice side n)
  | cancel => exact absurd rfl hcancel
  | control =>
    change Tunnel.Marked service told
      (if decide (service = .terminated) && m.cancelled then m.count t.pc.starts else m) reader writer t'
    by_cases hover : service = .terminated ∧ m.cancelled = true
    · rw [if_pos (by rw [hover.2, decide_eq_true hover.1]; rfl)]
      have hwinds : t'.pc.Winds (reader ∈ told) (m.count t.pc.starts) :=
        winds_control (t := helpers.see reader writer t) (h.winds hover.1 hover.2)
          (h.cancel.trans hover.2) h.loaded (hreader hover.1) hstep
      have hsame : (m.count t.pc.starts).cancelled = m.cancelled := by
        cases t.pc.starts with
        | none => rfl
        | some side => cases side <;> rfl
      refine ⟨hflag.trans hsame.symm, hloaded, fun hc => hreached (hsame.symm.trans hc),
        fun _ _ => hwinds, fun hnot => absurd ⟨hover.1, hsame.trans hover.2⟩ hnot⟩
    · rw [if_neg (by simpa using hover)]
      exact ⟨hflag, hloaded, hreached, fun hs hc => absurd ⟨hs, hc⟩ hover, h.untouched⟩
  | transfer a block =>
    refine ⟨hflag, hloaded, hreached, fun hs hc => ?_, h.untouched⟩
    apply winds_transfer (t := helpers.see reader writer t) (h.winds hs hc) ?_ hstep
    intro hsettled
    have hleft : service.left.isSome = true := by rw [hs]; rfl
    rcases h.reached hc hleft with hout | hr | hw
    · have hnot : t.pc.isSettled = false := hsettled
      rw [hnot] at hout
      cases hout
    · exact .inl hr
    · exact .inr ⟨htold hs writer hw .writer, hint _⟩

/-- A move of a task keeps the marks in order. -/
theorem Tracked.marked_successors
    (h : tr.task.Marked service told m)
    (htold : service = .terminated → ∀ id ∈ told, ∀ side, (helpers (id, side)).extCnt = nCancel)
    (hint : ∀ k, (helpers k).intCnt < nHup) (hnotice : move.isNotice = false)
    (hcancel : move ≠ .copy .cancel) (henter : ∀ t, move = .enter t → t.cancel = m.cancelled)
    (hstep : (tr.task.view helpers).step env sh (tr.task.viewMove helpers move) = some next) :
    ∀ u ∈ tr.successors env move next.2.1,
      u.task.Marked service told (m.after (service = .terminated) tr.task move) := by
  obtain ⟨client, role, task⟩ := tr
  have hmoves := Tracked.step_moves client role hstep
  generalize Tracked.successors env ⟨client, role, task⟩ move next.2.1 = news at hmoves ⊢
  have hone {task' : Task} {role' : Role} {m' : JobMark} (hmarked : task'.Marked service told m') :
      ∀ u ∈ [Tracked.mk client role' task'], u.task.Marked service told m' := by
    intro u hu
    rw [List.mem_singleton.mp hu]
    exact hmarked
  cases hmoves with
  | announce id => exact hone h
  | process r p hp => exact hone (Task.marked_program JobMark.untouched_fresh)
  | failed | discard => exact fun u hu => nomatch hu
  | finish r held => exact hone JobMark.untouched_fresh
  | call p q held held' e fd sh' hfollow hperform =>
    exact hone ⟨h.1, h.2.imp_right fun hleaves => hleaves.follow hfollow⟩
  | spawn jobs held workers =>
    intro u hu
    obtain ⟨job, -, rfl⟩ := List.mem_map.mp hu
    exact Task.marked_program JobMark.untouched_fresh
  | enter state reader writer readerFd writerFd held t hpc =>
    rcases h.2 with huntouched | hleaves
    · have hflag : (helpers.see reader writer t).cancel = m.cancelled := henter t rfl
      have hloop : (helpers.see reader writer t).pc = .loop := hpc
      apply hone
      refine ⟨hflag, ?_, fun _ _ => .inl ?_, fun _ _ => ?_, fun _ => huntouched⟩
      · rw [hloop]
        trivial
      · rw [hloop]
        rfl
      · exact TunnelPc.winds_of_zero huntouched.statements huntouched.reads huntouched.writes
    · exact hleaves.elim
  | copy state reader writer t t' a hcopy =>
    apply hone
    refine Tunnel.Marked.step h htold hint ?_ ?_ hcopy
    · rintro side n rfl
      cases hnotice
    · rintro rfl
      exact hcancel rfl
  | leave state reader writer t held hpc =>
    exact hone ⟨h.within, .inr (Prog.leaves_bind _ fun _ => trivial)⟩

/-- A mark stays in order where nothing is over yet, if the tunnels that are cancelled are told. -/
theorem Task.Marked.begin {task : Task} {service' : ServicePc} {told' : List ℕ}
    (h : task.Marked service told m) (hservice : service ≠ .terminated)
    (hservice' : service' ≠ .terminated)
    (htold : ∀ state reader writer t, task = .copying state reader writer t →
      m.cancelled = true → service'.left.isSome = true →
        t.pc.isSettled = true ∨ reader ∈ told' ∨ writer ∈ told') :
    task.Marked service' told' m := by
  cases task with
  | accepted id => exact h
  | result r => exact h
  | program p held => exact h
  | copying state reader writer t =>
    exact ⟨Tunnel.Marked.cancel h, Tunnel.Marked.loaded h, htold state reader writer t rfl,
      fun hover => absurd hover hservice',
      fun _ => Tunnel.Marked.untouched h fun hover => hservice hover.1⟩

/-- A tunnel is in the middle of a round, and neither of its handlers was told. -/
def Task.hasMissed (told : List ℕ) : Task → Bool
  | .copying _ reader writer t =>
    !t.pc.isSettled && !decide (reader ∈ told) && !decide (writer ∈ told)
  | _ => false

namespace ShutdownSequence

variable {s s' : ShutdownSequence}

/-- What holds of the whole program at all times, as long as the dispatcher cancels no job that has
missed the broadcast. -/
structure Orderly (s : ShutdownSequence) : Prop where
  wired : s.pipeline.Wired
  sound : s.pipeline.split.Sound
  length : s.pipeline.tasks.length = s.marks.length
  intCnt : ∀ k, (s.pipeline.helpers k).intCnt < nHup
  word : ∀ k, (s.pipeline.helpers k).extCnt ≤ nCancel
  bounded : ∀ id ∈ s.told, id ≤ s.pipeline.shared.handlerIdCounter
  told : ∀ left, s.service.left = some left → ∀ id ∈ s.told, ∀ side,
    (id, side) ∈ left ∨ (s.pipeline.helpers (id, side)).extCnt = nCancel
  frozen : s.service.holdsLock = true →
    ∀ id, s.pipeline.shared.isRegistered id = true → id ∈ s.told
  marked : ∀ p ∈ s.jobs, p.1.task.Marked s.service s.told p.2

/-- A tunnel has its handlers registered while it is in its main loop. -/
theorem Orderly.registered (h : s.Orderly) {state : State} {reader writer : ℕ} {t : Tunnel}
    (htr : tr ∈ s.pipeline.tasks) (htask : tr.task = .copying state reader writer t) :
    s.pipeline.shared.isRegistered reader = true ∧ s.pipeline.shared.isRegistered writer = true := by
  have hmem : tr.task.view s.pipeline.helpers ∈ s.pipeline.split.tasks := List.mem_map_of_mem htr
  rw [htask] at hmem
  obtain ⟨hnodup, hreader, hwriter, -⟩ := h.sound.tasks _ hmem
  have hregistered (id : ℕ) (hid : id ∈ state.ids) : s.pipeline.shared.isRegistered id = true := by
    obtain ⟨fd, -, hfd, -⟩ :=
      h.sound.registered hmem (State.isClaim_shared hnodup hid).ne_nothing
    exact Shared.live_iff.mpr ⟨fd, hfd⟩
  exact ⟨hregistered reader hreader, hregistered writer hwriter⟩

/-- Every step of the pipeline keeps its own invariants, as long as there are few handlers. -/
theorem Orderly.pipeline (h : s.Orderly) {a : DriverAction} {next : HelperPipeline}
    (hstep : s.pipeline.step env a = some next) (hfew : next.shared.FewHandlers) :
    next.Wired ∧ next.split.Sound := by
  refine ⟨h.wired.step hstep, ?_⟩
  obtain ⟨actions, hrun⟩ := h.wired.split_step hstep
  exact h.sound.run hrun hfew

/-- What has been told stays told. -/
theorem Orderly.told_of_handles (h : s.Orderly) {next : HelperPipeline}
    (hhandles : s.pipeline.Handles next) (left : List HelperKey) (hleft : s.service.left = some left)
    (id : ℕ) (hid : id ∈ s.told) (side : Side) :
    (id, side) ∈ left ∨ (next.helpers (id, side)).extCnt = nCancel := by
  rw [hhandles.extCnt (id, side) (h.bounded id hid)]
  exact h.told left hleft id hid side

/-- Nobody has connected, and nobody is told anything. -/
theorem orderly_initial (openFds : Int → Bool) (listeners : ℕ) :
    (initial openFds listeners).Orderly := by
  refine ⟨HelperPipeline.wired_initial openFds _, Pipeline.sound_initial openFds, rfl, fun k => ?_,
    fun k => ?_, fun id hid => (nomatch hid), fun left hleft => (nomatch hleft),
    fun hlock => (nomatch hlock), fun p hp => (nomatch hp)⟩
  · change 0 < nHup
    decide
  · change 1 ≤ nCancel
    decide

/-- Nothing changes that the tunnels depend on. -/
structure SamePipeline (s s' : ShutdownSequence) : Prop where
  pipeline : s'.pipeline = s.pipeline
  marks : s'.marks = s.marks
  service : s'.service = s.service
  told : s'.told = s.told

/-- Then everything stays in order. -/
theorem Orderly.same (h : s.Orderly) (hsame : s.SamePipeline s') : s'.Orderly := by
  obtain ⟨pipeline, marks, main, listeners, serviceFlag, service, told, dispatcherFlag,
    dispatcher⟩ := s'
  obtain ⟨hpipeline, hmarks, hservice, htold⟩ := hsame
  dsimp only at hpipeline hmarks hservice htold
  subst hpipeline hmarks hservice htold
  exact ⟨h.wired, h.sound, h.length, h.intCnt, h.word, h.bounded, h.told, h.frozen, h.marked⟩

/-- `main` sets flags and waits. -/
theorem mainStep_same (hstep : s.mainStep = some s') : s.SamePipeline s' := by
  unfold mainStep at hstep
  split at hstep
  · cases hstep
    exact ⟨rfl, rfl, rfl, rfl⟩
  · split at hstep <;> cases hstep <;> exact ⟨rfl, rfl, rfl, rfl⟩
  · cases hstep
    exact ⟨rfl, rfl, rfl, rfl⟩
  · split at hstep
    · simp only [Option.ite_none_right_eq_some, Option.some.injEq] at hstep
      obtain ⟨-, rfl⟩ := hstep
      exact ⟨rfl, rfl, rfl, rfl⟩
    · cases hstep
      exact ⟨rfl, rfl, rfl, rfl⟩
  · simp only [Option.ite_none_right_eq_some, Option.some.injEq] at hstep
    obtain ⟨-, rfl⟩ := hstep
    exact ⟨rfl, rfl, rfl, rfl⟩
  · simp only [Option.ite_none_right_eq_some, Option.some.injEq] at hstep
    obtain ⟨-, rfl⟩ := hstep
    exact ⟨rfl, rfl, rfl, rfl⟩
  · cases hstep

/-- The dispatcher waits. -/
theorem dispatcherStep_same (hstep : s.dispatcherStep = some s') : s.SamePipeline s' := by
  unfold dispatcherStep at hstep
  split at hstep
  · simp only [Option.ite_none_right_eq_some, Option.some.injEq] at hstep
    obtain ⟨-, rfl⟩ := hstep
    exact ⟨rfl, rfl, rfl, rfl⟩
  · simp only [Option.ite_none_right_eq_some, Option.some.injEq] at hstep
    obtain ⟨-, rfl⟩ := hstep
    exact ⟨rfl, rfl, rfl, rfl⟩
  · cases hstep

/-- A listener that gets no connection changes nothing else. -/
theorem setListener_same (s : ShutdownSequence) (i : ℕ) (l : TCPServerListener) (pc : ListenerPc) :
    s.SamePipeline (s.setListener i l pc) := ⟨rfl, rfl, rfl, rfl⟩

/-- A client that is accepted has nothing to do with those that were told. -/
theorem Orderly.listener (h : s.Orderly) {i : ℕ} {result : PollResult}
    (hstep : s.listenerStep env i result = some s') (hfew : s'.pipeline.shared.FewHandlers) :
    s'.Orderly := by
  simp only [listenerStep, Option.bind_eq_some_iff] at hstep
  obtain ⟨l, hl, hstep⟩ := hstep
  split at hstep
  · cases hstep
    exact h.same (setListener_same s i l _)
  · split at hstep
    · cases hstep
      exact h.same (setListener_same s i l _)
    · cases hstep
      exact h.same (setListener_same s i l _)
    · rename_i fd
      simp only [Option.ite_none_left_eq_some, Option.map_eq_some_iff, Bool.not_eq_true] at hstep
      obtain ⟨hlock, next, hnext, rfl⟩ := hstep
      obtain ⟨hwired, hsound⟩ := h.pipeline hnext hfew
      have hhandles := HelperPipeline.handles_accept hnext
      have htasks : next.tasks = ⟨s.pipeline.shared.handlerIdCounter + 1, .result,
          .accepted (s.pipeline.shared.handlerIdCounter + 1)⟩ :: s.pipeline.tasks := by
        simp only [HelperPipeline.step, Option.ite_none_right_eq_some, Option.some.injEq] at hnext
        obtain ⟨-, rfl⟩ := hnext
        rfl
      refine ⟨hwired, hsound, ?_, fun k => hhandles.intCnt k (h.intCnt k),
        fun k => hhandles.word k (h.word k),
        fun id hid => Nat.le_trans (h.bounded id hid) hhandles.counter,
        fun left hleft id hid side => h.told_of_handles hhandles left hleft id hid side,
        fun hholds => ?_, fun p hp => ?_⟩
      · dsimp only
        rw [htasks, List.length_cons, List.length_cons, h.length]
      · change s.service.holdsLock = true at hholds
        rw [hlock] at hholds
        cases hholds
      · change p ∈ next.tasks.zip (.fresh :: s.marks) at hp
        rw [htasks, List.zip_cons_cons] at hp
        rcases List.mem_cons.mp hp with rfl | hold
        · exact JobMark.untouched_fresh
        · exact h.marked p hold
  · split at hstep
    · cases hstep
    · cases hstep
      exact h.same (setListener_same s i l _)
  · cases hstep

/-- An event is passed on. -/
theorem Orderly.notice (h : s.Orderly) {key : HelperKey} {n : Notice} {next : HelperPipeline}
    (hservice : s.service = .serving) (hnext : s.pipeline.step env (.notice key n) = some next)
    (hfew : next.shared.FewHandlers) : Orderly { s with pipeline := next } := by
  obtain ⟨hwired, hsound⟩ := h.pipeline hnext hfew
  cases hnext
  refine ⟨hwired, hsound, h.length, fun k => ?_, fun k => ?_, h.bounded, fun left hleft => ?_,
    h.frozen, h.marked⟩
  · dsimp only
    by_cases hk : k = key
    · rw [hk, Function.update_self, TCPCommHelper.notify_intCnt]
      exact h.intCnt key
    · rw [Function.update_of_ne hk]
      exact h.intCnt k
  · dsimp only
    by_cases hk : k = key
    · rw [hk, Function.update_self]
      exact TransferCall.notify_word (h.word key) n
    · rw [Function.update_of_ne hk]
      exact h.word k
  · dsimp only at hleft
    rw [hservice] at hleft
    cases hleft

/-- A handler is in the list of those that are registered. -/
theorem mem_registered (h : s.Orderly) {id : ℕ} :
    id ∈ s.registered ↔ s.pipeline.shared.isRegistered id = true := by
  rw [registered, List.mem_filter, List.mem_range, Nat.lt_succ_iff]
  refine and_iff_right_of_imp fun hid => ?_
  obtain ⟨fd, hfd⟩ := Shared.live_iff.mp hid
  exact h.sound.shared.registered id fd hfd

/-- The service finds all handlers that are registered. -/
theorem Orderly.broadcast (h : s.Orderly) {order : List ℕ} (hservice : s.service = .serving)
    (horder : order.Perm s.registered) :
    Orderly { s with service := .cancelling (order.flatMap bothSides), told := order } := by
  have hmem (id : ℕ) (hid : s.pipeline.shared.isRegistered id = true) : id ∈ order :=
    horder.mem_iff.mpr ((mem_registered h).mpr hid)
  refine ⟨h.wired, h.sound, h.length, h.intCnt, h.word, fun id hid => ?_, ?_, fun _ => hmem,
    fun p hp => ?_⟩
  · obtain ⟨fd, hfd⟩ := Shared.live_iff.mp ((mem_registered h).mp (horder.mem_iff.mp hid))
    exact h.sound.shared.registered id fd hfd
  · intro left hleft id hid side
    cases hleft
    left
    apply List.mem_flatMap.mpr
    refine ⟨id, hid, ?_⟩
    cases side with
    | reader => exact List.mem_cons_self
    | writer => exact List.mem_cons_of_mem _ List.mem_cons_self
  · refine (h.marked p hp).begin (fun hx => ?_) (fun hx => nomatch hx) ?_
    · rw [hservice] at hx
      cases hx
    · intro state reader writer t htask _ _
      exact .inr (.inl (hmem _ (h.registered (List.of_mem_zip hp).1 htask).1))

/-- One helper more is cancelled, or the service is done. -/
theorem Orderly.serviceStep (h : s.Orderly) (hstep : s.serviceStep env = some s')
    (hfew : s'.pipeline.shared.FewHandlers) : s'.Orderly := by
  unfold ShutdownSequence.serviceStep at hstep
  split at hstep
  · rename_i key left hservice
    obtain ⟨next, hnext, rfl⟩ := Option.map_eq_some_iff.mp hstep
    obtain ⟨hwired, hsound⟩ := h.pipeline hnext hfew
    cases hnext
    have htold := h.told (key :: left) (by rw [hservice]; rfl)
    refine ⟨hwired, hsound, h.length, fun k => ?_, fun k => ?_, h.bounded,
      fun left' hleft' id hid side => ?_, fun _ => h.frozen (by rw [hservice]; rfl),
      fun p hp => ?_⟩
    · dsimp only
      by_cases hk : k = key
      · rw [hk, Function.update_self, TCPCommHelper.notify_intCnt]
        exact h.intCnt key
      · rw [Function.update_of_ne hk]
        exact h.intCnt k
    · dsimp only
      by_cases hk : k = key
      · rw [hk, Function.update_self]
        exact TransferCall.notify_word (h.word key) .cancel
      · rw [Function.update_of_ne hk]
        exact h.word k
    · cases hleft'
      dsimp only
      by_cases hk : (id, side) = key
      · rw [hk, Function.update_self]
        exact .inr (TCPCommHelper.cancel_extCnt (h.word key))
      · rw [Function.update_of_ne hk]
        refine (htold id hid side).imp_left fun hmem => ?_
        exact (List.mem_cons.mp hmem).resolve_left hk
    · refine (h.marked p hp).begin (fun hx => ?_) (fun hx => nomatch hx) ?_
      · rw [hservice] at hx
        cases hx
      · intro state reader writer t htask hc _
        have hmarked := h.marked p hp
        rw [htask] at hmarked
        exact Tunnel.Marked.reached hmarked hc (by rw [hservice]; rfl)
  · rename_i hservice
    cases hstep
    refine ⟨h.wired, h.sound, h.length, h.intCnt, h.word, h.bounded, fun left hleft => ?_,
      fun hlock => (nomatch hlock), fun p hp => ?_⟩
    · cases hleft
      exact h.told [] (by rw [hservice]; rfl)
    · have hmarked := h.marked p hp
      have hbefore : s.service ≠ .terminated := by
        rw [hservice]
        exact fun hx => nomatch hx
      generalize p.1.task = task at hmarked
      cases task with
      | accepted id => exact hmarked
      | result r => exact hmarked
      | program q held => exact hmarked
      | copying state reader writer t =>
        have huntouched := Tunnel.Marked.untouched hmarked fun hover => hbefore hover.1
        exact ⟨Tunnel.Marked.cancel hmarked, Tunnel.Marked.loaded hmarked,
          fun hc _ => Tunnel.Marked.reached hmarked hc (by rw [hservice]; rfl),
          fun _ _ => TunnelPc.winds_of_zero huntouched.statements huntouched.reads
            huntouched.writes, fun _ => huntouched⟩
  · cases hstep

/-- Without a broadcast nobody is told. -/
theorem Orderly.fails (h : s.Orderly) (hservice : s.service = .serving) :
    Orderly { s with service := .failed } := by
  refine ⟨h.wired, h.sound, h.length, h.intCnt, h.word, h.bounded, fun left hleft => (nomatch hleft),
    fun hlock => (nomatch hlock), fun p hp => ?_⟩
  refine (h.marked p hp).begin (fun hx => ?_) (fun hx => nomatch hx)
    fun _ _ _ _ _ _ hleft => nomatch hleft
  rw [hservice] at hx
  cases hx

/-- The task makes a move, and its mark with it. -/
theorem Orderly.replace (h : s.Orderly) (m' : JobMark) {i : ℕ} {tr : Tracked} {m : JobMark}
    {news : List Tracked} {marks : List JobMark} {next : HelperPipeline}
    (hi : s.pipeline.tasks[i]? = some tr) (hm : s.marks[i]? = some m)
    (hwired : next.Wired) (hsound : next.split.Sound) (hhandles : s.pipeline.Handles next)
    (hregistry : s.service.holdsLock = true →
      next.shared.commHandlers = s.pipeline.shared.commHandlers)
    (htasks : next.tasks = replaceAt s.pipeline.tasks i news)
    (hmarks : marks = replaceAt s.marks i (List.replicate news.length m'))
    (hnews : ∀ u ∈ news, u.task.Marked s.service s.told m') :
    Orderly { s with pipeline := next, marks := marks } := by
  refine ⟨hwired, hsound, ?_, fun k => hhandles.intCnt k (h.intCnt k),
    fun k => hhandles.word k (h.word k),
    fun id hid => Nat.le_trans (h.bounded id hid) hhandles.counter,
    fun left hleft id hid side => h.told_of_handles hhandles left hleft id hid side,
    fun hlock id hid => ?_, fun p hp => ?_⟩
  · have hold := length_replaceAt hi news
    have hnew := length_replaceAt hm (List.replicate news.length m')
    rw [List.length_replicate] at hnew
    dsimp only
    rw [htasks, hmarks]
    have hlength := h.length
    omega
  · apply h.frozen hlock
    change (next.shared.commHandlers id).isSome = true at hid
    rw [hregistry hlock] at hid
    exact hid
  · change p ∈ next.tasks.zip marks at hp
    rw [htasks, hmarks, zip_replaceAt h.length (by rw [List.length_replicate])] at hp
    rcases mem_of_mem_replaceAt hp with hold | hnew
    · exact h.marked p hold
    · obtain ⟨htask, hmark⟩ := List.of_mem_zip hnew
      rw [List.eq_of_mem_replicate hmark]
      exact hnews p.1 htask

/-- A move of a task keeps everything in order. -/
theorem Orderly.task (h : s.Orderly) {i : ℕ}
    (hstep : s.taskStep env i move status intCnt = some s')
    (hfew : s'.pipeline.shared.FewHandlers) : s'.Orderly := by
  simp only [taskStep, Option.bind_eq_some_iff, Option.ite_none_right_eq_some,
    Option.map_eq_some_iff] at hstep
  obtain ⟨tr, hi, m, hm, ⟨hpermits, hint⟩, next, hnext, rfl⟩ := hstep
  obtain ⟨hwired, hsound⟩ := h.pipeline hnext hfew
  have hhandles := HelperPipeline.handles_task h.wired hint hnext
  simp only [HelperPipeline.step, Option.bind_eq_some_iff] at hnext
  obtain ⟨tr', hi', hnext⟩ := hnext
  obtain rfl : tr = tr' := Option.some.inj (hi.symm.trans hi')
  split at hnext
  · cases hnext
  · rename_i hnotice
    obtain ⟨after, hafter, rfl⟩ := Option.map_eq_some_iff.mp hnext
    have hlength := length_replaceAt hi (tr.successors env move after.2.1)
    refine h.replace (m.after (s.service = .terminated) tr.task move) hi hm hwired hsound hhandles
      (fun hlock => ?_) rfl ?_ ?_
    · refine Task.step_commHandlers hafter (fun e fd hmove => ?_) hfew
      rw [Task.viewMove_call hmove] at hpermits
      simpa [permits, hlock] using hpermits
    · dsimp only
      congr 2
      omega
    · apply Tracked.marked_successors (h.marked (tr, m) ?_) ?_ h.intCnt (Bool.not_eq_true _ ▸ hnotice)
      · rintro rfl
        cases hpermits
      · rintro t rfl
        simpa [permits] using hpermits
      · exact hafter
      · exact List.mem_of_getElem? (List.getElem?_zip_eq_some.mpr ⟨hi, hm⟩)
      · intro hservice id hid side
        have htold := h.told [] (by rw [hservice]; rfl) id hid side
        exact htold.resolve_left (List.not_mem_nil)

/-- The dispatcher cancels no tunnel that has missed the broadcast. -/
def CancelsTold (s : ShutdownSequence) : ShutdownAction → Prop
  | .cancelJob i => s.service = .terminated →
      (s.pipeline.tasks[i]?.any fun tr => tr.task.hasMissed s.told) = false
  | _ => True

instance : ∀ (s : ShutdownSequence) (a : ShutdownAction), Decidable (s.CancelsTold a)
  | s, .cancelJob i => inferInstanceAs (Decidable (s.service = .terminated →
      (s.pipeline.tasks[i]?.any fun tr => tr.task.hasMissed s.told) = false))
  | _, .main | _, .listener _ _ | _, .notice _ _ | _, .broadcast _ | _, .service
  | _, .serviceFails | _, .dispatcher | _, .task _ _ _ _ => isTrue trivial

/-- The flag of a job is set. -/
theorem Orderly.cancel (h : s.Orderly) {i : ℕ} (hmeets : s.CancelsTold (.cancelJob i))
    (hstep : s.cancelJob env i = some s') (hfew : s'.pipeline.shared.FewHandlers) : s'.Orderly := by
  simp only [cancelJob, Option.bind_eq_some_iff, Option.map_eq_some_iff] at hstep
  obtain ⟨tr, hi, m, hm, next, hnext, rfl⟩ := hstep
  have hmarked : tr.task.Marked s.service s.told m :=
    h.marked (tr, m) (List.mem_of_getElem? (List.getElem?_zip_eq_some.mpr ⟨hi, hm⟩))
  have hmarks : s.marks.set i { m with cancelled := true } =
      replaceAt s.marks i [{ m with cancelled := true }] := set_eq_replaceAt hm _
  have hsettled (state : State) (reader writer : ℕ) (t : Tunnel)
      (htask : tr.task = .copying state reader writer t) (hleft : s.service.left.isSome = true) :
      t.pc.isSettled = true ∨ reader ∈ s.told ∨ writer ∈ s.told := by
    have hregistered := h.registered (List.mem_of_getElem? hi) htask
    cases hservice : s.service with
    | serving | failed =>
      rw [hservice] at hleft
      cases hleft
    | cancelling left =>
      exact .inr (.inl (h.frozen (by rw [hservice]; rfl) reader hregistered.1))
    | terminated =>
      have hnot := hmeets hservice
      rw [hi, Option.any_some, htask] at hnot
      simpa [Task.hasMissed, or_assoc, Classical.or_iff_not_imp_left] using hnot
  split at hnext
  · rename_i j targets state reader writer t hrole htask
    obtain ⟨hwired, hsound⟩ := h.pipeline hnext hfew
    have hhandles := HelperPipeline.handles_task h.wired (by decide) hnext
    simp only [HelperPipeline.step, hi, Option.bind_some, TaskMove.isNotice, htask,
      Bool.false_eq_true, if_false, Task.view, Task.viewMove, Task.step, Tunnel.step,
      Option.map_some, Option.some.injEq] at hnext
    subst hnext
    have hspawn (w : ℕ) : TaskMove.copy .cancel ≠ .spawn w := by
      intro hx
      cases hx
    rw [htask] at hmarked
    have hloaded : t.pc.Loaded := Tunnel.Marked.loaded hmarked
    refine h.replace { m with cancelled := true } hi hm hwired hsound hhandles (fun _ => rfl) rfl
      (by rw [Tracked.successors_eq hspawn]; exact hmarks) ?_
    intro u hu
    rw [Tracked.successors_eq hspawn, List.map_singleton, List.mem_singleton] at hu
    subst hu
    refine ⟨rfl, hloaded, fun _ hleft => hsettled state reader writer t htask hleft,
      fun hover _ => ?_, fun hnot => ?_⟩
    · by_cases hc : m.cancelled = true
      · have hsame : { m with cancelled := true } = m := by rw [← hc]
        have hwinds : t.pc.Winds (reader ∈ s.told) m := Tunnel.Marked.winds hmarked hover hc
        rw [hsame]
        exact hwinds
      · have huntouched := Tunnel.Marked.untouched hmarked fun hx => hc hx.2
        exact TunnelPc.winds_of_zero huntouched.statements huntouched.reads huntouched.writes
    · have huntouched := Tunnel.Marked.untouched hmarked fun hx => hnot ⟨hx.1, rfl⟩
      exact ⟨huntouched.statements, huntouched.reads, huntouched.writes⟩
  · rename_i j targets hrole hnone
    cases hnext
    refine h.replace { m with cancelled := true } hi hm h.wired h.sound
      (.of_drives (Nat.le_refl _) fun k => .inl (.refl _)) (fun _ => rfl) (replaceAt_self hi).symm
      hmarks ?_
    intro u hu
    rw [List.mem_singleton.mp hu]
    cases htask : tr.task with
    | accepted | result =>
      rw [htask] at hmarked
      exact ⟨hmarked.statements, hmarked.reads, hmarked.writes⟩
    | program p held =>
      rw [htask] at hmarked
      exact ⟨⟨hmarked.1.statements, hmarked.1.reads, hmarked.1.writes⟩,
        hmarked.2.imp_left fun hx => ⟨hx.statements, hx.reads, hx.writes⟩⟩
    | copying state reader writer t => exact (hnone state reader writer t htask).elim
  · cases hnext

/-- The pipeline makes one step, or none. -/
theorem step_pipeline {a : ShutdownAction} (hstep : s.step env a = some s') :
    s'.pipeline = s.pipeline ∨ ∃ b, s.pipeline.step env b = some s'.pipeline := by
  cases a with
  | main => exact .inl (mainStep_same hstep).pipeline
  | dispatcher => exact .inl (dispatcherStep_same hstep).pipeline
  | listener i result =>
    simp only [ShutdownSequence.step, listenerStep, Option.bind_eq_some_iff] at hstep
    obtain ⟨l, -, hstep⟩ := hstep
    split at hstep
    · cases hstep
      exact .inl rfl
    · split at hstep
      · cases hstep
        exact .inl rfl
      · cases hstep
        exact .inl rfl
      · simp only [Option.ite_none_left_eq_some, Option.map_eq_some_iff] at hstep
        obtain ⟨-, next, hnext, rfl⟩ := hstep
        exact .inr ⟨_, hnext⟩
    · simp only [Option.ite_none_left_eq_some, Option.some.injEq] at hstep
      obtain ⟨-, rfl⟩ := hstep
      exact .inl rfl
    · cases hstep
  | notice key n =>
    simp only [ShutdownSequence.step, Option.ite_none_right_eq_some, Option.map_eq_some_iff] at hstep
    obtain ⟨-, next, hnext, rfl⟩ := hstep
    exact .inr ⟨_, hnext⟩
  | broadcast | serviceFails =>
    simp only [ShutdownSequence.step, Option.ite_none_right_eq_some, Option.some.injEq] at hstep
    obtain ⟨-, rfl⟩ := hstep
    exact .inl rfl
  | service =>
    simp only [ShutdownSequence.step, serviceStep] at hstep
    split at hstep
    · obtain ⟨next, hnext, rfl⟩ := Option.map_eq_some_iff.mp hstep
      exact .inr ⟨_, hnext⟩
    · cases hstep
      exact .inl rfl
    · cases hstep
  | cancelJob i =>
    simp only [ShutdownSequence.step, cancelJob, Option.ite_none_right_eq_some,
      Option.bind_eq_some_iff, Option.map_eq_some_iff] at hstep
    obtain ⟨-, tr, -, m, -, next, hnext, rfl⟩ := hstep
    split at hnext
    · exact .inr ⟨_, hnext⟩
    · cases hnext
      exact .inl rfl
    · cases hnext
  | task i move status intCnt =>
    simp only [ShutdownSequence.step, taskStep, Option.bind_eq_some_iff,
      Option.ite_none_right_eq_some, Option.map_eq_some_iff] at hstep
    obtain ⟨tr, -, m, -, -, next, hnext, rfl⟩ := hstep
    exact .inr ⟨_, hnext⟩

/-- There have been few handlers if there are few after one more step. -/
theorem few_of_step (s : ShutdownSequence) (a : ShutdownAction) (s' : ShutdownSequence)
    (hstep : s.step env a = some s') (hfew : s'.pipeline.shared.FewHandlers) : s.pipeline.shared.FewHandlers := by
  rcases step_pipeline hstep with hsame | ⟨b, hb⟩
  · rw [hsame] at hfew
    exact hfew
  · exact HelperPipeline.few_of_step hb hfew

/-- Every step that cancels no tunnel which has missed the broadcast keeps everything in order, as long
as there are few handlers. -/
theorem Orderly.step (h : s.Orderly) {a : ShutdownAction} (hmeets : s.CancelsTold a)
    (hstep : s.step env a = some s') (hfew : s'.pipeline.shared.FewHandlers) : s'.Orderly := by
  cases a with
  | main => exact h.same (mainStep_same hstep)
  | listener i result => exact h.listener hstep hfew
  | notice key n =>
    simp only [ShutdownSequence.step, Option.ite_none_right_eq_some, Option.map_eq_some_iff] at hstep
    obtain ⟨⟨hservice, -⟩, next, hnext, rfl⟩ := hstep
    exact h.notice hservice hnext hfew
  | broadcast order =>
    simp only [ShutdownSequence.step, Option.ite_none_right_eq_some, Option.some.injEq] at hstep
    obtain ⟨⟨hservice, -, horder⟩, rfl⟩ := hstep
    exact h.broadcast hservice horder
  | service => exact h.serviceStep hstep hfew
  | serviceFails =>
    simp only [ShutdownSequence.step, Option.ite_none_right_eq_some, Option.some.injEq] at hstep
    obtain ⟨hservice, rfl⟩ := hstep
    exact h.fails hservice
  | dispatcher => exact h.same (dispatcherStep_same hstep)
  | cancelJob i =>
    simp only [ShutdownSequence.step, Option.ite_none_right_eq_some] at hstep
    exact h.cancel hmeets hstep.2 hfew
  | task i move status intCnt => exact h.task hstep hfew

/-- Once the service has finished its broadcast and the dispatcher has cancelled a job, the job starts
at most one more call of `Transfer` on each side and makes at most six more statements in its main
loop, provided that no tunnel is cancelled in the middle of a round that has missed the broadcast, and
that no handler has the number of an error. -/
theorem shutdown_stops_tunnels (env : Settings) (openFds : Int → Bool) (listeners : ℕ)
    (actions : List ShutdownAction) (s : ShutdownSequence)
    (hmeets : RunMeets (step env) CancelsTold (initial openFds listeners) actions)
    (hrun : runActions (step env) (initial openFds listeners) actions = some s)
    (hfew : s.pipeline.shared.FewHandlers) :
    s.pipeline.tasks.length = s.marks.length ∧
      ∀ p ∈ s.jobs, p.2.reads ≤ 1 ∧ p.2.writes ≤ 1 ∧ p.2.statements ≤ 6 := by
  have h : s.Orderly := runActions_invariant_of_meets
    (fun _ _ u' hs hcond hs' => hs.step hcond.1 hs' (hcond.2 u' hs'))
    (orderly_initial openFds listeners) (hmeets.and (RunMeets.within few_of_step hrun hfew)) hrun
  refine ⟨h.length, fun p hp => ?_⟩
  obtain ⟨hstatements, hreads, hwrites⟩ := (h.marked p hp).within
  exact ⟨hreads, hwrites, hstatements⟩

/-- An action of the pipeline, with the only listener. -/
def ofDriver : DriverAction → ShutdownAction
  | .accept fd => .listener 0 (.accepted fd)
  | .notice key n => .notice key n
  | .task i move status intCnt => .task i move status intCnt

/-- The job that reads from the client makes steps in its main loop. -/
def copies (steps : List TunnelAction) : List ShutdownAction :=
  steps.map fun a => .task 1 (.copy a) 0 0

/-- It enters its main loop and reads four bytes. -/
def readsFour : List ShutdownAction :=
  [.task 1 (.call ⟨.getHandler 1, some 7⟩ 0) 0 0, .task 1 (.call ⟨.getHandler 2, some 8⟩ 0) 0 0,
    .task 1 (.enter ⟨.loop, false, 0, newTCPCommHelper 7 true, newTCPCommHelper 8 false,
      [0, 0, 0, 0], [], []⟩) 0 0] ++
    copies [.control, .control, .control, .transfer .look [], .transfer (.call 4 0) [1, 2, 3, 4],
      .transfer .settle []]

/-- A tunnel is told to stop when it is about to write. -/
def toldClient : List ShutdownAction :=
  [.listener 0 .nothing] ++ HelperPipeline.tunnelled.map ofDriver ++ readsFour ++
    [.main, .main, .main, .main, .broadcast [1, 2], .service, .service, .service, .service, .service,
      .dispatcher, .cancelJob 1] ++
    copies [.control, .transfer .look [], .control, .control]

/-- It starts one more write, and leaves its main loop. -/
theorem shutdown_stops_tunnels_told :
    ∃ s, runActions (step HelperPipeline.namedSettings) (initial Pipeline.standardFds 1) toldClient =
        some s ∧ s.marks = [⟨false, 0, 0, 0⟩, ⟨true, 3, 0, 1⟩] ∧
      s.pipeline.tasks.length = s.marks.length ∧
      ∀ p ∈ s.jobs, p.2.reads ≤ 1 ∧ p.2.writes ≤ 1 ∧ p.2.statements ≤ 6 := by
  have hshown : (runActions (step HelperPipeline.namedSettings) (initial Pipeline.standardFds 1)
      toldClient).map (fun s => (s.marks, s.pipeline.shared.handlerIdCounter)) =
        some ([⟨false, 0, 0, 0⟩, ⟨true, 3, 0, 1⟩], 2) := rfl
  obtain ⟨s, hrun, hshown⟩ := Option.map_eq_some_iff.mp hshown
  simp only [Prod.mk.injEq] at hshown
  obtain ⟨hmarks, hcounter⟩ := hshown
  have hmeets : RunMeets (step HelperPipeline.namedSettings) CancelsTold
      (initial Pipeline.standardFds 1) toldClient := by decide +kernel
  have hfew : s.pipeline.shared.FewHandlers := by
    rw [Shared.FewHandlers, hcounter]
    decide
  exact ⟨s, hrun, hmarks,
    shutdown_stops_tunnels HelperPipeline.namedSettings Pipeline.standardFds 1 toldClient s hmeets
      hrun hfew⟩

/-- A listener that has seen a connection before it was asked to shut down accepts it behind the
broadcast, and the tunnel is told to stop when it is about to write. -/
def lateClient : List ShutdownAction :=
  [.listener 0 .nothing, .main, .main, .main, .broadcast [], .service] ++
    HelperPipeline.tunnelled.map ofDriver ++ readsFour ++ [.main, .dispatcher, .cancelJob 1]

/-- The target accepts nothing. -/
def acceptsNothing : List TunnelAction :=
  [.control, .transfer .look [], .transfer (.call (-1) eagain) [], .transfer .settle [],
    .transfer .look [], .transfer .timeout [], .control] ++ writeRound ++ writeRound

/-- The service is done and the job is cancelled, and it has started a third write since. -/
theorem late_tunnel_writes_on :
    ∃ s, runActions (step HelperPipeline.namedSettings) (initial Pipeline.standardFds 1)
        (lateClient ++ copies acceptsNothing) = some s ∧
      s.service = .terminated ∧ ∃ p ∈ s.jobs, p.2.cancelled = true ∧ 1 < p.2.writes := by
  have hshown : (runActions (step HelperPipeline.namedSettings) (initial Pipeline.standardFds 1)
      (lateClient ++ copies acceptsNothing)).map
        (fun s => (s.service, s.jobs.map Prod.snd)) =
          some (.terminated, [⟨false, 0, 0, 0⟩, ⟨true, 6, 0, 3⟩]) := rfl
  obtain ⟨s, hrun, hshown⟩ := Option.map_eq_some_iff.mp hshown
  simp only [Prod.mk.injEq] at hshown
  obtain ⟨hservice, hmarks⟩ := hshown
  have hmem : (⟨true, 6, 0, 3⟩ : JobMark) ∈ s.jobs.map Prod.snd := by
    rw [hmarks]
    decide
  obtain ⟨p, hp, hmark⟩ := List.mem_map.mp hmem
  refine ⟨s, hrun, hservice, p, hp, ?_, ?_⟩
  · rw [hmark]
  · rw [hmark]
    decide

end ShutdownSequence

end TinySox
