import TinySox.Common.ThreadPool
import TinySox.MessageBroker

/-!
# The two builds of the message broker

What a thread will show is fixed by its tree: each send is delivered to the subscribers that are
ready, with all that they send meanwhile, and the debug build drops a send whose source is already
sending on this thread. Whatever the interleaving, the trace of a thread and what its stack has still
to show are together what the tree says. So where no source sends again, the builds show the same.
-/

namespace TinySox

open TinySox.Common

variable {Subscriber Source Payload : Type}

section Tree

/-- What is shown for these subscribers, if each one then shows this. -/
def Subscribers.visits (env : Subscribers Subscriber) (source : Source) (message : IMessage Payload)
    (handled : Subscriber → List (BrokerEvent Subscriber Source Payload)) (subscribers : List Subscriber) :
    List (BrokerEvent Subscriber Source Payload) :=
  subscribers.flatMap fun subscriber =>
    if env.readyForMessage subscriber message.msgType then
      .onMessage subscriber source message :: handled subscriber
    else []

variable [DecidableEq Source] (env : Subscribers Subscriber)

namespace Sends

/-- What a build shows of the tree, while these sources are sending. -/
def events (build : Build) : List Source → Sends Subscriber Source Payload →
    List (BrokerEvent Subscriber Source Payload)
  | _, .done => []
  | active, .send source message onMessage next =>
    (if build = .debug ∧ source ∈ active then [.recursionDetected source message]
      else env.visits source message
        (fun subscriber => (onMessage subscriber).events build (source :: active)) env.subscribers) ++
    next.events build active

/-- No source sends again while it is sending. -/
def NoReentry : List Source → Sends Subscriber Source Payload → Prop
  | _, .done => True
  | active, .send source message onMessage next =>
    source ∉ active ∧
    (∀ subscriber ∈ env.subscribers, env.readyForMessage subscriber message.msgType = true →
      (onMessage subscriber).NoReentry (source :: active)) ∧
    next.NoReentry active

/-- How many steps a thread can make with the tree, at most. -/
def work : Sends Subscriber Source Payload → ℕ
  | .done => 0
  | .send _ _ onMessage next =>
    8 + (env.subscribers.map fun subscriber => 1 + (onMessage subscriber).work).sum + next.work

variable {env} {build : Build} {active : List Source}

/-- The sends of a piece of code are shown one after another. -/
theorem events_send (source : Source) (message : IMessage Payload)
    (onMessage : Subscriber → Sends Subscriber Source Payload) (next : Sends Subscriber Source Payload) :
    (send source message onMessage next).events env build active =
      (send source message onMessage done).events env build active ++ next.events env build active := by
  rw [events, events, events, List.append_nil]

/-- Where no source sends again, the debug build shows what the release build shows. -/
theorem events_of_noReentry {sends : Sends Subscriber Source Payload} (h : sends.NoReentry env active) :
    sends.events env .debug active = sends.events env .release active := by
  induction sends generalizing active with
  | done => rfl
  | send source message onMessage next ihHandled ihNext =>
    obtain ⟨hnew, hhandled, hnext⟩ := h
    have hvisits : ∀ subscriber ∈ env.subscribers,
        (if env.readyForMessage subscriber message.msgType then
          BrokerEvent.onMessage subscriber source message ::
            (onMessage subscriber).events env .debug (source :: active)
        else []) =
        if env.readyForMessage subscriber message.msgType then
          BrokerEvent.onMessage subscriber source message ::
            (onMessage subscriber).events env .release (source :: active)
        else [] := by
      intro subscriber hmem
      split_ifs with hready
      · rw [ihHandled subscriber (hhandled subscriber hmem hready)]
      · rfl
    rw [events, events, if_neg (fun hagain => hnew hagain.2), if_neg (fun hno => nomatch hno.1),
      ihNext hnext]
    exact congrArg (· ++ _) (List.flatMap_congr hvisits)

example : (Sends.send 0 ⟨.shutdown, ()⟩ (fun _ => .send 0 ⟨.startupReady, ()⟩ (fun _ => .done) .done)
    .done : Sends ℕ ℕ Unit).events ⟨[1], fun _ _ => true⟩ .debug [] =
    [.onMessage 1 0 ⟨.shutdown, ()⟩, .recursionDetected 0 ⟨.startupReady, ()⟩] := by decide

end Sends

end Tree

namespace SendPc

/-- The call holds `opLock`. -/
def inside : SendPc → Bool
  | enter | enterUnlock _ | finish | finishUnlock => true
  | _ => false

/-- The call has entered its source and has not erased it. -/
def unfinished : SendPc → Bool
  | enterUnlock false | deliver | finishLock | finish => true
  | _ => false

/-- The call has left the loop, in the debug build. -/
def finishes : SendPc → Bool
  | finishLock | finish | finishUnlock => true
  | _ => false

/-- How many steps the call itself has still to make, at most. -/
def left : SendPc → ℕ
  | lock => 7
  | enter => 6
  | enterUnlock _ => 5
  | deliver => 4
  | finishLock => 3
  | finish => 2
  | finishUnlock => 1

end SendPc

/-- The sources of the unfinished sends. -/
def unfinished : List (SendFrame Subscriber Source Payload) → List Source
  | [] => []
  | f :: below => if f.pc.unfinished then f.source :: unfinished below else unfinished below

/-- If nobody below is sending, there is nobody below. -/
theorem below_nil {below : List (SendFrame Subscriber Source Payload)}
    (hbelow : ∀ g ∈ below, g.pc = .deliver) (hnone : unfinished below = []) : below = [] := by
  cases below with
  | nil => rfl
  | cons g below =>
    rw [unfinished, hbelow g List.mem_cons_self] at hnone
    contradiction

section Rest

variable [DecidableEq Source] (env : Subscribers Subscriber) (build : Build)

/-- What a call has still to show, while these sources are sending below. -/
def SendFrame.rest (active : List Source) (f : SendFrame Subscriber Source Payload) :
    List (BrokerEvent Subscriber Source Payload) :=
  match f.pc with
  | .lock | .enter => (Sends.send f.source f.message f.onMessage .done).events env build active
  | .enterUnlock false | .deliver =>
    f.running.events env build (f.source :: active) ++
      env.visits f.source f.message
        (fun subscriber => (f.onMessage subscriber).events env build (f.source :: active))
        f.curSubscribers
  | _ => []

/-- What the calls of a thread have still to show. -/
def stackRest : List (SendFrame Subscriber Source Payload) → List (BrokerEvent Subscriber Source Payload)
  | [] => []
  | f :: below => f.rest env build (unfinished below) ++ stackRest below

/-- What a thread has still to show. -/
def SendThread.rest (thread : SendThread Subscriber Source Payload) :
    List (BrokerEvent Subscriber Source Payload) :=
  stackRest env build thread.stack ++ thread.code.events env build []

/-- How many steps a call can still make. -/
def SendFrame.work (f : SendFrame Subscriber Source Payload) : ℕ :=
  f.pc.left + f.running.work env +
    match f.pc with
    | .lock | .enter => (env.subscribers.map fun subscriber => 1 + (f.onMessage subscriber).work env).sum
    | .enterUnlock false | .deliver =>
      (f.curSubscribers.map fun subscriber => 1 + (f.onMessage subscriber).work env).sum
    | _ => 0

/-- How many steps a thread can still make. -/
def SendThread.work (thread : SendThread Subscriber Source Payload) : ℕ :=
  (thread.stack.map (SendFrame.work env)).sum + thread.code.work env

end Rest

/-- What holds of a call wherever it is on the stack. -/
structure SendFrame.Legal (build : Build) (f : SendFrame Subscriber Source Payload) : Prop where
  finishes : f.pc.finishes = true → build = .debug
  fresh : f.pc = .lock ∨ f.pc = .enter → f.running = .done

/-- A call in its loop is legal in both builds. -/
theorem SendFrame.legal_of_deliver {build : Build} {f : SendFrame Subscriber Source Payload}
    (hf : f.pc = .deliver) : f.Legal build := by
  constructor
  · rw [hf]
    exact fun hno => nomatch hno
  · rw [hf]
    exact fun hno => hno.elim nofun nofun

/-- The thread holds `opLock`. -/
def SendThread.inside (thread : SendThread Subscriber Source Payload) : Bool :=
  match thread.stack with
  | [] => false
  | f :: _ => f.pc.inside

/-- A thread whose calls are all in their loops does not hold it. -/
theorem SendThread.inside_of_deliver {stack : List (SendFrame Subscriber Source Payload)}
    (hstack : ∀ f ∈ stack, f.pc = .deliver) (code : Sends Subscriber Source Payload)
    (trace : List (BrokerEvent Subscriber Source Payload)) :
    (⟨code, stack, trace⟩ : SendThread Subscriber Source Payload).inside = false := by
  cases stack with
  | nil => rfl
  | cons f below =>
    change f.pc.inside = false
    rw [hstack f List.mem_cons_self]
    rfl

namespace MessageBroker

variable [DecidableEq Source]

/-- The table agrees with the calls of a thread. All of them share the set of the outermost one. -/
structure Table (s : MessageBroker Subscriber Source Payload) (t : ℕ)
    (stack : List (SendFrame Subscriber Source Payload)) : Prop where
  callers : s.callers t = if unfinished stack = [] then none else some ⟨t, 0⟩
  senders : stack ≠ [] → s.newSenders ⟨t, 0⟩ = some (unfinished stack).toFinset
  distinct : (unfinished stack).Nodup
  pointers : ∀ f ∈ stack, f.pc.unfinished = true → f.curSenders = some ⟨t, 0⟩
  checked : ∀ f below recursion, stack = f :: below → f.pc = .enterUnlock recursion →
    (recursion = true ↔ f.source ∈ unfinished below)

/-- A thread is as it should be. -/
structure ThreadSound (s : MessageBroker Subscriber Source Payload) (build : Build) (t : ℕ)
    (thread : SendThread Subscriber Source Payload) : Prop where
  below : ∀ f ∈ thread.stack.tail, f.pc = .deliver
  legal : ∀ f ∈ thread.stack, f.Legal build
  table : build = .debug → s.Table t thread.stack

/-- What one step of a thread does. -/
structure Advances (env : Subscribers Subscriber) (build : Build)
    (s : MessageBroker Subscriber Source Payload) (t : ℕ) (thread : SendThread Subscriber Source Payload)
    (s' : MessageBroker Subscriber Source Payload) (thread' : SendThread Subscriber Source Payload) :
    Prop where
  threads : s'.threads = s.threads.set t thread'
  lock : LockMove thread.inside thread'.inside s.opLock t s'.opLock
  callers : ∀ u ≠ t, s'.callers u = s.callers u
  senders : ∀ u ≠ t, s'.newSenders ⟨u, 0⟩ = s.newSenders ⟨u, 0⟩
  shown : thread'.trace ++ thread'.rest env build = thread.trace ++ thread.rest env build
  work : thread'.work env < thread.work env
  sound : s'.ThreadSound build t thread'

section Stack

variable {s s' : MessageBroker Subscriber Source Payload} {t : ℕ}
  {f f' : SendFrame Subscriber Source Payload} {below : List (SendFrame Subscriber Source Payload)}

/-- The innermost call goes on, and the table stays as it is. -/
theorem Table.top (h : s.Table t (f :: below)) (hsource : f'.source = f.source)
    (hpc : f'.pc.unfinished = f.pc.unfinished) (hcurSenders : f'.curSenders = f.curSenders)
    (hcallers : s'.callers t = s.callers t) (hsenders : s'.newSenders ⟨t, 0⟩ = s.newSenders ⟨t, 0⟩)
    (hchecked : ∀ recursion, f'.pc ≠ .enterUnlock recursion) : s'.Table t (f' :: below) := by
  have hsame : unfinished (f' :: below) = unfinished (f :: below) := by
    rw [unfinished, unfinished, hpc, hsource]
  constructor
  · rw [hcallers, hsame, h.callers]
  · intro _
    rw [hsenders, hsame, h.senders (List.cons_ne_nil _ _)]
  · rw [hsame]
    exact h.distinct
  · intro g hg hunfinished
    rcases List.mem_cons.mp hg with rfl | hg
    · rw [hcurSenders]
      exact h.pointers f List.mem_cons_self (hpc ▸ hunfinished)
    · exact h.pointers g (List.mem_cons_of_mem _ hg) hunfinished
  · intro g below' recursion hstack hg
    cases hstack
    exact absurd hg (hchecked recursion)

/-- A call begins. -/
theorem Table.push {stack : List (SendFrame Subscriber Source Payload)} (h : s.Table t stack)
    (hf : f.pc = .lock) (hcallers : s'.callers t = s.callers t)
    (hsenders : s'.newSenders = Function.update s.newSenders ⟨t, stack.length⟩ (some ∅)) :
    s'.Table t (f :: stack) := by
  have hsame : unfinished (f :: stack) = unfinished stack := by rw [unfinished, hf]; rfl
  constructor
  · rw [hcallers, hsame, h.callers]
  · intro _
    rw [hsenders, hsame]
    cases stack with
    | nil =>
      rw [List.length_nil, Function.update_self]
      rfl
    | cons g below =>
      rw [Function.update_of_ne (by simp), h.senders (List.cons_ne_nil _ _)]
  · rw [hsame]
    exact h.distinct
  · intro g hg hunfinished
    rcases List.mem_cons.mp hg with rfl | hg
    · rw [hf] at hunfinished
      contradiction
    · exact h.pointers g hg hunfinished
  · intro g below' recursion hstack hg
    cases hstack
    rw [hf] at hg
    contradiction

/-- A call that has no part in the table returns. -/
theorem Table.pop (h : s.Table t (f :: below)) (hf : f.pc.unfinished = false)
    (hbelow : ∀ g ∈ below, g.pc = .deliver) (hcallers : s'.callers t = s.callers t)
    (hsenders : s'.newSenders = Function.update s.newSenders ⟨t, below.length⟩ none) :
    s'.Table t below := by
  have hsame : unfinished (f :: below) = unfinished below := by rw [unfinished, hf]; rfl
  constructor
  · rw [hcallers, ← hsame, h.callers]
  · intro hne
    have hlength : below.length ≠ 0 := fun hno => hne (List.eq_nil_of_length_eq_zero hno)
    rw [hsenders, Function.update_of_ne (by simpa using hlength.symm), ← hsame,
      h.senders (List.cons_ne_nil _ _)]
  · rw [← hsame]
    exact h.distinct
  · exact fun g hg => h.pointers g (List.mem_cons_of_mem _ hg)
  · rintro g below' recursion rfl hg
    rw [hbelow g List.mem_cons_self] at hg
    contradiction

/-- A call enters its source. -/
theorem Table.register (h : s.Table t (f :: below)) (hf : f.pc = .enter)
    (hnew : f.source ∉ unfinished below) (hcallers : s'.callers t = some ⟨t, 0⟩)
    (hsenders : s'.newSenders ⟨t, 0⟩ = some (insert f.source (unfinished below).toFinset))
    (hsource : f'.source = f.source) (hpc : f'.pc = .enterUnlock false)
    (hcurSenders : f'.curSenders = some ⟨t, 0⟩) : s'.Table t (f' :: below) := by
  have hbefore : unfinished (f :: below) = unfinished below := by rw [unfinished, hf]; rfl
  have hafter : unfinished (f' :: below) = f.source :: unfinished below := by
    rw [unfinished, hpc, hsource]
    rfl
  constructor
  · rw [hcallers, hafter, if_neg (List.cons_ne_nil _ _)]
  · intro _
    rw [hsenders, hafter, List.toFinset_cons]
  · rw [hafter]
    exact List.nodup_cons.mpr ⟨hnew, hbefore ▸ h.distinct⟩
  · intro g hg hunfinished
    rcases List.mem_cons.mp hg with rfl | hg
    · exact hcurSenders
    · exact h.pointers g (List.mem_cons_of_mem _ hg) hunfinished
  · intro g below' recursion hstack hg
    cases hstack
    rw [hpc] at hg
    cases hg
    rw [hsource]
    exact ⟨(fun hno => nomatch hno), fun hno => absurd hno hnew⟩

/-- A call finds its source among those that are sending. -/
theorem Table.refuse (h : s.Table t (f :: below)) (hf : f.pc = .enter)
    (hagain : f.source ∈ unfinished below) (hcallers : s'.callers t = s.callers t)
    (hsenders : s'.newSenders ⟨t, 0⟩ = s.newSenders ⟨t, 0⟩) (hsource : f'.source = f.source)
    (hpc : f'.pc = .enterUnlock true) : s'.Table t (f' :: below) := by
  have hsame : unfinished (f' :: below) = unfinished (f :: below) := by
    rw [unfinished, unfinished, hf, hpc]
    rfl
  constructor
  · rw [hcallers, hsame, h.callers]
  · intro _
    rw [hsenders, hsame, h.senders (List.cons_ne_nil _ _)]
  · rw [hsame]
    exact h.distinct
  · intro g hg hunfinished
    rcases List.mem_cons.mp hg with rfl | hg
    · rw [hpc] at hunfinished
      contradiction
    · exact h.pointers g (List.mem_cons_of_mem _ hg) hunfinished
  · intro g below' recursion hstack hg
    cases hstack
    rw [hpc] at hg
    cases hg
    rw [hsource]
    exact ⟨fun _ => hagain, fun _ => rfl⟩

/-- A call erases its source. The entry goes with the last one. -/
theorem Table.unregister (h : s.Table t (f :: below)) (hf : f.pc.unfinished = true)
    (hcallers : s'.callers t = if unfinished below = [] then none else some ⟨t, 0⟩)
    (hsenders : s'.newSenders ⟨t, 0⟩ = some (unfinished below).toFinset)
    (hpc : f'.pc = .finishUnlock) : s'.Table t (f' :: below) := by
  have hbefore : unfinished (f :: below) = f.source :: unfinished below := by
    rw [unfinished, hf]
    rfl
  have hafter : unfinished (f' :: below) = unfinished below := by rw [unfinished, hpc]; rfl
  constructor
  · rw [hcallers, hafter]
  · intro _
    rw [hsenders, hafter]
  · rw [hafter]
    exact (List.nodup_cons.mp (hbefore ▸ h.distinct)).2
  · intro g hg hunfinished
    rcases List.mem_cons.mp hg with rfl | hg
    · rw [hpc] at hunfinished
      contradiction
    · exact h.pointers g (List.mem_cons_of_mem _ hg) hunfinished
  · intro g below' recursion hstack hg
    cases hstack
    rw [hpc] at hg
    contradiction

end Stack

section Step

variable {env : Subscribers Subscriber} {build : Build} {s s' : MessageBroker Subscriber Source Payload}
  {t : ℕ} {thread : SendThread Subscriber Source Payload} {f f' : SendFrame Subscriber Source Payload}
  {below : List (SendFrame Subscriber Source Payload)}

/-- What a thread knows does not depend on the others. -/
theorem ThreadSound.frame (h : s.ThreadSound build t thread) (hcallers : s'.callers t = s.callers t)
    (hsenders : s'.newSenders ⟨t, 0⟩ = s.newSenders ⟨t, 0⟩) : s'.ThreadSound build t thread where
  below := h.below
  legal := h.legal
  table hdebug := by
    obtain ⟨htable, hset, hdistinct, hpointers, hchecked⟩ := h.table hdebug
    exact ⟨hcallers ▸ htable, hsenders ▸ hset, hdistinct, hpointers, hchecked⟩

/-- The innermost call makes a step, and may show something. -/
theorem Advances.of_top (h : s.ThreadSound build t thread) (hstack : thread.stack = f :: below)
    {shown : List (BrokerEvent Subscriber Source Payload)}
    (hthreads : s'.threads = s.threads.set t ⟨thread.code, f' :: below, thread.trace ++ shown⟩)
    (hlock : LockMove f.pc.inside f'.pc.inside s.opLock t s'.opLock)
    (hcallers : ∀ u ≠ t, s'.callers u = s.callers u)
    (hsenders : ∀ u ≠ t, s'.newSenders ⟨u, 0⟩ = s.newSenders ⟨u, 0⟩)
    (hshown : shown ++ f'.rest env build (unfinished below) = f.rest env build (unfinished below))
    (hwork : f'.work env < f.work env) (hlegal : f'.Legal build)
    (htable : build = .debug → s'.Table t (f' :: below)) :
    ∃ thread', Advances env build s t thread s' thread' := by
  obtain ⟨code, stack, trace⟩ := thread
  obtain rfl : stack = f :: below := hstack
  refine ⟨_, hthreads, hlock, hcallers, hsenders, ?_, ?_, ?_⟩
  · simp only [SendThread.rest, stackRest, ← hshown, List.append_assoc]
  · simp only [SendThread.work, List.map_cons, List.sum_cons]
    omega
  · refine ⟨h.below, fun g hg => ?_, htable⟩
    rcases List.mem_cons.mp hg with rfl | hg
    · exact hlegal
    · exact h.legal g (List.mem_cons_of_mem _ hg)

/-- The innermost call returns. -/
theorem Advances.of_leave (h : s.ThreadSound build t thread) (hstack : thread.stack = f :: below)
    {lock : Option ℕ} (hlock : LockMove f.pc.inside false s.opLock t lock)
    (hrest : f.rest env build (unfinished below) = [])
    (htable : build = .debug → f.pc.unfinished = false) :
    ∃ thread', Advances env build s t thread
      ({ s with opLock := lock }.leave t thread below) thread' := by
  obtain ⟨code, stack, trace⟩ := thread
  obtain rfl : stack = f :: below := hstack
  have hbelow : ∀ g ∈ below, g.pc = .deliver := h.below
  refine ⟨⟨code, below, trace⟩, rfl, ?_, fun u hu => rfl, fun u hu => ?_, ?_, ?_, ?_⟩
  · rw [SendThread.inside_of_deliver hbelow]
    exact hlock
  · exact Function.update_of_ne (fun hno => hu (congrArg SetRef.thread hno)) _ _
  · simp only [SendThread.rest, stackRest, hrest, List.nil_append]
  · have hleft : 0 < f.pc.left := by cases f.pc <;> exact Nat.succ_pos _
    simp only [SendThread.work, List.map_cons, List.sum_cons, SendFrame.work]
    omega
  · refine ⟨fun g hg => hbelow g (List.mem_of_mem_tail hg), ?_, ?_⟩
    · exact fun g hg => h.legal g (List.mem_cons_of_mem _ hg)
    · exact fun hdebug => (h.table hdebug).pop (htable hdebug) hbelow rfl rfl

/-- A call begins, on a thread that would go on like this after it. -/
theorem Advances.of_call {rest : SendThread Subscriber Source Payload} {source : Source}
    {message : IMessage Payload} {onMessage : Subscriber → Sends Subscriber Source Payload}
    (h : s.ThreadSound build t rest) (hdeliver : ∀ f ∈ rest.stack, f.pc = .deliver)
    (hinside : thread.inside = false) (htrace : thread.trace = rest.trace)
    (hshown : thread.rest env build =
      (Sends.send source message onMessage .done).events env build (unfinished rest.stack) ++
        rest.rest env build)
    (hwork : thread.work env = (Sends.send source message onMessage .done).work env + rest.work env) :
    ∃ thread', Advances env build s t thread (s.call t rest (.ofSend source message onMessage))
      thread' := by
  refine ⟨⟨rest.code, .ofSend source message onMessage :: rest.stack, rest.trace⟩, rfl, ?_,
    fun u hu => rfl, fun u hu => ?_, ?_, ?_, ?_⟩
  · exact .keep hinside.symm
  · exact Function.update_of_ne (fun hno => hu (congrArg SetRef.thread hno)) _ _
  · rw [htrace, hshown]
    simp only [SendThread.rest, stackRest, SendFrame.rest, SendFrame.ofSend, List.append_assoc]
  · rw [hwork]
    simp only [SendThread.work, SendFrame.work, SendFrame.ofSend, SendPc.left, Sends.work,
      List.map_cons, List.sum_cons]
    omega
  · refine ⟨hdeliver, fun g hg => ?_, fun hdebug => (h.table hdebug).push rfl rfl rfl⟩
    rcases List.mem_cons.mp hg with rfl | hg
    · exact ⟨(fun hno => nomatch hno), fun _ => rfl⟩
    · exact h.legal g hg

/-- What holds in the first critical section of the debug build. -/
theorem ThreadSound.entering (h : s.ThreadSound .debug t thread) (hstack : thread.stack = f :: below)
    (hpc : f.pc = .enter) :
    (∀ g ∈ below, g.pc = .deliver) ∧ f.running = .done ∧ s.Table t (f :: below) ∧
      s.callers t = (if unfinished below = [] then none else some ⟨t, 0⟩) ∧
      s.newSenders ⟨t, 0⟩ = some (unfinished below).toFinset := by
  have htable := h.table rfl
  have hbelow := h.below
  rw [hstack] at htable hbelow
  have hsame : unfinished (f :: below) = unfinished below := by rw [unfinished, hpc]; rfl
  have hentry := htable.callers
  have hset := htable.senders (List.cons_ne_nil _ _)
  rw [hsame] at hentry hset
  exact ⟨hbelow, (h.legal f (hstack ▸ List.mem_cons_self)).fresh (.inr hpc), htable, hentry, hset⟩

/-- A call whose source is not sending is accepted. -/
theorem Advances.of_accept (h : s.ThreadSound .debug t thread) (hstack : thread.stack = f :: below)
    (hpc : f.pc = .enter) (hnew : f.source ∉ unfinished below) (hlock : s'.opLock = s.opLock)
    (hcallers : s'.callers t = some ⟨t, 0⟩) (hothers : ∀ u ≠ t, s'.callers u = s.callers u)
    (hsenders : s'.newSenders =
      Function.update s.newSenders ⟨t, 0⟩ (some (insert f.source (unfinished below).toFinset)))
    (hf' : f' =
      { f with curSenders := some ⟨t, 0⟩, curSubscribers := env.subscribers, pc := .enterUnlock false })
    (hthreads : s'.threads = s.threads.set t ⟨thread.code, f' :: below, thread.trace⟩) :
    ∃ thread', Advances env .debug s t thread s' thread' := by
  obtain ⟨-, hfresh, htable, -, -⟩ := h.entering hstack hpc
  rw [← List.append_nil thread.trace] at hthreads
  subst hf'
  refine Advances.of_top h hstack hthreads ?_ hothers (fun u hu => ?_) ?_ ?_ ?_ fun _ => ?_
  · rw [hlock, hpc]
    exact .keep rfl
  · rw [hsenders, Function.update_of_ne (fun hno => hu (congrArg SetRef.thread hno))]
  · simp only [SendFrame.rest, hpc, hfresh, Sends.events, List.nil_append, List.append_nil]
    rw [if_neg fun hagain => hnew hagain.2]
  · simp only [SendFrame.work, hpc, hfresh, SendPc.left]
    omega
  · exact ⟨(fun hno => nomatch hno), fun hno => hno.elim nofun nofun⟩
  · exact htable.register hpc hnew hcallers (by rw [hsenders, Function.update_self]) rfl rfl rfl

/-- The first critical section of the debug build. -/
theorem Advances.of_enterDebug (h : s.ThreadSound .debug t thread) (hstack : thread.stack = f :: below)
    (hpc : f.pc = .enter) (hstep : s.enterDebug t thread env f below = some s') :
    ∃ thread', Advances env .debug s t thread s' thread' := by
  obtain ⟨hbelow, hfresh, htable, hentry, hset⟩ := h.entering hstack hpc
  rw [enterDebug] at hstep
  by_cases hnone : unfinished below = []
  · -- nobody is sending on this thread, so this is the outermost call, and the set is its own
    obtain rfl := below_nil hbelow hnone
    rw [if_pos hnone] at hentry
    simp only [hentry, List.length_nil, hset, Option.map_some, Option.some.injEq] at hstep
    subst hstep
    refine Advances.of_accept h hstack hpc List.not_mem_nil rfl ?_ (fun u hu => ?_) rfl rfl rfl
    · exact Function.update_self _ _ _
    · exact Function.update_of_ne hu _ _
  · rw [if_neg hnone] at hentry
    simp only [hentry, hset, Option.map_some, Option.some.injEq, List.mem_toFinset] at hstep
    subst hstep
    split_ifs with hagain
    · refine Advances.of_top h hstack rfl ?_ (fun u hu => rfl) (fun u hu => rfl) ?_ ?_ ?_ fun _ => ?_
      · rw [hpc]
        exact .keep rfl
      · simp only [SendFrame.rest, hpc, Sends.events]
        rw [if_pos ⟨trivial, hagain⟩]
      · simp only [SendFrame.work, hpc, hfresh, SendPc.left]
        omega
      · exact ⟨(fun hno => nomatch hno), fun hno => hno.elim nofun nofun⟩
      · exact htable.refuse hpc hagain rfl rfl rfl rfl
    · exact Advances.of_accept h hstack hpc hagain rfl hentry (fun u hu => rfl) rfl rfl rfl

/-- The last critical section of the debug build. -/
theorem Advances.of_finishDebug (h : s.ThreadSound build t thread) (hstack : thread.stack = f :: below)
    (hpc : f.pc = .finish) (hstep : s.finishDebug t thread f below = some s') :
    ∃ thread', Advances env build s t thread s' thread' := by
  have hdebug : build = .debug := (h.legal f (hstack ▸ List.mem_cons_self)).finishes (by rw [hpc]; rfl)
  have htable := h.table hdebug
  rw [hstack] at htable
  have hmine : f.pc.unfinished = true := by rw [hpc]; rfl
  have hsame : unfinished (f :: below) = f.source :: unfinished below := by rw [unfinished, hmine]; rfl
  have hentry := htable.callers
  have hset := htable.senders (List.cons_ne_nil _ _)
  have hdistinct := htable.distinct
  rw [hsame, if_neg (List.cons_ne_nil _ _)] at hentry
  rw [hsame, List.toFinset_cons] at hset
  rw [hsame, List.nodup_cons] at hdistinct
  have hleft : (insert f.source (unfinished below).toFinset).erase f.source =
      (unfinished below).toFinset :=
    Finset.erase_insert (by rw [List.mem_toFinset]; exact hdistinct.1)
  have hempty : (unfinished below).toFinset = ∅ ↔ unfinished below = [] := List.toFinset_eq_empty_iff _
  simp only [finishDebug, htable.pointers f List.mem_cons_self hmine, Option.bind_some, hset,
    Option.map_some, hleft, hempty, Option.some.injEq] at hstep
  have hthreads : s'.threads = s.threads.set t ⟨thread.code,
      { f with pc := .finishUnlock, curSenders := some ⟨t, 0⟩ } :: below, thread.trace ++ []⟩ := by
    rw [← hstep, List.append_nil]
    rfl
  subst hstep
  refine Advances.of_top h hstack hthreads ?_ (fun u hu => ?_) (fun u hu => ?_) ?_ ?_ ?_ fun _ => ?_
  · rw [hpc]
    exact .keep rfl
  · change (if unfinished below = [] then Function.update s.callers t none else s.callers) u = _
    split_ifs
    · exact Function.update_of_ne hu _ _
    · rfl
  · exact Function.update_of_ne (fun hno => hu (congrArg SetRef.thread hno)) _ _
  · simp only [SendFrame.rest, hpc, List.nil_append]
  · simp only [SendFrame.work, hpc, SendPc.left]
    omega
  · exact ⟨fun _ => hdebug, fun hno => hno.elim nofun nofun⟩
  · refine htable.unregister hmine ?_ (Function.update_self _ _ _) rfl
    change (if unfinished below = [] then Function.update s.callers t none else s.callers) t = _
    split_ifs
    · exact Function.update_self _ _ _
    · exact hentry

/-- The innermost call goes on without showing anything or touching the table. -/
theorem Advances.of_move {pc : SendPc} {curSubscribers : List Subscriber} {lock : Option ℕ}
    (h : s.ThreadSound build t thread) (hstack : thread.stack = f :: below)
    (hlock : LockMove f.pc.inside pc.inside s.opLock t lock)
    (htable : build = .debug →
      pc.unfinished = f.pc.unfinished ∧ ∀ recursion, pc ≠ .enterUnlock recursion)
    (hrest : SendFrame.rest env build (unfinished below) { f with pc, curSubscribers } =
      f.rest env build (unfinished below))
    (hwork : SendFrame.work env { f with pc, curSubscribers } < f.work env)
    (hlegal : SendFrame.Legal build { f with pc, curSubscribers }) :
    ∃ thread', Advances env build s t thread
      ({ s with opLock := lock }.top t thread { f with pc, curSubscribers } below) thread' := by
  have hthreads : ({ s with opLock := lock }.top t thread { f with pc, curSubscribers } below).threads =
      s.threads.set t ⟨thread.code, { f with pc, curSubscribers } :: below, thread.trace ++ []⟩ := by
    rw [List.append_nil]
    rfl
  refine Advances.of_top h hstack hthreads hlock (fun u hu => rfl) (fun u hu => rfl) hrest hwork hlegal ?_
  intro hdebug
  obtain ⟨hpc, hchecked⟩ := htable hdebug
  exact (hstack ▸ h.table hdebug).top rfl hpc rfl rfl rfl hchecked

/-- The subscriber that the innermost call has called sends a message. -/
theorem Advances.of_nested {source : Source} {message : IMessage Payload}
    {onMessage : Subscriber → Sends Subscriber Source Payload} {next : Sends Subscriber Source Payload}
    (h : s.ThreadSound build t thread) (hstack : thread.stack = f :: below) (hpc : f.pc = .deliver)
    (hrunning : f.running = .send source message onMessage next) :
    ∃ thread', Advances env build s t thread
      (s.call t { thread with stack := { f with running := next } :: below }
        (.ofSend source message onMessage)) thread' := by
  have hbelow : ∀ g ∈ { f with running := next } :: below, g.pc = .deliver := by
    have htail := h.below
    rw [hstack] at htail
    exact List.forall_mem_cons.mpr ⟨hpc, htail⟩
  refine of_call ⟨fun g hg => hbelow g (List.mem_of_mem_tail hg), fun g hg => ?_, fun hdebug => ?_⟩
    hbelow ?_ rfl ?_ ?_
  · exact SendFrame.legal_of_deliver (hbelow g hg)
  · refine (hstack ▸ h.table hdebug).top rfl rfl rfl rfl rfl fun recursion hno => ?_
    rw [hpc] at hno
    contradiction
  · rw [SendThread.inside, hstack]
    dsimp only
    rw [hpc]
    rfl
  · simp only [SendThread.rest, hstack, stackRest, SendFrame.rest, unfinished, hpc, hrunning]
    rw [Sends.events_send]
    simp [SendPc.unfinished]
  · simp only [SendThread.work, SendFrame.work, hstack, hpc, hrunning, SendPc.left, Sends.work,
      List.map_cons, List.sum_cons]
    omega

/-- The loop of `SendMessage`. -/
theorem Advances.of_deliver (h : s.ThreadSound build t thread) (hstack : thread.stack = f :: below)
    (hpc : f.pc = .deliver) (hstep : s.frameStep t thread env build f below = some s') :
    ∃ thread', Advances env build s t thread s' thread' := by
  obtain ⟨source, message, onMessage, pc, curSenders, curSubscribers, running⟩ := f
  obtain rfl : pc = .deliver := hpc
  simp only [frameStep] at hstep
  cases running with
  | send source' message' onMessage' next =>
    cases hstep
    exact of_nested h hstack rfl rfl
  | done =>
    cases curSubscribers with
    | nil =>
      cases build with
      | release =>
        cases hstep
        exact of_leave h hstack (.keep rfl) rfl (fun hno => nomatch hno)
      | debug =>
        cases hstep
        refine of_move h hstack (.keep rfl) (fun _ => ⟨rfl, fun recursion => nofun⟩) rfl ?_ ?_
        · simp only [SendFrame.work, SendPc.left]
          omega
        · exact ⟨fun _ => rfl, fun hno => hno.elim nofun nofun⟩
    | cons subscriber rest =>
      dsimp only at hstep
      split_ifs at hstep with hready
      · cases hstep
        refine of_top h hstack rfl (.keep rfl) (fun u hu => rfl) (fun u hu => rfl) ?_ ?_
          (SendFrame.legal_of_deliver rfl)
          fun hdebug => (hstack ▸ h.table hdebug).top rfl rfl rfl rfl rfl (fun recursion => nofun)
        · simp only [SendFrame.rest, Sends.events, Subscribers.visits, List.flatMap_cons, hready,
            if_true, List.nil_append]
          rfl
        · simp only [SendFrame.work, Sends.work, List.map_cons, List.sum_cons]
          omega
      · cases hstep
        refine of_move h hstack (.keep rfl) (fun _ => ⟨rfl, fun recursion => nofun⟩) ?_ ?_
          (SendFrame.legal_of_deliver rfl)
        · simp only [SendFrame.rest, Sends.events, Subscribers.visits, List.flatMap_cons, hready,
            List.nil_append]
          rfl
        · simp only [SendFrame.work, Sends.work, List.map_cons, List.sum_cons]
          omega

/-- The next step of the innermost call. -/
theorem Advances.of_frameStep (h : s.ThreadSound build t thread) (hstack : thread.stack = f :: below)
    (hstep : s.frameStep t thread env build f below = some s') :
    ∃ thread', Advances env build s t thread s' thread' := by
  have hlegal := h.legal f (hstack ▸ List.mem_cons_self)
  cases hpc : f.pc with
  | deliver => exact of_deliver h hstack hpc hstep
  | lock =>
    simp only [frameStep, hpc] at hstep
    obtain ⟨hfree, hstep⟩ := Option.ite_none_right_eq_some.mp hstep
    cases hstep
    refine Advances.of_move h hstack ?_ (fun _ => ⟨?_, fun recursion => nofun⟩) ?_ ?_ ?_
    · rw [hpc]
      exact .acquire hfree rfl
    · rw [hpc]
      rfl
    · simp only [SendFrame.rest, hpc]
    · simp only [SendFrame.work, hpc, SendPc.left]
      omega
    · exact ⟨(fun hno => nomatch hno), fun _ => hlegal.fresh (.inl hpc)⟩
  | enter =>
    simp only [frameStep, hpc] at hstep
    cases build with
    | debug => exact of_enterDebug h hstack hpc hstep
    | release =>
      cases hstep
      have hfresh := hlegal.fresh (.inr hpc)
      refine Advances.of_move h hstack ?_ (fun hno => nomatch hno) ?_ ?_ ?_
      · rw [hpc]
        exact .keep rfl
      · simp only [SendFrame.rest, hpc, hfresh, Sends.events, List.nil_append, List.append_nil]
        rw [if_neg fun hno => nomatch hno.1]
      · simp only [SendFrame.work, hpc, hfresh, SendPc.left]
        omega
      · exact ⟨(fun hno => nomatch hno), fun hno => hno.elim nofun nofun⟩
  | enterUnlock recursion =>
    simp only [frameStep, hpc] at hstep
    cases recursion with
    | true =>
      cases hstep
      refine Advances.of_leave h hstack ?_ ?_ fun _ => ?_
      · rw [hpc]
        exact .release rfl rfl
      · simp only [SendFrame.rest, hpc]
      · rw [hpc]
        rfl
    | false =>
      cases hstep
      refine Advances.of_move h hstack ?_ (fun _ => ⟨?_, fun recursion => nofun⟩) ?_ ?_ ?_
      · rw [hpc]
        exact .release rfl rfl
      · rw [hpc]
        rfl
      · simp only [SendFrame.rest, hpc]
      · simp only [SendFrame.work, hpc, SendPc.left]
        omega
      · exact ⟨(fun hno => nomatch hno), fun hno => hno.elim nofun nofun⟩
  | finishLock =>
    simp only [frameStep, hpc] at hstep
    obtain ⟨hfree, hstep⟩ := Option.ite_none_right_eq_some.mp hstep
    cases hstep
    refine Advances.of_move h hstack ?_ (fun _ => ⟨?_, fun recursion => nofun⟩) ?_ ?_ ?_
    · rw [hpc]
      exact .acquire hfree rfl
    · rw [hpc]
      rfl
    · simp only [SendFrame.rest, hpc]
    · simp only [SendFrame.work, hpc, SendPc.left]
      omega
    · exact ⟨fun _ => hlegal.finishes (by rw [hpc]; rfl), fun hno => hno.elim nofun nofun⟩
  | finish =>
    simp only [frameStep, hpc] at hstep
    exact of_finishDebug h hstack hpc hstep
  | finishUnlock =>
    simp only [frameStep, hpc] at hstep
    cases hstep
    refine Advances.of_leave h hstack ?_ ?_ fun _ => ?_
    · rw [hpc]
      exact .release rfl rfl
    · simp only [SendFrame.rest, hpc]
    · rw [hpc]
      rfl

/-- The next step of a thread. -/
theorem Advances.of_threadStep (h : s.ThreadSound build t thread)
    (hstep : s.threadStep t thread env build = some s') :
    ∃ thread', Advances env build s t thread s' thread' := by
  rw [threadStep.eq_def] at hstep
  split at hstep
  · rename_i hstack
    exact of_frameStep h hstack hstep
  · rename_i hstack
    split at hstep
    · contradiction
    · rename_i hcode
      cases hstep
      refine Advances.of_call ⟨h.below, h.legal, h.table⟩ (fun f hf => ?_) ?_ rfl ?_ ?_
      · rw [hstack] at hf
        contradiction
      · rw [SendThread.inside, hstack]
      · simp only [SendThread.rest, hstack, hcode, stackRest, unfinished]
        exact Sends.events_send _ _ _ _
      · simp only [SendThread.work, hstack, hcode, Sends.work, List.map_nil, List.sum_nil]
        omega

end Step

section Run

variable {env : Subscribers Subscriber} {build : Build} {s s' : MessageBroker Subscriber Source Payload}
  {programs : List (Sends Subscriber Source Payload)}

/-- The thread with this number holds `opLock`. -/
def inside (s : MessageBroker Subscriber Source Payload) (t : ℕ) : Prop :=
  ∃ thread, s.threads[t]? = some thread ∧ thread.inside = true

/-- How many steps all threads can still make. -/
def work (env : Subscribers Subscriber) (s : MessageBroker Subscriber Source Payload) : ℕ :=
  (s.threads.map (SendThread.work env)).sum

/-- The broker is as it should be while the threads run these programs. -/
structure Sound (env : Subscribers Subscriber) (build : Build)
    (programs : List (Sends Subscriber Source Payload)) (s : MessageBroker Subscriber Source Payload) :
    Prop where
  mutex : Mutex s.opLock s.inside
  threads : ∀ t thread, s.threads[t]? = some thread → s.ThreadSound build t thread
  shown : s.threads.map (fun thread => thread.trace ++ thread.rest env build) =
    programs.map (Sends.events env build [])

/-- No thread has begun. -/
theorem sound_initial : Sound env build programs (initial programs) := by
  have hthread {t : ℕ} {thread : SendThread Subscriber Source Payload}
      (hthread : (initial programs).threads[t]? = some thread) :
      thread.stack = [] ∧ thread.trace = [] := by
    rw [initial, List.getElem?_map, Option.map_eq_some_iff] at hthread
    obtain ⟨code, -, rfl⟩ := hthread
    exact ⟨rfl, rfl⟩
  constructor
  · intro t
    refine ⟨(fun hno => nomatch hno), ?_⟩
    rintro ⟨thread, ht, hinside⟩
    rw [SendThread.inside, (hthread ht).1] at hinside
    contradiction
  · intro t thread ht
    obtain ⟨hstack, -⟩ := hthread ht
    constructor
    · rw [hstack]
      exact fun f hf => nomatch hf
    · rw [hstack]
      exact fun f hf => nomatch hf
    · rw [hstack]
      exact fun _ => ⟨rfl, fun hno => absurd rfl hno, List.nodup_nil, (fun f hf => nomatch hf),
        fun f below recursion hno => nomatch hno⟩
  · rw [initial, List.map_map]
    rfl

/-- One step keeps the broker as it should be, and leaves less to do. -/
theorem Sound.step {t : ℕ} (h : Sound env build programs s) (hstep : s.step env build t = some s') :
    Sound env build programs s' ∧ s'.work env < s.work env := by
  obtain ⟨thread, ht, hstep⟩ := Option.bind_eq_some_iff.mp hstep
  obtain ⟨thread', hthreads, hlock, hcallers, hsenders, hshown, hwork, hsound⟩ :=
    Advances.of_threadStep (h.threads t thread ht) hstep
  obtain ⟨hlt, -⟩ := List.getElem?_eq_some_iff.mp ht
  have hmine : s'.threads[t]? = some thread' := by rw [hthreads, List.getElem?_set_self hlt]
  have hothers {u : ℕ} (hu : u ≠ t) : s'.threads[u]? = s.threads[u]? := by
    rw [hthreads, List.getElem?_set_ne hu.symm]
  obtain ⟨l, r, hbefore, hafter⟩ := exists_split ht
  rw [set_eq_replaceAt ht, hafter, List.singleton_append] at hthreads
  refine ⟨⟨?_, fun u other hu => ?_, ?_⟩, ?_⟩
  · refine h.mutex.move ?_ ?_ (fun u hu => ?_) hlock
    · exact ⟨fun ⟨_, hget, hinside⟩ => Option.some.inj (ht.symm.trans hget) ▸ hinside,
        fun hinside => ⟨thread, ht, hinside⟩⟩
    · exact ⟨fun ⟨_, hget, hinside⟩ => Option.some.inj (hmine.symm.trans hget) ▸ hinside,
        fun hinside => ⟨thread', hmine, hinside⟩⟩
    · rw [inside, inside, hothers hu]
  · by_cases hut : u = t
    · subst hut
      cases hmine.symm.trans hu
      exact hsound
    · rw [hothers hut] at hu
      exact (h.threads u other hu).frame (hcallers u hut) (hsenders u hut)
  · rw [← h.shown, hthreads, hbefore]
    simp only [List.map_append, List.map_cons, hshown]
  · simp only [work, hthreads, hbefore, List.map_append, List.map_cons, List.sum_append, List.sum_cons]
    omega

/-- Every state that can be reached is as it should be, and the programs bound the run. -/
theorem sound_of_run {actions : List ℕ}
    (hrun : runActions (step env build) (initial programs) actions = some s) :
    Sound env build programs s ∧ s.work env + actions.length ≤ (programs.map (Sends.work env)).sum := by
  refine ⟨runActions_invariant (fun _ _ _ h hstep => (Sound.step h hstep).1) sound_initial hrun, ?_⟩
  have hbound := runActions_length_le (fun _ _ _ h hstep => Sound.step h hstep) sound_initial hrun
  have hprograms : (initial programs).work env = (programs.map (Sends.work env)).sum := by
    rw [work, initial, List.map_map]
    congr 1
    refine List.map_congr_left fun code _ => ?_
    rw [Function.comp_apply, SendThread.work, List.map_nil, List.sum_nil, Nat.zero_add]
  rwa [hprograms] at hbound

/-- No thread can go on. -/
def Quiet (env : Subscribers Subscriber) (build : Build) (s : MessageBroker Subscriber Source Payload) :
    Prop := ∀ t, s.step env build t = none

/-- A call can go on, unless it waits for `opLock`. Its pointers lead to sets that live. -/
theorem ThreadSound.can_step {t : ℕ} {thread : SendThread Subscriber Source Payload}
    {f : SendFrame Subscriber Source Payload} {below : List (SendFrame Subscriber Source Payload)}
    (h : s.ThreadSound build t thread) (hstack : thread.stack = f :: below)
    (hlock : s.opLock = none ∨ f.pc.inside = true) : s.frameStep t thread env build f below ≠ none := by
  intro hnone
  cases hpc : f.pc with
  | lock | finishLock =>
    have hfree : s.opLock = none := hlock.resolve_right fun hno => by
      rw [hpc] at hno
      contradiction
    simp [frameStep, hpc, hfree] at hnone
  | enter =>
    cases build with
    | release => simp [frameStep, hpc] at hnone
    | debug =>
      obtain ⟨hbelow, -, -, hentry, hset⟩ := h.entering hstack hpc
      simp only [frameStep, hpc, enterDebug] at hnone
      by_cases hempty : unfinished below = []
      · obtain rfl := below_nil hbelow hempty
        simp [hentry, hset, hempty] at hnone
      · simp [hentry, hset, hempty] at hnone
  | enterUnlock recursion =>
    cases recursion <;> simp [frameStep, hpc] at hnone
  | deliver =>
    simp only [frameStep, hpc] at hnone
    split at hnone
    · contradiction
    · split at hnone
      · split at hnone <;> contradiction
      · split_ifs at hnone
  | finish =>
    have hdebug := (h.legal f (hstack ▸ List.mem_cons_self)).finishes (by rw [hpc]; rfl)
    have htable := h.table hdebug
    rw [hstack] at htable
    have hpointer := htable.pointers f List.mem_cons_self (by rw [hpc]; rfl)
    have hset := htable.senders (List.cons_ne_nil _ _)
    simp [frameStep, hpc, finishDebug, hpointer, hset] at hnone
  | finishUnlock => simp [frameStep, hpc] at hnone

/-- If no thread can go on, all have done what they should. -/
theorem Sound.finished (h : Sound env build programs s) (hquiet : s.Quiet env build) :
    ∀ thread ∈ s.threads, thread.stack = [] ∧ thread.code = .done := by
  have hfree : s.opLock = none := by
    cases hlock : s.opLock with
    | none => rfl
    | some t =>
      obtain ⟨thread, ht, hinside⟩ := (h.mutex t).mp hlock
      have hstep := hquiet t
      rw [MessageBroker.step, ht, Option.bind_some, threadStep.eq_def] at hstep
      cases hstack : thread.stack with
      | nil =>
        rw [SendThread.inside, hstack] at hinside
        contradiction
      | cons f below =>
        rw [SendThread.inside, hstack] at hinside
        simp only [hstack] at hstep
        exact absurd hstep ((h.threads t thread ht).can_step hstack (.inr hinside))
  intro thread hmem
  obtain ⟨t, ht⟩ := List.mem_iff_getElem?.mp hmem
  have hstep := hquiet t
  rw [MessageBroker.step, ht, Option.bind_some, threadStep.eq_def] at hstep
  cases hstack : thread.stack with
  | nil =>
    simp only [hstack] at hstep
    split at hstep
    · rename_i hcode
      exact ⟨rfl, hcode⟩
    · contradiction
  | cons f below =>
    simp only [hstack] at hstep
    exact absurd hstep ((h.threads t thread ht).can_step hstack (.inl hfree))

/-- Then the traces are what the trees say. -/
theorem Sound.traces (h : Sound env build programs s) (hquiet : s.Quiet env build) :
    s.threads.map SendThread.trace = programs.map (Sends.events env build []) := by
  rw [← h.shown]
  refine List.map_congr_left fun thread hmem => ?_
  obtain ⟨hstack, hcode⟩ := h.finished hquiet thread hmem
  rw [SendThread.rest, hstack, hcode, stackRest, Sends.events, List.append_nil, List.append_nil]

end Run

/-- The debug build of the broker, over every run. Its table has an entry for a thread as long as the
thread has an unfinished send, and the entry leads to a set that lives and has the sources of these
sends. A send is given up if and only if its source is among them. Every run ends, and then each
thread has shown what its tree says; if no source sends again while it is sending, that is what the
release build shows. -/
theorem builds_agree {env : Subscribers Subscriber} {programs : List (Sends Subscriber Source Payload)}
    {actions : List ℕ} {s : MessageBroker Subscriber Source Payload}
    (hrun : runActions (step env .debug) (initial programs) actions = some s) :
    (∀ t thread, s.threads[t]? = some thread →
      (s.callers t ≠ none ↔ unfinished thread.stack ≠ []) ∧
      (∀ ref, s.callers t = some ref → s.newSenders ref = some (unfinished thread.stack).toFinset) ∧
      (∀ f below recursion, thread.stack = f :: below → f.pc = .enterUnlock recursion →
        (recursion = true ↔ f.source ∈ unfinished below))) ∧
    actions.length ≤ (programs.map (Sends.work env)).sum ∧
    (s.Quiet env .debug → s.threads.map SendThread.trace = programs.map (Sends.events env .debug [])) ∧
    ((∀ program ∈ programs, program.NoReentry env []) → s.Quiet env .debug →
      ∀ (actions' : List ℕ) (s' : MessageBroker Subscriber Source Payload),
        runActions (step env .release) (initial programs) actions' = some s' → s'.Quiet env .release →
        s.threads.map SendThread.trace = s'.threads.map SendThread.trace) := by
  obtain ⟨hsound, hbound⟩ := sound_of_run hrun
  refine ⟨fun t thread ht => ?_, by omega, hsound.traces, ?_⟩
  · have htable := (hsound.threads t thread ht).table rfl
    have hentry := htable.callers
    refine ⟨?_, fun ref href => ?_, htable.checked⟩
    · rw [hentry]
      split_ifs with hempty
      · exact iff_of_false (fun hno => hno rfl) fun hno => hno hempty
      · exact iff_of_true (fun hno => nomatch hno) hempty
    · rw [hentry] at href
      split_ifs at href with hempty
      cases href
      refine htable.senders fun hnil => hempty ?_
      rw [hnil]
      rfl
  · intro hsingle hquiet actions' s' hrun' hquiet'
    rw [hsound.traces hquiet, (sound_of_run hrun').1.traces hquiet']
    exact List.map_congr_left fun program hmem => Sends.events_of_noReentry (hsingle program hmem)

/-- Two subscribers. The second takes nothing but a shutdown. -/
def twoSubscribers : Subscribers ℕ where
  subscribers := [1, 2]
  readyForMessage subscriber msgType := subscriber = 1 || msgType = .shutdown

/-- On the first thread, the first subscriber answers a message with one of its own. -/
def nestedPrograms : List (Sends ℕ ℕ Unit) :=
  [.send 0 ⟨.startupReady, ()⟩
    (fun subscriber => if subscriber = 1 then .send 1 ⟨.shutdown, ()⟩ (fun _ => .done) .done else .done)
    .done,
   .send 2 ⟨.shutdown, ()⟩ (fun _ => .done) .done]

/-- The second thread makes so many steps while the first is about to deliver. -/
def nestedRun (second rest : ℕ) : List ℕ :=
  List.replicate 4 0 ++ List.replicate second 1 ++ List.replicate rest 0

/-- The builds show the same then, though the debug build makes more steps. -/
theorem builds_agree_nested : ∃ s s' : MessageBroker ℕ ℕ Unit,
    runActions (step twoSubscribers .debug) (initial nestedPrograms) (nestedRun 10 16) = some s ∧
    runActions (step twoSubscribers .release) (initial nestedPrograms) (nestedRun 7 10) = some s' ∧
    s.threads.map SendThread.trace = s'.threads.map SendThread.trace ∧
    s.threads.map SendThread.trace =
      [[.onMessage 1 0 ⟨.startupReady, ()⟩, .onMessage 1 1 ⟨.shutdown, ()⟩,
        .onMessage 2 1 ⟨.shutdown, ()⟩],
       [.onMessage 1 2 ⟨.shutdown, ()⟩, .onMessage 2 2 ⟨.shutdown, ()⟩]] := by
  have hdebug : (runActions (step twoSubscribers .debug) (initial nestedPrograms)
    (nestedRun 10 16)).isSome = true := rfl
  have hrelease : (runActions (step twoSubscribers .release) (initial nestedPrograms)
    (nestedRun 7 10)).isSome = true := rfl
  have hrun := (Option.some_get hdebug).symm
  have hrun' := (Option.some_get hrelease).symm
  have hquiet : ((runActions (step twoSubscribers .debug) (initial nestedPrograms)
      (nestedRun 10 16)).get hdebug).Quiet twoSubscribers .debug := by
    intro t
    match t with
    | 0 | 1 | _ + 2 => rfl
  have hquiet' : ((runActions (step twoSubscribers .release) (initial nestedPrograms)
      (nestedRun 7 10)).get hrelease).Quiet twoSubscribers .release := by
    intro t
    match t with
    | 0 | 1 | _ + 2 => rfl
  have hsingle : ∀ program ∈ nestedPrograms, program.NoReentry twoSubscribers [] := by
    simp [nestedPrograms, twoSubscribers, Sends.NoReentry]
  obtain ⟨-, -, htraces, hsame⟩ := builds_agree hrun
  refine ⟨_, _, hrun, hrun', hsame hsingle hquiet _ _ hrun' hquiet', ?_⟩
  rw [htraces hquiet]
  rfl

end MessageBroker

end TinySox
