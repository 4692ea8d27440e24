import TinySox.ByteBuffer
import TinySox.Common.LabelledRun
import TinySox.TransferHealth

/-!
# One call of `Transfer`

A call with the buffer it is given, from any state of the helper. Its thread goes on step by step,
and notices may reach the helper between any two steps. The return value accounts for the bytes
that were moved, except where a wait times out after a piece of a transfer that may not be partial:
the call returns 0, and the piece is lost to the caller.

`moved` records the bytes that the system calls of this call have moved. It is not part of the
program.
-/

namespace TinySox

open TinySox.Common

/-- A call of `Transfer`, running or returned. -/
structure TransferCall where
  helper : TCPCommHelper
  errno : ℕ
  outcome : TransferOutcome
  target : Bytes
  moved : Bytes
  deriving DecidableEq, Repr

/-- What can happen next to a call. -/
inductive CallAction
  | notice (n : Notice)
  /-- the next step of the thread, whose system call moves the block -/
  | transfer (a : TransferAction) (block : Bytes)
  deriving DecidableEq, Repr

namespace CallAction

/-- The number of bytes that the action moves. -/
def size : CallAction → ℕ
  | notice _ => 0
  | transfer a _ => a.size

/-- A notice reaches the helper. -/
def isNotice : CallAction → Bool
  | notice _ => true
  | transfer _ _ => false

/-- The thread makes a step. -/
def isStep : CallAction → Bool
  | notice _ => false
  | transfer _ _ => true

/-- The thread calls `read` or `write`. -/
def isSystemCall : CallAction → Bool
  | transfer (.call _ _) _ => true
  | _ => false

end CallAction

namespace TransferCall

/-- `Transfer(target, len, allowPartial)` is called. -/
def start (helper : TCPCommHelper) (errno : ℕ) (target : Bytes) (len : Int) (allowPartial : Bool) :
    TransferCall :=
  ⟨helper, errno, transferEnter helper len allowPartial, target, []⟩

/-- The system call can move the block: a write sends what the buffer holds behind the bytes that
were already sent, a read delivers anything. -/
def canMove (c : TransferCall) (f : TransferFrame) (a : TransferAction) (block : Bytes) : Bool :=
  decide (block.length = a.size) &&
    (c.helper.isReader || decide (block = (c.target.drop f.moved).take a.size))

/-- The buffer after the system call: a read stores the block behind the bytes it has stored. -/
def store (c : TransferCall) (f : TransferFrame) (block : Bytes) : Bytes :=
  if c.helper.isReader then storeAt c.target f.moved block else c.target

/-- One step of the call. -/
def step (c : TransferCall) : CallAction → Option TransferCall
  | .notice n => some { c with helper := c.helper.notify n }
  | .transfer a block =>
    match c.outcome with
    | .running f =>
      if c.canMove f a block then
        (transferStep c.helper c.errno f a).map fun r =>
          ⟨r.helper, r.errno, r.outcome, c.store f block, c.moved ++ block⟩
      else none
    | .returned _ => none

/-- Everything that can happen to a call, with what it needs. -/
inductive Moves (c : TransferCall) : CallAction → TransferCall → Prop
  | notice (n : Notice) : Moves c (.notice n) { c with helper := c.helper.notify n }
  | transfer (f : TransferFrame) (a : TransferAction) (block : Bytes) (r : TransferResult)
      (hrunning : c.outcome = .running f) (hlen : block.length = a.size)
      (hwrite : c.helper.isReader = false → block = (c.target.drop f.moved).take a.size)
      (hmoves : TransferMoves c.helper c.errno f a r) :
      Moves c (.transfer a block)
        ⟨r.helper, r.errno, r.outcome, c.store f block, c.moved ++ block⟩

/-- Nothing else happens to a call. -/
theorem step_moves {c c' : TransferCall} {act : CallAction} (hstep : c.step act = some c') :
    c.Moves act c' := by
  cases act with
  | notice n =>
    cases hstep
    exact .notice n
  | transfer a block =>
    simp only [step] at hstep
    split at hstep
    · rename_i f hrunning
      simp only [Option.ite_none_right_eq_some, Option.map_eq_some_iff] at hstep
      obtain ⟨hcan, r, hr, rfl⟩ := hstep
      simp only [canMove, Bool.and_eq_true, decide_eq_true_eq, Bool.or_eq_true] at hcan
      apply Moves.transfer f a block r hrunning hcan.1 _ (transferStep_moves hr)
      intro hwriter
      rw [hwriter] at hcan
      exact hcan.2.resolve_left Bool.false_ne_true
    · contradiction

/-- What the return value says about the bytes that the call has moved. -/
structure Reported (len : Int) (allowPartial : Bool) (c : TransferCall) (v : Int) : Prop where
  count : 0 < v → v = c.moved.length
  content : 0 < v → c.moved = c.target.take v.toNat
  whole : 0 < v → allowPartial = false → v = len
  silent : v = 0 → c.moved = []

/-- No wait times out after the call has moved something; `moved` bytes were moved before. -/
def TimelyWaits (moved : ℕ) : List CallAction → Prop
  | [] => True
  | act :: rest =>
    (∀ block, act = .transfer .timeout block → moved = 0) ∧ TimelyWaits (moved + act.size) rest

/-- The bytes that were moved stand at the front of the buffer. -/
structure Accounted (len : Int) (allowPartial : Bool) (c : TransferCall) (f : TransferFrame) :
    Prop where
  sound : f.Sound
  len : f.len = len.toNat
  allowPartial : f.allowPartial = allowPartial
  fit : f.len ≤ c.target.length
  count : c.moved.length = f.moved
  content : c.moved = c.target.take f.moved

variable {len : Int} {allowPartial : Bool} {c c' : TransferCall} {f f' : TransferFrame}

/-- A call that starts has moved nothing. -/
theorem accounted_start {helper : TCPCommHelper} {errno : ℕ} {target : Bytes}
    (hfit : len ≤ target.length)
    (hrunning : (start helper errno target len allowPartial).outcome = .running f) :
    (start helper errno target len allowPartial).Accounted len allowPartial f := by
  obtain ⟨hsound, -, hlen, hallow, hmoved⟩ := transferEnter_running hrunning
  have htarget : f.len ≤ target.length := by
    rw [hlen]
    exact Int.toNat_le.mpr hfit
  have hcontent : [] = target.take f.moved := by
    rw [hmoved, List.take_zero]
  exact ⟨hsound, hlen, hallow, htarget, hmoved.symm, hcontent⟩

/-- A system call moves the bytes that follow in the buffer. -/
theorem Accounted.running (h : c.Accounted len allowPartial f) {a : TransferAction} {block : Bytes}
    {r : TransferResult} (hlen : block.length = a.size)
    (hwrite : c.helper.isReader = false → block = (c.target.drop f.moved).take a.size)
    (hmoves : TransferMoves c.helper c.errno f a r) (hout : r.outcome = .running f') :
    Accounted len allowPartial
      ⟨r.helper, r.errno, r.outcome, c.store f block, c.moved ++ block⟩ f' := by
  obtain ⟨hsound, hlen', hallow, hmoved⟩ := hmoves.sound_running h.sound hout
  have hinside : f.moved + block.length ≤ c.target.length := by
    have hle : f'.moved ≤ f'.len := Nat.sub_le _ _
    have hfit := h.fit
    omega
  have hsize : (c.store f block).length = c.target.length := by
    unfold store
    split
    · exact length_storeAt _ _ _ hinside
    · rfl
  have hfront : c.moved ++ block = (c.store f block).take f'.moved := by
    rw [hmoved, ← hlen, h.content]
    unfold store
    split
    · exact (take_storeAt _ _ _ (by omega)).symm
    · rename_i hreader
      rw [hwrite (eq_false_of_ne_true hreader), ← hlen, take_append_take_drop,
        List.length_take, List.length_drop, Nat.min_eq_left (by omega)]
  constructor
  · exact hsound
  · rw [hlen', h.len]
  · rw [hallow, h.allowPartial]
  · rw [hlen', hsize]
    exact h.fit
  · rw [List.length_append, h.count, hlen, hmoved]
  · exact hfront

/-- Only a wait that times out makes a call return 0. -/
theorem returned_zero {h : TCPCommHelper} {errno : ℕ} {a : TransferAction} {r : TransferResult}
    (hf : f.Sound) (hmoves : TransferMoves h errno f a r) (hout : r.outcome = .returned 0) :
    a = .timeout := by
  cases hmoves with
  | blocked | snapshot | woken | called | again => cases hout
  | cancelled => cases hout
  | timedOut => rfl
  | complete curCnt tSz hpc hdone =>
    have hzero : (f.len : Int) = 0 := by injection hout
    have hpos := hf.len_pos
    omega
  | partialDone curCnt tSz hpc hleft hwhole hpos =>
    have hzero : (f.len : Int) - f.dataLeft = 0 := by injection hout
    have hcount := hf.counted curCnt tSz hpc hwhole
    unfold TransferFrame.moved at hcount
    have hle := hf.left_le
    omega
  | failed curCnt tSz hpc hleft hwhole hneg =>
    have hzero : ((h.markSeen curCnt).markError errno).status = 0 := by injection hout
    omega

/-- The value that a call returns accounts for what it has moved, except for a wait that times out
after the call has moved something. -/
theorem Accounted.returned (hpos : 1 ≤ len) (h : c.Accounted len allowPartial f)
    {a : TransferAction} {r : TransferResult} {v : Int}
    (hmoves : TransferMoves c.helper c.errno f a r) (hout : r.outcome = .returned v) :
    a.size = 0 ∧ (Reported len allowPartial c v ↔ (a = .timeout → c.moved = [])) := by
  obtain ⟨hsize, hreturns⟩ := hmoves.sound_returned h.sound hout
  apply And.intro hsize
  constructor
  · intro hreported htimeout
    subst htimeout
    cases hmoves with
    | timedOut =>
      cases hout
      exact hreported.silent rfl
  · intro htimely
    constructor
    · intro hv
      rw [h.count]
      exact hreturns.pos hv
    · intro hv
      have hcount : v.toNat = f.moved := by
        rw [hreturns.pos hv, Int.toNat_natCast]
      rw [hcount]
      exact h.content
    · intro hv hwhole
      rw [hreturns.pos hv, hreturns.whole hv (h.allowPartial.trans hwhole), h.len]
      exact Int.toNat_of_nonneg (by omega)
    · intro hzero
      subst hzero
      exact htimely (returned_zero h.sound hmoves hout)

/-- What is reported depends on the bytes alone. -/
theorem Reported.congr {v : Int} (h : Reported len allowPartial c v)
    (htarget : c'.target = c.target) (hmoved : c'.moved = c.moved) :
    Reported len allowPartial c' v := by
  constructor
  · rw [hmoved]
    exact h.count
  · rw [hmoved, htarget]
    exact h.content
  · exact h.whole
  · rw [hmoved]
    exact h.silent

/-- A call that has returned gets notices at most. -/
theorem run_returned {actions : List CallAction} {v : Int} (hout : c.outcome = .returned v)
    (hrun : runActions step c actions = some c') (moved : ℕ) :
    c'.outcome = .returned v ∧ c'.target = c.target ∧ c'.moved = c.moved ∧
      TimelyWaits moved actions := by
  induction actions generalizing c moved with
  | nil =>
    cases hrun
    exact ⟨hout, rfl, rfl, trivial⟩
  | cons act rest ih =>
    obtain ⟨t, hstep, hrest⟩ := (runActions_cons_eq_some _ _ _ _ _).mp hrun
    cases step_moves hstep with
    | notice n =>
      have hout₁ : ({ c with helper := c.helper.notify n } : TransferCall).outcome =
          .returned v := hout
      obtain ⟨hout', htarget, hmoved, htimely⟩ := ih hout₁ hrest (moved + 0)
      exact ⟨hout', htarget, hmoved, fun _ hact => (nomatch hact), htimely⟩
    | transfer f a block r hrunning =>
      rw [hout] at hrunning
      contradiction

/-- From any point of the call on, its value is right if and only if no wait times out too late. -/
theorem Accounted.reported_iff (hpos : 1 ≤ len) {actions : List CallAction} {v : Int}
    (hrunning : c.outcome = .running f) (h : c.Accounted len allowPartial f)
    (hrun : runActions step c actions = some c') (hout : c'.outcome = .returned v) :
    Reported len allowPartial c' v ↔ TimelyWaits c.moved.length actions := by
  induction actions generalizing c f with
  | nil =>
    cases hrun
    rw [hrunning] at hout
    contradiction
  | cons act rest ih =>
    obtain ⟨t, hstep, hrest⟩ := (runActions_cons_eq_some _ _ _ _ _).mp hrun
    cases step_moves hstep with
    | notice n =>
      have hsame : Accounted len allowPartial { c with helper := c.helper.notify n } f :=
        ⟨h.sound, h.len, h.allowPartial, h.fit, h.count, h.content⟩
      have hrunning₁ : ({ c with helper := c.helper.notify n } : TransferCall).outcome =
          .running f := hrunning
      have hnext := ih hrunning₁ hsame hrest
      have hnone (block : Bytes) (hact : CallAction.notice n = .transfer .timeout block) :
          c.moved.length = 0 := nomatch hact
      exact hnext.trans ⟨fun htimely => ⟨hnone, htimely⟩, fun htimely => htimely.2⟩
    | transfer f' a block r hrunning' hlen hwrite hmoves =>
      rw [hrunning] at hrunning'
      cases hrunning'
      cases hres : r.outcome with
      | running g =>
        rw [hres] at hrest
        have hnext : Accounted len allowPartial
            ⟨r.helper, r.errno, .running g, c.store f block, c.moved ++ block⟩ g := by
          rw [← hres]
          exact h.running hlen hwrite hmoves hres
        have hiff := ih rfl hnext hrest
        rw [List.length_append, hlen] at hiff
        have hnone (block' : Bytes)
            (hact : CallAction.transfer a block = .transfer .timeout block') :
            c.moved.length = 0 := by
          cases hact
          cases hmoves with
          | timedOut => contradiction
        exact hiff.trans ⟨fun htimely => ⟨hnone, htimely⟩, fun htimely => htimely.2⟩
      | returned w =>
        obtain ⟨hsize, hiff⟩ := h.returned hpos hmoves hres
        have hblock : block = [] := List.length_eq_zero_iff.mp (hlen.trans hsize)
        subst hblock
        have hstore : c.store f [] = c.target := by
          unfold store
          split
          · exact storeAt_nil _ _
          · rfl
        have hret : (⟨r.helper, r.errno, r.outcome, c.store f [], c.moved ++ []⟩ :
            TransferCall).outcome = .returned w := hres
        obtain ⟨hout', htarget, hmoved, htimely⟩ := run_returned hret hrest
          (c.moved.length + a.size)
        dsimp only at htarget hmoved
        rw [hstore] at htarget
        rw [List.append_nil] at hmoved
        have hvalue : w = v := by
          rw [hout'] at hout
          injection hout
        subst hvalue
        constructor
        · intro hreported
          refine ⟨fun block hact => ?_, htimely⟩
          cases hact
          rw [hiff.mp (hreported.congr htarget.symm hmoved.symm) rfl]
          rfl
        · intro htimely'
          apply Reported.congr _ htarget hmoved
          apply hiff.mpr
          intro htimeout
          subst htimeout
          exact List.length_eq_zero_iff.mp (htimely'.1 [] rfl)

/-- The value that a call returns accounts for the bytes it has moved if and only if no wait times
out after some were moved. -/
theorem reported_iff_timely (helper : TCPCommHelper) (errno : ℕ) (target : Bytes) (len : Int)
    (allowPartial : Bool) (hpos : 1 ≤ len) (hfit : len ≤ target.length) (actions : List CallAction)
    (c : TransferCall) (v : Int)
    (hrun : runActions step (start helper errno target len allowPartial) actions = some c)
    (hout : c.outcome = .returned v) :
    Reported len allowPartial c v ↔ TimelyWaits 0 actions := by
  cases hstart : (start helper errno target len allowPartial).outcome with
  | running f => exact (accounted_start hfit hstart).reported_iff hpos hstart hrun hout
  | returned w =>
    obtain ⟨hout', htarget, hmoved, htimely⟩ := run_returned hstart hrun 0
    have hvalue : w = v := by
      rw [hout'] at hout
      injection hout
    subst hvalue
    have hneg : w < 0 := by
      rcases transferEnter_returned hstart with hstatus | hshort
      · exact hstatus.1
      · omega
    constructor
    · exact fun _ => htimely
    · intro _
      exact ⟨fun hv => by omega, fun hv => by omega, fun hv => by omega, fun hv => by omega⟩

/-- Two bytes are to be written, one is accepted, and the call waits. -/
def writeFirst : List CallAction :=
  [.transfer .look [], .transfer (.call 1 0) [1], .transfer .settle [], .transfer .look []]

/-- The socket becomes writable while the call waits. -/
def writeSecond : List CallAction :=
  [.notice .dataAvail, .transfer .wake [], .transfer .look [], .transfer (.call 1 0) [2],
    .transfer .settle []]

/-- A write of two bytes in two pieces reports both. -/
theorem reported_iff_timely_inTime :
    ∃ c, runActions step (start (newTCPCommHelper 5 false) eagain [1, 2] 2 false)
        (writeFirst ++ writeSecond) = some c ∧ c.outcome = .returned 2 ∧ Reported 2 false c 2 :=
  ⟨_, rfl, rfl, (reported_iff_timely (newTCPCommHelper 5 false) eagain [1, 2] 2 false (by decide)
    (by decide) (writeFirst ++ writeSecond) _ 2 rfl rfl).mpr (by simp [TimelyWaits, writeFirst,
      writeSecond])⟩

/-- If the wait for the second byte times out, the call returns 0 and hides the first one. -/
theorem timeout_hides_written_byte :
    ∃ c, runActions step (start (newTCPCommHelper 5 false) eagain [1, 2] 2 false)
        (writeFirst ++ [.transfer .timeout []]) = some c ∧ c.outcome = .returned 0 ∧
      c.moved = [1] ∧ ¬Reported 2 false c 0 :=
  ⟨_, rfl, rfl, rfl, fun hreported => nomatch hreported.silent rfl⟩

end TransferCall

end TinySox
