import TinySox.HelperSession
import TinySox.TunnelCompletion

/-!
# A reader drains its socket before it reports the close

One thread calls `Transfer(buf, n, true)` on the reader of a connection, again and again. The peer
sends a finite stream and then its FIN. Arrivals and notifications come between any two steps, a
HUP only after the FIN. Every positive result hands over the next bytes of the stream, and a
negative result comes only when all of them have been handed over.

The counter of the notifications has 64 bits. `2^64-3` notifications lift it to the value that
stands for a HUP, and then a reader gives up a stream that has not ended.
-/

namespace TinySox

open TinySox.Common

/-- The reader of a connection and the thread that drives it. -/
structure ReaderSession where
  /-- the running call of `Transfer`, or the last one -/
  call : TransferCall
  source : SourceSocket
  /-- the bytes that positive results have handed over -/
  delivered : Bytes
  deriving DecidableEq, Repr

/-- What can happen next to the reader. -/
inductive ReaderAction
  | arrive (n : ℕ)
  | fin
  | dataAvail
  | hup
  /-- `Transfer(target, len, true)` is called, with `err` left in `errno` by earlier calls -/
  | enter (target : Bytes) (len : Int) (err : ℕ)
  | transfer (a : TransferAction) (block : Bytes)
  deriving DecidableEq, Repr

/-- The kernel reads from the queue. -/
def SourceSocket.permits (k : SourceSocket) (f : TransferFrame) (block : Bytes) :
    TransferAction → Bool
  | .call tSz err => k.reads f.dataLeft tSz err block
  | _ => true

/-- The bytes that the result of the call hands over: those that a positive result counts. -/
def TransferCall.handedOver (c : TransferCall) : Bytes :=
  match c.outcome with
  | .running _ => []
  | .returned v => c.target.take v.toNat

/-- The bytes that a running call has read. -/
def TransferCall.inFlight (c : TransferCall) : Bytes :=
  match c.outcome with
  | .running _ => c.moved
  | .returned _ => []

namespace ReaderSession

/-- The call goes on, and its result is handed over when it returns. -/
def proceed (s : ReaderSession) (c : TransferCall) (n : ℕ) : ReaderSession :=
  ⟨c, s.source.consume n, s.delivered ++ c.handedOver⟩

/-- A notice reaches the helper. -/
def notice (s : ReaderSession) (n : Notice) : ReaderSession :=
  { s with call := { s.call with helper := s.call.helper.notify n } }

/-- One step of the connection or of the thread. -/
def step (s : ReaderSession) : ReaderAction → Option ReaderSession
  | .arrive n => some { s with source := s.source.arrive n }
  | .fin =>
    if s.source.arriving = [] then some { s with source := { s.source with fin := true } } else none
  | .dataAvail => some (s.notice .dataAvail)
  | .hup => if s.source.fin then some (s.notice .hup) else none
  | .enter target len err =>
    match s.call.outcome with
    | .returned _ =>
      if 1 ≤ len ∧ len ≤ target.length then
        some (s.proceed (.start s.call.helper err target len true) 0)
      else none
    | .running _ => none
  | .transfer a block =>
    match s.call.outcome with
    | .running f =>
      if s.source.permits f block a then
        (s.call.step (.transfer a block)).map fun c => s.proceed c a.size
      else none
    | .returned _ => none

/-- The helper has just been created, and the whole stream is still to come. -/
structure Fresh (stream : Bytes) (s : ReaderSession) : Prop where
  helper : s.call.helper = newTCPCommHelper s.call.helper.fd true
  idle : s.call.outcome = .returned 0
  stream : s.source.queue ++ s.source.arriving = stream
  fin : s.source.fin = true → s.source.arriving = []
  delivered : s.delivered = []

/-- What holds between any two steps. Nothing is lost on the way to the caller, and a failure is
recorded only for a source that is drained. -/
structure Drains (stream : Bytes) (s : ReaderSession) : Prop where
  word : s.call.helper.extCnt ≤ nHup
  hup : nHup ≤ s.call.helper.extCnt → s.source.fin = true
  fin : s.source.fin = true → s.source.arriving = []
  stream : s.delivered ++ s.call.inFlight ++ s.source.queue ++ s.source.arriving = stream
  status : s.call.helper.status < 0 → s.source.Drained
  failed : ∀ v, s.call.outcome = .returned v → v < 0 → s.source.Drained
  running : ∀ f, s.call.outcome = .running f → s.call.Accounted f.len true f ∧
    (TunnelPc.reading f).Informed s.source s.call.errno

variable {stream : Bytes} {s t : ReaderSession}

/-- A fresh reader has lost nothing. -/
theorem Fresh.drains (h : s.Fresh stream) : s.Drains stream := by
  have hext : s.call.helper.extCnt = 1 := by rw [h.helper]; rfl
  have hstatus : s.call.helper.status = 0 := by rw [h.helper]; rfl
  constructor
  · rw [hext]
    decide
  · rw [hext]
    exact fun hle => absurd hle (by decide)
  · exact h.fin
  · rw [h.delivered, TransferCall.inFlight, h.idle]
    exact h.stream
  · omega
  · intro v hv hneg
    rw [h.idle] at hv
    cases hv
    contradiction
  · intro f hf
    rw [h.idle] at hf
    contradiction

/-- The connection goes on: what is known about the source stays true. -/
theorem Drains.of_source (h : s.Drains stream) {k : SourceSocket}
    (hfin : s.source.fin = true → k.fin = true) (hnone : k.fin = true → k.arriving = [])
    (hdrained : s.source.Drained → k.Drained)
    (hsame : k.queue ++ k.arriving = s.source.queue ++ s.source.arriving) :
    Drains stream { s with source := k } := by
  constructor
  · exact h.word
  · exact fun hle => hfin (h.hup hle)
  · exact hnone
  · rw [← h.stream]
    simp only [List.append_assoc, hsame]
  · exact fun hneg => hdrained (h.status hneg)
  · exact fun v hv hneg => hdrained (h.failed v hv hneg)
  · exact fun f hf => ⟨(h.running f hf).1, (h.running f hf).2.mono hfin hdrained⟩

/-- A notice is no byte and no failure. -/
theorem Drains.notice (h : s.Drains stream) {n : Notice} (hne : n ≠ .cancel)
    (hup : nHup ≤ (s.call.helper.notify n).extCnt → s.source.fin = true) :
    (s.notice n).Drains stream := by
  constructor
  · exact TCPCommHelper.notify_le hne h.word
  · exact hup
  · exact h.fin
  · exact h.stream
  · intro hneg
    apply h.status
    simpa only [ReaderSession.notice, TCPCommHelper.notify_status] using hneg
  · exact h.failed
  · intro f hf
    obtain ⟨haccounted, hinformed⟩ := h.running f hf
    exact ⟨⟨haccounted.sound, haccounted.len, haccounted.allowPartial, haccounted.fit,
      haccounted.count, haccounted.content⟩, hinformed⟩

/-- What a step of the call hands over or keeps in flight, and what is left in the queue, are the
bytes that were there before. -/
theorem Drains.proceed (h : s.Drains stream) {c : TransferCall} {n : ℕ}
    (hext : c.helper.extCnt = s.call.helper.extCnt)
    (hbytes : c.handedOver ++ c.inFlight ++ (s.source.consume n).queue =
      s.call.inFlight ++ s.source.queue)
    (hstatus : c.helper.status < 0 → (s.source.consume n).Drained)
    (hfailed : ∀ v, c.outcome = .returned v → v < 0 → (s.source.consume n).Drained)
    (hrunning : ∀ f, c.outcome = .running f → c.Accounted f.len true f ∧
      (TunnelPc.reading f).Informed (s.source.consume n) c.errno) :
    (s.proceed c n).Drains stream := by
  constructor
  · exact Nat.le_trans (Nat.le_of_eq hext) h.word
  · exact fun hle => h.hup (Nat.le_trans hle (Nat.le_of_eq hext))
  · exact h.fin
  · have hstream := h.stream
    rw [List.append_assoc s.delivered, ← hbytes] at hstream
    simp only [ReaderSession.proceed, List.append_assoc] at hstream ⊢
    exact hstream
  · exact hstatus
  · exact hfailed
  · exact hrunning

/-- A call that starts has read nothing, and one that returns at once hands over nothing. -/
theorem Drains.enter (h : s.Drains stream) {target : Bytes} {len : Int} {v₀ : Int} (err : ℕ)
    (hidle : s.call.outcome = .returned v₀) (hlen : 1 ≤ len) (hfit : len ≤ target.length) :
    (s.proceed (.start s.call.helper err target len true) 0).Drains stream := by
  have hbefore : s.call.inFlight = [] := by
    rw [TransferCall.inFlight, hidle]
  have hext : (TransferCall.start s.call.helper err target len true).helper.extCnt =
      s.call.helper.extCnt := rfl
  cases henter : transferEnter s.call.helper len true with
  | running f =>
    have hrunning : (TransferCall.start s.call.helper err target len true).outcome = .running f :=
      henter
    obtain ⟨-, hpc, hlen', -, -⟩ := transferEnter_running henter
    have haccounted := TransferCall.accounted_start hfit hrunning
    apply h.proceed hext
    · rw [TransferCall.handedOver, TransferCall.inFlight, hrunning, hbefore]
      rfl
    · exact fun hneg => (h.status hneg).consume 0
    · intro v hv
      rw [hrunning] at hv
      contradiction
    · intro g hg
      rw [hrunning] at hg
      cases hg
      refine ⟨⟨haccounted.sound, (Int.toNat_natCast _).symm, haccounted.allowPartial,
        haccounted.fit, haccounted.count, haccounted.content⟩, ?_⟩
      simp only [TunnelPc.Informed, hpc]
  | returned v =>
    have hreturned : (TransferCall.start s.call.helper err target len true).outcome = .returned v :=
      henter
    obtain ⟨hneg, hstatus⟩ : v < 0 ∧ v = s.call.helper.status := by
      rcases transferEnter_returned henter with hfailed | hzero
      · exact hfailed
      · omega
    apply h.proceed hext
    · rw [TransferCall.handedOver, TransferCall.inFlight, hreturned, hbefore]
      simp only [Int.toNat_of_nonpos (Int.le_of_lt hneg), List.take_zero]
      rfl
    · exact fun hneg => (h.status hneg).consume 0
    · intro w hw hfailed
      exact (h.status (by omega)).consume 0
    · intro g hg
      rw [hreturned] at hg
      contradiction

variable {f : TransferFrame} {a : TransferAction} {r : TransferResult} {block : Bytes}

/-- The status becomes negative only when the source is drained. -/
theorem Drains.drained_of_neg (h : s.Drains stream) (hrunning : s.call.outcome = .running f)
    (hmoves : TransferMoves s.call.helper s.call.errno f a r) (hneg : r.helper.status < 0) :
    s.source.Drained := by
  obtain ⟨haccounted, hinformed⟩ := h.running f hrunning
  cases hmoves with
  | blocked | snapshot | woken | timedOut | called | complete => exact h.status hneg
  | cancelled hpc hlt hcancel =>
    have hword := h.word
    have hnext := nHup_succ
    omega
  | partialDone curCnt tSz hpc hleft hwhole hpos =>
    simp only [TunnelPc.Informed, hpc] at hinformed
    rcases TCPCommHelper.markSeen_status_neg hneg with hbefore | hhup
    · exact h.status hbefore
    · exact (hinformed hleft).1 (.inl hhup)
  | failed curCnt tSz hpc hleft hwhole hneg =>
    simp only [TunnelPc.Informed, hpc] at hinformed
    obtain ⟨hend, hblocked⟩ := hinformed hleft
    have hnone : tSz ≤ 0 := hwhole haccounted.allowPartial
    rcases TCPCommHelper.markError_status_neg hneg with hseen | herror
    · rcases TCPCommHelper.markSeen_status_neg hseen with hbefore | hhup
      · exact h.status hbefore
      · exact hend (.inl hhup)
    · apply hend
      right
      by_contra hzero
      exact herror (hblocked (by omega))
  | again curCnt tSz hpc hleft hwhole hok => exact absurd hneg (Int.not_lt.mpr hok)

/-- A call that goes on knows what its snapshot and its system call have told about the source. -/
theorem Drains.informed_running {f' : TransferFrame} (h : s.Drains stream)
    (hrunning : s.call.outcome = .running f) (hpermits : s.source.permits f block a = true)
    (hmoves : TransferMoves s.call.helper s.call.errno f a r) (hout : r.outcome = .running f') :
    (TunnelPc.reading f').Informed (s.source.consume a.size) r.errno := by
  have hinformed := (h.running f hrunning).2
  cases hmoves with
  | blocked | woken | again =>
    cases hout
    trivial
  | snapshot =>
    cases hout
    exact h.hup
  | called curCnt tSz err hpc hge hle =>
    cases hout
    simp only [TunnelPc.Informed, hpc] at hinformed
    intro hleft
    obtain ⟨hqueue, hend, hblocked⟩ := SourceSocket.reads_short hpermits hleft
    refine ⟨fun hdone => ⟨?_, hqueue⟩, fun hneg => ?_⟩
    · exact hdone.elim hinformed hend
    · rw [if_pos hneg]
      exact hblocked hneg
  | cancelled | timedOut | complete | partialDone | failed => cases hout

/-- What a step delivers was at the front of the queue. -/
theorem permits_append (hlen : block.length = a.size)
    (hpermits : s.source.permits f block a = true) :
    block ++ (s.source.consume a.size).queue = s.source.queue := by
  cases a with
  | call tSz err => exact SourceSocket.reads_append hpermits
  | look | wake | timeout | settle =>
    obtain rfl : block = [] := List.eq_nil_of_length_eq_zero hlen
    rfl

/-- The result of a call counts exactly the bytes that it has read. -/
theorem take_returned {v : Int} (haccounted : s.call.Accounted f.len true f)
    (hmoves : TransferMoves s.call.helper s.call.errno f a r) (hout : r.outcome = .returned v) :
    s.call.target.take v.toNat = s.call.moved := by
  have hreturns := (hmoves.sound_returned haccounted.sound hout).2
  have hmoved : v.toNat = f.moved := by
    by_cases hpos : 0 < v
    · rw [hreturns.pos hpos, Int.toNat_natCast]
    · rw [hreturns.unmoved (by omega) haccounted.allowPartial]
      omega
  rw [hmoved, haccounted.content]

/-- A step of the call loses nothing. -/
theorem Drains.transfer (h : s.Drains stream) (hrunning : s.call.outcome = .running f)
    (hpermits : s.source.permits f block a = true) (hlen : block.length = a.size)
    (hwrite : s.call.helper.isReader = false → block = (s.call.target.drop f.moved).take a.size)
    (hmoves : TransferMoves s.call.helper s.call.errno f a r) :
    (s.proceed ⟨r.helper, r.errno, r.outcome, s.call.store f block, s.call.moved ++ block⟩
      a.size).Drains stream := by
  obtain ⟨haccounted, -⟩ := h.running f hrunning
  have hbefore : s.call.inFlight = s.call.moved := by
    rw [TransferCall.inFlight, hrunning]
  have hqueue := permits_append hlen hpermits
  have hdrained (hneg : r.helper.status < 0) : (s.source.consume a.size).Drained :=
    (h.drained_of_neg hrunning hmoves hneg).consume a.size
  cases hout : r.outcome with
  | running f' =>
    have haccounted' := haccounted.running hlen hwrite hmoves hout
    have hkept := (hmoves.sound_running haccounted.sound hout).2.1
    rw [← hout]
    apply h.proceed hmoves.extCnt_eq
    · simp only [TransferCall.handedOver, TransferCall.inFlight, hout, hrunning, List.nil_append,
        List.append_assoc, hqueue]
    · exact hdrained
    · intro v hv
      dsimp only at hv
      rw [hout] at hv
      contradiction
    · intro g hg
      dsimp only at hg
      rw [hout] at hg
      cases hg
      rw [hkept]
      exact ⟨haccounted', h.informed_running hrunning hpermits hmoves hout⟩
  | returned v =>
    obtain ⟨hsize, -⟩ := hmoves.sound_returned haccounted.sound hout
    obtain rfl : block = [] := List.eq_nil_of_length_eq_zero (hlen.trans hsize)
    have hsame : s.call.store f [] = s.call.target := by
      unfold TransferCall.store
      rw [storeAt_nil, ite_self]
    rw [hsame]
    apply h.proceed hmoves.extCnt_eq
    · simp only [TransferCall.handedOver, TransferCall.inFlight, hrunning, List.append_nil,
        take_returned haccounted hmoves hout]
      exact congrArg (s.call.moved ++ ·) hqueue
    · exact hdrained
    · intro w hw hneg
      cases hw
      exact hdrained (by rw [hmoves.status_returned haccounted.sound hout hneg]; exact hneg)
    · intro g hg
      contradiction

/-- The next notification does not lift the counter to the value of a HUP. -/
def Counts (s : ReaderSession) : ReaderAction → Prop
  | .dataAvail => s.call.helper.overcounts .dataAvail = false
  | _ => True

/-- Every step keeps the invariant, unless a notification is taken for a HUP. -/
theorem drains_step {act : ReaderAction} (h : s.Drains stream) (hcounts : s.Counts act)
    (hstep : s.step act = some t) : t.Drains stream := by
  cases act with
  | arrive n =>
    cases hstep
    have hnothing : s.source.fin = true → (s.source.arrive n).arriving = [] := by
      intro hfin
      rw [SourceSocket.arrive, h.fin hfin, List.drop_nil]
    apply h.of_source (k := s.source.arrive n) id hnothing
    · intro hdrained
      refine ⟨hdrained.1, ?_⟩
      rw [SourceSocket.arrive, hdrained.2, h.fin hdrained.1, List.take_nil, List.append_nil]
    · simp only [SourceSocket.arrive, List.append_assoc, List.take_append_drop]
  | fin =>
    simp only [step, Option.ite_none_right_eq_some, Option.some.injEq] at hstep
    obtain ⟨hnone, rfl⟩ := hstep
    exact h.of_source (fun _ => rfl) (fun _ => hnone) (fun hdrained => ⟨rfl, hdrained.2⟩) rfl
  | dataAvail =>
    cases hstep
    apply h.notice (by decide)
    intro hle
    have hlt := TCPCommHelper.notifyDataAvail_lt hcounts
    apply h.hup
    by_contra hbelow
    exact Nat.not_lt.mpr hle (hlt.mpr (Nat.not_le.mp hbelow))
  | hup =>
    simp only [step, Option.ite_none_right_eq_some, Option.some.injEq] at hstep
    obtain ⟨hfin, rfl⟩ := hstep
    exact h.notice (by decide) fun _ => hfin
  | enter target len err =>
    simp only [step] at hstep
    split at hstep
    · rename_i v hidle
      simp only [Option.ite_none_right_eq_some, Option.some.injEq] at hstep
      obtain ⟨⟨hlen, hfit⟩, rfl⟩ := hstep
      exact h.enter err hidle hlen hfit
    · contradiction
  | transfer a block =>
    simp only [step] at hstep
    split at hstep
    · rename_i f hrunning
      simp only [Option.ite_none_right_eq_some, Option.map_eq_some_iff] at hstep
      obtain ⟨hpermits, c, hc, rfl⟩ := hstep
      cases TransferCall.step_moves hc with
      | transfer g _ _ r hrunning' hlen hwrite hmoves =>
        cases hrunning.symm.trans hrunning'
        exact h.transfer hrunning hpermits hlen hwrite hmoves
    · contradiction

/-- Only a notification moves the counter without ending its use. -/
theorem extCnt_step {act : ReaderAction} (hstep : s.step act = some t)
    (hlt : t.call.helper.extCnt < nHup) :
    t.call.helper.extCnt = s.call.helper.extCnt + if act = .dataAvail then 1 else 0 := by
  cases act with
  | arrive n =>
    cases hstep
    rfl
  | fin =>
    simp only [step, Option.ite_none_right_eq_some, Option.some.injEq] at hstep
    obtain ⟨-, rfl⟩ := hstep
    rfl
  | dataAvail =>
    cases hstep
    simp only [notice, TCPCommHelper.notify, TCPCommHelper.notifyDataAvail] at hlt ⊢
    split at hlt
    · rename_i hbefore
      rw [if_pos hbefore]
      rfl
    · contradiction
  | hup =>
    simp only [step, Option.ite_none_right_eq_some, Option.some.injEq] at hstep
    obtain ⟨-, rfl⟩ := hstep
    simp only [notice, TCPCommHelper.notify, TCPCommHelper.notifyHUP] at hlt
    split at hlt
    · exact absurd hlt (Nat.lt_irrefl nHup)
    · contradiction
  | enter target len err =>
    simp only [step] at hstep
    split at hstep
    · simp only [Option.ite_none_right_eq_some, Option.some.injEq] at hstep
      obtain ⟨-, rfl⟩ := hstep
      rfl
    · contradiction
  | transfer a block =>
    simp only [step] at hstep
    split at hstep
    · simp only [Option.ite_none_right_eq_some, Option.map_eq_some_iff] at hstep
      obtain ⟨-, c, hc, rfl⟩ := hstep
      cases TransferCall.step_moves hc with
      | transfer f _ _ r hrunning hlen hwrite hmoves => exact hmoves.extCnt_eq
    · contradiction

/-- Fewer notifications than the counter has room for do not reach the value of a HUP. -/
theorem counts_of_few {actions : List ReaderAction}
    (hfew : s.call.helper.extCnt < nHup →
      s.call.helper.extCnt + actions.count .dataAvail < nHup) :
    RunMeets step Counts s actions := by
  induction actions generalizing s with
  | nil => trivial
  | cons act rest ih =>
    rw [List.count_cons] at hfew
    simp only [beq_iff_eq] at hfew
    constructor
    · cases act with
      | dataAvail =>
        simp only [reduceIte] at hfew
        apply decide_eq_false
        omega
      | arrive | fin | hup | enter | transfer => trivial
    · cases hstep : s.step act with
      | none => trivial
      | some t =>
        apply ih
        intro hlt
        have hmoved := extCnt_step hstep hlt
        omega

/-- A reader hands over a prefix of the stream, and the whole stream before its first negative
result, as long as fewer than `2^64-3` notifications reach it. -/
theorem delivered_stream {s₀ : ReaderSession} {actions : List ReaderAction}
    (hfresh : s₀.Fresh stream) (hfew : actions.count .dataAvail < 2 ^ 64 - 3)
    (hrun : runActions step s₀ actions = some s) :
    s.delivered <+: stream ∧
      ∀ v, s.call.outcome = .returned v → v < 0 → s.delivered = stream := by
  have hext : s₀.call.helper.extCnt = 1 := by rw [hfresh.helper]; rfl
  have hcounts : RunMeets step Counts s₀ actions := by
    apply counts_of_few
    intro hlt
    unfold nHup
    omega
  have hs : s.Drains stream := runActions_invariant_of_meets
    (fun _ _ _ h hcounts hstep => drains_step h hcounts hstep) hfresh.drains hcounts hrun
  have hstream := hs.stream
  constructor
  · rw [← hstream, List.append_assoc, List.append_assoc]
    exact List.prefix_append _ _
  · intro v hv hneg
    obtain ⟨hfin, hqueue⟩ := hs.failed v hv hneg
    rw [TransferCall.inFlight, hv, hqueue, hs.fin hfin] at hstream
    simpa only [List.append_nil] using hstream

/-- A reader whose peer is about to send two bytes. -/
def twoBytes : ReaderSession :=
  ⟨⟨newTCPCommHelper 5 true, 0, .returned 0, [], []⟩, ⟨[65, 66], [], false⟩, []⟩

/-- A fresh reader whose peer is about to send two bytes. -/
theorem twoBytes_fresh : twoBytes.Fresh [65, 66] :=
  ⟨rfl, rfl, rfl, (fun h => nomatch h), rfl⟩

/-- The peer sends its bytes and the FIN, and the reader takes them one by one. -/
def readToEnd : List ReaderAction :=
  [.arrive 2, .fin, .hup, .enter [0] 1 0, .transfer .look [], .transfer (.call 1 0) [65],
    .transfer .settle [], .enter [0] 1 0, .transfer .look [], .transfer (.call 1 0) [66],
    .transfer .settle [], .enter [0] 1 0, .transfer .look [], .transfer (.call 0 0) [],
    .transfer .settle []]

/-- Two full reads under a HUP leave the reader usable, and the third one finds the end. -/
theorem delivered_stream_readToEnd :
    ∃ s, runActions step twoBytes readToEnd = some s ∧ s.call.outcome = .returned (-1) ∧
      s.delivered = [65, 66] := by
  have hrun : runActions step twoBytes readToEnd =
      some ⟨⟨⟨5, true, nHup, 0, -1⟩, 0, .returned (-1), [0], []⟩, ⟨[], [], true⟩, [65, 66]⟩ := by
    decide
  have hfew : readToEnd.count .dataAvail < 2 ^ 64 - 3 := by decide
  exact ⟨_, hrun, rfl, (delivered_stream twoBytes_fresh hfew hrun).2 (-1) rfl (by decide)⟩

/-- Notifications alone lift the counter. -/
theorem run_dataAvail (s : ReaderSession) (n : ℕ) (hle : s.call.helper.extCnt + n ≤ nHup) :
    runActions step s (List.replicate n .dataAvail) =
      some { s with call := { s.call with helper := { s.call.helper with
        extCnt := s.call.helper.extCnt + n } } } := by
  induction n generalizing s with
  | zero => rfl
  | succ n ih =>
    have hlt : s.call.helper.extCnt < nHup := by omega
    have hnext : s.step .dataAvail = some { s with call := { s.call with helper :=
        { s.call.helper with extCnt := s.call.helper.extCnt + 1 } } } := by
      simp only [step, notice, TCPCommHelper.notify, TCPCommHelper.notifyDataAvail, if_pos hlt]
    have hrest : s.call.helper.extCnt + 1 + n ≤ nHup := by omega
    rw [List.replicate_succ, runActions, hnext, Option.bind_some, ih _ hrest]
    simp only [Nat.add_assoc, Nat.add_comm 1 n]

/-- One byte arrives, and a short read takes it; the next call fails. -/
def readFirst : List ReaderAction :=
  [.arrive 1, .enter [0, 0] 2 0, .transfer .look [], .transfer (.call 1 0) [65],
    .transfer .settle [], .enter [0, 0] 2 0]

/-- After `2^64-3` notifications a short read is taken for the last one, although the stream goes
on. -/
theorem notifications_end_stream :
    ∃ (stream : Bytes) (s₀ s : ReaderSession) (actions : List ReaderAction),
      s₀.Fresh stream ∧ runActions step s₀ actions = some s ∧
        s.call.outcome = .returned (-1) ∧ s.source.fin = false ∧ s.delivered ≠ stream := by
  have hlift := run_dataAvail twoBytes (2 ^ 64 - 3) (by decide)
  have hread : runActions step { twoBytes with call := { twoBytes.call with helper :=
      { twoBytes.call.helper with extCnt := twoBytes.call.helper.extCnt + (2 ^ 64 - 3) } } }
      readFirst = some ⟨⟨⟨5, true, nHup, 0, -1⟩, 0, .returned (-1), [0, 0], []⟩,
        ⟨[66], [], false⟩, [65]⟩ := by decide
  have hrun : runActions step twoBytes (List.replicate (2 ^ 64 - 3) .dataAvail ++ readFirst) =
      some ⟨⟨⟨5, true, nHup, 0, -1⟩, 0, .returned (-1), [0, 0], []⟩, ⟨[66], [], false⟩, [65]⟩ := by
    rw [runActions_append, hlift]
    exact hread
  exact ⟨_, twoBytes, _, _, twoBytes_fresh, hrun, rfl, rfl, by decide⟩

end ReaderSession

end TinySox
