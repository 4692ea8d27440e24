import TinySox.Handshake
import TinySox.HandshakeTranscript
import TinySox.EdgeTriggered
import TinySox.TransferHealth

/-!
# The handshake on a segmented stream

The handshake runs over a reader whose stream arrives in segments, and over a writer. It
takes its fields from the receive queue, as far as they have arrived, with edges and
notifications in between, and its replies are sent as far as the socket takes them. Every
other operation is answered by an environment that remembers what it was asked. The timer
of the reader expires only when nothing is left to arrive or to be reported.

Such a run follows the evaluation of the program on the whole stream, and so do all runs
on the same stream, as long as no short transfer is taken for an error, no notification
lifts a counter to `N_HUP`, and the client takes the replies. The last theorem shows two
segmentations, one of which makes the job give up.
-/

namespace TinySox

open TinySox.Common

/-- An environment that answers operations and changes its state. -/
abbrev Environment (E : Type) := (o : JobOp) → E → o.Answer × E

/-- The whole stream, the environment, and what was sent and dialled. -/
structure Script (E : Type) where
  stream : Bytes
  env : E
  log : Transcript

namespace Handshake

variable {E : Type} {A B : Type}

/-- The answers when the whole stream is there from the beginning and replies are sent at once. The
job ignores what its one partial transfer returns. -/
def scripted (env : Environment E) : (o : JobOp) → Script E → o.Answer × Script E
  | .transferIn _ len allowPartial, s =>
    if allowPartial then (⟨0, []⟩, s)
    else if len ≤ s.stream.length then
      (⟨len, s.stream.take len⟩, { s with stream := s.stream.drop len })
    else (⟨0, s.stream⟩, { s with stream := [] })
  | .transferOut _ data, s => (data.length, { s with log := s.log.reply data data.length })
  | o, s =>
    ((env o s.env).1, { s with env := (env o s.env).2, log := s.log.record o (env o s.env).1 })

/-- The result of the job and its conversation. -/
def outcome (env : Environment E) (p : HandshakeProg Empty) (s : Script E) :
    Except JobResult Empty × Transcript :=
  ((p.eval (scripted env) s).1, (p.eval (scripted env) s).2.log)

/-- The program reads nothing more, and leaves early. -/
def QuitsUnread : HandshakeProg A → Prop
  | .pure _ => False
  | .exit _ => True
  | .call o k => (∀ id len allowPartial, o ≠ .transferIn id len allowPartial) ∧ ∀ a, QuitsUnread (k a)

/-- A partial transfer is the last one, and its answer is ignored. -/
def PartialLast : HandshakeProg A → Prop
  | .pure _ => True
  | .exit _ => True
  | .call o k =>
    (∀ id len, o = .transferIn id len true → ∀ a, QuitsUnread (k a) ∧ ∀ b, k a = k b) ∧
      ∀ a, PartialLast (k a)

end Handshake

/-- A handshake in the middle of its stream. -/
structure SegmentRun (E : Type) where
  prog : HandshakeProg Empty
  env : E
  log : Transcript
  dir : Direction
  queue : Bytes
  segments : List Bytes
  /-- what the transfer in progress has delivered -/
  got : Bytes
  writer : TCPCommHelper
  /-- the transfer of the writer in progress, with the `errno` of its thread -/
  writing : Option TransferFrame
  errno : ℕ
  /-- what the socket has taken of the replies -/
  sent : Bytes

/-- What can happen next. -/
inductive SegmentAction
  | arrive
  | fetch
  | deliver
  /-- an edge of the other direction notifies the reader too -/
  | notify
  /-- a transfer begins, with `err` left in `errno` by earlier calls -/
  | enter (err : ℕ)
  | transfer (a : TransferAction)
  /-- the writer is notified -/
  | notifyWriter
  /-- a reply is to be sent, with `err` left in `errno` by earlier calls -/
  | send (err : ℕ)
  | write (a : TransferAction)
  | answer
  deriving DecidableEq, Repr

/-- A write of a reply ends without the socket taking anything, for another reason than that it would
block, or its wait times out. -/
def SegmentAction.failsReply : SegmentAction → Bool
  | .write .timeout => true
  | .write (.call tSz err) => tSz ≤ 0 ∧ ¬(tSz < 0 ∧ err = eagain)
  | _ => false

namespace SegmentRun

variable {E : Type}

/-- Go on after a step of a transfer, which takes bytes from the queue. -/
def resume (s : SegmentRun E) (k : TransferIn → HandshakeProg Empty) (dir : Direction) (taken : ℕ) :
    TransferOutcome → SegmentRun E
  | .running _ =>
    { s with dir := dir, queue := s.queue.drop taken, got := s.got ++ s.queue.take taken }
  | .returned ret =>
    { s with
      dir := dir
      queue := s.queue.drop taken
      got := []
      prog := k ⟨ret, s.got ++ s.queue.take taken⟩ }

/-- Go on after a step of a transfer of the writer, in which the socket takes the block. -/
def resumeWrite (s : SegmentRun E) (data : Bytes) (k : Int → HandshakeProg Empty)
    (writer : TCPCommHelper) (errno : ℕ) (block : Bytes) : TransferOutcome → SegmentRun E
  | .running f =>
    { s with writer := writer, writing := some f, errno := errno, sent := s.sent ++ block }
  | .returned ret =>
    { s with
      writer := writer
      writing := none
      errno := errno
      sent := s.sent ++ block
      prog := k ret
      log := s.log.reply data ret }

/-- The timer expires only when no segment, edge or notification is left that would have come
before. -/
def timely (s : SegmentRun E) : TransferAction → Bool
  | .timeout => s.segments = [] ∧ s.dir.raised = false ∧ s.dir.fetched = false ∧
      s.dir.helper.extCnt ≤ s.dir.helper.intCnt
  | _ => true

/-- One step of the network, of the epoll worker, or of the job. -/
def step (env : Environment E) (s : SegmentRun E) : SegmentAction → Option (SegmentRun E)
  | .arrive =>
    match s.segments with
    | [] => none
    | segment :: rest => (s.dir.step (.arrive segment.length)).map fun dir =>
      { s with dir := dir, queue := s.queue ++ segment, segments := rest }
  | .fetch => (s.dir.step .fetch).map fun dir => { s with dir := dir }
  | .deliver => (s.dir.step (.deliver .dataAvail)).map fun dir => { s with dir := dir }
  | .notify => (s.dir.step (.notify .dataAvail)).map fun dir => { s with dir := dir }
  | .enter err =>
    match s.prog with
    | .call (.transferIn _ len allowPartial) k =>
      (s.dir.step (.enter len allowPartial err)).map fun dir =>
        s.resume k dir 0 (transferEnter s.dir.helper len allowPartial)
    | _ => none
  | .transfer a =>
    match s.prog, s.dir.frame with
    | .call (.transferIn _ _ _) k, some f =>
      if s.timely a then
        (s.dir.step (.transfer a)).bind fun dir =>
          (transferStep s.dir.helper s.dir.errno f a).map fun r =>
            s.resume k dir a.size r.outcome
      else none
    | _, _ => none
  | .notifyWriter => some { s with writer := s.writer.notifyDataAvail }
  | .send err =>
    match s.prog, s.writing with
    | .call (.transferOut _ data) k, none =>
      some (s.resumeWrite data k s.writer err [] (transferEnter s.writer data.length false))
    | _, _ => none
  | .write a =>
    match s.prog, s.writing with
    | .call (.transferOut _ data) k, some f =>
      (transferStep s.writer s.errno f a).map fun r =>
        s.resumeWrite data k r.helper r.errno ((data.drop f.moved).take a.size) r.outcome
    | _, _ => none
  | .answer =>
    match s.prog with
    | .call (.transferIn _ _ _) _ | .call (.transferOut _ _) _ => none
    | .call o k => some { s with
        prog := k (env o s.env).1
        env := (env o s.env).2
        log := s.log.record o (env o s.env).1 }
    | _ => none

/-- The next statement of a `Transfer` takes a short read or write for an error. -/
def misreadsErrno (s : SegmentRun E) : Bool :=
  s.dir.frame.any (fun f => f.misreadsErrno s.dir.errno) ||
    s.writing.any (fun f => f.misreadsErrno s.errno)

/-- The action lifts the counter of a helper to `N_HUP`, though there is no HUP. -/
def overcounts (s : SegmentRun E) : SegmentAction → Bool
  | .deliver | .notify => s.dir.helper.overcounts .dataAvail
  | .notifyWriter => s.writer.overcounts .dataAvail
  | _ => false

/-- The step takes no short transfer for an error and no count for a HUP, and the client takes what is
sent. -/
def Untroubled (s : SegmentRun E) (a : SegmentAction) : Prop :=
  s.misreadsErrno = false ∧ s.overcounts a = false ∧ a.failsReply = false

instance (s : SegmentRun E) (a : SegmentAction) : Decidable (s.Untroubled a) :=
  inferInstanceAs (Decidable (_ ∧ _))

/-- The program is about to start on new helpers, and the stream is cut into segments. Some of
it may have arrived. -/
structure Started (p : HandshakeProg Empty) (e : E) (stream : Bytes) (s : SegmentRun E) : Prop where
  prog : s.prog = p
  env : s.env = e
  log : s.log = .empty
  dir : s.dir.Fresh
  avail : s.dir.avail = s.queue.length
  stream : s.queue ++ s.segments.flatten = stream
  got : s.got = []
  writer : s.writer = newTCPCommHelper s.writer.fd false
  writing : s.writing = none
  sent : s.sent = []

end SegmentRun

/-- All the bytes that were handed to the writer, in order. -/
def Transcript.written (g : Transcript) : Bytes := g.replies.flatMap Prod.fst

/-- One more reply. -/
theorem Transcript.written_reply (g : Transcript) (data : Bytes) (r : Int) :
    (g.reply data r).written = g.written ++ data := by
  rw [written, reply, List.flatMap_append, List.flatMap_singleton, written]

namespace Handshake

variable {E : Type} {A B : Type} {env : Environment E} {e : E} {g : Transcript} {id len : ℕ}

/-- A program that reads nothing more does not depend on the stream. -/
theorem QuitsUnread.outcome_eq {p : HandshakeProg Empty} (h : QuitsUnread p)
    (stream stream' : Bytes) : outcome env p ⟨stream, e, g⟩ = outcome env p ⟨stream', e, g⟩ := by
  induction p generalizing e g with
  | pure a => exact a.elim
  | exit r => rfl
  | call o k ih =>
    cases o with
    | transferIn id len allowPartial => exact absurd rfl (h.1 id len allowPartial)
    | _ => exact ih _ (h.2 _)

/-- A field that has been delivered is what the evaluation takes from the stream. -/
theorem outcome_whole (k : TransferIn → HandshakeProg Empty) {data : Bytes} (hlen : data.length = len)
    (rest : Bytes) :
    outcome env (.call (.transferIn id len false) k) ⟨data ++ rest, e, g⟩ =
      outcome env (k ⟨len, data⟩) ⟨rest, e, g⟩ := by
  subst hlen
  have hfit : data.length ≤ (data ++ rest).length := by
    rw [List.length_append]
    omega
  have hanswer : scripted env (.transferIn id data.length false) ⟨data ++ rest, e, g⟩ =
      (⟨data.length, data⟩, ⟨rest, e, g⟩) := by
    simp only [scripted, Bool.false_eq_true, if_false, if_pos hfit, List.take_left, List.drop_left]
  rw [outcome, outcome, Prog.eval, hanswer]

/-- A stream that ends within a field makes the transfer return 0. -/
theorem outcome_short (k : TransferIn → HandshakeProg Empty) {data : Bytes}
    (hlen : data.length < len) :
    outcome env (.call (.transferIn id len false) k) ⟨data, e, g⟩ =
      outcome env (k ⟨0, data⟩) ⟨[], e, g⟩ := by
  have hanswer : scripted env (.transferIn id len false) ⟨data, e, g⟩ =
      (⟨0, data⟩, ⟨[], e, g⟩) := by
    simp only [scripted, Bool.false_eq_true, if_false, if_neg (Nat.not_le.mpr hlen)]
  rw [outcome, outcome, Prog.eval, hanswer]

/-- What a partial transfer returns makes no difference. -/
theorem outcome_ignored {k : TransferIn → HandshakeProg Empty}
    (hlast : PartialLast (.call (.transferIn id len true) k : HandshakeProg Empty))
    (r : TransferIn) (stream stream' : Bytes) :
    outcome env (.call (.transferIn id len true) k) ⟨stream, e, g⟩ =
      outcome env (k r) ⟨stream', e, g⟩ := by
  obtain ⟨hquits, hsame⟩ := hlast.1 id len rfl ⟨0, []⟩
  calc outcome env (.call (.transferIn id len true) k) ⟨stream, e, g⟩
      = outcome env (k ⟨0, []⟩) ⟨stream, e, g⟩ := rfl
    _ = outcome env (k ⟨0, []⟩) ⟨stream', e, g⟩ := hquits.outcome_eq stream stream'
    _ = outcome env (k r) ⟨stream', e, g⟩ := by rw [hsame r]

end Handshake

namespace SegmentRun

open Handshake

variable {E : Type} {env : Environment E} {total : Except JobResult Empty × Transcript}
  {s u : SegmentRun E}

/-- What the reader's transfer in progress satisfies. -/
structure Busy (s : SegmentRun E) (f : TransferFrame) : Prop where
  sound : f.Sound
  usable : f.pc.Usable s.dir.errno
  prog : ∃ id k, s.prog = .call (.transferIn id f.len f.allowPartial) k
  delivered : f.allowPartial = false → s.got.length = f.moved

/-- What the writer's transfer in progress satisfies: it has sent the front of its reply. -/
structure Sending (s : SegmentRun E) (f : TransferFrame) : Prop where
  sound : f.Sound
  usable : f.pc.Usable s.errno
  whole : f.allowPartial = false
  reply : ∃ id data k, s.prog = .call (.transferOut id data) k ∧ f.len = data.length ∧
    s.sent = s.log.written ++ data.take f.moved

/-- What the writer satisfies: between two transfers, all replies were sent. -/
structure Writes (s : SegmentRun E) : Prop where
  counter : s.writer.extCnt < nHup
  status : s.writer.status = 0
  sent : s.writing = none → s.sent = s.log.written
  sending : ∀ f, s.writing = some f → s.Sending f

/-- A program that is not about to send a reply is not sending one. -/
theorem Writes.idle (h : s.Writes) (hprog : ∀ id data k, s.prog ≠ .call (.transferOut id data) k) :
    s.writing = none := by
  rw [Option.eq_none_iff_forall_ne_some]
  intro f hf
  obtain ⟨id, data, k, hcall, -⟩ := (h.sending f hf).reply
  exact hprog id data k hcall

/-- A step of the network does not concern the writer. -/
theorem Writes.of_network (h : s.Writes) (dir : Direction) (queue : Bytes) (segments : List Bytes) :
    Writes { s with dir := dir, queue := queue, segments := segments } := by
  refine ⟨h.counter, h.status, h.sent, fun f hf => ?_⟩
  obtain ⟨hsound, husable, hwhole, hreply⟩ := h.sending f hf
  exact ⟨hsound, husable, hwhole, hreply⟩

/-- What else happens between two replies leaves the writer as it is. -/
theorem Writes.of_idle (h : s.Writes) (hidle : s.writing = none) (hwriter : u.writer = s.writer)
    (hwriting : u.writing = s.writing) (hsent : u.sent = s.sent)
    (hwritten : u.log.written = s.log.written) : u.Writes := by
  have hnone : u.writing = none := hwriting.trans hidle
  refine ⟨hwriter ▸ h.counter, hwriter ▸ h.status, fun _ => ?_, fun f hf => ?_⟩
  · rw [hsent, hwritten]
    exact h.sent hidle
  · rw [hnone] at hf
    contradiction

/-- The run is on its way to the outcome of the evaluation on the whole stream. -/
structure Follows (env : Environment E) (total : Except JobResult Empty × Transcript)
    (s : SegmentRun E) : Prop where
  awake : s.dir.Awake
  avail : s.dir.avail = s.queue.length
  counter : s.dir.helper.extCnt < nHup
  status : s.dir.helper.status = 0
  last : PartialLast s.prog
  outcome : outcome env s.prog ⟨s.got ++ (s.queue ++ s.segments.flatten), s.env, s.log⟩ = total
  idle : s.dir.frame = none → s.got = []
  busy : ∀ f, s.dir.frame = some f → s.Busy f
  writes : s.Writes

/-- A step of the network or of the epoll worker changes nothing that the job has done. -/
theorem Follows.of_network {dir : Direction} {queue : Bytes} {segments : List Bytes}
    (h : s.Follows env total) (hawake : dir.Awake) (havail : dir.avail = queue.length)
    (hcounter : dir.helper.extCnt < nHup) (hstatus : dir.helper.status = s.dir.helper.status)
    (hframe : dir.frame = s.dir.frame) (herrno : dir.errno = s.dir.errno)
    (hstream : queue ++ segments.flatten = s.queue ++ s.segments.flatten) :
    Follows env total { s with dir := dir, queue := queue, segments := segments } := by
  refine ⟨hawake, havail, hcounter, hstatus.trans h.status, h.last, ?_, ?_, ?_, ?_⟩
  · dsimp only
    rw [hstream]
    exact h.outcome
  · intro hnone
    exact h.idle (hframe ▸ hnone)
  · intro f hf
    obtain ⟨hsound, husable, hprog, hdelivered⟩ := h.busy f (hframe ▸ hf)
    exact ⟨hsound, herrno ▸ husable, hprog, hdelivered⟩
  · exact h.writes.of_network dir queue segments

/-- A program that is not about to read is not reading. -/
theorem Follows.idle_of_prog (h : s.Follows env total) {o : JobOp} {k : o.Answer → HandshakeProg Empty}
    (hprog : s.prog = .call o k) (hread : ∀ id len allowPartial, o ≠ .transferIn id len allowPartial) :
    s.dir.frame = none := by
  rw [Option.eq_none_iff_forall_ne_some]
  intro f hf
  obtain ⟨id, k', hcall⟩ := (h.busy f hf).prog
  obtain ⟨ho, -⟩ := Prog.call.inj (hprog.symm.trans hcall)
  exact hread id f.len f.allowPartial ho

/-- An answer of the environment is the one that the evaluation gets. -/
theorem Follows.answer (h : s.Follows env total) (hstep : s.step env .answer = some u) :
    u.Follows env total := by
  simp only [step] at hstep
  split at hstep
  · contradiction
  · contradiction
  · rename_i o k hread hwrite hprog
    cases hstep
    have hin (id len : ℕ) (allowPartial : Bool) : o ≠ .transferIn id len allowPartial := by
      rintro rfl
      exact hread id len allowPartial k rfl HEq.rfl
    have hout (id : ℕ) (data : Bytes) : o ≠ .transferOut id data := by
      rintro rfl
      exact hwrite id data k rfl HEq.rfl
    have hnone := h.idle_of_prog hprog hin
    have hwriting : s.writing = none := by
      apply h.writes.idle
      intro id data k' hcall
      exact hout id data (Prog.call.inj (hprog.symm.trans hcall)).1
    have hlast := h.last
    have houtcome := h.outcome
    rw [hprog] at hlast houtcome
    refine ⟨h.awake, h.avail, h.counter, h.status, hlast.2 _, ?_, h.idle, fun f hf => ?_,
      h.writes.of_idle hwriting rfl rfl rfl ?_⟩
    · cases o with
      | transferIn id len allowPartial => exact (hin id len allowPartial rfl).elim
      | transferOut id data => exact (hout id data rfl).elim
      | _ => exact houtcome
    · rw [hnone] at hf
      contradiction
    · cases o with
      | transferOut id data => exact (hout id data rfl).elim
      | _ => rfl
  · contradiction

/-- While the program is about to read, nothing is being sent. -/
theorem Follows.not_writing {id len : ℕ} {allowPartial : Bool} {k : TransferIn → HandshakeProg Empty}
    (h : s.Follows env total) (hprog : s.prog = .call (.transferIn id len allowPartial) k) :
    s.writing = none := by
  apply h.writes.idle
  intro id' data k' hcall
  obtain ⟨ho, -⟩ := Prog.call.inj (hprog.symm.trans hcall)
  cases ho

/-- While a call goes on, bytes only move from the queue to the call. -/
theorem Follows.running {f g : TransferFrame} {k : TransferIn → HandshakeProg Empty}
    {dir : Direction} {id taken : ℕ} (h : s.Follows env total)
    (hprog : s.prog = .call (.transferIn id f.len f.allowPartial) k) (hawake : dir.Awake)
    (havail : dir.avail = s.queue.length - taken) (hcounter : dir.helper.extCnt < nHup)
    (hstatus : dir.helper.status = 0) (hframe : dir.frame = some g) (hsound : g.Sound)
    (husable : g.pc.Usable dir.errno) (hlen : g.len = f.len)
    (hpart : g.allowPartial = f.allowPartial)
    (hdelivered : f.allowPartial = false → (s.got ++ s.queue.take taken).length = g.moved) :
    Follows env total (s.resume k dir taken (.running g)) := by
  refine ⟨hawake, ?_, hcounter, hstatus, h.last, ?_, fun hnone => ?_, fun g' hg' => ?_,
    h.writes.of_idle (h.not_writing hprog) rfl rfl rfl rfl⟩
  · exact havail.trans List.length_drop.symm
  · have hmoved : (s.got ++ s.queue.take taken) ++ (s.queue.drop taken ++ s.segments.flatten) =
        s.got ++ (s.queue ++ s.segments.flatten) := by
      rw [List.append_assoc, ← List.append_assoc (s.queue.take taken), List.take_append_drop]
    dsimp only [resume]
    rw [hmoved]
    exact h.outcome
  · have hnone : dir.frame = none := hnone
    rw [hframe] at hnone
    contradiction
  · have hg' : dir.frame = some g' := hg'
    rw [hframe] at hg'
    cases hg'
    exact ⟨hsound, husable, ⟨id, k, by rw [hlen, hpart]; exact hprog⟩, fun hw => hdelivered (hpart ▸ hw)⟩

/-- A call that returns continues the program where the evaluation continues it. -/
theorem Follows.returned {k : TransferIn → HandshakeProg Empty} {dir : Direction}
    {id len taken : ℕ} {allowPartial : Bool} {v : Int} (h : s.Follows env total)
    (hprog : s.prog = .call (.transferIn id len allowPartial) k) (hawake : dir.Awake)
    (havail : dir.avail = s.queue.length - taken) (hcounter : dir.helper.extCnt < nHup)
    (hstatus : dir.helper.status = 0) (hframe : dir.frame = none)
    (hwhole : allowPartial = false →
      (v = len ∧ (s.got ++ s.queue.take taken).length = len) ∨
        (v = 0 ∧ (s.got ++ s.queue.take taken).length < len ∧ s.queue.drop taken = [] ∧
          s.segments.flatten = [])) :
    Follows env total (s.resume k dir taken (.returned v)) := by
  have hlast := h.last
  have houtcome := h.outcome
  rw [hprog] at hlast houtcome
  have hmoved : s.got ++ (s.queue ++ s.segments.flatten) =
      (s.got ++ s.queue.take taken) ++ (s.queue.drop taken ++ s.segments.flatten) := by
    rw [List.append_assoc, ← List.append_assoc (s.queue.take taken), List.take_append_drop]
  rw [hmoved] at houtcome
  refine ⟨hawake, ?_, hcounter, hstatus, hlast.2 _, ?_, fun _ => rfl, fun g hg => ?_,
    h.writes.of_idle (h.not_writing hprog) rfl rfl rfl rfl⟩
  · exact havail.trans List.length_drop.symm
  · cases allowPartial with
    | true => exact (outcome_ignored hlast _ _ _).symm.trans houtcome
    | false =>
      rcases hwhole rfl with ⟨rfl, hlen⟩ | ⟨rfl, hlen, hqueue, hsegments⟩
      · exact (outcome_whole k hlen _).symm.trans houtcome
      · rw [hqueue, hsegments, List.append_nil, List.append_nil] at houtcome
        dsimp only [resume]
        rw [hqueue, hsegments]
        exact (outcome_short k hlen).symm.trans houtcome
  · have hg : dir.frame = some g := hg
    rw [hframe] at hg
    contradiction

/-- Starting a transfer keeps the run on its way. -/
theorem Follows.enter {err : ℕ} (h : s.Follows env total)
    (hstep : s.step env (.enter err) = some u) : u.Follows env total := by
  simp only [step] at hstep
  split at hstep
  · rename_i id len allowPartial k hprog
    obtain ⟨dir, hdir, rfl⟩ := Option.map_eq_some_iff.mp hstep
    have hawake := Direction.awake_step h.awake hdir
    simp only [Direction.step] at hdir
    split at hdir
    · rename_i hframe
      cases hdir
      have hgot := h.idle hframe
      have havail : s.dir.avail = s.queue.length - 0 := h.avail
      cases henter : transferEnter s.dir.helper len allowPartial with
      | running f =>
        obtain ⟨hsound, hlook, hlen, hpart, hmoved⟩ := transferEnter_running henter
        rw [Int.toNat_natCast] at hlen
        rw [henter] at hawake
        refine h.running (f := f) (by rw [hlen, hpart]; exact hprog) hawake havail h.counter h.status
          rfl hsound ?_ rfl rfl fun _ => ?_
        · rw [hlook]
          trivial
        · rw [hgot, hmoved]
          rfl
      | returned v =>
        rw [henter] at hawake
        refine h.returned hprog hawake havail h.counter h.status rfl fun _ => .inl ?_
        have hzero : v = 0 ∧ (len : Int) < 1 := by
          rcases transferEnter_returned henter with ⟨hneg, hv⟩ | ⟨hv, hlen, -⟩
          · have hstatus := h.status
            omega
          · exact ⟨hv, hlen⟩
        have hlen : len = 0 := by omega
        refine ⟨by omega, ?_⟩
        rw [hgot, hlen]
        rfl
    · contradiction
  · contradiction

/-- The system call takes no more than the queue has, and if it takes nothing, it would block. -/
theorem kernel_read {f : TransferFrame} {a : TransferAction} {r : TransferResult}
    (havail : s.dir.avail = s.queue.length) (hf : f.Sound) (hallow : s.dir.kernelAllows f a = true)
    (hmoves : TransferMoves s.dir.helper s.dir.errno f a r) :
    a.size ≤ s.queue.length ∧
      ∀ tSz err, a = .call tSz err → tSz ≤ 0 → tSz < 0 ∧ err = eagain := by
  cases hmoves with
  | called c tSz err hpc hge hle =>
    have hleft := hf.left_pos (by rw [hpc]; rfl)
    simp only [Direction.kernelAllows, Bool.ite_eq_true_distrib, decide_eq_true_eq, havail] at hallow
    split at hallow
    · refine ⟨?_, ?_⟩
      · rw [hallow.1]
        exact Nat.zero_le _
      · rintro tSz' err' hcall -
        cases hcall
        exact ⟨by omega, hallow.2⟩
    · refine ⟨?_, ?_⟩
      · rw [hallow]
        exact Nat.min_le_right _ _
      · rintro tSz' err' hcall hnone
        cases hcall
        omega
  | _ => exact ⟨Nat.zero_le _, fun tSz err hcall => by cases hcall⟩

/-- A step inside a transfer keeps the run on its way, unless a short read is taken for an error. -/
theorem Follows.transfer {a : TransferAction} (h : s.Follows env total)
    (hcond : s.Untroubled (.transfer a)) (hstep : s.step env (.transfer a) = some u) :
    u.Follows env total := by
  simp only [step] at hstep
  split at hstep
  · rename_i id len allowPartial k f hprog hframe
    simp only [Option.ite_none_right_eq_some, Option.bind_eq_some_iff, Option.map_eq_some_iff]
      at hstep
    obtain ⟨htimely, dir, hdir, r, hr, rfl⟩ := hstep
    have hawake := Direction.awake_step h.awake hdir
    simp only [Direction.step, hframe, hr, Option.map_some, Option.ite_none_right_eq_some,
      Option.some.injEq] at hdir
    obtain ⟨hallow, rfl⟩ := hdir
    have hmoves := transferStep_moves hr
    obtain ⟨hsound, husable, ⟨id', k', hcall⟩, hdelivered⟩ := h.busy f hframe
    have hmatch := hprog.symm.trans hcall
    simp only [Prog.call.injEq, JobOp.transferIn.injEq] at hmatch
    obtain ⟨⟨-, rfl, rfl⟩, -⟩ := hmatch
    have hread : f.misreadsErrno s.dir.errno = false := by
      have hmisreads := (Bool.or_eq_false_iff.mp hcond.1).1
      rw [hframe] at hmisreads
      exact hmisreads
    have hstatus := hmoves.status_eq_zero h.counter h.status husable hread
    have hcounter : r.helper.extCnt < nHup := hmoves.extCnt_eq ▸ h.counter
    obtain ⟨hsize, hkernel⟩ := kernel_read h.avail hsound hallow hmoves
    have havail : s.dir.avail - a.size = s.queue.length - a.size := by rw [h.avail]
    cases hout : r.outcome with
    | running g =>
      obtain ⟨hg, hlen, hpart, hmoved⟩ := hmoves.sound_running hsound hout
      have hg' := hmoves.usable_running h.counter husable hkernel hout
      rw [hout] at hawake
      refine h.running hprog hawake havail hcounter hstatus rfl hg hg' hlen hpart fun hw => ?_
      rw [List.length_append, List.length_take, Nat.min_eq_left hsize, hdelivered hw, hmoved]
    | returned v =>
      obtain ⟨hzero, -⟩ := hmoves.sound_returned hsound hout
      rw [hout] at hawake
      refine h.returned hprog hawake havail hcounter hstatus rfl fun hw => ?_
      have hgot : (s.got ++ s.queue.take a.size).length = f.moved := by
        rw [hzero, List.take_zero, List.append_nil, hdelivered hw]
      rw [hgot]
      rcases hmoves.returned_whole h.counter h.status hsound husable hread hout hw with
        ⟨hv, hmoved⟩ | ⟨hv, rfl, hless⟩
      · exact .inl ⟨hv, hmoved⟩
      · refine .inr ⟨hv, hless, ?_⟩
        simp only [timely, decide_eq_true_eq] at htimely
        obtain ⟨hsegments, hraised, hfetched, hlevel⟩ := htimely
        have hempty : s.dir.avail = 0 := by
          rcases h.awake.covered hlevel with hnone | hedge | hedge
          · exact hnone
          · rw [hraised] at hedge
            contradiction
          · rw [hfetched] at hedge
            contradiction
        rw [h.avail] at hempty
        rw [List.eq_nil_of_length_eq_zero hempty, hsegments]
        exact ⟨rfl, rfl⟩
  · contradiction

/-- While a reply is being sent, bytes only move from the reply to the socket. -/
theorem Follows.sending {id : ℕ} {data block : Bytes} {k : Int → HandshakeProg Empty}
    {writer : TCPCommHelper} {errno : ℕ} {f : TransferFrame} (h : s.Follows env total)
    (hprog : s.prog = .call (.transferOut id data) k) (hcounter : writer.extCnt < nHup)
    (hstatus : writer.status = 0) (hsound : f.Sound) (husable : f.pc.Usable errno)
    (hwhole : f.allowPartial = false) (hlen : f.len = data.length)
    (hsent : s.sent ++ block = s.log.written ++ data.take f.moved) :
    Follows env total (s.resumeWrite data k writer errno block (.running f)) := by
  refine ⟨h.awake, h.avail, h.counter, h.status, h.last, h.outcome, h.idle, fun g hg => ?_,
    hcounter, hstatus, (fun hnone => nomatch hnone), fun g hg => ?_⟩
  · obtain ⟨hsound', husable', hread, hdelivered⟩ := h.busy g hg
    exact ⟨hsound', husable', hread, hdelivered⟩
  · cases hg
    exact ⟨hsound, husable, hwhole, id, data, k, hprog, hlen, hsent⟩

/-- A reply that was sent is the one that the evaluation sends. -/
theorem Follows.sent {id : ℕ} {data block : Bytes} {k : Int → HandshakeProg Empty}
    {writer : TCPCommHelper} {errno : ℕ} {v : Int} (h : s.Follows env total)
    (hprog : s.prog = .call (.transferOut id data) k) (hcounter : writer.extCnt < nHup)
    (hstatus : writer.status = 0) (hv : v = data.length)
    (hsent : s.sent ++ block = s.log.written ++ data) :
    Follows env total (s.resumeWrite data k writer errno block (.returned v)) := by
  have hnone : s.dir.frame = none := h.idle_of_prog hprog fun _ _ _ ho => by cases ho
  have hlast := h.last
  have houtcome := h.outcome
  rw [hprog] at hlast houtcome
  subst hv
  refine ⟨h.awake, h.avail, h.counter, h.status, hlast.2 _, houtcome, h.idle, fun g hg => ?_,
    hcounter, hstatus, fun _ => ?_, (fun g hg => nomatch hg)⟩
  · have hg : s.dir.frame = some g := hg
    rw [hnone] at hg
    contradiction
  · exact hsent.trans (s.log.written_reply data _).symm

/-- Starting to send a reply keeps the run on its way. -/
theorem Follows.send {err : ℕ} (h : s.Follows env total)
    (hstep : s.step env (.send err) = some u) : u.Follows env total := by
  simp only [step] at hstep
  split at hstep
  · rename_i id data k hprog hwriting
    cases hstep
    have hsent := h.writes.sent hwriting
    cases henter : transferEnter s.writer data.length false with
    | running f =>
      obtain ⟨hsound, hlook, hlen, hwhole, hmoved⟩ := transferEnter_running henter
      rw [Int.toNat_natCast] at hlen
      refine h.sending hprog h.writes.counter h.writes.status hsound ?_ hwhole hlen ?_
      · rw [hlook]
        trivial
      · rw [hmoved, hsent, List.take_zero]
    | returned v =>
      have hzero : v = 0 ∧ (data.length : Int) < 1 := by
        rcases transferEnter_returned henter with ⟨hneg, hv⟩ | ⟨hv, hlen, -⟩
        · have hstatus := h.writes.status
          omega
        · exact ⟨hv, hlen⟩
      have hnone : data = [] := List.eq_nil_of_length_eq_zero (by omega)
      refine h.sent hprog h.writes.counter h.writes.status ?_ ?_
      · rw [hzero.1, hnone]
        rfl
      · rw [hnone, hsent]
  · contradiction

/-- A step inside a transfer of the writer keeps the run on its way, unless a short write is taken for
an error, or the client does not take the reply. -/
theorem Follows.write {a : TransferAction} (h : s.Follows env total)
    (hcond : s.Untroubled (.write a)) (hstep : s.step env (.write a) = some u) :
    u.Follows env total := by
  simp only [step] at hstep
  split at hstep
  · rename_i id data k f hprog hwriting
    obtain ⟨r, hr, rfl⟩ := Option.map_eq_some_iff.mp hstep
    have hmoves := transferStep_moves hr
    obtain ⟨hcounter, hstatus, -, hsending⟩ := h.writes
    obtain ⟨hsound, husable, hwhole, id', data', k', hcall, hlen, hsent⟩ := hsending f hwriting
    have hmatch := hprog.symm.trans hcall
    simp only [Prog.call.injEq, JobOp.transferOut.injEq] at hmatch
    obtain ⟨⟨-, rfl⟩, -⟩ := hmatch
    have hread : f.misreadsErrno s.errno = false := by
      have hmisreads := (Bool.or_eq_false_iff.mp hcond.1).2
      rw [hwriting] at hmisreads
      exact hmisreads
    have hkernel (tSz : Int) (err : ℕ) (ha : a = .call tSz err) (hnone : tSz ≤ 0) :
        tSz < 0 ∧ err = eagain := by
      have htaken := hcond.2.2
      rw [ha] at htaken
      by_contra hfails
      exact of_decide_eq_false htaken ⟨hnone, hfails⟩
    have hstatus' := hmoves.status_eq_zero hcounter hstatus husable hread
    have hcounter' : r.helper.extCnt < nHup := hmoves.extCnt_eq ▸ hcounter
    cases hout : r.outcome with
    | running g =>
      obtain ⟨hg, hlen', hpart, hmoved⟩ := hmoves.sound_running hsound hout
      refine h.sending hprog hcounter' hstatus' hg
        (hmoves.usable_running hcounter husable hkernel hout) (hpart.trans hwhole)
        (hlen'.trans hlen) ?_
      rw [hsent, List.append_assoc, take_append_take_drop, hmoved]
    | returned v =>
      obtain ⟨hzero, -⟩ := hmoves.sound_returned hsound hout
      rcases hmoves.returned_whole hcounter hstatus hsound husable hread hout hwhole with
        ⟨hv, hmoved⟩ | ⟨-, rfl, -⟩
      · refine h.sent hprog hcounter' hstatus' (by rw [hv, hlen]) ?_
        rw [hsent, hzero, List.take_zero, List.append_nil, hmoved, hlen, List.take_length]
      · have htaken := hcond.2.2
        contradiction
  · contradiction

/-- Every step keeps the run on its way, unless a short transfer is taken for an error, a count for a
HUP, or the client does not take what is sent. -/
theorem Follows.step {a : SegmentAction} (h : s.Follows env total)
    (hcond : s.Untroubled a) (hstep : s.step env a = some u) : u.Follows env total := by
  cases a with
  | arrive =>
    simp only [SegmentRun.step] at hstep
    split at hstep
    · contradiction
    · rename_i segment rest hsegments
      obtain ⟨dir, hdir, rfl⟩ := Option.map_eq_some_iff.mp hstep
      have hawake := Direction.awake_step h.awake hdir
      simp only [Direction.step, Option.ite_none_right_eq_some, Option.some.injEq] at hdir
      obtain ⟨hpos, rfl⟩ := hdir
      refine h.of_network hawake ?_ h.counter rfl rfl rfl ?_
      · rw [List.length_append]
        exact congrArg (· + segment.length) h.avail
      · rw [hsegments, List.flatten_cons, List.append_assoc]
  | fetch =>
    obtain ⟨dir, hdir, rfl⟩ := Option.map_eq_some_iff.mp hstep
    have hawake := Direction.awake_step h.awake hdir
    simp only [Direction.step, Option.ite_none_right_eq_some, Option.some.injEq] at hdir
    obtain ⟨-, rfl⟩ := hdir
    exact h.of_network hawake h.avail h.counter rfl rfl rfl rfl
  | deliver =>
    obtain ⟨dir, hdir, rfl⟩ := Option.map_eq_some_iff.mp hstep
    have hawake := Direction.awake_step h.awake hdir
    simp only [Direction.step, Option.ite_none_right_eq_some, Option.some.injEq] at hdir
    obtain ⟨-, rfl⟩ := hdir
    have hcounter := (TCPCommHelper.notifyDataAvail_lt hcond.2.1).mpr h.counter
    exact h.of_network hawake h.avail hcounter (s.dir.helper.notify_status .dataAvail) rfl rfl rfl
  | notify =>
    simp only [SegmentRun.step, Option.map_eq_some_iff] at hstep
    obtain ⟨dir, hdir, rfl⟩ := hstep
    have hawake := Direction.awake_step h.awake hdir
    simp only [Direction.step, Option.some.injEq] at hdir
    subst hdir
    have hcounter := (TCPCommHelper.notifyDataAvail_lt hcond.2.1).mpr h.counter
    exact h.of_network hawake h.avail hcounter (s.dir.helper.notify_status .dataAvail) rfl rfl rfl
  | enter err => exact h.enter hstep
  | transfer a => exact h.transfer hcond hstep
  | notifyWriter =>
    cases hstep
    have hcounter := (TCPCommHelper.notifyDataAvail_lt hcond.2.1).mpr h.writes.counter
    refine ⟨h.awake, h.avail, h.counter, h.status, h.last, h.outcome, h.idle, fun f hf => ?_,
      hcounter, (s.writer.notify_status .dataAvail).trans h.writes.status, h.writes.sent,
      fun f hf => ?_⟩
    · obtain ⟨hsound, husable, hprog, hdelivered⟩ := h.busy f hf
      exact ⟨hsound, husable, hprog, hdelivered⟩
    · obtain ⟨hsound, husable, hwhole, hreply⟩ := h.writes.sending f hf
      exact ⟨hsound, husable, hwhole, hreply⟩
  | send err => exact h.send hstep
  | write a => exact h.write hcond hstep
  | answer => exact h.answer hstep

/-- A job that has ended has sent what was handed to its writer. -/
theorem Follows.all_sent (h : s.Follows env total) {r : JobResult} (hend : s.prog = .exit r) :
    s.sent = s.log.written := by
  apply h.writes.sent
  apply h.writes.idle
  intro id data k hcall
  rw [hend] at hcall
  cases hcall

/-- At the start the evaluation on the whole stream is still ahead. -/
theorem Started.follows {p : HandshakeProg Empty} {e : E} {stream : Bytes}
    (h : s.Started p e stream) (hlast : PartialLast p) :
    s.Follows env (Handshake.outcome env p ⟨stream, e, .empty⟩) := by
  have hfresh := h.dir.1
  have hframe := h.dir.2
  refine ⟨h.dir.awake, h.avail, ?_, ?_, h.prog ▸ hlast, ?_, fun _ => h.got, fun f hf => ?_, ?_, ?_,
    fun _ => ?_, fun f hf => ?_⟩
  · rw [hfresh]
    exact (by decide : 1 < nHup)
  · rw [hfresh]
    rfl
  · rw [h.got, h.stream, h.prog, h.env, h.log, List.nil_append]
  · rw [hframe] at hf
    contradiction
  · rw [h.writer]
    exact (by decide : 1 < nHup)
  · rw [h.writer]
    rfl
  · rw [h.sent, h.log]
    rfl
  · rw [h.writing] at hf
    contradiction

end SegmentRun

namespace Handshake

variable {A B : Type} {cfg : Config} {host : ByteOrder} {inet : InetPton} {state : State} {id : ℕ}
  {buff : Bytes}

/-- What follows a program that quits does not matter. -/
theorem QuitsUnread.bind {p : HandshakeProg A} (h : QuitsUnread p) (f : A → HandshakeProg B) :
    QuitsUnread (p >>= f) := by
  induction p with
  | pure a => exact h.elim
  | exit r => trivial
  | call o k ih => exact ⟨h.1, fun a => ih a (h.2 a)⟩

/-- A program that quits has no partial transfer. -/
theorem QuitsUnread.partialLast {p : HandshakeProg A} (h : QuitsUnread p) : PartialLast p := by
  induction p with
  | pure a => trivial
  | exit r => trivial
  | call o k ih => exact ⟨fun id len ho => absurd ho (h.1 id len true), fun a => ih a (h.2 a)⟩

/-- A sequence of programs is as good as its parts. -/
theorem PartialLast.bind {p : HandshakeProg A} {f : A → HandshakeProg B} (h : PartialLast p)
    (hf : ∀ a, PartialLast (f a)) : PartialLast (p >>= f) := by
  induction p with
  | pure a => exact hf a
  | exit r => trivial
  | call o k ih =>
    refine ⟨fun id len ho a => ⟨(h.1 id len ho a).1.bind f, fun b => ?_⟩, fun a => ih a (h.2 a)⟩
    exact congrArg (· >>= f) ((h.1 id len ho a).2 b)

/-- A single operation is fine, unless it is a partial transfer. -/
theorem partialLast_perform {o : JobOp} (ho : ∀ id len, o ≠ .transferIn id len true) :
    PartialLast (.perform o : HandshakeProg o.Answer) :=
  ⟨fun id len h => absurd h (ho id len), fun _ => trivial⟩

/-- Giving up the claims and leaving reads nothing. -/
theorem quitsUnread_failWithDisclaim : QuitsUnread (failWithDisclaim state : HandshakeProg A) := by
  have hrefresh : ∀ refs (f : List (ClaimRef × HandlerClaimState) → HandshakeProg A),
      (∀ entries, QuitsUnread (f entries)) →
      QuitsUnread (State.refresh JobProg.disclaim refs >>= f) := by
    intro refs
    induction refs with
    | nil => exact fun f hf => hf []
    | cons c rest ih =>
      intro f hf
      refine ⟨(fun _ _ _ h => nomatch h), fun s => ?_⟩
      change QuitsUnread ((State.refresh JobProg.disclaim rest >>= fun entries =>
        pure ((c, s) :: entries)) >>= f)
      rw [Prog.bind_assoc']
      exact ih (fun entries => f ((c, s) :: entries)) fun entries => hf _
  rw [failWithDisclaim, State.disclaimAllHandlers, Prog.bind_assoc']
  exact hrefresh _ _ fun entries => trivial

/-- Reading or changing claim counters is no transfer. -/
theorem partialLast_refresh {op : ClaimRef → HandshakeProg HandlerClaimState}
    (hop : ∀ c, PartialLast (op c)) (refs : List ClaimRef) : PartialLast (State.refresh op refs) := by
  induction refs with
  | nil => trivial
  | cons c rest ih => exact (hop c).bind fun s => ih.bind fun entries => trivial

/-- A check is no transfer. -/
theorem partialLast_failUnless {ok : Bool} : PartialLast (failUnless ok state) := by
  unfold failUnless
  cases ok with
  | true => trivial
  | false => exact quitsUnread_failWithDisclaim.partialLast

/-- A field is read with a transfer that may not be partial. -/
theorem partialLast_receive {len : ℕ} : PartialLast (receive state id buff len) := by
  refine (partialLast_perform fun _ _ h => by cases h).bind fun r => ?_
  exact partialLast_failUnless.bind fun _ => trivial

/-- A refused login reads nothing more. -/
theorem partialLast_sendAuthFail :
    PartialLast (sendAuthFailWithDisclaim state id : HandshakeProg A) := by
  refine (partialLast_perform fun _ _ h => by cases h).bind fun r => ?_
  exact quitsUnread_failWithDisclaim.partialLast

/-- The partial transfer after a greeting without an acceptable method is the last one. -/
theorem partialLast_selectMethod : PartialLast (selectMethod cfg state id buff) := by
  refine partialLast_receive.bind fun buff => partialLast_failUnless.bind fun _ => ?_
  refine partialLast_receive.bind fun buff' => partialLast_receive.bind fun buff'' => ?_
  dsimp only
  split
  · refine (partialLast_perform fun _ _ h => by cases h).bind fun r => ?_
    refine ⟨fun _ _ _ _ => ⟨quitsUnread_failWithDisclaim, fun _ => rfl⟩, fun _ => ?_⟩
    exact quitsUnread_failWithDisclaim.partialLast
  · refine (partialLast_perform fun _ _ h => by cases h).bind fun r => ?_
    exact partialLast_failUnless.bind fun _ => trivial

/-- The login has no partial transfer. -/
theorem partialLast_login : PartialLast (login cfg state id buff) := by
  refine partialLast_receive.bind fun buff₁ => ?_
  split_ifs
  · exact partialLast_sendAuthFail
  · refine partialLast_receive.bind fun buff₂ => partialLast_receive.bind fun buff₃ => ?_
    refine partialLast_receive.bind fun buff₄ => partialLast_receive.bind fun buff₅ => ?_
    dsimp only
    split_ifs
    · refine (partialLast_perform fun _ _ h => by cases h).bind fun r => ?_
      exact partialLast_failUnless.bind fun _ => trivial
    · exact partialLast_sendAuthFail

/-- Neither has the resolver. -/
theorem partialLast_resolve {dname : Bytes} : PartialLast (resolve cfg state dname) := by
  refine (partialLast_perform fun _ _ h => by cases h).bind fun created => ?_
  refine partialLast_failUnless.bind fun _ => ?_
  refine (partialLast_perform fun _ _ h => by cases h).bind fun opened => ?_
  split_ifs
  · refine (partialLast_perform fun _ _ h => by cases h).bind fun ans6 => ?_
    refine (partialLast_perform fun _ _ h => by cases h).bind fun ans4 => ?_
    refine (partialLast_perform fun _ _ h => by cases h).bind fun _ => ?_
    exact (partialLast_perform fun _ _ h => by cases h).bind fun _ => trivial
  · refine (partialLast_perform fun _ _ h => by cases h).bind fun _ => ?_
    exact quitsUnread_failWithDisclaim.partialLast

/-- Neither has the request. -/
theorem partialLast_readRequest : PartialLast (readRequest cfg host inet state id buff) := by
  refine partialLast_receive.bind fun buff₁ => partialLast_failUnless.bind fun _ => ?_
  refine partialLast_receive.bind fun buff₂ => partialLast_receive.bind fun buff₃ => ?_
  refine PartialLast.bind ?_ fun found => partialLast_receive.bind fun buff₄ => trivial
  unfold readDestination
  split_ifs
  · exact partialLast_receive.bind fun _ => trivial
  · exact partialLast_receive.bind fun _ => trivial
  · refine partialLast_receive.bind fun buff₄ => partialLast_receive.bind fun buff₅ => ?_
    dsimp only
    split_ifs
    · trivial
    · exact partialLast_resolve.bind fun _ => trivial
  · exact quitsUnread_failWithDisclaim.partialLast

/-- Neither have the connection attempts. -/
theorem partialLast_connectAny {port : UInt16} {ct : Timeval} {attempt : Attempt}
    {ips : List IPAddress} : PartialLast (connectAny host port ct attempt ips) := by
  induction ips generalizing attempt with
  | nil => trivial
  | cons ip rest ih =>
    refine (partialLast_perform fun _ _ h => by cases h).bind fun target => ?_
    split_ifs
    · exact ih
    · refine (partialLast_perform fun _ _ h => by cases h).bind fun handler => ?_
      split
      · exact quitsUnread_failWithDisclaim.partialLast
      · have hadd : PartialLast (attempt.finalState.addHandlerWithClaim target :
            HandshakeProg State) := by
          refine (partialLast_refresh (fun c => partialLast_perform fun _ _ h => by cases h) _).bind
            fun entries => ?_
          refine (partialLast_perform fun _ _ h => by cases h).bind fun ref => ?_
          exact (partialLast_perform fun _ _ h => by cases h).bind fun s => trivial
        refine hadd.bind fun finalState => ?_
        refine (partialLast_perform fun _ _ h => by cases h).bind fun name => ?_
        split
        · exact quitsUnread_failWithDisclaim.partialLast
        · exact partialLast_failUnless.bind fun _ => trivial

/-- Neither has the reply. -/
theorem partialLast_respond {cmd : UInt8} {attempt : Attempt} :
    PartialLast (respond host id cmd attempt buff) := by
  refine (partialLast_perform fun _ _ h => by cases h).bind fun r => ?_
  refine partialLast_failUnless.bind fun _ => ?_
  split_ifs
  · have hdisclaim : PartialLast (attempt.finalState.disclaimAllHandlers : HandshakeProg State) :=
      (partialLast_refresh (fun c => partialLast_perform fun _ _ h => by cases h) _).bind
        fun entries => trivial
    exact hdisclaim.bind fun s => trivial
  · exact quitsUnread_failWithDisclaim.partialLast

/-- In the whole job, a partial transfer is the last one. -/
theorem partialLast_execute : PartialLast (execute cfg host inet state) := by
  unfold execute
  split
  · refine (partialLast_perform fun _ _ h => by cases h).bind fun handler => ?_
    split
    · exact quitsUnread_failWithDisclaim.partialLast
    · refine PartialLast.bind ?_ fun read => PartialLast.bind ?_ fun attempt => partialLast_respond
      · refine partialLast_selectMethod.bind fun selected => ?_
        dsimp only
        split_ifs
        · exact partialLast_login.bind fun buff => partialLast_readRequest
        · exact partialLast_readRequest
      · unfold perform
        split_ifs
        · exact partialLast_connectAny
        · trivial
  · exact quitsUnread_failWithDisclaim.partialLast

end Handshake

namespace SegmentRun

open Handshake

/-- Segmentation independence. Two handshakes that read the same stream, cut into any segments, and
whose connections and names have the same outcomes, send and dial the same and end with the same kind
of result, if neither takes a short transfer for an error or a count for a HUP, and the client takes
the replies. -/
theorem segmentation_independent {E : Type} {env : Environment E} {cfg : Config} {host : ByteOrder}
    {inet : InetPton} {state : State} {e : E} {stream : Bytes} {s₁ s₂ u₁ u₂ : SegmentRun E}
    {actions₁ actions₂ : List SegmentAction} {r₁ r₂ : JobResult}
    (hstart₁ : s₁.Started (execute cfg host inet state) e stream)
    (hstart₂ : s₂.Started (execute cfg host inet state) e stream)
    (hmeets₁ : RunMeets (step env) Untroubled s₁ actions₁)
    (hmeets₂ : RunMeets (step env) Untroubled s₂ actions₂)
    (hrun₁ : runActions (step env) s₁ actions₁ = some u₁)
    (hrun₂ : runActions (step env) s₂ actions₂ = some u₂)
    (hend₁ : u₁.prog = .exit r₁) (hend₂ : u₂.prog = .exit r₂) :
    r₁.resultType = r₂.resultType ∧ u₁.sent = u₂.sent ∧ u₁.log.replies = u₂.log.replies ∧
      u₁.log.dials = u₂.log.dials := by
  have hfollows : ∀ {s u : SegmentRun E} {actions : List SegmentAction} {r : JobResult},
      s.Started (execute cfg host inet state) e stream →
      RunMeets (step env) Untroubled s actions →
      runActions (step env) s actions = some u → u.prog = .exit r →
      (.error r, u.log) = outcome env (execute cfg host inet state) ⟨stream, e, .empty⟩ ∧
        u.sent = u.log.written := by
    intro s u actions r hstart hmeets hrun hend
    have hu := runActions_invariant_of_meets (fun s a t h hcond hstep => h.step hcond hstep)
      (hstart.follows partialLast_execute) hmeets hrun
    have houtcome := hu.outcome
    rw [hend] at houtcome
    exact ⟨houtcome, hu.all_sent hend⟩
  obtain ⟨houtcome₁, hsent₁⟩ := hfollows hstart₁ hmeets₁ hrun₁ hend₁
  obtain ⟨houtcome₂, hsent₂⟩ := hfollows hstart₂ hmeets₂ hrun₂ hend₂
  obtain ⟨hresult, hlog⟩ := Prod.mk.inj (houtcome₁.trans houtcome₂.symm)
  obtain rfl := Except.error.inj hresult
  rw [hsent₁, hsent₂, hlog]
  exact ⟨rfl, rfl, rfl, rfl⟩

/-- An environment in which every operation that the job needs succeeds. -/
def obliging : Environment Unit
  | .newClaim _, _ => (1, ())
  | .claim _, _ => (⟨1, 1⟩, ())
  | .disclaim _, _ => (⟨0, 1⟩, ())
  | .getState _, _ => (⟨1, 1⟩, ())
  | .getHandler _, _ => (some 7, ())
  | .transferIn _ _ _, _ => (⟨0, []⟩, ())
  | .transferOut _ data, _ => (data.length, ())
  | .connectAndCreateHandler _ _, _ => (2, ())
  | .disposeHandler _, _ => ((), ())
  | .getsockname _, _ => (none, ())
  | .dnsNew, _ => (true, ())
  | .dnsOpen, _ => (true, ())
  | .dnsResolveA6 _ _, _ => (none, ())
  | .dnsResolveA4 _ _, _ => (none, ())
  | .dnsClose, _ => ((), ())
  | .dnsFree, _ => ((), ())

/-- A table without users. -/
def noUsers : Config := ⟨5, 30, false, []⟩

/-- The helpers are new, and the first segment has arrived. -/
def segmented (queue : Bytes) (segments : List Bytes) : SegmentRun Unit :=
  ⟨execute noUsers .little noLiterals oneHandler, (), .empty,
    ⟨newTCPCommHelper 7 true, 0, none, queue.length, false, false⟩, queue, segments, [],
    newTCPCommHelper 7 false, none, 0, []⟩

/-- A field is read with one system call. -/
def readWhole (n : ℕ) : List SegmentAction :=
  [.enter 0, .transfer .look, .transfer (.call n 0), .transfer .settle]

/-- A reply of two bytes is sent with one system call. -/
def sendAtOnce : List SegmentAction :=
  [.send 0, .write .look, .write (.call 2 0), .write .settle]

/-- The socket takes one byte of the reply, and the other one later. -/
def sendInTwo : List SegmentAction :=
  [.send eagain, .write .look, .write (.call 1 0), .write .settle, .write .look, .notifyWriter,
    .write .wake, .write .look, .write (.call 1 0), .write .settle]

/-- After the refusal of the methods the client sends nothing more, and the job ends. -/
def awaitNothing : List SegmentAction :=
  [.enter 0, .transfer .look, .transfer (.call (-1) eagain), .transfer .settle, .transfer .look,
    .transfer .timeout, .answer]

/-- Everything is read from one segment. -/
def oneSegment : List SegmentAction :=
  [.answer] ++ readWhole 1 ++ readWhole 1 ++ readWhole 2 ++ sendAtOnce ++ awaitNothing

/-- The second method arrives later, and `errno` happens to say that a call would block. -/
def twoSegments : List SegmentAction :=
  [.answer] ++ readWhole 1 ++ readWhole 1 ++ [.enter eagain, .transfer .look,
    .transfer (.call 1 0), .transfer .settle, .transfer .look, .arrive, .fetch, .deliver,
    .transfer .wake, .transfer .look, .transfer (.call 1 0), .transfer .settle] ++ sendInTwo ++
    awaitNothing

/-- The second method arrives later, and no call has ever set `errno`. -/
def twoSegmentsClean : List SegmentAction :=
  [.answer] ++ readWhole 1 ++ readWhole 1 ++ [.enter 0, .transfer .look, .transfer (.call 1 0),
    .transfer .settle, .arrive, .answer]

/-- Every segmentation of the stream is a start. -/
theorem segmented_started (queue : Bytes) (segments : List Bytes) :
    (segmented queue segments).Started (execute noUsers .little noLiterals oneHandler) ()
      (queue ++ segments.flatten) :=
  ⟨rfl, rfl, rfl, ⟨rfl, rfl⟩, rfl, rfl, rfl, rfl, rfl, rfl⟩

/-- Two segmentations of a greeting without an acceptable method lead to the same refusal. -/
theorem segmentation_independent_greeting :
    ∃ u₁ u₂ r₁ r₂, runActions (step obliging) (segmented [5, 2, 0, 1] []) oneSegment = some u₁ ∧
      runActions (step obliging) (segmented [5, 2, 0] [[1]]) twoSegments = some u₂ ∧
      u₁.prog = .exit r₁ ∧ u₂.prog = .exit r₂ ∧ u₁.sent = [0x05, 0xFF] ∧
      r₁.resultType = r₂.resultType ∧ u₁.sent = u₂.sent ∧ u₁.log.replies = u₂.log.replies ∧
      u₁.log.dials = u₂.log.dials := by
  have hmeets₁ : RunMeets (step obliging) Untroubled (segmented [5, 2, 0, 1] []) oneSegment := by
    decide +kernel
  have hmeets₂ : RunMeets (step obliging) Untroubled (segmented [5, 2, 0] [[1]]) twoSegments := by
    decide +kernel
  refine ⟨_, _, _, _, rfl, rfl, rfl, rfl, rfl, ?_⟩
  exact segmentation_independent (segmented_started [5, 2, 0, 1] [])
    (segmented_started [5, 2, 0] [[1]]) hmeets₁ hmeets₂ rfl rfl rfl rfl

/-- The same two segmentations lead to different replies if no call has set `errno`. -/
theorem segmentation_changes_reply :
    (segmented [5, 2, 0, 1] []).Started (execute noUsers .little noLiterals oneHandler) ()
      [5, 2, 0, 1] ∧
    (segmented [5, 2, 0] [[1]]).Started (execute noUsers .little noLiterals oneHandler) ()
      [5, 2, 0, 1] ∧
    ∃ u₁ u₂ r₁ r₂, runActions (step obliging) (segmented [5, 2, 0, 1] []) oneSegment = some u₁ ∧
      runActions (step obliging) (segmented [5, 2, 0] [[1]]) twoSegmentsClean = some u₂ ∧
      u₁.prog = .exit r₁ ∧ u₂.prog = .exit r₂ ∧ u₁.sent = [0x05, 0xFF] ∧ u₂.sent = [] :=
  ⟨segmented_started [5, 2, 0, 1] [], segmented_started [5, 2, 0] [[1]], _, _, _, _, rfl, rfl, rfl,
    rfl, rfl, rfl⟩

end SegmentRun

end TinySox
