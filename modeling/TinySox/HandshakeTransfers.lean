import TinySox.HandshakeTranscript
import TinySox.TunnelIntegrity

/-!
# The transfers of a handshake

The handshake with the helpers of its client. Each `Transfer` is carried out step by step: a system
call reads any piece of what the client sends next, or writes any piece of the reply, or fails.
Every other operation gets any answer, and the helpers may be notified between any two steps.

The answers that the program gets in this way are those that its contracts rely on, its transcript
has received what was taken from the stream, and the client has been sent the replies.

`unread`, `sent` and `events` record what the client still sends, what the socket to it has accepted,
and the operations with their answers. They are not part of the program.
-/

namespace TinySox

open TinySox.Common

/-- A handshake in the middle of its conversation. -/
structure Conversation where
  prog : HandshakeProg Empty
  reader : TCPCommHelper
  writer : TCPCommHelper
  errno : ℕ
  frame : Option TransferFrame
  /-- what the transfer in progress has read -/
  got : Bytes
  unread : Bytes
  sent : Bytes
  events : List (Event JobOp.Answer)

/-- What can happen next. -/
inductive ConversationAction
  | notice (side : Side) (n : Notice)
  /-- an operation that is not a transfer gets its answer -/
  | answer (e : Event JobOp.Answer)
  /-- a transfer begins, with `err` left in `errno` by earlier calls -/
  | enter (err : ℕ)
  | transfer (a : TransferAction)

/-- The operations that `Transfer` carries out. -/
def JobOp.isTransfer : JobOp → Bool
  | .transferIn _ _ _ | .transferOut _ _ => true
  | _ => false

namespace Conversation

/-- A notice reaches one of the helpers. -/
def notice (s : Conversation) (side : Side) (n : Notice) : Conversation :=
  match side with
  | .reader => { s with reader := s.reader.notify n }
  | .writer => { s with writer := s.writer.notify n }

/-- The transfer from the client goes on, or the program gets what it has read. -/
def afterIn (s : Conversation) (id len : ℕ) (allowPartial : Bool)
    (k : TransferIn → HandshakeProg Empty) : TransferOutcome → Conversation
  | .running f => { s with frame := some f }
  | .returned ret =>
    { s with
      prog := k ⟨ret, s.got⟩
      frame := none
      got := []
      events := s.events ++ [⟨.transferIn id len allowPartial, (⟨ret, s.got⟩ : TransferIn)⟩] }

/-- The transfer to the client goes on, or the program gets its result. -/
def afterOut (s : Conversation) (id : ℕ) (data : Bytes) (k : Int → HandshakeProg Empty) :
    TransferOutcome → Conversation
  | .running f => { s with frame := some f }
  | .returned ret =>
    { s with
      prog := k ret
      frame := none
      events := s.events ++ [⟨.transferOut id data, (ret : Int)⟩] }

/-- One step of the job or of the threads around it. -/
def step (s : Conversation) : ConversationAction → Option Conversation
  | .notice side n => some (s.notice side n)
  | .answer e =>
    if e.1.isTransfer then none
    else (s.prog.follow [e]).map fun prog => { s with prog := prog, events := s.events ++ [e] }
  | .enter err =>
    match s.frame, s.prog with
    | none, .call (.transferIn id len allowPartial) k =>
      some (afterIn { s with errno := err } id len allowPartial k
        (transferEnter s.reader len allowPartial))
    | none, .call (.transferOut id data) k =>
      some (afterOut { s with errno := err } id data k (transferEnter s.writer data.length false))
    | _, _ => none
  | .transfer a =>
    match s.frame, s.prog with
    | some f, .call (.transferIn id len allowPartial) k =>
      if a.size ≤ s.unread.length then
        (transferStep s.reader s.errno f a).map fun r =>
          afterIn
            { s with
              reader := r.helper
              errno := r.errno
              got := s.got ++ s.unread.take a.size
              unread := s.unread.drop a.size } id len allowPartial k r.outcome
      else none
    | some f, .call (.transferOut id data) k =>
      (transferStep s.writer s.errno f a).map fun r =>
        afterOut
          { s with
            writer := r.helper
            errno := r.errno
            sent := s.sent ++ (data.drop f.moved).take a.size } id data k r.outcome
    | _, _ => none

/-- Everything that can happen, with what it needs. -/
inductive Moves (s : Conversation) : ConversationAction → Conversation → Prop
  | notice (side : Side) (n : Notice) : Moves s (.notice side n) (s.notice side n)
  | answer (e : Event JobOp.Answer) (prog : HandshakeProg Empty) (hop : e.1.isTransfer = false)
      (hfollow : s.prog.follow [e] = some prog) :
      Moves s (.answer e) { s with prog := prog, events := s.events ++ [e] }
  | enterIn (err id len : ℕ) (allowPartial : Bool) (k : TransferIn → HandshakeProg Empty)
      (hframe : s.frame = none) (hprog : s.prog = .call (.transferIn id len allowPartial) k) :
      Moves s (.enter err) (afterIn { s with errno := err } id len allowPartial k
        (transferEnter s.reader len allowPartial))
  | enterOut (err id : ℕ) (data : Bytes) (k : Int → HandshakeProg Empty)
      (hframe : s.frame = none) (hprog : s.prog = .call (.transferOut id data) k) :
      Moves s (.enter err) (afterOut { s with errno := err } id data k
        (transferEnter s.writer data.length false))
  | transferIn (f : TransferFrame) (a : TransferAction) (r : TransferResult) (id len : ℕ)
      (allowPartial : Bool) (k : TransferIn → HandshakeProg Empty) (hframe : s.frame = some f)
      (hprog : s.prog = .call (.transferIn id len allowPartial) k)
      (hunread : a.size ≤ s.unread.length) (hmoves : TransferMoves s.reader s.errno f a r) :
      Moves s (.transfer a) (afterIn
        { s with
          reader := r.helper
          errno := r.errno
          got := s.got ++ s.unread.take a.size
          unread := s.unread.drop a.size } id len allowPartial k r.outcome)
  | transferOut (f : TransferFrame) (a : TransferAction) (r : TransferResult) (id : ℕ)
      (data : Bytes) (k : Int → HandshakeProg Empty) (hframe : s.frame = some f)
      (hprog : s.prog = .call (.transferOut id data) k)
      (hmoves : TransferMoves s.writer s.errno f a r) :
      Moves s (.transfer a) (afterOut
        { s with
          writer := r.helper
          errno := r.errno
          sent := s.sent ++ (data.drop f.moved).take a.size } id data k r.outcome)

/-- The step function does nothing but what the relation lists. -/
theorem step_moves {s s' : Conversation} {act : ConversationAction} (hstep : s.step act = some s') :
    s.Moves act s' := by
  cases act with
  | notice side n =>
    cases hstep
    exact .notice side n
  | answer e =>
    simp only [step] at hstep
    split_ifs at hstep with hop
    obtain ⟨prog, hfollow, rfl⟩ := Option.map_eq_some_iff.mp hstep
    exact .answer e prog (eq_false_of_ne_true hop) hfollow
  | enter err =>
    simp only [step] at hstep
    split at hstep
    · rename_i id len allowPartial k hframe hprog
      cases hstep
      exact .enterIn err id len allowPartial k hframe hprog
    · rename_i id data k hframe hprog
      cases hstep
      exact .enterOut err id data k hframe hprog
    · contradiction
  | transfer a =>
    simp only [step] at hstep
    split at hstep
    · rename_i f id len allowPartial k hframe hprog
      split_ifs at hstep with hunread
      obtain ⟨r, hr, rfl⟩ := Option.map_eq_some_iff.mp hstep
      exact .transferIn f a r id len allowPartial k hframe hprog hunread (transferStep_moves hr)
    · rename_i f id data k hframe hprog
      obtain ⟨r, hr, rfl⟩ := Option.map_eq_some_iff.mp hstep
      exact .transferOut f a r id data k hframe hprog (transferStep_moves hr)
    · contradiction

/-- The conversation so far, as the contracts of the handshake see it. -/
def log (s : Conversation) : Transcript := transcript s.events

/-- What the transfer in progress has written. -/
def written (s : Conversation) : Bytes :=
  match s.frame, s.prog with
  | some f, .call (.transferOut _ data) _ => data.take f.moved
  | _, _ => []

/-- The transfer in progress is the next operation of the program. -/
def Current (s : Conversation) : Prop :=
  match s.frame with
  | none => s.got = []
  | some f => f.Sound ∧
    match s.prog with
    | .call (.transferIn _ len _) _ => f.len = len ∧ s.got.length = f.moved
    | .call (.transferOut _ data) _ => f.len = data.length ∧ f.allowPartial = false ∧ s.got = []
    | _ => False

end Conversation

/-- Every reply was sent as a whole. -/
def Transcript.Whole (g : Transcript) : Prop :=
  ∀ reply ∈ g.replies, (reply.1.length : Int) ≤ reply.2

/-- The bytes of all replies. -/
def Transcript.told (g : Transcript) : Bytes := g.replies.flatMap Prod.fst

namespace Conversation

/-- The program has performed the events, with answers that its contracts allow. It has received
what was taken from the stream, and the client has been sent the replies. -/
structure Faithful (p : HandshakeProg Empty) (stream : Bytes) (s : Conversation) : Prop where
  follow : p.follow s.events = some s.prog
  answers : ∀ e ∈ s.events, e.1.WellFormed e.2
  stream : s.log.received ++ s.got ++ s.unread = stream
  told : s.log.Whole → s.sent = s.log.told ++ s.written
  status : s.reader.status ≤ 0
  current : s.Current

/-- The handshake is about to start, on helpers that nobody has used. -/
structure Started (p : HandshakeProg Empty) (stream : Bytes) (s : Conversation) : Prop where
  prog : s.prog = p
  status : s.reader.status = 0
  frame : s.frame = none
  got : s.got = []
  unread : s.unread = stream
  sent : s.sent = []
  events : s.events = []

variable {p : HandshakeProg Empty} {stream : Bytes} {s s' : Conversation}

/-- At the start nothing has been said. -/
theorem Started.faithful (h : s.Started p stream) : s.Faithful p stream := by
  have hlog : s.log = .empty := by rw [log, h.events]; rfl
  constructor
  · rw [h.events, h.prog]
    cases p <;> rfl
  · rw [h.events]
    exact fun e he => absurd he List.not_mem_nil
  · rw [hlog, h.got, h.unread]
    rfl
  · intro _
    rw [hlog, h.sent, written, h.frame]
    rfl
  · exact Int.le_of_eq h.status
  · rw [Current, h.frame]
    exact h.got

/-- One more event is recorded. -/
theorem transcript_concat (t : List (Event JobOp.Answer)) (e : Event JobOp.Answer) :
    transcript (t ++ [e]) = (transcript t).record e.1 e.2 := by
  rw [transcript, List.foldl_append]
  rfl

/-- An operation that is no transfer leaves received bytes and replies as they are. -/
theorem record_of_not_transfer {e : Event JobOp.Answer} (hop : e.1.isTransfer = false)
    (g : Transcript) :
    (g.record e.1 e.2).received = g.received ∧ (g.record e.1 e.2).replies = g.replies := by
  obtain ⟨o, a⟩ := e
  cases o with
  | transferIn id len allowPartial => contradiction
  | transferOut id data => contradiction
  | _ => exact ⟨rfl, rfl⟩

/-- The program goes on with the answer to the operation it stands at. -/
theorem Faithful.follow_concat (h : s.Faithful p stream) {e : Event JobOp.Answer}
    {prog : HandshakeProg Empty} (hfollow : s.prog.follow [e] = some prog) :
    p.follow (s.events ++ [e]) = some prog := by
  rw [Prog.follow_append, h.follow]
  exact hfollow

/-- One more well-formed answer. -/
theorem Faithful.answers_concat (h : s.Faithful p stream) {e : Event JobOp.Answer}
    (he : e.1.WellFormed e.2) : ∀ e' ∈ s.events ++ [e], e'.1.WellFormed e'.2 := by
  intro e' he'
  rcases List.mem_append.mp he' with hbefore | hlast
  · exact h.answers e' hbefore
  · rw [List.mem_singleton.mp hlast]
    exact he

/-- A transfer is in progress only where the program stands at one. -/
theorem Current.frame_eq (h : s.Current) {e : Event JobOp.Answer} {prog : HandshakeProg Empty}
    (hop : e.1.isTransfer = false) (hfollow : s.prog.follow [e] = some prog) : s.frame = none := by
  have hother (o : JobOp) (k : o.Answer → HandshakeProg Empty) (hprog : s.prog = .call o k) :
      o.isTransfer = false := by
    rw [hprog] at hfollow
    simp only [Prog.follow, Option.dite_none_right_eq_some] at hfollow
    rw [← hfollow.1]
    exact hop
  cases hframe : s.frame with
  | none => rfl
  | some f =>
    simp only [Current, hframe] at h
    obtain ⟨-, hprog⟩ := h
    split at hprog
    · rename_i heq
      cases hother _ _ heq
    · rename_i heq
      cases hother _ _ heq
    · contradiction

/-- An operation gets its answer outside of the streams. -/
theorem Faithful.answer (h : s.Faithful p stream) {e : Event JobOp.Answer}
    {prog : HandshakeProg Empty} (hop : e.1.isTransfer = false)
    (hfollow : s.prog.follow [e] = some prog) :
    Faithful p stream { s with prog := prog, events := s.events ++ [e] } := by
  obtain ⟨hreceived, hreplies⟩ := record_of_not_transfer hop s.log
  have hlog : transcript (s.events ++ [e]) = s.log.record e.1 e.2 := transcript_concat s.events e
  have hform : e.1.WellFormed e.2 := by
    obtain ⟨o, a⟩ := e
    cases o with
    | transferIn id len allowPartial => contradiction
    | _ => trivial
  have hframe : s.frame = none := h.current.frame_eq hop hfollow
  have hgot := h.current
  simp only [Current, hframe] at hgot
  constructor
  · exact h.follow_concat hfollow
  · exact h.answers_concat hform
  · rw [log, hlog, hreceived]
    exact h.stream
  · intro hwhole
    have hbefore : s.log.Whole := by
      rw [Transcript.Whole, log, hlog, hreplies] at hwhole
      exact hwhole
    have hsent := h.told hbefore
    simp only [written, hframe] at hsent ⊢
    rw [log, hlog, Transcript.told, hreplies]
    exact hsent
  · exact h.status
  · simp only [Current, hframe]
    exact hgot

/-- A read returns, and its result is the answer. -/
theorem Faithful.readReturned (h : s.Faithful p stream) {id len : ℕ} {allowPartial : Bool}
    {k : TransferIn → HandshakeProg Empty} {reader : TCPCommHelper} {errno : ℕ} {ret : Int}
    (hprog : s.prog = .call (.transferIn id len allowPartial) k) (hstatus : reader.status ≤ 0)
    (hlen : s.got.length ≤ len) (hret : (len : Int) ≤ ret → s.got.length = len) :
    Faithful p stream (afterIn { s with reader := reader, errno := errno } id len allowPartial k
      (.returned ret)) := by
  have hfollow : s.prog.follow [⟨.transferIn id len allowPartial, (⟨ret, s.got⟩ : TransferIn)⟩] =
      some (k ⟨ret, s.got⟩) := by
    rw [hprog]
    simp [Prog.follow]
  have hlog := transcript_concat s.events
    ⟨.transferIn id len allowPartial, (⟨ret, s.got⟩ : TransferIn)⟩
  have hwritten : s.written = [] := by
    cases hframe : s.frame <;> simp only [written, hframe, hprog]
  constructor
  · exact h.follow_concat hfollow
  · exact h.answers_concat ⟨hlen, hret⟩
  · have hstream := h.stream
    rw [log] at hstream
    simpa only [log, afterIn, hlog, Transcript.record, Transcript.receive, List.append_nil]
      using hstream
  · intro hwhole
    have hbefore : s.log.Whole := by
      simpa only [Transcript.Whole, log, afterIn, hlog, Transcript.record, Transcript.receive]
        using hwhole
    have hsent := h.told hbefore
    rw [hwritten, List.append_nil] at hsent
    simpa only [log, afterIn, hlog, written, Transcript.record, Transcript.receive,
      Transcript.told, List.append_nil] using hsent
  · exact hstatus
  · simp only [Current, afterIn]

/-- A write returns, and its result is the answer. If it counts the whole reply, then all of it was
accepted. -/
theorem Faithful.writeReturned (h : s.Faithful p stream) {id : ℕ} {data : Bytes}
    {k : Int → HandshakeProg Empty} {writer : TCPCommHelper} {errno : ℕ} {ret : Int}
    (hprog : s.prog = .call (.transferOut id data) k)
    (hret : (data.length : Int) ≤ ret → s.written = data) :
    Faithful p stream (afterOut { s with writer := writer, errno := errno } id data k
      (.returned ret)) := by
  have hfollow : s.prog.follow [⟨.transferOut id data, (ret : Int)⟩] = some (k ret) := by
    rw [hprog]
    simp [Prog.follow]
  have hlog := transcript_concat s.events ⟨.transferOut id data, (ret : Int)⟩
  have hgot : s.got = [] := by
    have hcurrent := h.current
    cases hframe : s.frame with
    | none =>
      simp only [Current, hframe] at hcurrent
      exact hcurrent
    | some f =>
      simp only [Current, hframe, hprog] at hcurrent
      exact hcurrent.2.2.2
  constructor
  · exact h.follow_concat hfollow
  · exact h.answers_concat trivial
  · have hstream := h.stream
    rw [log] at hstream
    simpa only [log, afterOut, hlog, Transcript.record, Transcript.reply] using hstream
  · intro hwhole
    simp only [Transcript.Whole, log, afterOut, hlog, Transcript.record, Transcript.reply,
      List.forall_mem_append, List.forall_mem_singleton] at hwhole
    have hsent := h.told hwhole.1
    rw [hret hwhole.2] at hsent
    simp only [log, afterOut, hlog, written, Transcript.record, Transcript.reply, Transcript.told,
      List.flatMap_append, List.flatMap_singleton, List.append_nil]
    exact hsent
  · exact h.status
  · simp only [Current, afterOut]
    exact hgot

/-- A transfer that starts has moved nothing, and one that returns at once moves nothing. -/
theorem Faithful.enterIn (h : s.Faithful p stream) (err : ℕ) {id len : ℕ} {allowPartial : Bool}
    {k : TransferIn → HandshakeProg Empty} (hframe : s.frame = none)
    (hprog : s.prog = .call (.transferIn id len allowPartial) k) :
    Faithful p stream (afterIn { s with errno := err } id len allowPartial k
      (transferEnter s.reader len allowPartial)) := by
  have hgot := h.current
  simp only [Current, hframe] at hgot
  cases henter : transferEnter s.reader len allowPartial with
  | running f =>
    obtain ⟨hsound, -, hlen, -, hmoved⟩ := transferEnter_running henter
    constructor
    · exact h.follow
    · exact h.answers
    · exact h.stream
    · intro hwhole
      have hsent := h.told hwhole
      simp only [written, hframe] at hsent
      simp only [written, afterIn, hprog]
      exact hsent
    · exact h.status
    · simp only [Current, afterIn, hprog, hgot, hmoved]
      exact ⟨hsound, hlen, rfl⟩
  | returned v =>
    have hnone : s.got.length = 0 := List.length_eq_zero_iff.mpr hgot
    refine h.readReturned hprog h.status (by omega) fun hle => ?_
    rcases transferEnter_returned henter with hfailed | hzero <;> omega

/-- The same for a transfer to the client. -/
theorem Faithful.enterOut (h : s.Faithful p stream) (err : ℕ) {id : ℕ} {data : Bytes}
    {k : Int → HandshakeProg Empty} (hframe : s.frame = none)
    (hprog : s.prog = .call (.transferOut id data) k) :
    Faithful p stream (afterOut { s with errno := err } id data k
      (transferEnter s.writer data.length false)) := by
  have hgot := h.current
  simp only [Current, hframe] at hgot
  have hwritten : s.written = [] := by simp only [written, hframe]
  cases henter : transferEnter s.writer data.length false with
  | running f =>
    obtain ⟨hsound, -, hlen, hpartial, hmoved⟩ := transferEnter_running henter
    constructor
    · exact h.follow
    · exact h.answers
    · exact h.stream
    · intro hwhole
      have hsent := h.told hwhole
      rw [hwritten] at hsent
      simp only [written, afterOut, hprog, hmoved, List.take_zero]
      exact hsent
    · exact h.status
    · simp only [Current, afterOut, hprog]
      exact ⟨hsound, hlen, hpartial, hgot⟩
  | returned v =>
    refine h.writeReturned hprog fun hle => ?_
    have hempty : data.length = 0 := by
      rcases transferEnter_returned henter with hfailed | hzero <;> omega
    rw [hwritten, List.length_eq_zero_iff.mp hempty]

/-- A read takes its bytes from the stream. -/
theorem Faithful.transferIn (h : s.Faithful p stream) {f : TransferFrame} {a : TransferAction}
    {r : TransferResult} {id len : ℕ} {allowPartial : Bool} {k : TransferIn → HandshakeProg Empty}
    (hframe : s.frame = some f) (hprog : s.prog = .call (.transferIn id len allowPartial) k)
    (hunread : a.size ≤ s.unread.length) (hmoves : TransferMoves s.reader s.errno f a r) :
    Faithful p stream (afterIn
      { s with
        reader := r.helper
        errno := r.errno
        got := s.got ++ s.unread.take a.size
        unread := s.unread.drop a.size } id len allowPartial k r.outcome) := by
  have hcurrent := h.current
  simp only [Current, hframe, hprog] at hcurrent
  obtain ⟨hsound, hlen, hgot⟩ := hcurrent
  have hstatus : r.helper.status ≤ 0 := hmoves.status_nonpos h.status
  cases hout : r.outcome with
  | running f' =>
    obtain ⟨hsound', hlen', -, hmoved⟩ := hmoves.sound_running hsound hout
    constructor
    · exact h.follow
    · exact h.answers
    · have hstream := h.stream
      simp only [afterIn, List.append_assoc, List.take_append_drop] at hstream ⊢
      exact hstream
    · intro hwhole
      have hsent := h.told hwhole
      simp only [written, hframe, hprog] at hsent
      simp only [written, afterIn, hprog]
      exact hsent
    · exact hstatus
    · simp only [Current, afterIn, hprog, List.length_append, List.length_take,
        Nat.min_eq_left hunread]
      exact ⟨hsound', hlen'.trans hlen, by omega⟩
  | returned v =>
    obtain ⟨hsize, hreturns⟩ := hmoves.sound_returned hsound hout
    rw [hsize, List.take_zero, List.append_nil, List.drop_zero]
    have hle := f.moved_le
    have hpos := hsound.len_pos
    refine h.readReturned hprog hstatus (by omega) fun hcount => ?_
    have hv := hreturns.pos (by omega)
    omega

/-- A write sends the next bytes of the reply. -/
theorem Faithful.transferOut (h : s.Faithful p stream) {f : TransferFrame} {a : TransferAction}
    {r : TransferResult} {id : ℕ} {data : Bytes} {k : Int → HandshakeProg Empty}
    (hframe : s.frame = some f) (hprog : s.prog = .call (.transferOut id data) k)
    (hmoves : TransferMoves s.writer s.errno f a r) :
    Faithful p stream (afterOut
      { s with
        writer := r.helper
        errno := r.errno
        sent := s.sent ++ (data.drop f.moved).take a.size } id data k r.outcome) := by
  have hcurrent := h.current
  simp only [Current, hframe, hprog] at hcurrent
  obtain ⟨hsound, hlen, hpartial, hgot⟩ := hcurrent
  have hwritten : s.written = data.take f.moved := by simp only [written, hframe, hprog]
  cases hout : r.outcome with
  | running f' =>
    obtain ⟨hsound', hlen', hpartial', hmoved⟩ := hmoves.sound_running hsound hout
    constructor
    · exact h.follow
    · exact h.answers
    · exact h.stream
    · intro hwhole
      have hsent := h.told hwhole
      rw [hwritten] at hsent
      simp only [written, afterOut, hprog, hmoved, hsent, List.append_assoc,
        take_append_take_drop]
      rfl
    · exact h.status
    · simp only [Current, afterOut, hprog]
      exact ⟨hsound', hlen'.trans hlen, hpartial'.trans hpartial, hgot⟩
  | returned v =>
    obtain ⟨hsize, hreturns⟩ := hmoves.sound_returned hsound hout
    rw [hsize, List.take_zero, List.append_nil]
    have hpos := hsound.len_pos
    refine h.writeReturned hprog fun hcount => ?_
    have hall := hreturns.whole (by omega) hpartial
    rw [hwritten, hall, hlen, List.take_length]

/-- Every step keeps the conversation faithful. -/
theorem Faithful.step {act : ConversationAction} (h : s.Faithful p stream)
    (hstep : s.step act = some s') : s'.Faithful p stream := by
  cases step_moves hstep with
  | notice side n =>
    cases side with
    | reader =>
      have hstatus : (s.reader.notify n).status ≤ 0 := by
        rw [TCPCommHelper.notify_status]
        exact h.status
      exact ⟨h.follow, h.answers, h.stream, h.told, hstatus, h.current⟩
    | writer => exact ⟨h.follow, h.answers, h.stream, h.told, h.status, h.current⟩
  | answer e prog hop hfollow => exact h.answer hop hfollow
  | enterIn err id len allowPartial k hframe hprog => exact h.enterIn err hframe hprog
  | enterOut err id data k hframe hprog => exact h.enterOut err hframe hprog
  | transferIn f a r id len allowPartial k hframe hprog hunread hmoves =>
    exact h.transferIn hframe hprog hunread hmoves
  | transferOut f a r id data k hframe hprog hmoves => exact h.transferOut hframe hprog hmoves

end Conversation

end TinySox
