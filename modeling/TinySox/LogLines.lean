import Mathlib.Logic.Function.Basic
import TinySox.Common.LabelledRun
import TinySox.Common.Mutex

/-!
# The lines of the log

All loggers of the process share a lock. A log statement takes it in the constructor of a `LogWriter`,
writes piece by piece, and gives it back in the destructor. Any number of threads log at any time. The
time is a text that is already formatted, and the two standard streams are one output, in which every
piece names its stream. What was logged, and in which order the lock was taken, is kept beside.
-/

namespace TinySox

open TinySox.Common

/-- The stream that a line is written to. -/
inductive LogStream
  | cout
  | cerr
  deriving DecidableEq, Repr

/-- A piece of the output. -/
abbrev LogPiece := LogStream × String

/-- One `<<` of a log statement. -/
inductive LogItem
  | text (s : String)
  /-- `std::endl` -/
  | endl
  /-- any other manipulator, which writes nothing -/
  | manip
  deriving DecidableEq, Repr

namespace LogItem

/-- What it writes. -/
def written : LogItem → String
  | text s => s
  | endl => "\n"
  | manip => ""

/-- The member `endl` afterwards. -/
def after : LogItem → Bool → Bool
  | text _, _ => false
  | endl, _ => true
  | manip, ended => ended

end LogItem

/-- `std::setw` and `std::setfill`, for the text that follows. -/
def setw (width : ℕ) (fill : Char) (text : String) : String :=
  String.ofList (List.replicate (width - text.length) fill) ++ text

/-- The functions of `ILogger`. -/
inductive LogLevel
  | info
  | warning
  | error
  deriving DecidableEq, Repr

namespace LogLevel

/-- Errors have a stream of their own. -/
def stream : LogLevel → LogStream
  | info | warning => .cout
  | error => .cerr

/-- How a line is marked. -/
def type : LogLevel → String
  | info => "INFO"
  | warning => "WARN"
  | error => "ERR"

end LogLevel

/-- A log statement: the stream, the header and what follows. -/
structure LogEntry where
  output : LogStream
  header : String
  items : List LogItem
  deriving DecidableEq, Repr

/-- `Info`, `Warning` or `Error` of the logger with this name, and what is written to the result. -/
def LogLevel.entry (level : LogLevel) (name time : String) (nameWD : ℕ) (items : List LogItem) : LogEntry where
  output := level.stream
  header := "[" ++ setw 6 '0' time ++ "|" ++ setw 4 ' ' level.type ++ "|" ++ setw nameWD ' ' name ++ "]: "
  items := items

/-- Where a thread stands in a log statement. -/
inductive LogPc
  | idle
  /-- the constructor waits for the lock -/
  | lock (entry : LogEntry)
  /-- and writes the header -/
  | header (entry : LogEntry)
  /-- the next `<<`, or else the destructor -/
  | items (output : LogStream) (left : List LogItem) (endl : Bool)
  /-- the destructor unlocks -/
  | unlock
  deriving DecidableEq, Repr

/-- The thread has the lock. -/
def LogPc.inside : LogPc → Bool
  | header _ | items _ _ _ | unlock => true
  | idle | lock _ => false

/-- The loggers, and the threads that use them. -/
structure StdioLoggers where
  extLock : Option ℕ
  maxNameWD : ℕ
  threads : ℕ → LogPc
  output : List LogPiece
  /-- the statements in the order of their calls, with their threads -/
  called : List (ℕ × LogEntry)
  /-- the statements in the order in which they got the lock -/
  entered : List (ℕ × LogEntry)

/-- What can happen next. -/
inductive LogAction
  | createLogger (name : String)
  /-- a thread begins a log statement -/
  | log (i : ℕ) (level : LogLevel) (name time : String) (items : List LogItem)
  /-- a thread goes on with its statement -/
  | go (i : ℕ)
  deriving DecidableEq, Repr

namespace StdioLoggers

/-- `StdioLoggerFactory::StdioLoggerFactory` -/
def initial : StdioLoggers := ⟨none, 1, fun _ => .idle, [], [], []⟩

/-- The thread is at another point. -/
def goto (s : StdioLoggers) (i : ℕ) (pc : LogPc) : StdioLoggers :=
  { s with threads := Function.update s.threads i pc }

/-- Text is written. -/
def write (s : StdioLoggers) (pieces : List LogPiece) : StdioLoggers :=
  { s with output := s.output ++ pieces }

/-- The next step of a thread in its statement. -/
def threadStep (s : StdioLoggers) (i : ℕ) : LogPc → Option StdioLoggers
  | .idle => none
  | .lock entry =>
    if s.extLock = none then
      let s' := s.goto i (.header entry)
      some { s' with extLock := some i, entered := s.entered ++ [(i, entry)] }
    else none
  | .header entry => some ((s.write [(entry.output, entry.header)]).goto i (.items entry.output entry.items false))
  | .items output (item :: left) endl =>
    some ((s.write [(output, item.written)]).goto i (.items output left (item.after endl)))
  | .items output [] endl => some ((s.write (if endl then [] else [(output, "\n")])).goto i .unlock)
  | .unlock =>
    let s' := s.goto i .idle
    some { s' with extLock := none }

/-- One step. -/
def step (s : StdioLoggers) : LogAction → Option StdioLoggers
  | .createLogger name =>
    some { s with maxNameWD := if s.maxNameWD < name.length then name.length else s.maxNameWD }
  | .log i level name time items =>
    if s.threads i = .idle then
      let entry := level.entry name time s.maxNameWD items
      let s' := s.goto i (.lock entry)
      some { s' with called := s.called ++ [(i, entry)] }
    else none
  | .go i => s.threadStep i (s.threads i)

end StdioLoggers

/-- What is written after some of the items, the last of which have left `endl` so. -/
def LogEntry.closing (output : LogStream) : List LogItem → Bool → List LogPiece
  | [], endl => if endl then [] else [(output, "\n")]
  | item :: left, endl => (output, item.written) :: closing output left (item.after endl)

/-- All that the statement writes. -/
def LogEntry.pieces (entry : LogEntry) : List LogPiece :=
  (entry.output, entry.header) :: closing entry.output entry.items false

/-- What a thread still writes in its statement. -/
def LogPc.rest : LogPc → List LogPiece
  | .idle | .unlock => []
  | .lock entry | .header entry => entry.pieces
  | .items output left endl => LogEntry.closing output left endl

/-- The statement that a thread has called and that waits for the lock. -/
def LogPc.waiting : LogPc → List LogEntry
  | .lock entry => [entry]
  | _ => []

/-- The text of a statement. -/
def LogEntry.text (entry : LogEntry) : String := (entry.pieces.map Prod.snd).foldl (· ++ ·) ""

/-- What follows ends the line that was begun, unless it is ended already. -/
theorem LogEntry.closing_ends (output : LogStream) (left : List LogItem) {endl : Bool} {begun : String}
    (hended : endl = true → ∃ line, begun = line ++ "
") :
    ∃ line, ((closing output left endl).map Prod.snd).foldl (· ++ ·) begun = line ++ "
" := by
  induction left generalizing endl begun with
  | nil =>
    cases endl with
    | true => exact hended rfl
    | false => exact ⟨begun, rfl⟩
  | cons item left ih =>
    rw [closing, List.map_cons, List.foldl_cons]
    apply ih
    cases item with
    | text => exact fun hfalse => nomatch hfalse
    | endl => exact fun _ => ⟨begun, rfl⟩
    | manip =>
      intro hsame
      obtain ⟨line, hline⟩ := hended hsame
      exact ⟨line, (String.append_empty).trans hline⟩

/-- Every statement ends its line. -/
theorem LogEntry.text_ends (entry : LogEntry) : ∃ line, entry.text = line ++ "
" := by
  rw [text, pieces, List.map_cons, List.foldl_cons]
  exact closing_ends entry.output entry.items fun hfalse => nomatch hfalse

namespace StdioLoggers

variable {s t : StdioLoggers} {i : ℕ} {pc : LogPc}

/-- The pieces of the statements that got the lock. -/
def sections (s : StdioLoggers) : List (ℕ × List LogPiece) := s.entered.map fun e => (e.1, e.2.pieces)

/-- The statements of a thread. -/
def ofThread (i : ℕ) (entries : List (ℕ × LogEntry)) : List LogEntry :=
  (entries.filter fun e => e.1 = i).map Prod.snd

/-- One more statement. -/
theorem ofThread_concat (i j : ℕ) (entries : List (ℕ × LogEntry)) (entry : LogEntry) :
    ofThread j (entries ++ [(i, entry)]) = ofThread j entries ++ if i = j then [entry] else [] := by
  split_ifs with hij <;> simp [ofThread, hij]

/-- The output consists of whole statements, and each thread gets the lock for its statements in the
order of its calls. -/
structure Sound (s : StdioLoggers) : Prop where
  lock : Mutex s.extLock fun i => (s.threads i).inside = true
  serial : Serial s.extLock s.output s.sections fun i => (s.threads i).rest
  order : ∀ i, ofThread i s.called = ofThread i s.entered ++ (s.threads i).waiting

/-- What is true of the other threads stays true. -/
theorem goto_other (s : StdioLoggers) {j : ℕ} (hne : j ≠ i) : (s.goto i pc).threads j = s.threads j :=
  Function.update_of_ne hne ..

/-- The thread has gone on. -/
theorem goto_self (s : StdioLoggers) (i : ℕ) (pc : LogPc) : (s.goto i pc).threads i = pc :=
  Function.update_self ..

namespace Sound

/-- A thread that has the lock writes. -/
theorem writes (h : s.Sound) {pieces : List LogPiece} (hinside : (s.threads i).inside = true)
    (hinside' : pc.inside = true) (hrest : (s.threads i).rest = pieces ++ pc.rest) :
    ((s.write pieces).goto i pc).Sound := by
  have hlock : s.extLock = some i := (h.lock i).mpr hinside
  have hserial := h.serial
  rw [hlock] at hserial
  have hquiet (pc : LogPc) (hpc : pc.inside = true) : pc.waiting = [] := by
    cases pc <;> first | rfl | contradiction
  refine ⟨?_, ?_, fun j => ?_⟩
  · refine h.lock.keep fun j => ?_
    by_cases hj : j = i
    · subst hj
      rw [goto_self, hinside, hinside']
    · rw [goto_other _ hj]
      rfl
  · change Serial s.extLock (s.output ++ pieces) s.sections _
    rw [hlock]
    apply hserial.write
    rw [goto_self]
    exact hrest
  · have hsame := h.order j
    by_cases hj : j = i
    · subst hj
      rw [hquiet _ hinside] at hsame
      rw [goto_self, hquiet _ hinside']
      exact hsame
    · rw [goto_other _ hj]
      exact hsame

/-- A thread begins a statement. -/
theorem calls (h : s.Sound) (entry : LogEntry) (hidle : s.threads i = .idle) :
    Sound { s.goto i (.lock entry) with called := s.called ++ [(i, entry)] } := by
  refine ⟨?_, ?_, fun j => ?_⟩
  · refine h.lock.keep fun j => ?_
    by_cases hj : j = i
    · subst hj
      dsimp only
      rw [goto_self, hidle]
      rfl
    · dsimp only
      rw [goto_other _ hj]
  · refine h.serial.congr fun j hj => ?_
    have hinside : (s.threads j).inside = true := (h.lock j).mp hj
    have hne : j ≠ i := by
      rintro rfl
      rw [hidle] at hinside
      contradiction
    dsimp only
    rw [goto_other _ hne]
  · have hsame := h.order j
    dsimp only
    rw [ofThread_concat]
    by_cases hj : j = i
    · subst hj
      rw [hidle] at hsame
      rw [goto_self, if_pos rfl, hsame]
      exact congrArg (· ++ [entry]) (List.append_nil _)
    · rw [goto_other _ hj, if_neg (Ne.symm hj), List.append_nil]
      exact hsame

/-- A thread gets the lock. -/
theorem enters (h : s.Sound) {entry : LogEntry} (hpc : s.threads i = .lock entry)
    (hfree : s.extLock = none) :
    Sound { s.goto i (.header entry) with extLock := some i, entered := s.entered ++ [(i, entry)] } := by
  have hlock := h.lock
  have hserial := h.serial
  rw [hfree] at hlock hserial
  refine ⟨?_, ?_, fun j => ?_⟩
  · refine hlock.acquire ?_ fun j hj => ?_
    · dsimp only
      rw [goto_self]
      rfl
    · dsimp only
      rw [goto_other _ hj]
  · have hsections : (s.entered ++ [(i, entry)]).map (fun e => (e.1, e.2.pieces)) =
        s.sections ++ [(i, entry.pieces)] := List.map_append
    have hmine : ((s.goto i (.header entry)).threads i).rest = entry.pieces := by
      rw [goto_self]
      rfl
    change Serial (some i) s.output ((s.entered ++ [(i, entry)]).map fun e => (e.1, e.2.pieces)) _
    rw [hsections]
    exact hserial.enter hmine
  · have hsame := h.order j
    dsimp only
    rw [ofThread_concat]
    by_cases hj : j = i
    · subst hj
      rw [hpc] at hsame
      rw [goto_self, if_pos rfl]
      exact hsame.trans (List.append_nil _).symm
    · rw [goto_other _ hj, if_neg (Ne.symm hj), List.append_nil]
      exact hsame

/-- A thread gives the lock back. -/
theorem leaves (h : s.Sound) (hpc : s.threads i = .unlock) :
    Sound { s.goto i .idle with extLock := none } := by
  have hinside : (s.threads i).inside = true := by
    rw [hpc]
    rfl
  have hlock : s.extLock = some i := (h.lock i).mpr hinside
  have hserial := h.serial
  rw [hlock] at hserial
  refine ⟨?_, ?_, fun j => ?_⟩
  · refine h.lock.release hinside ?_ fun j hj => ?_
    · dsimp only
      rw [goto_self]
      exact Bool.false_ne_true
    · dsimp only
      rw [goto_other _ hj]
  · apply hserial.leave
    rw [hpc]
    rfl
  · have hsame := h.order j
    dsimp only
    by_cases hj : j = i
    · subst hj
      rw [hpc] at hsame
      rw [goto_self]
      exact hsame
    · rw [goto_other _ hj]
      exact hsame

/-- Every step keeps it so. -/
theorem step (h : s.Sound) {a : LogAction} (hstep : s.step a = some t) : t.Sound := by
  cases a with
  | createLogger name =>
    cases hstep
    exact ⟨h.lock, h.serial, h.order⟩
  | log i level name time items =>
    obtain ⟨hidle, hstep⟩ := Option.ite_none_right_eq_some.mp hstep
    cases hstep
    exact h.calls _ hidle
  | go i =>
    rw [StdioLoggers.step] at hstep
    cases hpc : s.threads i with
    | idle =>
      rw [hpc] at hstep
      contradiction
    | lock entry =>
      rw [hpc] at hstep
      obtain ⟨hfree, hstep⟩ := Option.ite_none_right_eq_some.mp hstep
      cases hstep
      exact h.enters hpc hfree
    | header entry =>
      rw [hpc] at hstep
      cases hstep
      exact h.writes (by rw [hpc]; rfl) rfl (by rw [hpc]; rfl)
    | items output left endl =>
      rw [hpc] at hstep
      cases left <;> cases hstep
      · refine h.writes (by rw [hpc]; rfl) rfl ?_
        rw [hpc]
        exact (List.append_nil _).symm
      · exact h.writes (by rw [hpc]; rfl) rfl (by rw [hpc]; rfl)
    | unlock =>
      rw [hpc] at hstep
      cases hstep
      exact h.leaves hpc

end Sound

/-- Nothing was logged yet. -/
theorem sound_initial : initial.Sound := by
  refine ⟨fun i => ?_, rfl, fun _ => rfl⟩
  constructor <;> intro hfalse <;> contradiction

/-- A thread that cannot go on is idle, or waits for the lock while another one has it. -/
theorem waits_of_stuck (hstuck : s.step (.go i) = none) :
    s.threads i = .idle ∨ ∃ entry, s.threads i = .lock entry ∧ s.extLock ≠ none := by
  rw [step] at hstuck
  cases hpc : s.threads i with
  | idle => exact .inl rfl
  | lock entry =>
    rw [hpc, threadStep] at hstuck
    exact .inr ⟨entry, rfl, fun hfree => nomatch (if_pos hfree).symm.trans hstuck⟩
  | header entry =>
    rw [hpc] at hstuck
    contradiction
  | items output left endl =>
    rw [hpc] at hstuck
    cases left <;> contradiction
  | unlock =>
    rw [hpc] at hstuck
    contradiction

/-- Where no thread can go on, none is in a log statement. -/
theorem Sound.idle_of_stuck (h : s.Sound) (hstuck : ∀ i, s.step (.go i) = none) :
    s.extLock = none ∧ ∀ i, s.threads i = .idle := by
  have hfree : s.extLock = none := by
    cases hlock : s.extLock with
    | none => rfl
    | some i =>
      have hinside : (s.threads i).inside = true := (h.lock i).mp hlock
      rcases waits_of_stuck (hstuck i) with hidle | ⟨entry, hwaits, -⟩
      · rw [hidle] at hinside
        contradiction
      · rw [hwaits] at hinside
        contradiction
  refine ⟨hfree, fun i => ?_⟩
  rcases waits_of_stuck (hstuck i) with hidle | ⟨entry, -, htaken⟩
  · exact hidle
  · exact absurd hfree htaken

/-- In every run, the output consists of what whole statements write, one after the other, of which the
last one may still be under way; the statements of each thread are there in the order of its calls; every
statement ends its line; and where no thread can go on, all statements are written and the lock is free. -/
theorem lines_whole {actions : List LogAction} (hrun : runActions step initial actions = some s) :
    Serial s.extLock s.output s.sections (fun i => (s.threads i).rest) ∧
      (∀ i, ofThread i s.called = ofThread i s.entered ++ (s.threads i).waiting) ∧
      (∀ e ∈ s.entered, ∃ line, e.2.text = line ++ "
") ∧
      ((∀ i, s.step (.go i) = none) →
        s.extLock = none ∧ s.output = s.sections.flatMap Prod.snd ∧
          ∀ i, ofThread i s.called = ofThread i s.entered) := by
  have hkept : ∀ (u : StdioLoggers) (a : LogAction) (u' : StdioLoggers), u.Sound → u.step a = some u' →
      u'.Sound := fun u a u' h hstep => h.step hstep
  have h : s.Sound := runActions_invariant hkept sound_initial hrun
  refine ⟨h.serial, h.order, fun e _ => e.2.text_ends, fun hstuck => ?_⟩
  obtain ⟨hfree, hidle⟩ := h.idle_of_stuck hstuck
  refine ⟨hfree, ?_, fun i => ?_⟩
  · have hserial := h.serial
    rw [hfree] at hserial
    exact hserial
  · have hsame := h.order i
    rw [hidle i] at hsame
    exact hsame.trans (List.append_nil _)

/-- Two threads log at the same time, and the second one gets the lock first. -/
def twoLines : List LogAction :=
  [.createLogger "Main", .createLogger "Listener", .log 0 .info "Main" "0.01" [.text "Starting up"],
    .log 1 .error "Listener" "0.01" [.text "Failed to bind listen socket: ", .text "in use", .endl], .go 1,
    .go 1, .go 1, .go 1, .go 1, .go 1, .go 1, .go 0, .go 0, .go 0, .go 0, .go 0]

/-- Its line comes first, and each of them is ended once. -/
theorem lines_whole_twoLines :
    ∃ s, runActions step initial twoLines = some s ∧ s.output.map Prod.snd =
        ["[000.01| ERR|Listener]: ", "Failed to bind listen socket: ", "in use", "
",
          "[000.01|INFO|    Main]: ", "Starting up", "
"] ∧
      ∀ e ∈ s.entered, ∃ line, e.2.text = line ++ "
" := by
  have hsome : (runActions step initial twoLines).isSome = true := rfl
  have hrun := (Option.some_get hsome).symm
  exact ⟨_, hrun, rfl, (lines_whole hrun).2.2.1⟩

end StdioLoggers

end TinySox
