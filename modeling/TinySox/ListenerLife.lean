import TinySox.ServerListener

/-!
# What a listener does in its life

Whatever the kernel answers and whenever the flags are set, a listener opens its socket in a fixed
order, reports, serves its clients one after the other, and then closes the socket or gives up. The
traces of complete lives are described here, and what a listener has done is a prefix of one. It may be
told to continue at any time, so these messages are left out there; but no client is waited for or
served before the first of them.
-/

namespace TinySox

open TinySox.Common

/-- The calls that open the socket, with the results that let the listener go on. -/
def listenerOpening (settings : ListenerSettings) (endpoint : IPEndpoint) (fd : Int) :
    List ListenerEvent :=
  [.returned (.socket endpoint.address.isV6) fd,
    .returned (.setsockopt fd .reuseAddr [1]) 0,
    .returned (.setsockopt fd .reusePort [1]) 0,
    .returned (.setsockopt fd .linger [1, 0]) 0,
    .returned (.bind fd (endpoint.listenSockaddr settings.host)) 0,
    .returned (.listen fd 1) 0]

/-- The event is one of `Worker`. -/
def ListenerEvent.isOwn : ListenerEvent → Bool
  | .allowed => false
  | _ => true

/-- The call waits for a client, or serves one. -/
def ListenerCall.isService : ListenerCall → Bool
  | .poll _ _ | .accept _ | .createHandlerFromSocket _ => true
  | _ => false

/-- A client is waited for or served. -/
def ListenerEvent.isService : ListenerEvent → Bool
  | .returned call _ | .failed call _ => call.isService
  | .send (.newClient _) => true
  | .send _ | .allowed => false

/-- How many calls come before this one. -/
def ListenOption.place : ListenOption → ℕ
  | .reuseAddr => 1
  | .reusePort => 2
  | .linger => 3

/-- One round of the loop. -/
inductive ListenerRound
  | idle
  /-- no client could be accepted -/
  | refused (ready : Int) (hready : 0 < ready) (error : ℕ)
  | served (ready : Int) (hready : 0 < ready) (client : Int) (hclient : 0 < client) (id : Int)
    (hid : id.toNat ≤ handlerError)

/-- What happens in the round. -/
def ListenerRound.events (settings : ListenerSettings) (fd : Int) : ListenerRound → List ListenerEvent
  | .idle => [.returned (.poll fd settings.serviceInterval) 0]
  | .refused ready _ error =>
    [.returned (.poll fd settings.serviceInterval) ready, .failed (.accept fd) error]
  | .served ready _ client _ id _ =>
    [.returned (.poll fd settings.serviceInterval) ready, .returned (.accept fd) client,
      .returned (.createHandlerFromSocket client) id, .send (.newClient id.toNat)]

/-- The socket is opened, and these rounds have followed. -/
def listenerServed (settings : ListenerSettings) (endpoint : IPEndpoint) (fd : Int)
    (rounds : List ListenerRound) : List ListenerEvent :=
  listenerOpening settings endpoint fd ++ [.send (.startup .startupReady)] ++
    rounds.flatMap (ListenerRound.events settings fd)

/-- A signal may interrupt `poll` before the socket is closed. -/
def interruption (settings : ListenerSettings) (fd : Int) : Bool → List ListenerEvent
  | true => [.failed (.poll fd settings.serviceInterval) eintr]
  | false => []

/-- How the last round ends. -/
inductive ListenerEnd (settings : ListenerSettings) (fd : Int) : List ListenerEvent → Prop
  | closed (interrupted : Bool) :
    ListenerEnd settings fd (interruption settings fd interrupted ++ [.returned (.close fd) 0])
  | closeFails (interrupted : Bool) (error : ℕ) :
    ListenerEnd settings fd (interruption settings fd interrupted ++
      [.failed (.close fd) error, .send (.startup (.shutdown error))])
  | pollFails (error : ℕ) (herror : error ≠ eintr) :
    ListenerEnd settings fd [.failed (.poll fd settings.serviceInterval) error,
      .send (.startup (.shutdown error))]
  | createFails (ready : Int) (hready : 0 < ready) (client : Int) (hclient : 0 < client) (error : ℕ) :
    ListenerEnd settings fd [.returned (.poll fd settings.serviceInterval) ready,
      .returned (.accept fd) client, .failed (.createHandlerFromSocket client) error,
      .send (.startup (.shutdown 1))]

/-- What a listener does from its start to its end. -/
inductive ListenerLife (settings : ListenerSettings) (endpoint : IPEndpoint) :
    List ListenerEvent → Prop
  | invalid (haddress : endpoint.address.isValid = false) :
    ListenerLife settings endpoint [.send (.startup (.shutdown 1))]
  /-- one of the calls that open the socket has failed, and none has been made after it -/
  | openingFails (haddress : endpoint.address.isValid = true) (fd : Int) (done : List ListenerEvent)
    (call : ListenerCall) (result : Int)
    (hcall : done ++ [.returned call result] <+: listenerOpening settings endpoint fd) (error : ℕ) :
    ListenerLife settings endpoint (done ++ [.failed call error, .send (.startup (.shutdown error))])
  | served (haddress : endpoint.address.isValid = true) (fd : Int) (hfd : fd ≠ -1)
    (rounds : List ListenerRound) (last : List ListenerEvent) (hlast : ListenerEnd settings fd last) :
    ListenerLife settings endpoint (listenerServed settings endpoint fd rounds ++ last)

variable {settings : ListenerSettings} {endpoint : IPEndpoint} {fd : Int}

/-- One more round has followed. -/
theorem listenerServed_concat (rounds : List ListenerRound) (round : ListenerRound) :
    listenerServed settings endpoint fd rounds ++ round.events settings fd =
      listenerServed settings endpoint fd (rounds ++ [round]) := by
  rw [listenerServed, listenerServed, List.flatMap_append, List.flatMap_singleton, List.append_assoc]

namespace ServerListener

/-- The listener without the messages that it was told in between. -/
def own (l : ServerListener) : ServerListener := { l with trace := l.trace.filter ListenerEvent.isOwn }

section Own

variable (l : ServerListener)

@[simp] theorem own_returns (call : ListenerCall) (result : Int) (pc : ServerListenerPc) :
    (l.returns call result pc).own = l.own.returns call result pc := by
  simp [own, returns, ListenerEvent.isOwn]

@[simp] theorem own_fails (call : ListenerCall) (error : ℕ) :
    (l.fails call error).own = l.own.fails call error := by
  simp [own, fails, ListenerEvent.isOwn]

@[simp] theorem own_send (fd : Int) (message : ProgramMessage) :
    (l.send settings fd message).own = l.own.send settings fd message := by
  simp [own, send, ListenerEvent.isOwn]

@[simp] theorem own_handleError (fd ec : Int) :
    (l.handleError settings fd ec).own = l.own.handleError settings fd ec := l.own_send fd _

@[simp] theorem own_check (fd : Int) (call : ListenerCall) (result : Int) (error : ℕ)
    (pc : ServerListenerPc) :
    (l.check settings fd call result error pc).own = l.own.check settings fd call result error pc := by
  unfold check
  split_ifs <;> simp only [own_handleError, own_fails, own_returns]

/-- `Worker` does not depend on what was recorded of the messages. -/
theorem workerStep_own (result : Int) (error : ℕ) :
    l.own.workerStep settings result error = (l.workerStep settings result error).map own := by
  have hfails (call : ListenerCall) (pc : ServerListenerPc) :
      ({ l.fails call error with pc } : ServerListener).own = { l.own.fails call error with pc } := by
    rw [← own_fails]
    rfl
  have hsame : l.own.pc = l.pc ∧ l.own.startupAllowed = l.startupAllowed ∧
      l.own.shutdownPending = l.shutdownPending ∧ l.own.endpoint = l.endpoint := ⟨rfl, rfl, rfl, rfl⟩
  cases hpc : l.pc with
  | sending fd message left =>
    simp only [workerStep, hsame, hpc]
    cases left <;> rfl
  | _ =>
    simp only [workerStep, hsame, hpc]
    try split_ifs
    all_goals first
      | rfl
      | exact congrArg some (hfails _ _).symm
      | simp only [Option.map_some, own_handleError, own_fails, own_check, own_send, own_returns]

end Own

/-- The address can be listened at, and the socket is there. -/
def Opened (endpoint : IPEndpoint) (fd : Int) : Prop := endpoint.address.isValid = true ∧ fd ≠ -1

/-- What has happened, by where the listener stands. -/
def Lives (settings : ListenerSettings) (endpoint : IPEndpoint) (trace : List ListenerEvent) :
    ServerListenerPc → Prop
  | .unborn | .socket => trace = []
  | .setsockopt fd option =>
    Opened endpoint fd ∧ trace = (listenerOpening settings endpoint fd).take option.place
  | .bind fd => Opened endpoint fd ∧ trace = (listenerOpening settings endpoint fd).take 4
  | .listen fd => Opened endpoint fd ∧ trace = (listenerOpening settings endpoint fd).take 5
  | .sending fd (.startup .startupReady) _ | .waiting fd =>
    Opened endpoint fd ∧ trace = listenerServed settings endpoint fd []
  | .sending fd (.newClient _) _ | .loop fd | .poll fd =>
    Opened endpoint fd ∧ ∃ rounds, trace = listenerServed settings endpoint fd rounds
  | .accept fd =>
    Opened endpoint fd ∧ ∃ rounds ready, 0 < ready ∧
      trace = listenerServed settings endpoint fd rounds ++
        [.returned (.poll fd settings.serviceInterval) ready]
  | .create fd client =>
    Opened endpoint fd ∧ 0 < client ∧ ∃ rounds ready, 0 < ready ∧
      trace = listenerServed settings endpoint fd rounds ++
        [.returned (.poll fd settings.serviceInterval) ready, .returned (.accept fd) client]
  | .close fd =>
    Opened endpoint fd ∧ ∃ rounds interrupted,
      trace = listenerServed settings endpoint fd rounds ++ interruption settings fd interrupted
  | .sending _ (.startup (.shutdown _)) _ | .returned => ListenerLife settings endpoint trace
  | .sending _ .startupContinue _ => False

/-- The listener has this endpoint, and its life goes as it should. -/
structure Alive (settings : ListenerSettings) (endpoint : IPEndpoint) (l : ServerListener) : Prop where
  endpoint_eq : l.endpoint = endpoint
  lives : Lives settings endpoint l.trace l.pc

namespace Alive

variable {l l' : ServerListener}

/-- Whether a call of the opening fails, the life goes on as it should. -/
theorem check (h : l.Alive settings endpoint) {call : ListenerCall} {result : Int} {error : ℕ}
    {pc : ServerListenerPc} (good : Int) (haddress : endpoint.address.isValid = true)
    (hcall : l.trace ++ [.returned call good] <+: listenerOpening settings endpoint fd)
    (hlives : call.fails result = false →
      Lives settings endpoint (l.trace ++ [.returned call result]) pc) :
    (l.check settings fd call result error pc).Alive settings endpoint := by
  refine ⟨?_, ?_⟩
  · unfold ServerListener.check
    split_ifs
    · exact h.endpoint_eq
    · exact h.endpoint_eq
  · unfold ServerListener.check
    split_ifs with hfails
    · have hlife := ListenerLife.openingFails haddress fd l.trace call good hcall error
      rwa [← List.singleton_append, ← List.append_assoc] at hlife
    · exact hlives ((Bool.not_eq_true _).mp hfails)

/-- The listener goes on, and nothing has happened. -/
theorem goto (h : l.Alive settings endpoint) {pc : ServerListenerPc}
    (hlives : Lives settings endpoint l.trace pc) :
    ({ l with pc } : ServerListener).Alive settings endpoint := ⟨h.endpoint_eq, hlives⟩

/-- A call of the opening. -/
theorem opens (h : l.Alive settings endpoint) {call : ListenerCall} {result : Int} {error : ℕ}
    {pc : ServerListenerPc} (hopened : Opened endpoint fd)
    (hfails : call.fails result = decide (result ≠ 0))
    (hcall : l.trace ++ [.returned call 0] <+: listenerOpening settings endpoint fd)
    (hlives : Lives settings endpoint (l.trace ++ [.returned call 0]) pc) :
    (l.check settings fd call result error pc).Alive settings endpoint := by
  refine h.check 0 hopened.1 hcall fun hgood => ?_
  rw [hfails, decide_eq_false_iff_not, not_not] at hgood
  rwa [hgood]

/-- The next step of `Worker`. -/
theorem workerStep (h : l.Alive settings endpoint) {result : Int} {error : ℕ}
    (hstep : l.workerStep settings result error = some l') : l'.Alive settings endpoint := by
  have hlives := h.lives
  obtain ⟨hendpoint, -⟩ := h
  subst hendpoint
  have h : l.Alive settings l.endpoint := ⟨rfl, hlives⟩
  cases hpc : l.pc with
  | unborn | returned =>
    simp only [ServerListener.workerStep, hpc] at hstep
    contradiction
  | socket =>
    rw [hpc] at hlives
    simp only [ServerListener.workerStep, hpc] at hstep
    have hnothing : l.trace = [] := hlives
    split_ifs at hstep with haddress
    · cases hstep
      refine h.check result haddress (by rw [hnothing]; exact ⟨_, rfl⟩) fun hgood => ?_
      have hfd : result ≠ -1 := of_decide_eq_false hgood
      rw [hnothing]
      exact ⟨⟨haddress, hfd⟩, rfl⟩
    · cases hstep
      refine ⟨rfl, ?_⟩
      have hlife : ListenerLife settings l.endpoint [.send (.startup (.shutdown 1))] :=
        .invalid ((Bool.not_eq_true _).mp haddress)
      simpa [handleError, send, hnothing, Lives] using hlife
  | setsockopt fd option =>
    rw [hpc] at hlives
    simp only [ServerListener.workerStep, hpc] at hstep
    obtain ⟨hopened, htrace⟩ := hlives
    cases hstep
    have hcall : l.trace ++ [.returned (.setsockopt fd option option.value) 0] =
        (listenerOpening settings l.endpoint fd).take (option.place + 1) := by
      rw [htrace]
      cases option <;> rfl
    refine h.opens hopened rfl (by rw [hcall]; exact List.take_prefix _ _) ?_
    rw [hcall]
    cases option <;> exact ⟨hopened, rfl⟩
  | bind fd =>
    rw [hpc] at hlives
    simp only [ServerListener.workerStep, hpc] at hstep
    obtain ⟨hopened, htrace⟩ := hlives
    cases hstep
    have hcall : l.trace ++ [.returned (.bind fd (l.endpoint.listenSockaddr settings.host)) 0] =
        (listenerOpening settings l.endpoint fd).take 5 := by
      rw [htrace]
      rfl
    refine h.opens hopened rfl (by rw [hcall]; exact List.take_prefix _ _) ?_
    rw [hcall]
    exact ⟨hopened, rfl⟩
  | listen fd =>
    rw [hpc] at hlives
    simp only [ServerListener.workerStep, hpc] at hstep
    obtain ⟨hopened, htrace⟩ := hlives
    have hcall : l.trace ++ [.returned (.listen fd 1) 0] = listenerOpening settings l.endpoint fd := by
      rw [htrace]
      rfl
    split_ifs at hstep with hfails
    · cases hstep
      refine ⟨rfl, ?_⟩
      have hlife := ListenerLife.openingFails hopened.1 fd l.trace _ 0 (by rw [hcall]) error
      rwa [← List.singleton_append, ← List.append_assoc] at hlife
    · cases hstep
      have hgood : result = 0 := by simpa [ListenerCall.fails] using hfails
      refine ⟨rfl, hopened, ?_⟩
      rw [listenerServed, ← hcall, hgood, List.flatMap_nil, List.append_nil]
      rfl
  | sending fd message left =>
    rw [hpc] at hlives
    simp only [ServerListener.workerStep, hpc] at hstep
    cases left with
    | nil =>
      cases hstep
      refine h.goto ?_
      cases message with
      | startup message => cases message <;> exact hlives
      | startupContinue => exact hlives.elim
      | newClient id => exact hlives
    | cons subscriber left =>
      cases hstep
      refine h.goto ?_
      cases message with
      | startup message => cases message <;> exact hlives
      | startupContinue => exact hlives
      | newClient id => exact hlives
  | waiting fd =>
    rw [hpc] at hlives
    simp only [ServerListener.workerStep, hpc] at hstep
    split_ifs at hstep
    cases hstep
    exact h.goto ⟨hlives.1, [], hlives.2⟩
  | loop fd =>
    rw [hpc] at hlives
    simp only [ServerListener.workerStep, hpc] at hstep
    cases hstep
    obtain ⟨hopened, rounds, htrace⟩ := hlives
    split_ifs
    · refine h.goto ⟨hopened, rounds, false, ?_⟩
      rw [htrace, interruption, List.append_nil]
    · exact h.goto ⟨hopened, rounds, htrace⟩
  | poll fd =>
    rw [hpc] at hlives
    simp only [ServerListener.workerStep, hpc] at hstep
    obtain ⟨hopened, rounds, htrace⟩ := hlives
    split_ifs at hstep with hfails hsignal hzero
    · cases hstep
      refine ⟨rfl, hopened, rounds, true, ?_⟩
      rw [fails, htrace, hsignal]
      rfl
    · cases hstep
      refine ⟨rfl, ?_⟩
      have hlast : ListenerEnd settings fd _ := .pollFails error hsignal
      have hlife := ListenerLife.served hopened.1 fd hopened.2 rounds _ hlast
      rw [← htrace] at hlife
      simpa [handleError, send, fails, Lives] using hlife
    · cases hstep
      refine ⟨rfl, hopened, rounds ++ [.idle], ?_⟩
      rw [returns, htrace, hzero]
      exact listenerServed_concat rounds .idle
    · cases hstep
      have hready : 0 ≤ result := by simpa [ListenerCall.fails] using hfails
      refine ⟨rfl, hopened, rounds, result, by omega, ?_⟩
      rw [returns, htrace]
  | accept fd =>
    rw [hpc] at hlives
    simp only [ServerListener.workerStep, hpc] at hstep
    obtain ⟨hopened, rounds, ready, hready, htrace⟩ := hlives
    split_ifs at hstep with hfails
    · cases hstep
      refine ⟨rfl, hopened, rounds ++ [.refused ready hready error], ?_⟩
      rw [fails, htrace, List.append_assoc]
      exact listenerServed_concat rounds (.refused ready hready error)
    · cases hstep
      have hclient : 1 ≤ result := by simpa [ListenerCall.fails] using hfails
      refine ⟨rfl, hopened, hclient, rounds, ready, hready, ?_⟩
      rw [returns, htrace, List.append_assoc]
      rfl
  | create fd client =>
    rw [hpc] at hlives
    simp only [ServerListener.workerStep, hpc] at hstep
    obtain ⟨hopened, hclient, rounds, ready, hready, htrace⟩ := hlives
    split_ifs at hstep with hfails
    · cases hstep
      refine ⟨rfl, ?_⟩
      have hlast : ListenerEnd settings fd _ := .createFails ready hready client hclient error
      have hlife := ListenerLife.served hopened.1 fd hopened.2 rounds _ hlast
      simpa [handleError, send, fails, Lives, htrace] using hlife
    · cases hstep
      have hid : result.toNat ≤ handlerError := by simpa [ListenerCall.fails] using hfails
      let round : ListenerRound := .served ready hready client hclient result hid
      refine ⟨rfl, hopened, rounds ++ [round], ?_⟩
      rw [← listenerServed_concat, returns, send, htrace]
      simp [ListenerRound.events, round]
  | close fd =>
    rw [hpc] at hlives
    simp only [ServerListener.workerStep, hpc] at hstep
    obtain ⟨hopened, rounds, interrupted, htrace⟩ := hlives
    cases hstep
    unfold ServerListener.check
    split_ifs with hfails
    · refine ⟨rfl, ?_⟩
      have hlast : ListenerEnd settings fd _ := .closeFails interrupted error
      have hlife := ListenerLife.served hopened.1 fd hopened.2 rounds _ hlast
      simpa [handleError, send, fails, Lives, htrace] using hlife
    · have hgood : result = 0 := by simpa [ListenerCall.fails] using hfails
      refine ⟨rfl, ?_⟩
      have hlast : ListenerEnd settings fd _ := .closed interrupted
      have hlife := ListenerLife.served hopened.1 fd hopened.2 rounds _ hlast
      simpa [returns, Lives, htrace, hgood] using hlife

/-- One step. -/
theorem step (h : l.own.Alive settings endpoint) {a : ListenerAction}
    (hstep : l.step settings a = some l') : l'.own.Alive settings endpoint := by
  cases a with
  | work result error =>
    apply h.workerStep
    rw [workerStep_own]
    exact congrArg (Option.map own) hstep
  | startup =>
    cases hstep
    split_ifs with hunborn
    · have hlives := h.lives
      change Lives settings endpoint l.own.trace l.pc at hlives
      rw [hunborn] at hlives
      exact h.goto hlives
    · exact h
  | allow =>
    cases hstep
    refine ⟨h.endpoint_eq, ?_⟩
    have hown : (l.onMessage).own.trace = l.own.trace := by simp [own, onMessage, ListenerEvent.isOwn]
    change Lives settings endpoint (l.onMessage).own.trace l.pc
    rw [hown]
    exact h.lives
  | shutdown =>
    cases hstep
    exact ⟨h.endpoint_eq, h.lives⟩

/-- What has happened is the start of a life. -/
theorem exists_life (h : l.Alive settings endpoint) :
    ∃ life, ListenerLife settings endpoint life ∧ l.trace <+: life := by
  have hlives := h.lives
  have hopening {fd : Int} (hopened : Opened endpoint fd) (n : ℕ) (call : ListenerCall) (result : Int)
      (hcall : l.trace ++ [.returned call result] = (listenerOpening settings endpoint fd).take n) :
      ∃ life, ListenerLife settings endpoint life ∧ l.trace <+: life :=
    ⟨_, .openingFails hopened.1 fd l.trace call result (by rw [hcall]; exact List.take_prefix _ _) 0,
      List.prefix_append _ _⟩
  have hserved {fd : Int} (hopened : Opened endpoint fd) (rounds : List ListenerRound)
      (last : List ListenerEvent) {more : List ListenerEvent} (hlast : ListenerEnd settings fd (last ++ more))
      (htrace : l.trace = listenerServed settings endpoint fd rounds ++ last) :
      ∃ life, ListenerLife settings endpoint life ∧ l.trace <+: life := by
    refine ⟨_, .served hopened.1 fd hopened.2 rounds _ hlast, ?_⟩
    rw [htrace, ← List.append_assoc]
    exact List.prefix_append _ _
  cases hpc : l.pc with
  | unborn | socket =>
    rw [hpc] at hlives
    have hnothing : l.trace = [] := hlives
    rw [hnothing]
    cases haddress : endpoint.address.isValid with
    | false => exact ⟨_, .invalid haddress, List.nil_prefix⟩
    | true => exact ⟨_, .openingFails haddress 0 [] _ 0 ⟨_, rfl⟩ 0, List.nil_prefix⟩
  | setsockopt fd option =>
    rw [hpc] at hlives
    obtain ⟨hopened, htrace⟩ := hlives
    refine hopening hopened (option.place + 1) (.setsockopt fd option option.value) 0 ?_
    rw [htrace]
    cases option <;> rfl
  | bind fd =>
    rw [hpc] at hlives
    obtain ⟨hopened, htrace⟩ := hlives
    refine hopening hopened 5 (.bind fd (endpoint.listenSockaddr settings.host)) 0 ?_
    rw [htrace]
    rfl
  | listen fd =>
    rw [hpc] at hlives
    obtain ⟨hopened, htrace⟩ := hlives
    refine hopening hopened 6 (.listen fd 1) 0 ?_
    rw [htrace]
    rfl
  | sending fd message left =>
    rw [hpc] at hlives
    cases message with
    | startup message =>
      cases message with
      | startupReady =>
        obtain ⟨hopened, htrace⟩ := hlives
        exact hserved hopened [] [] (.closed false) (by rw [htrace, List.append_nil])
      | shutdown ec => exact ⟨_, hlives, List.prefix_rfl⟩
    | startupContinue => exact hlives.elim
    | newClient id =>
      obtain ⟨hopened, rounds, htrace⟩ := hlives
      exact hserved hopened rounds [] (.closed false) (by rw [htrace, List.append_nil])
  | waiting fd =>
    rw [hpc] at hlives
    obtain ⟨hopened, htrace⟩ := hlives
    exact hserved hopened [] [] (.closed false) (by rw [htrace, List.append_nil])
  | loop fd | poll fd =>
    rw [hpc] at hlives
    obtain ⟨hopened, rounds, htrace⟩ := hlives
    exact hserved hopened rounds [] (.closed false) (by rw [htrace, List.append_nil])
  | accept fd =>
    rw [hpc] at hlives
    obtain ⟨hopened, rounds, ready, hready, htrace⟩ := hlives
    exact hserved hopened rounds _ (.createFails ready hready 1 (by decide) 0) htrace
  | create fd client =>
    rw [hpc] at hlives
    obtain ⟨hopened, hclient, rounds, ready, hready, htrace⟩ := hlives
    exact hserved hopened rounds _ (.createFails ready hready client hclient 0) htrace
  | close fd =>
    rw [hpc] at hlives
    obtain ⟨hopened, rounds, interrupted, htrace⟩ := hlives
    exact hserved hopened rounds _ (.closed interrupted) htrace
  | returned =>
    rw [hpc] at hlives
    exact ⟨_, hlives, List.prefix_rfl⟩

end Alive

/-- Nothing has happened yet. -/
theorem alive_initial (settings : ListenerSettings) (endpoint : IPEndpoint) :
    (initial endpoint).Alive settings endpoint := ⟨rfl, rfl⟩

/-- The continue that was told is recorded, and so is what came after it. -/
structure Released (l : ServerListener) : Prop where
  allowed : l.startupAllowed = true → .allowed ∈ l.trace
  released : l.pc.isReleased = true → .allowed ∈ l.trace
  serves : ∀ past e later, l.trace = past ++ e :: later → e.isService = true → .allowed ∈ past

namespace Released

variable {l l' : ServerListener}

/-- The listener goes on, and nothing has happened. -/
theorem goto (h : l.Released) {pc : ServerListenerPc} (hreleased : pc.isReleased = true →
    l.pc.isReleased = true ∨ l.startupAllowed = true) : ({ l with pc } : ServerListener).Released :=
  ⟨h.allowed, fun hpc => (hreleased hpc).elim h.released h.allowed, h.serves⟩

/-- Something has happened, and the listener goes on. -/
theorem concat (h : l.Released) {pc : ServerListenerPc} {e : ListenerEvent}
    (hreleased : pc.isReleased = true → l.pc.isReleased = true)
    (hserves : e.isService = true → l.pc.isReleased = true) :
    ({ l with pc, trace := l.trace ++ [e] } : ServerListener).Released := by
  refine ⟨fun hallowed => ?_, fun hpc => ?_, ?_⟩
  · exact List.mem_append_left _ (h.allowed hallowed)
  · exact List.mem_append_left _ (h.released (hreleased hpc))
  · exact forall_split_concat (P := fun (past : List ListenerEvent) (e : ListenerEvent) =>
      e.isService = true → .allowed ∈ past) h.serves fun he => h.released (hserves he)

/-- A call has failed, and its error is reported. -/
theorem givesUp (h : l.Released) {call : ListenerCall} {error : ℕ} {fd ec : Int}
    (hserves : call.isService = true → l.pc.isReleased = true) :
    ((l.fails call error).handleError settings fd ec).Released := by
  have hfailed : (l.fails call error).Released := h.concat id hserves
  exact hfailed.concat (fun hno => absurd hno Bool.false_ne_true)
    fun hno => absurd hno Bool.false_ne_true

/-- A call that opens the socket. -/
theorem check (h : l.Released) {call : ListenerCall} {result : Int} {error : ℕ} {fd : Int}
    {pc : ServerListenerPc} (hopens : call.isService = false) (hpc : pc.isReleased = false) :
    (l.check settings fd call result error pc).Released := by
  have hnot {P : Prop} (hserves : call.isService = true) : P := by
    rw [hopens] at hserves
    contradiction
  unfold ServerListener.check
  split_ifs
  · exact h.givesUp fun hserves => hnot hserves
  · refine h.concat (fun hreleased => ?_) fun hserves => hnot hserves
    rw [hpc] at hreleased
    contradiction

/-- The next step of `Worker`. -/
theorem workerStep (h : l.Released) {result : Int} {error : ℕ}
    (hstep : l.workerStep settings result error = some l') : l'.Released := by
  have hno {P : Prop} (hfalse : false = true) : P := absurd hfalse Bool.false_ne_true
  cases hpc : l.pc with
  | unborn | returned =>
    simp only [ServerListener.workerStep, hpc] at hstep
    contradiction
  | socket =>
    simp only [ServerListener.workerStep, hpc] at hstep
    split_ifs at hstep
    · cases hstep
      exact h.check rfl rfl
    · cases hstep
      exact h.concat hno hno
  | setsockopt fd option =>
    simp only [ServerListener.workerStep, hpc] at hstep
    cases hstep
    exact h.check rfl (by cases option <;> rfl)
  | bind fd | close fd =>
    simp only [ServerListener.workerStep, hpc] at hstep
    cases hstep
    exact h.check rfl rfl
  | listen fd =>
    simp only [ServerListener.workerStep, hpc] at hstep
    split_ifs at hstep
    · cases hstep
      exact h.givesUp hno
    · cases hstep
      have hlistens : (l.returns (.listen fd 1) result l.pc).Released := h.concat id hno
      exact hlistens.concat hno hno
  | sending fd message left =>
    simp only [ServerListener.workerStep, hpc] at hstep
    cases left with
    | nil =>
      cases hstep
      refine h.goto fun hreleased => .inl ?_
      rw [hpc]
      cases message with
      | startup message => cases message <;> exact hno hreleased
      | startupContinue | newClient => rfl
    | cons subscriber left =>
      cases hstep
      refine h.goto fun hreleased => .inl ?_
      rw [hpc]
      cases message with
      | startup message => exact hno hreleased
      | startupContinue | newClient => rfl
  | waiting fd =>
    simp only [ServerListener.workerStep, hpc] at hstep
    split_ifs at hstep with hallowed
    cases hstep
    exact h.goto fun _ => .inr hallowed
  | loop fd =>
    simp only [ServerListener.workerStep, hpc] at hstep
    cases hstep
    exact h.goto fun _ => .inl (by rw [hpc]; rfl)
  | poll fd =>
    have hin : l.pc.isReleased = true := by rw [hpc]; rfl
    simp only [ServerListener.workerStep, hpc] at hstep
    split_ifs at hstep
    · cases hstep
      exact h.concat (fun _ => hin) fun _ => hin
    · cases hstep
      exact h.givesUp fun _ => hin
    · cases hstep
      exact h.concat (fun _ => hin) fun _ => hin
    · cases hstep
      exact h.concat (fun _ => hin) fun _ => hin
  | accept fd =>
    have hin : l.pc.isReleased = true := by rw [hpc]; rfl
    simp only [ServerListener.workerStep, hpc] at hstep
    split_ifs at hstep
    · cases hstep
      exact h.concat (fun _ => hin) fun _ => hin
    · cases hstep
      exact h.concat (fun _ => hin) fun _ => hin
  | create fd client =>
    have hin : l.pc.isReleased = true := by rw [hpc]; rfl
    simp only [ServerListener.workerStep, hpc] at hstep
    split_ifs at hstep
    · cases hstep
      exact h.givesUp fun _ => hin
    · cases hstep
      have hcreated : (l.returns (.createHandlerFromSocket client) result l.pc).Released :=
        h.concat id fun _ => hin
      exact hcreated.concat (fun _ => hin) fun _ => hin

/-- One step. -/
theorem step (h : l.Released) {a : ListenerAction} (hstep : l.step settings a = some l') :
    l'.Released := by
  cases a with
  | work result error => exact h.workerStep hstep
  | startup =>
    cases hstep
    split_ifs
    · exact h.goto fun hno => absurd hno Bool.false_ne_true
    · exact h
  | allow =>
    cases hstep
    have htold : .allowed ∈ l.onMessage.trace := List.mem_append_right _ (List.mem_singleton_self _)
    have hsilent : ListenerEvent.allowed.isService = true → .allowed ∈ l.trace := by
      rintro ⟨⟩
    refine ⟨fun _ => htold, fun _ => htold, ?_⟩
    exact forall_split_concat (P := fun (past : List ListenerEvent) (e : ListenerEvent) =>
      e.isService = true → .allowed ∈ past) h.serves hsilent
  | shutdown =>
    cases hstep
    exact ⟨h.allowed, h.released, h.serves⟩

end Released

/-- A new listener was told nothing, and has not gone on. -/
theorem released_initial (endpoint : IPEndpoint) : (initial endpoint).Released := by
  refine ⟨fun hno => absurd hno Bool.false_ne_true, fun hno => absurd hno Bool.false_ne_true, ?_⟩
  intro past e later hsplit
  have hempty : past ++ e :: later = [] := hsplit.symm
  simp at hempty

/-- In every run a listener does what it should: it opens its socket step by step and gives up at the
first failure, it reports once the socket listens, every client that it accepts is registered and
announced before the next `poll`, and the socket is closed at the end unless a call has failed. When
`Worker` has returned, such a life is over. No client is waited for or served before the listener is
told to continue. -/
theorem listener_life {actions : List ListenerAction} {l : ServerListener}
    (hrun : runActions (step settings) (initial endpoint) actions = some l) :
    (∃ life, ListenerLife settings endpoint life ∧ l.trace.filter ListenerEvent.isOwn <+: life) ∧
      (l.pc = .returned → ListenerLife settings endpoint (l.trace.filter ListenerEvent.isOwn)) ∧
      ∀ past e later, l.trace = past ++ e :: later → e.isService = true → .allowed ∈ past := by
  have hkeeps (s : ServerListener) (a : ListenerAction) (t : ServerListener)
      (h : s.own.Alive settings endpoint) (hstep : s.step settings a = some t) :
      t.own.Alive settings endpoint := h.step hstep
  have hstart : (initial endpoint).own.Alive settings endpoint := alive_initial settings endpoint
  have halive : l.own.Alive settings endpoint := runActions_invariant hkeeps hstart hrun
  have hreleased : l.Released :=
    runActions_invariant (fun _ _ _ h hstep => h.step hstep) (released_initial endpoint) hrun
  refine ⟨halive.exists_life, fun hreturned => ?_, hreleased.serves⟩
  have hlives : Lives settings endpoint l.own.trace l.pc := halive.lives
  rwa [hreturned] at hlives

/-- A listener at 127.0.0.1 with one subscriber. -/
def loopbackSettings : ListenerSettings := ⟨.little, 500, [.startupHandler]⟩

/-- Port 1080 of 127.0.0.1. -/
def loopbackEndpoint : IPEndpoint := ⟨.ofRaw [127, 0, 0, 1], 1080⟩

/-- The listener serves one client, and a signal ends it. -/
def servesOne : List ListenerAction :=
  [.startup, .work 3 0, .work 0 0, .work 0 0, .work 0 0, .work 0 0, .work 0 0, .work 0 0, .work 0 0,
    .allow, .work 0 0, .work 0 0, .work 1 0, .work 5 0, .work 1 0, .work 0 0, .work 0 0, .work 0 0,
    .work (-1) eintr, .work 0 0]

/-- All that the listener does there is one life, with the continue before the first `poll`. -/
theorem listener_life_servesOne :
    ∃ l, runActions (step loopbackSettings) (initial loopbackEndpoint) servesOne = some l ∧
      l.pc = .returned ∧ l.trace.length = 14 ∧
      ListenerLife loopbackSettings loopbackEndpoint (l.trace.filter ListenerEvent.isOwn) := by
  obtain ⟨l, hrun⟩ : ∃ l, runActions (step loopbackSettings) (initial loopbackEndpoint) servesOne =
      some l := Option.isSome_iff_exists.mp (by decide)
  have hpc : (runActions (step loopbackSettings) (initial loopbackEndpoint) servesOne).map
      (fun l => (l.pc, l.trace.length)) = some (.returned, 14) := by decide
  rw [hrun, Option.map_some, Option.some.injEq, Prod.mk.injEq] at hpc
  exact ⟨l, hrun, hpc.1, hpc.2, (listener_life hrun).2.1 hpc.1⟩

end ServerListener

end TinySox
