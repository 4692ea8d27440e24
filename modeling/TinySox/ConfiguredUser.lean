import TinySox.HandshakeAuth
import TinySox.HandshakeKeeps
import TinySox.OptionSettings

/-!
# The user of the command line

`main` adds one user, and the handshake serves nobody else: if a name is given, a client is
connected only after a login with this name and its password, and is never told that it need not log
in. The empty name is the exception. It stands for anonymous access, also when it is given.
-/

namespace TinySox

open TinySox.Common

section Users

variable {inet : InetPton} {argv0 : Bytes} {arguments : List Bytes} {s : MainState}

/-- The table has the user of the options, and no other. -/
theorem users_optionsConfig (inet : InetPton) (look : Bytes → Option Bytes) :
    (optionsConfig inet look).users = [chosenUser look] := rfl

/-- Whoever is found is the user of the options. -/
theorem getUser_optionsConfig {look : Bytes → Option Bytes} {name : Bytes} {user : User}
    (h : (optionsConfig inet look).getUser name = some user) :
    user = chosenUser look ∧ name = user.login := by
  have hmem := List.mem_of_find?_eq_some h
  rw [users_optionsConfig, List.mem_singleton] at hmem
  exact ⟨hmem, (Config.getUser_login h).symm⟩

end Users

namespace Handshake

/-- The operation does not tell a client that it need not log in. -/
def AsksLogin (o : JobOp) : Prop := ∀ id, o ≠ .transferOut id [0x05, 0x00]

variable {cfg : Config} {host : ByteOrder} {inet : InetPton} {state : State} {id : ℕ}

/-- The operations that talk to nobody. -/
theorem asksLogin_of_accounting {o : JobOp} (ho : o.IsAccounting) : AsksLogin o := by
  rintro id rfl
  exact ho

/-- A negotiation without an anonymous user announces no other method than a login. -/
theorem talks_asksLogin (hnobody : cfg.getUser [] = none) :
    Talks cfg (Contract.allowing AsksLogin) (fun _ _ => True) () state id := by
  constructor
  · exact fun len allowPartial => Contract.Performs.perform fun _ h => nomatch h
  · intro data hdata
    apply Contract.Performs.perform
    intro id' hanonymous
    obtain ⟨-, rfl⟩ := JobOp.transferOut.inj hanonymous
    cases hdata with
    | method methods m hfirst =>
      have hfound := List.find?_some hfirst
      rw [hnobody] at hfound
      contradiction
  · intro o ho
    apply Contract.Performs.perform
    rintro id' rfl
    exact ho
  · exact performs_failWithDisclaim asksLogin_of_accounting

/-- A reply is longer than a method selection. -/
theorem replyBytes_ne (attempt : Attempt) : replyBytes host attempt ≠ [0x05, 0x00] := by
  intro h
  have hlen := congrArg List.length h
  rw [replyBytes, List.length_append, List.length_cons, List.length_cons, List.length_cons,
    List.length_cons] at hlen
  exact absurd hlen (by simp only [List.length_cons, List.length_nil]; omega)

/-- The reply. -/
theorem asksLogin_respond {cmd : UInt8} {attempt : Attempt} {buff : Bytes} :
    Contract.Performs AsksLogin (respond host id cmd attempt buff) := by
  unfold respond
  dsimp only
  rw [take_storeAt_front]
  have hreply : AsksLogin (.transferOut id (replyBytes host attempt)) :=
    fun id' h => replyBytes_ne attempt (JobOp.transferOut.inj h).2
  apply (Contract.Performs.perform hreply).bind
  intro r
  apply (keeps_failUnless (performs_failWithDisclaim asksLogin_of_accounting) _).bind
  intro _
  split_ifs
  · apply (performs_disclaimAllHandlers asksLogin_of_accounting).bind
    intro s
    trivial
  · exact performs_failWithDisclaim asksLogin_of_accounting

/-- Without an anonymous user, no client is told that it need not log in. -/
theorem asksLogin_execute (hnobody : cfg.getUser [] = none) :
    Contract.Performs AsksLogin (execute cfg host inet state) := by
  unfold execute
  split
  · rename_i claimed hstates
    have hfind : AsksLogin (.getHandler claimed.handlerID) := asksLogin_of_accounting trivial
    apply (Contract.Performs.perform hfind).bind
    intro handler
    cases handler with
    | none => exact performs_failWithDisclaim asksLogin_of_accounting
    | some fd =>
      unfold converse
      apply (talks_asksLogin hnobody).negotiate.bind
      intro negotiated
      apply (performs_perform asksLogin_of_accounting fun ip _ id' h => nomatch h).bind
      intro attempt
      exact asksLogin_respond
  · exact performs_failWithDisclaim asksLogin_of_accounting

end Handshake

/-- The client has sent a login with this name and this password. -/
def PresentsLogin (received name password : Bytes) : Prop :=
  ∃ (methods username secret : ShortBytes) (rest : Bytes), username.val = name ∧
    secret.val = password ∧ received = greetingBytes methods ++ (loginBytes username secret ++ rest)

section Enforcement

variable {inet : InetPton} {argv0 : Bytes} {arguments : List Bytes} {s : MainState} {login : Bytes}

/-- A given name is the name of the user. -/
theorem chosenUser_of_given {look : Bytes → Option Bytes} (husr : look (ascii "-usr") = some login) :
    chosenUser look = ⟨login, (look (ascii "-pwd")).getD []⟩ := by
  rw [chosenUser, husr]

/-- If it is not empty, there is no anonymous user. -/
theorem getUser_nil_of_given {look : Bytes → Option Bytes}
    (husr : look (ascii "-usr") = some login) (hname : login ≠ []) :
    (optionsConfig inet look).getUser [] = none := by
  cases hfound : (optionsConfig inet look).getUser [] with
  | none => rfl
  | some user =>
    obtain ⟨rfl, hlogin⟩ := getUser_optionsConfig hfound
    rw [chosenUser_of_given husr] at hlogin
    exact absurd hlogin.symm hname

/-- Such a table admits nobody without that login. -/
theorem Transcript.Authenticated.presentsLogin {look : Bytes → Option Bytes} {g : Transcript}
    (husr : look (ascii "-usr") = some login) (hname : login ≠ [])
    (h : g.Authenticated (optionsConfig inet look).toConfig) :
    PresentsLogin g.received login ((look (ascii "-pwd")).getD []) := by
  cases h with
  | anonymous methods rest hreceived hfirst huser hselected =>
    rw [getUser_nil_of_given husr hname] at huser
    contradiction
  | login methods username password user rest hreceived hfirst huser hpassword hselected hconfirmed =>
    obtain ⟨rfl, hlogin⟩ := getUser_optionsConfig huser
    rw [chosenUser_of_given husr] at hlogin hpassword
    exact ⟨methods, username, password, rest, hlogin, hpassword.symm, hreceived⟩

/-- Configured credentials are enforced. If `main` accepts a command line with a name that is not
empty, a handshake connects to a destination only after its client has sent a login with this name
and the password that is given, and it never selects the anonymous method. -/
theorem configured_user_enforced (hmain : mainOptions inet argv0 arguments = .ok s)
    (husr : given arguments (ascii "-usr") = some login) (hname : login ≠ []) {host : ByteOrder}
    {state : State} {t : List (Event JobOp.Answer)} {q : HandshakeProg Empty}
    (hrun : (Handshake.execute s.config.toConfig host inet state).follow t = some q)
    (hanswers : ∀ e ∈ t, e.1.WellFormed e.2) :
    (∀ target timeout k, q = .call (.connectAndCreateHandler target timeout) k →
      PresentsLogin (transcript t).received login ((given arguments (ascii "-pwd")).getD [])) ∧
      ∀ id data k, q = .call (.transferOut id data) k → data ≠ [0x05, 0x00] := by
  rw [(mainOptions_ok hmain).2.2] at hrun
  constructor
  · rintro target timeout k rfl
    have hadmitted := Contract.wp_follow hrun Handshake.wp_execute_admission
      (Contract.kept_of_forall fun e he _ => hanswers e he)
    exact hadmitted.1.presentsLogin husr hname
  · rintro id _ k rfl rfl
    have hnobody : (optionsConfig inet (given arguments)).getUser [] = none :=
      getUser_nil_of_given husr hname
    exact Contract.Performs.of_follow (Handshake.asksLogin_execute hnobody) hrun id rfl

end Enforcement

/-- A command line with this user and the password p. -/
def loginArguments (name : Bytes) : List Bytes :=
  [ascii "-p", ascii "1080", ascii "-usr", name, ascii "-pwd", ascii "p"]

/-- A client that logs in as u is connected. -/
theorem configured_user_enforced_login : ∃ s target timeout k,
    mainOptions loopbackOnly (ascii "tinysox") (loginArguments (ascii "u")) = .ok s ∧
      (Handshake.execute s.config.toConfig .little loopbackOnly Handshake.oneHandler).follow
        (Handshake.loginEvents [112] ++ Handshake.requestEvents) =
          some (.call (.connectAndCreateHandler target timeout) k) ∧
      PresentsLogin (transcript (Handshake.loginEvents [112] ++ Handshake.requestEvents)).received
        (ascii "u") (ascii "p") := by
  have hanswers : ∀ e ∈ Handshake.loginEvents [112] ++ Handshake.requestEvents, e.1.WellFormed e.2 := by
    simp [Handshake.loginEvents, Handshake.requestEvents, Handshake.field, Handshake.sent,
      JobOp.WellFormed]
  obtain ⟨s, hmain⟩ : ∃ s, mainOptions loopbackOnly (ascii "tinysox") (loginArguments (ascii "u")) =
      .ok s := ⟨_, rfl⟩
  obtain ⟨target, timeout, k, hrun⟩ : ∃ target timeout k,
      (Handshake.execute s.config.toConfig .little loopbackOnly Handshake.oneHandler).follow
        (Handshake.loginEvents [112] ++ Handshake.requestEvents) =
          some (.call (.connectAndCreateHandler target timeout) k) := by
    rw [(mainOptions_ok hmain).2.2]
    exact ⟨_, _, _, rfl⟩
  refine ⟨s, target, timeout, k, hmain, hrun, ?_⟩
  exact (configured_user_enforced hmain rfl (by decide) hrun hanswers).1 target timeout k rfl

/-- A client that offers anonymous access is told to use it, and sends a request. -/
def anonymousEvents : List (Event JobOp.Answer) :=
  [⟨.getHandler 1, some 7⟩, Handshake.field [0x05], Handshake.field [1], Handshake.field [0x00],
    Handshake.sent [0x05, 0x00], Handshake.field [0x05], Handshake.field [0x01, 0x00],
    Handshake.field [0x01], Handshake.field [10, 0, 0, 1], Handshake.field [0, 80]]

/-- If the name that is given is empty, a client is connected without a login. -/
theorem empty_name_is_anonymous : ∃ s target timeout k,
    mainOptions loopbackOnly (ascii "tinysox") (loginArguments []) = .ok s ∧
      given (loginArguments []) (ascii "-usr") = some [] ∧
      (Handshake.execute s.config.toConfig .little loopbackOnly Handshake.oneHandler).follow
        anonymousEvents = some (.call (.connectAndCreateHandler target timeout) k) ∧
      (∀ e ∈ anonymousEvents, e.1.WellFormed e.2) ∧
      ([0x05, 0x00], 2) ∈ (transcript anonymousEvents).replies ∧
      ¬PresentsLogin (transcript anonymousEvents).received [] (ascii "p") := by
  obtain ⟨s, hmain⟩ : ∃ s, mainOptions loopbackOnly (ascii "tinysox") (loginArguments []) = .ok s :=
    ⟨_, rfl⟩
  obtain ⟨target, timeout, k, hrun⟩ : ∃ target timeout k,
      (Handshake.execute s.config.toConfig .little loopbackOnly Handshake.oneHandler).follow
        anonymousEvents = some (.call (.connectAndCreateHandler target timeout) k) := by
    rw [(mainOptions_ok hmain).2.2]
    exact ⟨_, _, _, rfl⟩
  refine ⟨s, target, timeout, k, hmain, rfl, hrun, ?_, by decide, ?_⟩
  · simp [anonymousEvents, Handshake.field, Handshake.sent, JobOp.WellFormed]
  · rintro ⟨methods, username, secret, rest, -, -, hreceived⟩
    have hgreeting : (transcript anonymousEvents).received =
        greetingBytes ⟨[0x00], by decide⟩ ++ [0x05, 0x01, 0x00, 0x01, 10, 0, 0, 1, 0, 80] := rfl
    obtain ⟨-, hrest⟩ := greetingBytes_append_inj (hgreeting.symm.trans hreceived)
    exact absurd (List.cons.inj hrest).1 (by decide)

end TinySox
