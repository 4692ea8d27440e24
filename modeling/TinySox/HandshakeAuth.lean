import TinySox.HandshakeStages

/-!
# No connection without authentication

A handshake attempts a connection only after the client was admitted: without a login if
the first acceptable method that it offered is the anonymous one, and otherwise after a
login that the user table knows. A login that was received in full and is not known is
answered with a refusal and ends the job.
-/

namespace TinySox

open TinySox.Common

/-- The client has been admitted, and has been told so. -/
inductive Transcript.Authenticated (cfg : Config) (g : Transcript) : Prop
  | anonymous (methods : ShortBytes) (rest : Bytes)
      (hreceived : g.received = greetingBytes methods ++ rest)
      (hfirst : FirstAcceptable cfg methods.val 0x00) (huser : (cfg.getUser []).isSome)
      (hselected : ([0x05, 0x00], 2) ∈ g.replies)
  | login (methods username password : ShortBytes) (user : User) (rest : Bytes)
      (hreceived : g.received = greetingBytes methods ++ (loginBytes username password ++ rest))
      (hfirst : FirstAcceptable cfg methods.val 0x02)
      (huser : cfg.getUser username.val = some user) (hpassword : user.password = password.val)
      (hselected : ([0x05, 0x02], 2) ∈ g.replies) (hconfirmed : ([0x01, 0x00], 2) ∈ g.replies)

/-- A login has been received whose version is wrong, or which the table does not know. -/
inductive Transcript.LoginRefused (cfg : Config) (g : Transcript) : Prop
  | version (methods : ShortBytes) (v : UInt8) (rest : Bytes)
      (hreceived : g.received = greetingBytes methods ++ (v :: rest))
      (hfirst : FirstAcceptable cfg methods.val 0x02) (hversion : v ≠ 0x01)
  | credentials (methods username password : ShortBytes) (rest : Bytes)
      (hreceived : g.received = greetingBytes methods ++ (loginBytes username password ++ rest))
      (hfirst : FirstAcceptable cfg methods.val 0x02)
      (hunknown : ∀ user, cfg.getUser username.val = some user → user.password ≠ password.val)

/-- If a login was received in full and refused, the client was told, and the job is over. -/
def Transcript.RefusalAnswered (cfg : Config) (r : JobResult) (g : Transcript) : Prop :=
  g.short = false → g.LoginRefused cfg →
    (∃ n, ([0x01, 0x01], n) ∈ g.replies) ∧ ∃ s, r = .terminal s

namespace Transcript

variable {cfg : Config} {g g' : Transcript}

/-- Nothing that happens later revokes an admission. -/
theorem Authenticated.mono (h : g.Authenticated cfg) (hext : g.Extends g') :
    g'.Authenticated cfg := by
  obtain ⟨more, hmore⟩ := hext.received
  cases h with
  | anonymous methods rest hreceived hfirst huser hselected =>
    refine .anonymous methods (rest ++ more) ?_ hfirst huser (hext.replies.subset hselected)
    rw [← hmore, hreceived, List.append_assoc]
  | login methods username password user rest hreceived hfirst huser hpassword hselected hconfirmed =>
    refine .login methods username password user (rest ++ more) ?_ hfirst huser hpassword
      (hext.replies.subset hselected) (hext.replies.subset hconfirmed)
    rw [← hmore, hreceived, List.append_assoc, List.append_assoc]

/-- A refusal needs a whole greeting that leads to a login, and a byte after it. -/
theorem LoginRefused.greeting (h : g.LoginRefused cfg) : ∃ (methods : ShortBytes) (v : UInt8)
    (rest : Bytes), g.received = greetingBytes methods ++ (v :: rest) ∧
      FirstAcceptable cfg methods.val 0x02 := by
  cases h with
  | version methods v rest hreceived hfirst hversion => exact ⟨methods, v, rest, hreceived, hfirst⟩
  | credentials methods username password rest hreceived hfirst hunknown =>
    exact ⟨methods, _, _, hreceived, hfirst⟩

/-- A login that the table knows is not refused. -/
theorem not_refused_of_known {methods username password : ShortBytes} {user : User} {rest : Bytes}
    (hreceived : g.received = greetingBytes methods ++ (loginBytes username password ++ rest))
    (huser : cfg.getUser username.val = some user) (hpassword : user.password = password.val) :
    ¬ g.LoginRefused cfg := by
  intro hrefused
  cases hrefused with
  | version methods' v rest' hreceived' hfirst' hversion =>
    obtain ⟨rfl, hrest⟩ := greetingBytes_append_inj (hreceived.symm.trans hreceived')
    exact hversion (List.cons.inj hrest).1.symm
  | credentials methods' username' password' rest' hreceived' hfirst' hunknown =>
    obtain ⟨rfl, hrest⟩ := greetingBytes_append_inj (hreceived.symm.trans hreceived')
    obtain ⟨rfl, rfl, -⟩ := loginBytes_append_inj hrest
    exact hunknown user huser hpassword

/-- A greeting that leads to no login is not refused. -/
theorem not_refused_of_greeting {methods : ShortBytes} {rest : Bytes}
    (hreceived : g.received = greetingBytes methods ++ rest)
    (hfirst : ¬ FirstAcceptable cfg methods.val 0x02 ∨ rest = []) : ¬ g.LoginRefused cfg := by
  intro hrefused
  obtain ⟨methods', v, rest', hreceived', hfirst'⟩ := hrefused.greeting
  obtain ⟨rfl, hrest⟩ := greetingBytes_append_inj (hreceived.symm.trans hreceived')
  rcases hfirst with hno | rfl
  · exact hno hfirst'
  · contradiction

/-- An admitted client was not refused. -/
theorem Authenticated.not_refused (h : g.Authenticated cfg) : ¬ g.LoginRefused cfg := by
  cases h with
  | anonymous methods rest hreceived hfirst huser hselected =>
    refine not_refused_of_greeting hreceived (.inl fun hlogin => ?_)
    exact absurd (hfirst.unique hlogin) (by decide)
  | login methods username password user rest hreceived hfirst huser hpassword hselected hconfirmed =>
    exact not_refused_of_known hreceived huser hpassword

/-- Before the login, nothing has been refused. -/
theorem RefusalAnswered.of_not_refused {r : JobResult} (h : ¬ g.LoginRefused cfg) :
    g.RefusalAnswered cfg r :=
  fun _ hrefused => absurd hrefused h

/-- A short transfer is no login in full. -/
theorem RefusalAnswered.of_short {r : JobResult} (h : g.short = true) : g.RefusalAnswered cfg r := by
  intro hfull
  rw [h] at hfull
  contradiction

end Transcript

namespace Handshake

variable {cfg : Config} {host : ByteOrder} {inet : InetPton} {state : State} {id : ℕ}

/-- Connections are attempted for admitted clients only. -/
def admission (cfg : Config) : Contract JobOp.Answer Transcript :=
  conversation (fun g _ _ => g.Authenticated cfg) fun _ o a => o.WellFormed a

/-- Nothing is demanded of the rest of a handshake whose client was admitted. -/
theorem wp_of_authenticated {A : Type} (p : HandshakeProg A) {g : Transcript}
    (h : g.Authenticated cfg) {ends : A → Transcript → Prop}
    (hends : ∀ a g, g.Authenticated cfg → ends a g) :
    (admission cfg).wp (fun r g => g.RefusalAnswered cfg r) ends p g := by
  have hmay : ∀ (g : Transcript) (o : JobOp), g.Authenticated cfg → (admission cfg).may g o := by
    intro g o hg
    cases o <;> first | exact hg | trivial
  have hall := (admission cfg).wp_of_invariant hmay
    (fun g o a hg _ => hg.mono (g.extends_record o a)) h p
  exact Contract.wp_mono (fun r g hg => .of_not_refused hg.not_refused) hends hall

/-- The answers of the admission contract are well formed. -/
theorem wellFormed_worldSound : WorldSound fun _ o a => o.WellFormed a := fun _ _ _ h => h

/-- A login stage admits the client, or answers it. -/
theorem wp_login_admission {methods : ShortBytes} {g : Transcript} {buff : Bytes}
    (hreceived : g.received = greetingBytes methods) (hfirst : FirstAcceptable cfg methods.val 0x02)
    (hselected : ([0x05, 0x02], 2) ∈ g.replies) :
    (admission cfg).wp (fun r g => g.RefusalAnswered cfg r) (fun _ g => g.Authenticated cfg)
      (login cfg state id buff) g := by
  refine wp_login wellFormed_worldSound (fun g' s h => .of_short h) ?_ ?_ ?_ ?_
  · intro v r s hv _ _
    exact ⟨⟨r, List.mem_append_right _ List.mem_cons_self⟩, s, rfl⟩
  · intro username password r s hmatch _ _
    exact ⟨⟨r, List.mem_append_right _ List.mem_cons_self⟩, s, rfl⟩
  · intro username password r s hmatch hr
    obtain ⟨user, huser, hpassword⟩ := credentialsMatch_iff.mp hmatch
    have hall : ((g.receive (loginBytes username password)).reply [0x01, 0x00] r).received =
        greetingBytes methods ++ (loginBytes username password ++ []) := by
      simp [Transcript.reply, Transcript.receive, hreceived]
    exact .of_not_refused (Transcript.not_refused_of_known hall huser hpassword)
  · intro username password buff hmatch
    obtain ⟨user, huser, hpassword⟩ := credentialsMatch_iff.mp hmatch
    refine .login methods username password user [] ?_ hfirst huser hpassword
      (List.mem_append_left _ hselected) (List.mem_append_right _ List.mem_cons_self)
    simp [Transcript.reply, Transcript.receive, hreceived]

/-- The whole conversation keeps to the admission contract. -/
theorem wp_converse_admission :
    (admission cfg).wp (fun r g => g.RefusalAnswered cfg r) (fun _ _ => True)
      (converse cfg host inet state id) .empty := by
  rw [converse, negotiate, Contract.wp_bind, Contract.wp_bind]
  refine wp_selectMethod wellFormed_worldSound (fun g' s h => .of_short h) ?_ ?_ ?_ ?_
  · intro v s hv
    refine .of_not_refused fun hrefused => ?_
    obtain ⟨methods, b, rest, hreceived, -⟩ := hrefused.greeting
    exact hv (List.cons.inj hreceived).1
  · intro methods g' s hnone hext
    obtain ⟨more, hmore⟩ := hext.received
    exact .of_not_refused (Transcript.not_refused_of_greeting hmore.symm (.inl (hnone 0x02)))
  · intro methods m r s hm hr
    have hall : ((Transcript.empty.receive (greetingBytes methods)).reply [0x05, m] r).received =
        greetingBytes methods ++ [] := (List.append_nil _).symm
    exact .of_not_refused (Transcript.not_refused_of_greeting hall (.inr rfl))
  · intro methods m buff hm
    have hselected : ([0x05, m], 2) ∈ ((Transcript.empty.receive (greetingBytes methods)).reply
        [0x05, m] 2).replies := List.mem_append_right _ List.mem_cons_self
    dsimp only
    split_ifs with hlogin
    · subst hlogin
      rw [Contract.wp_bind]
      refine Contract.wp_mono (fun _ _ h => h) (fun buff g hauth => ?_)
        (wp_login_admission rfl hm hselected)
      rw [← Contract.wp_bind]
      exact wp_of_authenticated _ hauth fun _ _ _ => trivial
    · rw [← Contract.wp_bind]
      refine wp_of_authenticated _ ?_ fun _ _ _ => trivial
      rcases hm.1 with rfl | ⟨rfl, huser⟩
      · contradiction
      · exact .anonymous methods [] (List.append_nil _).symm hm huser hselected

/-- Before anything was received, nothing was refused. -/
theorem refusalAnswered_empty (r : JobResult) : Transcript.empty.RefusalAnswered cfg r := by
  refine .of_not_refused fun hrefused => ?_
  obtain ⟨methods, v, rest, hreceived, -⟩ := hrefused.greeting
  contradiction

/-- The job keeps to the admission contract. -/
theorem wp_execute_admission :
    (admission cfg).wp (fun r g => g.RefusalAnswered cfg r) (fun _ _ => True)
      (execute cfg host inet state) .empty := by
  unfold execute
  split
  · rw [Contract.wp_bind]
    refine wp_silent (fun _ => rfl) trivial fun fd _ => ?_
    split
    · exact wp_failWithDisclaim fun s => refusalAnswered_empty _
    · exact wp_converse_admission
  · exact wp_failWithDisclaim fun s => refusalAnswered_empty _

/-- Authentication before outbound connection. Whatever the transfers return, the job attempts a
connection only for a client that was admitted, and if it ends after a login that was received in
full and refused, then it has answered the login with a refusal and its result is terminal. -/
theorem connect_authenticated {t : List (Event JobOp.Answer)} {q : HandshakeProg Empty}
    (hrun : (execute cfg host inet state).follow t = some q)
    (hanswers : ∀ e ∈ t, e.1.WellFormed e.2) :
    (∀ target timeout k, q = .call (.connectAndCreateHandler target timeout) k →
      (transcript t).Authenticated cfg) ∧
    ∀ r, q = .exit r → (transcript t).RefusalAnswered cfg r := by
  have hkept : (admission cfg).Kept .empty t := Contract.kept_of_forall fun e he _ => hanswers e he
  have hrest := Contract.wp_follow hrun wp_execute_admission hkept
  constructor
  · rintro target timeout k rfl
    exact hrest.1
  · rintro r rfl
    exact hrest

/-- A greeting that offers a login, and a login with this password. -/
def loginEvents (password : Bytes) : List (Event JobOp.Answer) :=
  [⟨.getHandler 1, some 7⟩, field [0x05], field [1], field [0x02], sent [0x05, 0x02], field [0x01],
    field [1], field [117], field [1], field password]

/-- The login is confirmed, and a request for an IPv4 address follows. -/
def requestEvents : List (Event JobOp.Answer) :=
  [sent [0x01, 0x00], field [0x05], field [0x01, 0x00], field [0x01], field [10, 0, 0, 1],
    field [0, 80]]

/-- The login is refused, and the claim on the handler is given up. -/
def refusalEvents : List (Event JobOp.Answer) :=
  [sent [0x01, 0x01], ⟨.disclaim 0, ⟨0, 1⟩⟩]

/-- The right password leads to a connection attempt, a wrong one to a refusal. -/
theorem connect_authenticated_oneUser :
    (∃ target timeout k, (execute oneUser .little noLiterals oneHandler).follow
        (loginEvents [112] ++ requestEvents) = some (.call (.connectAndCreateHandler target timeout) k)) ∧
      (transcript (loginEvents [112] ++ requestEvents)).Authenticated oneUser ∧
      (transcript (loginEvents [113] ++ refusalEvents)).RefusalAnswered oneUser
        (.terminal ⟨[(0, ⟨0, 1⟩)]⟩) := by
  have hadmitted : ∀ e ∈ loginEvents [112] ++ requestEvents, e.1.WellFormed e.2 := by
    simp [loginEvents, requestEvents, field, sent, JobOp.WellFormed]
  have hrefused : ∀ e ∈ loginEvents [113] ++ refusalEvents, e.1.WellFormed e.2 := by
    simp [loginEvents, refusalEvents, field, sent, JobOp.WellFormed]
  obtain ⟨target, timeout, k, hdial⟩ : ∃ target timeout k,
      (execute oneUser .little noLiterals oneHandler).follow (loginEvents [112] ++ requestEvents) =
        some (.call (.connectAndCreateHandler target timeout) k) := ⟨_, _, _, rfl⟩
  have hover : (execute oneUser .little noLiterals oneHandler).follow
      (loginEvents [113] ++ refusalEvents) = some (.exit (.terminal ⟨[(0, ⟨0, 1⟩)]⟩)) := rfl
  refine ⟨⟨target, timeout, k, hdial⟩, ?_, ?_⟩
  · exact (connect_authenticated hdial hadmitted).1 target timeout k rfl
  · exact (connect_authenticated hover hrefused).2 _ rfl

end Handshake

end TinySox
