import TinySox.MainOptions

/-!
# The settings that the options make

What `main` does with its options is a list of checks and a configuration, both functions of what is
given for each option. Every number goes to its own setting, with one exception: the number of `-ws`
is read from `-wc`. So a command line with `-ws` and without `-wc` is rejected, and one with both
spawns as many workers as `-wc` says.
-/

namespace TinySox

open TinySox.Common

/-- The last value that is given for an option, if the arguments are read in pairs. -/
def given : List Bytes → Bytes → Option Bytes
  | name' :: value :: rest, name => (given rest name).or (if name' = name then some value else none)
  | _, _ => none

/-- The map has the last value of each option. -/
theorem lookup_eq_given {argv0 : Bytes} {arguments : List Bytes} {args : ArgMap}
    (hargs : parseArgs argv0 arguments = some args) (name : Bytes) :
    args.lookup name = given arguments name := by
  have hlast (pairs : List OptionValue) (rest : List Bytes) (hrest : rest.length < 2) :
      given (spell pairs ++ rest) name = lastValue pairs name := by
    induction pairs with
    | nil =>
      match rest with
      | [] | [_] => rfl
      | _ :: _ :: _ => exact absurd hrest (by simp)
    | cons p pairs ih =>
      rw [lastValue, ← ih]
      rfl
  obtain ⟨pairs, hspell, rfl⟩ := parseArgs_eq_some_iff.mp hargs
  rw [lookup_enter, AList.lookup_empty, Option.or_none]
  rcases hspell with rfl | ⟨last, -, rfl⟩
  · rw [← hlast pairs [] (by decide), List.append_nil]
  · exact (hlast pairs [last] Nat.one_lt_two).symm

/-- The map is not empty if there is a pair. -/
theorem isEmpty_parseArgs {argv0 : Bytes} {arguments : List Bytes} {args : ArgMap}
    (hargs : parseArgs argv0 arguments = some args) :
    args.entries.isEmpty = decide (arguments.length < 2) := by
  obtain ⟨pairs, hspell, rfl⟩ := parseArgs_eq_some_iff.mp hargs
  have hlen : decide (arguments.length < 2) = pairs.isEmpty := by
    have hspell' := length_spell pairs
    rcases hspell with rfl | ⟨last, -, rfl⟩
    · cases pairs with
      | nil => rfl
      | cons p rest =>
        rw [List.length_cons] at hspell'
        exact decide_eq_false (by omega)
    · cases pairs with
      | nil => rfl
      | cons p rest =>
        rw [List.length_cons] at hspell'
        rw [List.length_append, List.length_singleton]
        exact decide_eq_false (by omega)
  rw [hlen]
  cases pairs with
  | nil => rfl
  | cons p rest =>
    have hfound : ((enter ∅ (p :: rest)).lookup p.name).isSome = true := by
      rw [lookup_enter, lastValue, if_pos rfl]
      cases lastValue rest p.name <;> rfl
    cases hentries : (enter ∅ (p :: rest)).entries with
    | nil =>
      rw [AList.lookup, hentries] at hfound
      contradiction
    | cons e es => rfl

/-- The number that is given, or the default. -/
def reading (default : Int) (given : Option Bytes) : Int := given.elim default atoi

/-- The number that is given, if one is, lies between the bounds. -/
def inBounds (lower upper : Int) (given : Option Bytes) : Bool :=
  given.all fun text => lower ≤ atoi text ∧ atoi text ≤ upper

namespace NumericOption

variable (look : Bytes → Option Bytes)

/-- What the setting of the option should be. -/
def setting (option : NumericOption) : Int := reading option.documentedDefault (look option.name)

/-- The least number that the check of the option states. -/
def lower : NumericOption → Int
  | wc | ws | ac | cmin | dt | hc => 1
  | mt | st => 100
  | bsz => 128
  | cf => -1
  | cmax => (cmin.setting look).tdiv 1000

/-- The greatest number that the check of the option states. -/
def upper : NumericOption → Int
  | wc => 1000
  | ws => wc.setting look
  | ac | mt => 10000
  | st => 60000
  | bsz => 524288
  | cf => 600
  | cmin => 60
  | cmax => 120
  | dt | hc => 7200

/-- The number is in the range that the check states. -/
def InRange (option : NumericOption) (v : Int) : Prop :=
  option.lower look ≤ v ∧ v ≤ option.upper look

/-- The option is not given, or its number is in range. -/
def accepted (option : NumericOption) : Bool :=
  inBounds (option.lower look) (option.upper look) (look option.name)

end NumericOption

/-- The number that the setting of `-ws` gets. -/
def spawnReading (look : Bytes → Option Bytes) : Int :=
  match look (ascii "-ws") with
  | none => 10
  | some _ => atoi ((look (ascii "-wc")).getD [])

/-- The check of that number. -/
def spawnAccepted (look : Bytes → Option Bytes) : Bool :=
  (look (ascii "-ws")).all fun _ =>
    1 ≤ spawnReading look ∧ spawnReading look ≤ NumericOption.wc.setting look

/-- The address in `-l` is a valid IPv4 address. -/
def listenAccepted (inet : InetPton) (look : Bytes → Option Bytes) : Bool :=
  (look (ascii "-l")).all fun text =>
    (IPAddress.ofString inet text).isValid && !(IPAddress.ofString inet text).isV6

/-- The address in `-dns` is valid. -/
def dnsAccepted (inet : InetPton) (look : Bytes → Option Bytes) : Bool :=
  (look (ascii "-dns")).all fun text => (IPAddress.ofString inet text).isValid

/-- The number of an option with its message. -/
def NumericOption.check (look : Bytes → Option Bytes) (option : NumericOption) : Bool × String :=
  (option.accepted look, option.message)

/-- The checks that come before that of `-ws`. -/
def checksBefore (inet : InetPton) (isEmpty : Bool) (look : Bytes → Option Bytes) :
    List (Bool × String) :=
  [(!isEmpty, "Mandatory parameters are missing!"),
    ((look (ascii "-p")).isSome, "TCP port number is missing!"),
    (inBounds 1 65535 (look (ascii "-p")), "TCP port number is invalid!"),
    (listenAccepted inet look, "listen IP address is invalid!"), NumericOption.wc.check look]

/-- The checks that come after it. -/
def checksAfter (inet : InetPton) (look : Bytes → Option Bytes) : List (Bool × String) :=
  [NumericOption.ac.check look, NumericOption.mt.check look, NumericOption.st.check look,
    (dnsAccepted inet look, "DNS address is invalid"), NumericOption.bsz.check look,
    NumericOption.cf.check look, NumericOption.cmin.check look, NumericOption.cmax.check look,
    NumericOption.dt.check look, NumericOption.hc.check look]

/-- All checks of `main`. -/
def checks (inet : InetPton) (isEmpty : Bool) (look : Bytes → Option Bytes) : List (Bool × String) :=
  checksBefore inet isEmpty look ++
    (spawnAccepted look, NumericOption.ws.message) :: checksAfter inet look

namespace MainState

variable {s : MainState} {look : Bytes → Option Bytes}

/-- The block of an option is its check, and sets its number. -/
theorem numeric_eq (option : NumericOption) (default lower upper : Int) {given : Option Bytes}
    (hgiven : s.args.lookup option.name = given) :
    s.numeric option default lower upper =
      if inBounds lower upper given then .ok (s.set option (reading default given))
      else .error option.message := by
  have hset (v w : Int) : (s.set option v).set option w = s.set option w := by cases option <;> rfl
  have hargs : (s.set option default).args = s.args := rfl
  subst hgiven
  rw [numeric, hargs]
  cases htext : s.args.lookup option.name with
  | none => rfl
  | some text =>
    simp only [subscript, htext]
    by_cases hin : lower ≤ atoi text ∧ atoi text ≤ upper
    · have hout : ¬(atoi text < lower ∨ atoi text > upper) := by omega
      rw [inBounds, Option.all_some, decide_eq_true hin, if_pos rfl, if_neg hout]
      exact congrArg Except.ok (hset default (atoi text))
    · have hout : atoi text < lower ∨ atoi text > upper := by omega
      rw [inBounds, Option.all_some, decide_eq_false hin, if_neg Bool.false_ne_true, if_pos hout]

/-- The block of `-ws` checks the number of `-wc`, and sets it. -/
theorem workersSpawnCount_eq (hlook : ∀ name, s.args.lookup name = look name)
    (hcount : s.config.workersCount = NumericOption.wc.setting look) :
    s.workersSpawnCount =
      if spawnAccepted look then .ok (s.set .ws (spawnReading look))
      else .error NumericOption.ws.message := by
  have hargs : (s.set .ws 10).args = s.args := rfl
  have hconfig : (s.set .ws 10).config.workersCount = NumericOption.wc.setting look := hcount
  rw [workersSpawnCount, hargs, hlook, spawnAccepted, spawnReading]
  cases hws : look (ascii "-ws") with
  | none => rfl
  | some text =>
    dsimp only
    rw [subscript, hlook]
    cases hwc : look (ascii "-wc") with
    | none =>
      have hout : atoi [] < 1 := by decide
      simp only [Option.all_some, Option.getD_none]
      rw [if_pos (.inl hout), decide_eq_false (fun hin => absurd hin.1 (by omega)),
        if_neg Bool.false_ne_true]
      rfl
    | some count =>
      simp only [Option.all_some, Option.getD_some]
      rw [hconfig]
      by_cases hin : 1 ≤ atoi count ∧ atoi count ≤ NumericOption.wc.setting look
      · have hout : ¬(atoi count < 1 ∨ atoi count > NumericOption.wc.setting look) := by omega
        rw [decide_eq_true hin, if_pos rfl, if_neg hout]
        rfl
      · have hout : atoi count < 1 ∨ atoi count > NumericOption.wc.setting look := by omega
        rw [decide_eq_false hin, if_neg Bool.false_ne_true, if_pos hout]
        rfl

/-- The endpoint to listen at. -/
def listenEndpoint (inet : InetPton) (look : Bytes → Option Bytes) (port : Int) : IPEndpoint :=
  ⟨.ofString inet ((look (ascii "-l")).getD (ascii "127.0.0.1")), UInt16.ofNat port.toNat⟩

/-- The block of `-l` checks the address, and adds the endpoint. -/
theorem listenAddr_eq {inet : InetPton} {port : Int} (hlook : ∀ name, s.args.lookup name = look name) :
    s.listenAddr inet port =
      if listenAccepted inet look then
        .ok { s with config := s.config.addListenAddr (listenEndpoint inet look port) }
      else .error "listen IP address is invalid!" := by
  rw [listenAddr, hlook, listenAccepted, listenEndpoint]
  cases look (ascii "-l") with
  | none => rfl
  | some text =>
    simp only [Option.all_some, Option.getD_some, require]
    split_ifs <;> rfl

/-- The block of `-dns` checks the address, and looks for `-src`. -/
theorem dnsServer_eq {inet : InetPton} (hdns : s.args.lookup (ascii "-dns") = look (ascii "-dns"))
    (hsrc : s.args.lookup (ascii "-src") = look (ascii "-src")) :
    s.dnsServer inet =
      if dnsAccepted inet look then
        .ok { s with config := { s.config with
          udnsSearchDomainIsSet := (look (ascii "-dns")).isSome && (look (ascii "-src")).isSome } }
      else .error "DNS address is invalid" := by
  rw [dnsServer, hdns, dnsAccepted]
  cases look (ascii "-dns") with
  | none => rfl
  | some text =>
    simp only [Option.all_some, require, hsrc]
    split_ifs
    · cases look (ascii "-src") <;> rfl
    · rfl

end MainState

/-- A second user under a known name changes nothing. -/
theorem ProgramConfig.addUser_addUser (c : ProgramConfig) {user other : User}
    (hlogin : other.login = user.login) : (c.addUser user).addUser other = c.addUser user := by
  have hknown : ((c.toConfig.addUser user).getUser other.login).isSome = true := by
    rw [Config.getUser_addUser, hlogin, if_pos rfl]
    cases c.toConfig.getUser user.login <;> rfl
  have htwice : (c.toConfig.addUser user).addUser other = c.toConfig.addUser user := by
    rw [Config.addUser, if_pos hknown]
  exact congrArg (fun known => { c with toConfig := known }) htwice

/-- The user of the options; without a name, the empty name and password. -/
def chosenUser (look : Bytes → Option Bytes) : User :=
  match look (ascii "-usr") with
  | none => ⟨[], []⟩
  | some login => ⟨login, (look (ascii "-pwd")).getD []⟩

/-- The map after the users were added: the lookups have entered `-usr`. -/
def usersArgs (args : ArgMap) : ArgMap :=
  if (args.lookup (ascii "-usr")).isSome then args else args.insert (ascii "-usr") []

/-- The expression that makes the user enters `-usr`. -/
theorem MainState.optionUser_eq {s : MainState} {look : Bytes → Option Bytes}
    (hlook : ∀ name, s.args.lookup name = look name) :
    s.optionUser = (⟨(look (ascii "-usr")).getD [], (look (ascii "-pwd")).getD []⟩,
      { s with args := usersArgs s.args }) := by
  have hother : ascii "-pwd" ≠ ascii "-usr" := by decide
  rw [optionUser, subscript, usersArgs, hlook]
  cases husr : look (ascii "-usr") with
  | none =>
    dsimp only
    rw [AList.lookup_insert_ne hother, hlook]
    cases hpwd : look (ascii "-pwd") with
    | none => rfl
    | some password =>
      dsimp only
      rw [subscript, AList.lookup_insert_ne hother, hlook, hpwd]
      rfl
  | some login =>
    dsimp only
    rw [hlook]
    cases hpwd : look (ascii "-pwd") with
    | none => rfl
    | some password =>
      dsimp only
      rw [subscript, hlook, hpwd]
      rfl

/-- Both calls together add one user. -/
theorem MainState.addUsers_eq {s : MainState} {look : Bytes → Option Bytes}
    (hlook : ∀ name, s.args.lookup name = look name) :
    s.addUsers = ⟨usersArgs s.args, s.config.addUser (chosenUser look)⟩ := by
  rw [addUsers, hlook, chosenUser]
  cases husr : look (ascii "-usr") with
  | none =>
    dsimp only
    rw [optionUser_eq (s := ⟨s.args, s.config.addUser ⟨[], []⟩⟩) hlook, husr]
    exact congrArg (MainState.mk (usersArgs s.args)) (s.config.addUser_addUser rfl)
  | some login =>
    have hknown : usersArgs s.args = s.args := by
      rw [usersArgs, hlook, husr]
      rfl
    dsimp only
    rw [optionUser_eq hlook, hknown, husr]
    dsimp only
    rw [optionUser_eq (s := ⟨s.args, s.config.addUser _⟩) hlook, hknown, husr]
    exact congrArg (MainState.mk s.args) (s.config.addUser_addUser rfl)

/-- What is given for the other options is still there. -/
theorem lookup_usersArgs {args : ArgMap} {name : Bytes} (hname : name ≠ ascii "-usr") :
    (usersArgs args).lookup name = args.lookup name := by
  unfold usersArgs
  split_ifs
  · rfl
  · exact AList.lookup_insert_ne hname

/-- The configuration, if all checks are passed. -/
def optionsConfig (inet : InetPton) (look : Bytes → Option Bytes) : ProgramConfig :=
  let port := atoi ((look (ascii "-p")).getD [])
  let c := ProgramConfig.blank.addListenAddr (MainState.listenEndpoint inet look port)
  let c := (c.set .wc (NumericOption.wc.setting look)).set .ws (spawnReading look)
  let c := (c.set .ac (NumericOption.ac.setting look)).set .mt (NumericOption.mt.setting look)
  let c := (c.set .st (NumericOption.st.setting look)).addUser (chosenUser look)
  let c := { c with
    udnsSearchDomainIsSet := (look (ascii "-dns")).isSome && (look (ascii "-src")).isSome }
  let c := (c.set .bsz (NumericOption.bsz.setting look)).set .cf (NumericOption.cf.setting look)
  let c := (c.set .cmin (NumericOption.cmin.setting look)).set .cmax (NumericOption.cmax.setting look)
  let c := (c.set .dt (NumericOption.dt.setting look)).set .hc (NumericOption.hc.setting look)
  { c with netns := (look (ascii "-ns")).getD [] }

/-- `main` performs the checks, and the configuration is made of what is given. -/
theorem configure_eq {inet : InetPton} {args : ArgMap} {look : Bytes → Option Bytes}
    (hlook : ∀ name, args.lookup name = look name) :
    configure inet args =
      verdict ⟨usersArgs args, optionsConfig inet look⟩ (checks inet args.entries.isEmpty look) := by
  have hlater {name : Bytes} (hname : name ≠ ascii "-usr") : (usersArgs args).lookup name = look name :=
    (lookup_usersArgs hname).trans (hlook name)
  have hnetns : (usersArgs args).lookup (ascii "-ns") = look (ascii "-ns") := hlater (by decide)
  rw [configure, checks, checksBefore]
  refine bind_eq_verdict rfl fun _ => ?_
  rw [hlook]
  refine bind_eq_verdict rfl fun hport => ?_
  obtain ⟨text, hport⟩ := Option.isSome_iff_exists.mp hport
  have hsub : subscript args (ascii "-p") = (text, args) := by rw [subscript, hlook, hport]
  rw [hsub, hport]
  refine bind_eq_verdict rfl fun _ => ?_
  refine bind_eq_verdict (MainState.listenAddr_eq hlook) fun _ => ?_
  refine bind_eq_verdict (MainState.numeric_eq .wc 50 1 1000 (hlook _)) fun _ => ?_
  refine bind_eq_verdict (MainState.workersSpawnCount_eq hlook rfl) fun _ => ?_
  refine bind_eq_verdict (MainState.numeric_eq .ac 250 1 10000 (hlook _)) fun _ => ?_
  refine bind_eq_verdict (MainState.numeric_eq .mt 500 100 10000 (hlook _)) fun _ => ?_
  refine bind_eq_verdict (MainState.numeric_eq .st 5000 100 60000 (hlook _)) fun _ => ?_
  rw [MainState.addUsers_eq hlook]
  refine bind_eq_verdict (MainState.dnsServer_eq (hlater (by decide)) (hlater (by decide))) fun _ => ?_
  refine bind_eq_verdict (MainState.numeric_eq .bsz 65536 128 524288 (hlater (by decide))) fun _ => ?_
  refine bind_eq_verdict (MainState.numeric_eq .cf 30 (-1) 600 (hlater (by decide))) fun _ => ?_
  refine bind_eq_verdict (MainState.numeric_eq .cmin 5 1 60 (hlater (by decide))) fun _ => ?_
  refine bind_eq_verdict (MainState.numeric_eq .cmax 20 _ 120 (hlater (by decide))) fun _ => ?_
  refine bind_eq_verdict (MainState.numeric_eq .dt 60 1 7200 (hlater (by decide))) fun _ => ?_
  refine bind_eq_verdict (MainState.numeric_eq .hc 30 1 7200 (hlater (by decide))) fun _ => ?_
  rw [verdict, optionsConfig, hport, ← hnetns]
  rfl

/-- Every setting but that of `-ws` is as it should be. -/
theorem value_optionsConfig (inet : InetPton) (look : Bytes → Option Bytes) (option : NumericOption) :
    (optionsConfig inet look).value option =
      if option = .ws then spawnReading look else option.setting look := by
  cases option <;> rfl

/-- What `main` does with arguments that its loop reads. -/
theorem mainOptions_eq {inet : InetPton} {argv0 : Bytes} {arguments : List Bytes} {args : ArgMap}
    (hargs : parseArgs argv0 arguments = some args) :
    mainOptions inet argv0 arguments =
      verdict ⟨usersArgs args, optionsConfig inet (given arguments)⟩
        (checks inet (arguments.length < 2) (given arguments)) := by
  rw [mainOptions, hargs, ← isEmpty_parseArgs hargs]
  exact configure_eq (lookup_eq_given hargs)

/-- The arguments of an accepted command line have been read and have passed every check, and their
options make the configuration. -/
theorem mainOptions_ok {inet : InetPton} {argv0 : Bytes} {arguments : List Bytes} {s : MainState}
    (hmain : mainOptions inet argv0 arguments = .ok s) :
    (parseArgs argv0 arguments).isSome = true ∧
      (∀ c ∈ checks inet (arguments.length < 2) (given arguments), c.1 = true) ∧
      s.config = optionsConfig inet (given arguments) := by
  cases hargs : parseArgs argv0 arguments with
  | none =>
    rw [mainOptions, hargs] at hmain
    contradiction
  | some args =>
    rw [mainOptions_eq hargs, verdict_ok_iff] at hmain
    obtain ⟨hall, rfl⟩ := hmain
    exact ⟨rfl, hall, rfl⟩

/-- Every number gets to its setting, and no option is rejected for a number in its range. -/
structure OptionsReachSettings (inet : InetPton) (argv0 : Bytes) (arguments : List Bytes) : Prop where
  values : ∀ s, mainOptions inet argv0 arguments = .ok s →
    ∀ option, s.config.value option = option.setting (given arguments)
  inRange : ∀ (option : NumericOption) text, given arguments option.name = some text →
    option.InRange (given arguments) (atoi text) →
      mainOptions inet argv0 arguments ≠ .error option.message

/-- The number of `-ws` is read from `-wc`, and it matters: `main` gets to the check of `-ws`, and
either its number is in range and `-wc` is not given, or the two numbers differ and nothing else is
wrong. -/
def SpawnMisread (inet : InetPton) (argv0 : Bytes) (arguments : List Bytes) : Prop :=
  (parseArgs argv0 arguments).isSome = true ∧
    (∀ c ∈ checksBefore inet (arguments.length < 2) (given arguments), c.1 = true) ∧
      ∃ text, given arguments (ascii "-ws") = some text ∧
        match given arguments (ascii "-wc") with
        | none => 1 ≤ atoi text ∧ atoi text ≤ 50
        | some count =>
          atoi count ≠ atoi text ∧ ∀ c ∈ checksAfter inet (given arguments), c.1 = true

section Messages

variable {inet : InetPton} {isEmpty : Bool} {look : Bytes → Option Bytes}

/-- No option but `-ws` has its message. -/
theorem message_ws_before (c : Bool × String) (hc : c ∈ checksBefore inet isEmpty look) :
    c.2 ≠ NumericOption.ws.message := by
  simp only [checksBefore, List.mem_cons, List.not_mem_nil, or_false] at hc
  rcases hc with rfl | rfl | rfl | rfl | rfl <;> simp [NumericOption.check, NumericOption.message]

/-- Nor after it. -/
theorem message_ws_after (c : Bool × String) (hc : c ∈ checksAfter inet look) :
    c.2 ≠ NumericOption.ws.message := by
  simp only [checksAfter, List.mem_cons, List.not_mem_nil, or_false] at hc
  rcases hc with rfl | rfl | rfl | rfl | rfl | rfl | rfl | rfl | rfl | rfl <;>
    simp [NumericOption.check, NumericOption.message]

/-- The message of another option comes from its own check. -/
theorem not_accepted_of_mem {option : NumericOption} (hother : option ≠ .ws)
    (hmem : (false, option.message) ∈ checks inet isEmpty look) : option.accepted look = false := by
  cases option with
  | ws => contradiction
  | _ =>
    simpa [checks, checksBefore, checksAfter, NumericOption.check, NumericOption.message] using hmem

end Messages

section Readings

variable {look : Bytes → Option Bytes} {text count : Bytes}

/-- A number that is given makes the setting. -/
theorem NumericOption.setting_of_given {option : NumericOption} (hgiven : look option.name = some text) :
    option.setting look = atoi text := by
  rw [setting, hgiven]
  rfl

/-- Without one, the default does. -/
theorem NumericOption.setting_of_none {option : NumericOption} (hnone : look option.name = none) :
    option.setting look = option.documentedDefault := by
  rw [setting, hnone]
  rfl

/-- `-ws` without `-wc` is read as 0. -/
theorem spawnReading_alone (hws : look (ascii "-ws") = some text) (hwc : look (ascii "-wc") = none) :
    spawnReading look = 0 := by
  rw [spawnReading, hws, hwc]
  rfl

/-- With it, as the number of `-wc`. -/
theorem spawnReading_both (hws : look (ascii "-ws") = some text)
    (hwc : look (ascii "-wc") = some count) : spawnReading look = atoi count := by
  rw [spawnReading, hws, hwc]
  rfl

/-- The check of `-ws` is one of the number that was read. -/
theorem spawnAccepted_iff (hws : look (ascii "-ws") = some text) :
    spawnAccepted look = true ↔ 1 ≤ spawnReading look ∧ spawnReading look ≤ NumericOption.wc.setting look := by
  rw [spawnAccepted, hws, Option.all_some, decide_eq_true_eq]

/-- After the checks that come first, the number of `-wc` passes the check of `-ws` too. -/
theorem spawnAccepted_of_count {inet : InetPton} {isEmpty : Bool}
    (hbefore : ∀ c ∈ checksBefore inet isEmpty look, c.1 = true)
    (hws : look (ascii "-ws") = some text) (hwc : look (ascii "-wc") = some count) :
    spawnAccepted look = true := by
  have hcheck : NumericOption.wc.accepted look = true :=
    hbefore (NumericOption.wc.check look) (by simp [checksBefore])
  rw [NumericOption.accepted, NumericOption.name, hwc] at hcheck
  have hrange : 1 ≤ atoi count ∧ atoi count ≤ 1000 := of_decide_eq_true hcheck
  rw [spawnAccepted_iff hws, spawnReading_both hws hwc, NumericOption.setting_of_given hwc]
  exact ⟨hrange.1, Int.le_refl _⟩

end Readings

section Arguments

variable {inet : InetPton} {argv0 : Bytes} {arguments : List Bytes}

/-- Where the number of `-ws` is misread, an option does not get its number, or is rejected. -/
theorem SpawnMisread.not_reach (h : SpawnMisread inet argv0 arguments) :
    ¬OptionsReachSettings inet argv0 arguments := by
  intro hreach
  obtain ⟨hsome, hbefore, text, hws, hwc⟩ := h
  obtain ⟨args, hargs⟩ := Option.isSome_iff_exists.mp hsome
  have hmain := @mainOptions_eq inet _ _ _ hargs
  cases hcount : given arguments (ascii "-wc") with
  | none =>
    rw [hcount] at hwc
    have hrejected : spawnAccepted (given arguments) = false := by
      rw [← Bool.not_eq_true, spawnAccepted_iff hws, spawnReading_alone hws hcount]
      omega
    have hupper : NumericOption.ws.upper (given arguments) = 50 := NumericOption.setting_of_none hcount
    refine hreach.inRange .ws text hws ⟨hwc.1, hupper ▸ hwc.2⟩ ?_
    rw [hmain, verdict_error_iff]
    exact ⟨_, _, by rw [checks, hrejected], hbefore⟩
  | some count =>
    rw [hcount] at hwc
    have haccepted := spawnAccepted_of_count hbefore hws hcount
    have hall : ∀ c ∈ checks inet (arguments.length < 2) (given arguments), c.1 = true := by
      intro c hc
      rcases List.mem_append.mp hc with hc | hc
      · exact hbefore c hc
      · rcases List.mem_cons.mp hc with rfl | hc
        · exact haccepted
        · exact hwc.2 c hc
    have hvalue := hreach.values _ (hmain.trans (verdict_ok_iff.mpr ⟨hall, rfl⟩)) .ws
    rw [value_optionsConfig, if_pos rfl, spawnReading_both hws hcount,
      NumericOption.setting_of_given hws] at hvalue
    exact hwc.1 hvalue

/-- Otherwise the configuration has every number. -/
theorem values_of_not_misread (h : ¬SpawnMisread inet argv0 arguments) {s : MainState}
    (hs : mainOptions inet argv0 arguments = .ok s) (option : NumericOption) :
    s.config.value option = option.setting (given arguments) := by
  obtain ⟨hread, hall, hconfig⟩ := mainOptions_ok hs
  rw [hconfig, value_optionsConfig]
  split_ifs with hother
  · subst hother
    have hspawn : spawnAccepted (given arguments) = true :=
      hall _ (List.mem_append_right _ List.mem_cons_self)
    cases hws : given arguments (ascii "-ws") with
    | none =>
      rw [NumericOption.setting_of_none hws, spawnReading, hws]
      rfl
    | some text =>
      rw [NumericOption.setting_of_given hws]
      rw [spawnAccepted_iff hws] at hspawn
      by_contra hne
      refine h ⟨hread, fun c hc => hall c (List.mem_append_left _ hc), text, hws, ?_⟩
      cases hwc : given arguments (ascii "-wc") with
      | none =>
        rw [spawnReading_alone hws hwc] at hspawn
        omega
      | some count =>
        rw [spawnReading_both hws hwc] at hne
        exact ⟨hne, fun c hc => hall c (List.mem_append_right _ (List.mem_cons_of_mem _ hc))⟩
  · rfl

/-- And no number in its range is rejected. -/
theorem inRange_of_not_misread (h : ¬SpawnMisread inet argv0 arguments) (option : NumericOption)
    (text : Bytes) (htext : given arguments option.name = some text)
    (hrange : option.InRange (given arguments) (atoi text)) :
    mainOptions inet argv0 arguments ≠ .error option.message := by
  intro herror
  cases hargs : parseArgs argv0 arguments with
  | none =>
    rw [mainOptions, hargs, Except.error.injEq] at herror
    cases option <;> simp [NumericOption.message] at herror
  | some args =>
    rw [mainOptions_eq hargs] at herror
    by_cases hother : option = .ws
    · subst hother
      obtain ⟨hbefore, hrest⟩ := verdict_append_error message_ws_before herror
      have hnot : spawnAccepted (given arguments) = false := by
        by_contra haccepted
        rw [verdict, if_pos (Bool.of_not_eq_false haccepted),
          ← List.append_nil (checksAfter inet (given arguments))] at hrest
        have hover := (verdict_append_error message_ws_after hrest).2
        contradiction
      refine h ⟨by rw [hargs]; rfl, hbefore, text, htext, ?_⟩
      cases hwc : given arguments (ascii "-wc") with
      | none =>
        have hupper : NumericOption.ws.upper (given arguments) = 50 := NumericOption.setting_of_none hwc
        exact ⟨hrange.1, hupper ▸ hrange.2⟩
      | some count =>
        rw [spawnAccepted_of_count hbefore htext hwc] at hnot
        contradiction
    · obtain ⟨before, after, hsplit, -⟩ := verdict_error_iff.mp herror
      have hmem : (false, option.message) ∈ checks inet (arguments.length < 2) (given arguments) := by
        rw [hsplit]
        exact List.mem_append_right _ List.mem_cons_self
      have hnot := not_accepted_of_mem hother hmem
      rw [NumericOption.accepted, htext, inBounds, Option.all_some, decide_eq_false_iff_not] at hnot
      exact hnot hrange

/-- Numeric options reach their own settings. Every number gets to its setting, and no option is
rejected for a number in its range, exactly if the number of `-ws` is not misread. -/
theorem options_reach_settings_iff (inet : InetPton) (argv0 : Bytes) (arguments : List Bytes) :
    OptionsReachSettings inet argv0 arguments ↔ ¬SpawnMisread inet argv0 arguments :=
  ⟨fun h hmisread => hmisread.not_reach h,
    fun h => ⟨fun _ hs => values_of_not_misread h hs, inRange_of_not_misread h⟩⟩

end Arguments

/-- The text form of one address. -/
def loopbackOnly : InetPton where
  v4 text := if text = ascii "127.0.0.1" then some [127, 0, 0, 1] else none
  v6 _ := none
  length_v4 text raw h := by
    obtain ⟨-, hraw⟩ := Option.ite_none_right_eq_some.mp h
    cases hraw
    rfl
  length_v6 _ _ h := nomatch h

/-- With `-wc 50 -ws 5`, fifty workers are spawned per round; `-ws 5` alone is rejected. -/
theorem spawn_count_misread :
    (∃ s, mainOptions loopbackOnly (ascii "tinysox") [ascii "-p", ascii "1080", ascii "-wc", ascii "50",
        ascii "-ws", ascii "5"] = .ok s ∧ s.config.workersSpawnCount = 50) ∧
      mainOptions loopbackOnly (ascii "tinysox") [ascii "-p", ascii "1080", ascii "-ws", ascii "5"] =
        .error "workers swawn count value is invalid!" ∧
      ¬∀ arguments, OptionsReachSettings loopbackOnly (ascii "tinysox") arguments := by
  refine ⟨⟨_, rfl, by decide⟩, rfl, fun h => ?_⟩
  have hrange := (h [ascii "-p", ascii "1080", ascii "-ws", ascii "5"]).inRange .ws (ascii "5") rfl
    ⟨by decide, by decide⟩
  exact hrange rfl

end TinySox
