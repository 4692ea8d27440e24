import TinySox.CommandLine
import TinySox.Common.Checks
import TinySox.JobProgram

/-!
# The options of the program

What `main` makes of the map of arguments: the checks of the options in the order of the source, and
the configuration. A lookup with `operator[]` enters an empty value for an option that the map does
not have. The texts that `usage` prints are left out, apart from the defaults that they promise, and
so are the UDNS context and the options that are used after the start of the listeners.
-/

namespace TinySox

open TinySox.Common

/-- `isspace` -/
def isSpace (c : UInt8) : Bool := c = 32 ∨ 9 ≤ c ∧ c ≤ 13

/-- `isdigit` -/
def isDigit (c : UInt8) : Bool := 48 ≤ c ∧ c ≤ 57

/-- The number that the digits at the start of the text denote. -/
def leadingNumber (text : Bytes) : ℕ :=
  (text.takeWhile isDigit).foldl (fun n c => 10 * n + (c.toNat - 48)) 0

/-- `strtol` with base 10: blanks, a sign, digits; out of range, the nearest `long`. -/
def strtol (text : Bytes) : Int :=
  match text.dropWhile isSpace with
  | 45 :: rest => max (-(2 ^ 63)) (-(leadingNumber rest : Int))
  | 43 :: rest => min (2 ^ 63 - 1) (leadingNumber rest : Int)
  | rest => min (2 ^ 63 - 1) (leadingNumber rest : Int)

/-- `std::atoi`: the low 32 bits of what `strtol` returns. -/
def atoi (text : Bytes) : Int := (strtol text).bmod (2 ^ 32)

/-- `args[key]`: the value, and the map afterwards. -/
def subscript (args : ArgMap) (key : Bytes) : Bytes × ArgMap :=
  match args.lookup key with
  | some value => (value, args)
  | none => ([], args.insert key [])

/-- The options with a number that has a setting of its own. -/
inductive NumericOption
  | wc
  | ws
  | ac
  | mt
  | st
  | bsz
  | cf
  | cmin
  | cmax
  | dt
  | hc
  deriving DecidableEq, Repr

namespace NumericOption

/-- The option as it is given. -/
def name : NumericOption → Bytes
  | wc => ascii "-wc"
  | ws => ascii "-ws"
  | ac => ascii "-ac"
  | mt => ascii "-mt"
  | st => ascii "-st"
  | bsz => ascii "-bsz"
  | cf => ascii "-cf"
  | cmin => ascii "-cmin"
  | cmax => ascii "-cmax"
  | dt => ascii "-dt"
  | hc => ascii "-hc"

/-- The message for a value that is not accepted. -/
def message : NumericOption → String
  | wc => "workers count value is invalid!"
  | ws => "workers swawn count value is invalid!"
  | ac => "max active workers count value is invalid!"
  | mt => "workers management interval is invalid!"
  | st => "socket timeout is invalid!"
  | bsz => "TCP buffer size is invalid"
  | cf => "Flush timeout value is invalid"
  | cmin => "Minimal connection timeout is invalid"
  | cmax => "Maximum connection timeout is invalid"
  | dt => "Data R|W timeout is invalid"
  | hc => "Half-closed connection timeout is invalid"

/-- The default that `usage` promises. -/
def documentedDefault : NumericOption → Int
  | wc => 50
  | ws => 10
  | ac => 250
  | mt => 500
  | st => 5000
  | bsz => 65536
  | cf => 30
  | cmin => 5
  | cmax => 20
  | dt => 60
  | hc => 30

end NumericOption

/-- The members of `Config` that the options set, besides those that the handshake reads. -/
structure ProgramConfig extends Config where
  workersCount : Int
  workersSpawnCount : Int
  activeWorkersCount : Int
  serviceInterval : Int
  socketTimeout : Int
  tcpBuffSz : Int
  linger : Int
  rwTimeoutSec : Int
  hcTimeoutSec : Int
  listenAddrs : List IPEndpoint
  netns : Bytes
  deriving DecidableEq, Repr

namespace ProgramConfig

/-- Before the options are read. The numbers are set before they are used. -/
def blank : ProgramConfig := ⟨⟨0, 0, false, []⟩, 0, 0, 0, 0, 0, 0, 0, 0, 0, [], []⟩

/-- The getter of an option's setting. -/
def value (c : ProgramConfig) : NumericOption → Int
  | .wc => c.workersCount
  | .ws => c.workersSpawnCount
  | .ac => c.activeWorkersCount
  | .mt => c.serviceInterval
  | .st => c.socketTimeout
  | .bsz => c.tcpBuffSz
  | .cf => c.linger
  | .cmin => c.minCTimeSec
  | .cmax => c.maxCTimeSec
  | .dt => c.rwTimeoutSec
  | .hc => c.hcTimeoutSec

/-- The setter of an option's setting. -/
def set (c : ProgramConfig) (option : NumericOption) (v : Int) : ProgramConfig :=
  match option with
  | .wc => { c with workersCount := v }
  | .ws => { c with workersSpawnCount := v }
  | .ac => { c with activeWorkersCount := v }
  | .mt => { c with serviceInterval := v }
  | .st => { c with socketTimeout := v }
  | .bsz => { c with tcpBuffSz := v }
  | .cf => { c with linger := v }
  | .cmin => { c with minCTimeSec := v }
  | .cmax => { c with maxCTimeSec := v }
  | .dt => { c with rwTimeoutSec := v }
  | .hc => { c with hcTimeoutSec := v }

/-- `AddListenAddr`: a set keeps one of two equal endpoints. -/
def addListenAddr (c : ProgramConfig) (endpoint : IPEndpoint) : ProgramConfig :=
  if endpoint ∈ c.listenAddrs then c else { c with listenAddrs := c.listenAddrs ++ [endpoint] }

/-- `AddUser` -/
def addUser (c : ProgramConfig) (user : User) : ProgramConfig :=
  { c with toConfig := c.toConfig.addUser user }

/-- A setting has the value that it was set to, and the others keep theirs. -/
@[simp] theorem value_set (c : ProgramConfig) (option other : NumericOption) (v : Int) :
    (c.set option v).value other = if other = option then v else c.value other := by
  cases option <;> cases other <;> rfl

end ProgramConfig

/-- The variables `args` and `config` of `main`. -/
structure MainState where
  args : ArgMap
  config : ProgramConfig

namespace MainState

/-- `config.SetX(v)` -/
def set (s : MainState) (option : NumericOption) (v : Int) : MainState :=
  { s with config := s.config.set option v }

/-- Set the default; if the option is given, check its number and set that. -/
def numeric (option : NumericOption) (default lower upper : Int) (s : MainState) :
    Except String MainState :=
  let s := s.set option default
  match s.args.lookup option.name with
  | none => .ok s
  | some _ =>
    let (text, args) := subscript s.args option.name
    let cnt := atoi text
    if cnt < lower ∨ cnt > upper then .error option.message
    else .ok ({ s with args }.set option cnt)

/-- `-wc` -/
def workersCount : MainState → Except String MainState := numeric .wc 50 1 1000

/-- `-ws`, whose number is taken from `args["-wc"]` -/
def workersSpawnCount (s : MainState) : Except String MainState :=
  let s := s.set .ws 10
  match s.args.lookup (ascii "-ws") with
  | none => .ok s
  | some _ =>
    let (text, args) := subscript s.args (ascii "-wc")
    let cnt := atoi text
    if cnt < 1 ∨ cnt > s.config.workersCount then .error "workers swawn count value is invalid!"
    else .ok ({ s with args }.set .ws cnt)

/-- `-ac` -/
def activeWorkersCount : MainState → Except String MainState := numeric .ac 250 1 10000

/-- `-mt` -/
def serviceInterval : MainState → Except String MainState := numeric .mt 500 100 10000

/-- `-st` -/
def socketTimeout : MainState → Except String MainState := numeric .st 5000 100 60000

/-- `-bsz` -/
def tcpBuffSz : MainState → Except String MainState := numeric .bsz 65536 128 524288

/-- `-cf` -/
def linger : MainState → Except String MainState := numeric .cf 30 (-1) 600

/-- `-cmin` -/
def minCTime : MainState → Except String MainState := numeric .cmin 5 1 60

/-- `-cmax` -/
def maxCTime (s : MainState) : Except String MainState :=
  s.numeric .cmax 20 (s.config.minCTimeSec.tdiv 1000) 120

/-- `-dt` -/
def rwTime : MainState → Except String MainState := numeric .dt 60 1 7200

/-- `-hc` -/
def halfCloseTimeout : MainState → Except String MainState := numeric .hc 30 1 7200

/-- `-l`, with the port from `-p` -/
def listenAddr (inet : InetPton) (port : Int) (s : MainState) : Except String MainState := do
  let port := UInt16.ofNat port.toNat
  match s.args.lookup (ascii "-l") with
  | some text => do
    let address := IPAddress.ofString inet text
    require (address.isValid && !address.isV6) "listen IP address is invalid!"
    pure { s with config := s.config.addListenAddr ⟨address, port⟩ }
  | none =>
    pure { s with
      config := s.config.addListenAddr ⟨.ofString inet (ascii "127.0.0.1"), port⟩ }

/-- `User{args["-usr"],args.find("-pwd")==args.end()?"":args["-pwd"]}` -/
def optionUser (s : MainState) : User × MainState :=
  let (login, args) := subscript s.args (ascii "-usr")
  match args.lookup (ascii "-pwd") with
  | none => (⟨login, []⟩, { s with args })
  | some _ =>
    let (password, args) := subscript args (ascii "-pwd")
    (⟨login, password⟩, { s with args })

/-- Both calls of `AddUser`. -/
def addUsers (s : MainState) : MainState :=
  let s :=
    match s.args.lookup (ascii "-usr") with
    | none => { s with config := s.config.addUser ⟨[], []⟩ }
    | some _ =>
      let (user, s) := s.optionUser
      { s with config := s.config.addUser user }
  let (user, s) := s.optionUser
  { s with config := s.config.addUser user }

/-- `-dns` and `-src` -/
def dnsServer (inet : InetPton) (s : MainState) : Except String MainState := do
  let s := { s with config := { s.config with udnsSearchDomainIsSet := false } }
  match s.args.lookup (ascii "-dns") with
  | none => pure s
  | some text => do
    require (IPAddress.ofString inet text).isValid "DNS address is invalid"
    match s.args.lookup (ascii "-src") with
    | none => pure s
    | some _ => pure { s with config := { s.config with udnsSearchDomainIsSet := true } }

/-- `-ns` -/
def networkNamespace (s : MainState) : MainState :=
  { s with config := { s.config with netns := (s.args.lookup (ascii "-ns")).getD [] } }

end MainState

/-- The options, one after the other. -/
def configure (inet : InetPton) (args : ArgMap) : Except String MainState := do
  require (!args.entries.isEmpty) "Mandatory parameters are missing!"
  require (args.lookup (ascii "-p")).isSome "TCP port number is missing!"
  let (text, args) := subscript args (ascii "-p")
  let port := atoi text
  require (1 ≤ port ∧ port ≤ 65535) "TCP port number is invalid!"
  let s ← MainState.listenAddr inet port ⟨args, .blank⟩
  let s ← s.workersCount
  let s ← s.workersSpawnCount
  let s ← s.activeWorkersCount
  let s ← s.serviceInterval
  let s ← s.socketTimeout
  let s := s.addUsers
  let s ← s.dnsServer inet
  let s ← s.tcpBuffSz
  let s ← s.linger
  let s ← s.minCTime
  let s ← s.maxCTime
  let s ← s.rwTime
  let s ← s.halfCloseTimeout
  pure s.networkNamespace

/-- `main` up to its first logger: the message that it ends with, or its variables. The message for
an invalid argument ends with that argument. -/
def mainOptions (inet : InetPton) (argv0 : Bytes) (arguments : List Bytes) :
    Except String MainState :=
  match parseArgs argv0 arguments with
  | none => .error "Invalid cmdline argument: "
  | some args => configure inet args

end TinySox
