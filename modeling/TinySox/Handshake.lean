import TinySox.JobProgram

/-!
# The client handshake

`Job_ClientHandshake::Execute`, one definition for each stage of it: method selection,
login, the request, the connection attempts and the reply. All fields are read into one
buffer, which is passed from stage to stage. Log messages are left out.
-/

namespace TinySox

open TinySox.Common

/-- `buff[i]` -/
def byteAt (buff : Bytes) (i : ℕ) : UInt8 := buff.getD i 0

/-- `BUFF_LEN` -/
def buffLen : ℕ := 512

/-- A handshake is a program that may leave early with the result of the job. -/
abbrev HandshakeProg (A : Type) := JobProg JobResult A

namespace Handshake

variable {A : Type}

/-- `FailWithDisclaim` -/
def failWithDisclaim (state : State) : HandshakeProg A := do
  let state ← state.disclaimAllHandlers
  .exit (.terminal state)

/-- `SendAuthFailWithDisclaim` -/
def sendAuthFailWithDisclaim (state : State) (writer : ℕ) : HandshakeProg A := do
  let _ ← JobProg.transferOut writer [0x01, 0x01]
  failWithDisclaim state

/-- A check whose failure ends the job. -/
def failUnless (ok : Bool) (state : State) : HandshakeProg Unit :=
  if ok then pure () else failWithDisclaim state

/-- `if(handler.reader->Transfer(buff,len,false)<len) return FailWithDisclaim(state);` -/
def receive (state : State) (id : ℕ) (buff : Bytes) (len : ℕ) : HandshakeProg Bytes := do
  let r ← JobProg.transferIn id len false
  failUnless (len ≤ r.ret) state
  pure (storeAt buff 0 r.data)

/-- The loop over `buff[0..nmethods)`: the first method that is supported. -/
def firstSupported (anonLoginSupported : Bool) (methods : Bytes) : Option UInt8 :=
  methods.find? fun m => (anonLoginSupported && m = 0x00) || m = 0x02

/-- Greeting and method selection: the selected method, after the client was told. -/
def selectMethod (cfg : Config) (state : State) (id : ℕ) (buff : Bytes) :
    HandshakeProg (UInt8 × Bytes) := do
  let buff ← receive state id buff 1
  failUnless (byteAt buff 0 = 0x05) state
  let buff ← receive state id buff 1
  let nmethods := (byteAt buff 0).toNat
  let buff ← receive state id buff nmethods
  let anonLoginSupported := (cfg.getUser []).isSome
  match firstSupported anonLoginSupported (buff.take nmethods) with
  | none => do
    let buff := storeAt buff 0 [0x05, 0xFF]
    let _ ← JobProg.transferOut id (buff.take 2)
    -- wait while the client closes the connection
    let _ ← JobProg.transferIn id buffLen true
    failWithDisclaim state
  | some m => do
    let buff := storeAt buff 0 [0x05, m]
    let r ← JobProg.transferOut id (buff.take 2)
    failUnless (r = 2) state
    pure (m, buff)

/-- `user!=nullptr && user->password==password` -/
def credentialsMatch (cfg : Config) (username password : Bytes) : Bool :=
  match cfg.getUser username with
  | none => false
  | some user => user.password = password

/-- Login with name and password. -/
def login (cfg : Config) (state : State) (id : ℕ) (buff : Bytes) : HandshakeProg Bytes := do
  let buff ← receive state id buff 1
  if byteAt buff 0 ≠ 0x01 then
    sendAuthFailWithDisclaim state id
  else do
    let buff ← receive state id buff 1
    let ulen := (byteAt buff 0).toNat
    let buff ← receive state id buff ulen
    let username := buff.take ulen
    let buff ← receive state id buff 1
    let plen := (byteAt buff 0).toNat
    let buff ← receive state id buff plen
    let password := buff.take plen
    if credentialsMatch cfg username password then do
      let buff := storeAt buff 0 [0x01, 0x00]
      let r ← JobProg.transferOut id (buff.take 2)
      failUnless (r = 2) state
      pure buff
    else
      sendAuthFailWithDisclaim state id

/-- An address of a fixed length; it is kept if it is valid. -/
def readRawAddress (state : State) (id : ℕ) (buff : Bytes) (len : ℕ) :
    HandshakeProg (List IPAddress × Bytes) := do
  let buff ← receive state id buff len
  let addr := IPAddress.ofRaw (buff.take len)
  pure (if addr.isValid then [addr] else [], buff)

/-- The valid addresses of a resolver's answer. -/
def validAddresses {len : ℕ} (answer : Option (List (AddrRecord len))) : List IPAddress :=
  ((answer.getD []).map fun r => IPAddress.ofRaw r.val).filter IPAddress.isValid

/-- Resolve a name: all IPv6 addresses, and then all IPv4 addresses. -/
def resolve (cfg : Config) (state : State) (dname : Bytes) : HandshakeProg (List IPAddress) := do
  let created ← JobProg.dnsNew
  failUnless created state
  let opened ← JobProg.dnsOpen
  if opened then do
    let nosrch := !cfg.udnsSearchDomainIsSet
    let ans6 ← JobProg.dnsResolveA6 (cString dname) nosrch
    let ans4 ← JobProg.dnsResolveA4 (cString dname) nosrch
    JobProg.dnsClose
    JobProg.dnsFree
    pure (validAddresses ans6 ++ validAddresses ans4)
  else do
    JobProg.dnsFree
    failWithDisclaim state

/-- A domain name, which may be an address in text form. -/
def readDomainName (cfg : Config) (inet : InetPton) (state : State) (id : ℕ) (buff : Bytes) :
    HandshakeProg (List IPAddress × Bytes) := do
  let buff ← receive state id buff 1
  let dnameLen := (byteAt buff 0).toNat
  let buff ← receive state id buff dnameLen
  let dname := buff.take dnameLen
  let testIP := IPAddress.ofString inet dname
  if testIP.isValid then
    pure ([testIP], buff)
  else do
    let destIPs ← resolve cfg state dname
    pure (destIPs, buff)

/-- The destination, by the type of the address. -/
def readDestination (cfg : Config) (inet : InetPton) (state : State) (id : ℕ) (atyp : UInt8)
    (buff : Bytes) : HandshakeProg (List IPAddress × Bytes) :=
  if atyp = 0x01 then readRawAddress state id buff ipv4AddrLen
  else if atyp = 0x04 then readRawAddress state id buff ipv6AddrLen
  else if atyp = 0x03 then readDomainName cfg inet state id buff
  else failWithDisclaim state

/-- A request, decoded. -/
structure Request where
  cmd : UInt8
  destIPs : List IPAddress
  port : UInt16
  deriving DecidableEq, Repr

/-- The request up to the port. -/
def readRequest (cfg : Config) (host : ByteOrder) (inet : InetPton) (state : State) (id : ℕ)
    (buff : Bytes) : HandshakeProg (Request × Bytes) := do
  let buff ← receive state id buff 1
  failUnless (byteAt buff 0 = 0x05) state
  let buff ← receive state id buff 2
  let cmd := byteAt buff 0
  let buff ← receive state id buff 1
  let atyp := byteAt buff 0
  let (destIPs, buff) ← readDestination cfg inet state id atyp buff
  let buff ← receive state id buff 2
  let port := host.ntohs (host.loadU16 (byteAt buff 0) (byteAt buff 1))
  pure (⟨cmd, destIPs, port⟩, buff)

/-- Everything before the check of the command. -/
def negotiate (cfg : Config) (host : ByteOrder) (inet : InetPton) (state : State) (id : ℕ)
    (buff : Bytes) : HandshakeProg (Request × Bytes) := do
  let (method, buff) ← selectMethod cfg state id buff
  if method = 0x02 then do
    let buff ← login cfg state id buff
    readRequest cfg host inet state id buff
  else
    readRequest cfg host inet state id buff

/-- The timeout of one of `ipCount` connection attempts. The product with the upper bound is
computed in 32 bits, everything else in 64. -/
def connectTimeout (cfg : Config) (ipCount : ℕ) : Timeval :=
  let minTimeout := cfg.minCTimeSec * 1000000
  let proposed := ((cfg.maxCTimeSec * 1000000).bmod (2 ^ 32)).tdiv ipCount
  let timeout := if proposed < minTimeout then minTimeout else proposed
  ⟨timeout.tdiv 1000000, timeout - timeout.tdiv 1000000 * 1000000⟩

/-- The variables that the connection attempts set. -/
structure Attempt where
  rep : UInt8
  bindEP : IPEndpoint
  finalState : State
  deriving DecidableEq, Repr

/-- The reply code after an attempt that failed. -/
def failureRep (rep : UInt8) (target : ℕ) : UInt8 :=
  if target = handlerErrorNetUnavail then 0x03
  else if target = handlerErrorConnRefused then 0x05
  else rep

/-- No failure is reported as a success. -/
theorem failureRep_ne_zero {rep : UInt8} (hrep : rep ≠ 0x00) (target : ℕ) :
    failureRep rep target ≠ 0x00 := by
  unfold failureRep
  split_ifs
  · decide
  · decide
  · exact hrep

/-- The new handler joins the state, and the local endpoint of its socket is found out. -/
def adoptTarget (host : ByteOrder) (target : ℕ) (finalState : State) : HandshakeProg Attempt := do
  match ← JobProg.getHandler target with
  | none => failWithDisclaim finalState
  | some fd =>
    let finalState ← finalState.addHandlerWithClaim target
    match ← JobProg.getsockname fd with
    | none => failWithDisclaim finalState
    | some sa =>
      let ep := IPEndpoint.ofSockaddr host sa
      failUnless ep.address.isValid finalState
      pure ⟨0x00, ep, finalState⟩

/-- Try the addresses in order until a connection is made. -/
def connectAny (host : ByteOrder) (port : UInt16) (ct : Timeval) (attempt : Attempt) :
    List IPAddress → HandshakeProg Attempt
  | [] => pure attempt
  | ip :: rest => do
    let target ← JobProg.connectAndCreateHandler ⟨ip, port⟩ ct
    if handlerError < target then
      connectAny host port ct { attempt with rep := failureRep attempt.rep target } rest
    else
      adoptTarget host target attempt.finalState

/-- The branch on the command. -/
def perform (cfg : Config) (host : ByteOrder) (state : State) (req : Request) :
    HandshakeProg Attempt :=
  if req.cmd = 0x01 then
    connectAny host req.port (connectTimeout cfg req.destIPs.length) ⟨0x01, .unset, state⟩
      req.destIPs
  else
    pure ⟨0x07, .unset, state⟩

/-- The bytes of the reply. -/
def replyBytes (host : ByteOrder) (attempt : Attempt) : Bytes :=
  [0x05, attempt.rep, 0x00, if attempt.bindEP.address.isV6 then 0x04 else 0x01] ++
    attempt.bindEP.toRawBuff host

/-- Send the reply, and hand the handlers on or give them up. -/
def respond (host : ByteOrder) (id : ℕ) (cmd : UInt8) (attempt : Attempt) (buff : Bytes) :
    HandshakeProg Empty := do
  let buff := storeAt buff 0 (replyBytes host attempt)
  let respLen := (replyBytes host attempt).length
  let r ← JobProg.transferOut id (buff.take respLen)
  failUnless (respLen ≤ r) attempt.finalState
  if cmd = 0x01 ∧ attempt.rep = 0x00 then do
    let state ← attempt.finalState.disclaimAllHandlers
    .exit (.modeConnect state)
  else
    failWithDisclaim attempt.finalState

/-- `Execute` once the handler is found. -/
def converse (cfg : Config) (host : ByteOrder) (inet : InetPton) (state : State) (id : ℕ) :
    HandshakeProg Empty := do
  let (req, buff) ← negotiate cfg host inet state id (List.replicate buffLen 0)
  let attempt ← perform cfg host state req
  respond host id req.cmd attempt buff

/-- `Job_ClientHandshake::Execute` -/
def execute (cfg : Config) (host : ByteOrder) (inet : InetPton) (state : State) :
    HandshakeProg Empty :=
  match state.handlerClaimStates with
  | [claimed] => do
    match ← JobProg.getHandler claimed.handlerID with
    | none => failWithDisclaim state
    | some _ => converse cfg host inet state claimed.handlerID
  | _ => failWithDisclaim state

end Handshake

end TinySox
