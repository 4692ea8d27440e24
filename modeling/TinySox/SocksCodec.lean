import TinySox.HandshakeStages

/-!
# Decoding undoes encoding

A client that sends a greeting, the login that the selected method asks for, and a CONNECT
request is understood: the handshake reads exactly these bytes, and dials the addresses
that the destination stands for, in order, until a connection is made. Conversely, a
handshake that gets as far as dialling has read such bytes.
-/

namespace TinySox

open TinySox.Common

/-- What a client sends to be admitted and to ask for a connection. -/
inductive ConnectBytes (cfg : Config) (dest : Destination) (port : UInt16) : Bytes → Prop
  | anonymous (methods : ShortBytes) (rsv : UInt8)
      (hfirst : FirstAcceptable cfg methods.val 0x00) :
      ConnectBytes cfg dest port (greetingBytes methods ++ requestBytes 0x01 rsv dest port)
  | login (methods username password : ShortBytes) (user : User) (rsv : UInt8)
      (hfirst : FirstAcceptable cfg methods.val 0x02)
      (huser : cfg.getUser username.val = some user) (hpassword : user.password = password.val) :
      ConnectBytes cfg dest port
        (greetingBytes methods ++ (loginBytes username password ++ requestBytes 0x01 rsv dest port))

/-- The resolver's queries are answered by its functions. -/
def Resolver.Answers (dns : Resolver) : (o : JobOp) → o.Answer → Prop
  | .dnsResolveA6 name nosrch, ans => ans = dns.a6 name nosrch
  | .dnsResolveA4 name nosrch, ans => ans = dns.a4 name nosrch
  | _, _ => True

/-- The stream is delivered in full to the handler's reader, replies are written in full, the
handler is registered, and the resolver works. -/
def Delivers (stream : Bytes) (id : ℕ) (dns : Resolver) :
    Transcript → (o : JobOp) → o.Answer → Prop
  | g, .transferIn _ len _, (r : TransferIn) => g.received.length + len ≤ stream.length →
      r = ⟨len, (stream.drop g.received.length).take len⟩
  | _, .transferOut _ data, (r : Int) => r = data.length
  | _, .getHandler h, handler => h = id → handler.isSome
  | _, .dnsNew, ok => ok = true
  | _, .dnsOpen, ok => ok = true
  | _, .dnsResolveA6 name nosrch, ans => ans = dns.a6 name nosrch
  | _, .dnsResolveA4 name nosrch, ans => ans = dns.a4 name nosrch
  | _, _, _ => True

/-- In this run the stream is delivered. -/
def Delivered (stream : Bytes) (id : ℕ) (dns : Resolver) (t : List (Event JobOp.Answer)) : Prop :=
  (conversation (fun _ _ _ => True) (Delivers stream id dns)).Kept .empty t

/-- The handshake has read a CONNECT request, and this endpoint is the next one to dial. -/
def Transcript.DialsNext (cfg : Config) (inet : InetPton) (dns : Resolver) (g : Transcript)
    (target : IPEndpoint) : Prop :=
  ∃ dest port, ConnectBytes cfg dest port g.received ∧
    ∃ done ip rest, dest.candidates cfg inet dns = done ++ ip :: rest ∧ target = ⟨ip, port⟩ ∧
      FailedDials port done g.dials

namespace Handshake

variable {A : Type} {mayDial : Transcript → IPEndpoint → Timeval → Prop} {cfg : Config}
  {host : ByteOrder} {inet : InetPton} {dns : Resolver} {stream : Bytes} {id : ℕ}
  {exits : JobResult → Transcript → Prop} {g : Transcript} {state : State} {buff : Bytes}

/-- A field that the stream still has is read. -/
theorem deliver_receive {len : ℕ} {data rest : Bytes} {ends : Bytes → Transcript → Prop}
    (hlen : data.length = len) (hstream : stream = g.received ++ (data ++ rest))
    (hends : stream = (g.receive data).received ++ rest →
      ends (storeAt buff 0 data) (g.receive data)) :
    (conversation mayDial (Delivers stream id dns)).wp exits ends (receive state id buff len) g := by
  subst hlen
  rw [receive, Contract.wp_bind]
  refine wp_transferIn fun r hr => ?_
  have hfit : g.received.length + data.length ≤ stream.length := by
    rw [hstream, List.length_append, List.length_append]
    omega
  have hdata : (stream.drop g.received.length).take data.length = data := by
    rw [hstream, List.drop_left, List.take_left]
  obtain rfl : r = ⟨data.length, data⟩ := by
    rw [hr hfit, hdata]
  have hfull : decide ((data.length : Int) < data.length) = false :=
    decide_eq_false (Int.lt_irrefl _)
  have hok : decide ((data.length : Int) ≤ data.length) = true := decide_eq_true (Int.le_refl _)
  rw [Contract.wp_bind, hfull, Bool.or_false, hok]
  refine hends ?_
  rw [hstream, Transcript.receive, List.append_assoc]

/-- A greeting with an acceptable method is answered with the first one. -/
theorem deliver_selectMethod {methods : ShortBytes} {m : UInt8} {rest : Bytes}
    {ends : UInt8 × Bytes → Transcript → Prop} (hfirst : FirstAcceptable cfg methods.val m)
    (hstream : stream = g.received ++ (greetingBytes methods ++ rest))
    (hends : ∀ buff, ends (m, buff) ((g.receive (greetingBytes methods)).reply [0x05, m] 2)) :
    (conversation mayDial (Delivers stream id dns)).wp exits ends
      (selectMethod cfg state id buff) g := by
  have hversion : stream = g.received ++ ([0x05] ++ ([methods.lengthByte] ++ (methods.val ++ rest))) :=
    hstream
  rw [selectMethod, Contract.wp_bind]
  refine deliver_receive rfl hversion fun hlength => ?_
  rw [byteAt_storeAt_front, Contract.wp_bind]
  refine wp_failUnless (fun _ => ?_) fun hbad => absurd hbad (by decide)
  rw [Contract.wp_bind]
  refine deliver_receive rfl hlength fun hmethods => ?_
  rw [byteAt_storeAt_front, ShortBytes.toNat_lengthByte, Contract.wp_bind]
  refine deliver_receive rfl hmethods fun _ => ?_
  have hgreeting : ((g.receive [0x05]).receive [methods.lengthByte]).receive methods.val =
      g.receive (greetingBytes methods) := by
    simp [Transcript.receive, greetingBytes, ShortBytes.encode]
  rw [hgreeting, take_storeAt_front]
  dsimp only
  rw [firstSupported_eq_some.mpr hfirst]
  dsimp only
  rw [Contract.wp_bind]
  refine wp_transferOut fun r hr => ?_
  obtain rfl : r = 2 := hr
  exact hends _

/-- A login that the table knows is confirmed. -/
theorem deliver_login {username password : ShortBytes} {user : User} {rest : Bytes}
    {ends : Bytes → Transcript → Prop} (huser : cfg.getUser username.val = some user)
    (hpassword : user.password = password.val)
    (hstream : stream = g.received ++ (loginBytes username password ++ rest))
    (hends : ∀ buff, ends buff ((g.receive (loginBytes username password)).reply [0x01, 0x00] 2)) :
    (conversation mayDial (Delivers stream id dns)).wp exits ends (login cfg state id buff) g := by
  have hversion : stream = g.received ++ ([0x01] ++ ([username.lengthByte] ++ (username.val ++
      ([password.lengthByte] ++ (password.val ++ rest))))) := by
    rw [hstream]
    simp [loginBytes, ShortBytes.encode]
  rw [login, Contract.wp_bind]
  refine deliver_receive rfl hversion fun hlength => ?_
  rw [byteAt_storeAt_front, if_neg (not_not.mpr rfl), Contract.wp_bind]
  refine deliver_receive rfl hlength fun hname => ?_
  rw [byteAt_storeAt_front, ShortBytes.toNat_lengthByte, Contract.wp_bind]
  refine deliver_receive rfl hname fun hlength' => ?_
  rw [Contract.wp_bind]
  refine deliver_receive rfl hlength' fun hpass => ?_
  rw [byteAt_storeAt_front, ShortBytes.toNat_lengthByte, Contract.wp_bind]
  refine deliver_receive rfl hpass fun _ => ?_
  have hlogin : ((((g.receive [0x01]).receive [username.lengthByte]).receive username.val).receive
      [password.lengthByte]).receive password.val = g.receive (loginBytes username password) := by
    simp [Transcript.receive, loginBytes, ShortBytes.encode]
  have hmatch : credentialsMatch cfg username.val password.val = true := by
    rw [credentialsMatch, huser]
    exact decide_eq_true hpassword
  rw [hlogin, take_storeAt_front, take_storeAt_front]
  dsimp only
  rw [hmatch, if_pos rfl, Contract.wp_bind]
  refine wp_transferOut fun r hr => ?_
  obtain rfl : r = 2 := hr
  exact hends _

/-- The world that delivers a stream answers queries with its resolver. -/
theorem delivers_resolves : WorldResolves dns (Delivers stream id dns) :=
  fun _ _ _ => ⟨fun _ h => h, fun _ h => h⟩

/-- A destination is read as its candidates. -/
theorem deliver_readDestination {dest : Destination} {atyp : UInt8} {data rest : Bytes}
    {ends : List IPAddress × Bytes → Transcript → Prop} (hdest : dest.encode = atyp :: data)
    (hstream : stream = g.received ++ (data ++ rest))
    (hends : ∀ buff, ends (dest.candidates cfg inet dns, buff) (g.receive data)) :
    (conversation mayDial (Delivers stream id dns)).wp exits ends
      (readDestination cfg inet state id atyp buff) g := by
  have hraw : ∀ {len : ℕ} (raw : AddrRecord len), (len = ipv6AddrLen ∨ len = ipv4AddrLen) →
      stream = g.received ++ (raw.val ++ rest) →
      (∀ buff, ends ([raw.address], buff) (g.receive raw.val)) →
      (conversation mayDial (Delivers stream id dns)).wp exits ends
        (readRawAddress state id buff len) g := by
    intro len raw hlen hstream hends
    have htake : (storeAt buff 0 raw.val).take len = raw.val := by
      have hfront := take_storeAt_front buff raw.val
      rwa [raw.property] at hfront
    rw [readRawAddress, Contract.wp_bind]
    refine deliver_receive raw.property hstream fun _ => ?_
    have hvalid := raw.address_isValid hlen
    rw [htake]
    dsimp only
    rw [AddrRecord.address] at hvalid
    rw [hvalid, if_pos rfl]
    exact hends _
  cases dest with
  | v4 raw =>
    obtain ⟨rfl, rfl⟩ := List.cons.inj hdest
    exact hraw raw (.inr rfl) hstream hends
  | v6 raw =>
    obtain ⟨rfl, rfl⟩ := List.cons.inj hdest
    exact hraw raw (.inl rfl) hstream hends
  | domain name =>
    obtain ⟨rfl, rfl⟩ := List.cons.inj hdest
    have hlength : stream = g.received ++ ([name.lengthByte] ++ (name.val ++ rest)) := hstream
    change (conversation mayDial (Delivers stream id dns)).wp exits ends
      (readDomainName cfg inet state id buff) g
    rw [readDomainName, Contract.wp_bind]
    refine deliver_receive rfl hlength fun hname => ?_
    rw [byteAt_storeAt_front, ShortBytes.toNat_lengthByte, Contract.wp_bind]
    refine deliver_receive rfl hname fun _ => ?_
    have hencode : (g.receive [name.lengthByte]).receive name.val = g.receive name.encode := by
      simp [Transcript.receive, ShortBytes.encode]
    rw [hencode, take_storeAt_front]
    refine wp_lookup delivers_resolves (fun hfail => ?_) (hends _)
    rcases hfail with hfail | hfail <;> exact absurd hfail Bool.false_ne_true

/-- A request is read as its command, its candidates and its port. -/
theorem deliver_readRequest {cmd rsv : UInt8} {dest : Destination} {port : UInt16} {rest : Bytes}
    {ends : Request × Bytes → Transcript → Prop}
    (hstream : stream = g.received ++ (requestBytes cmd rsv dest port ++ rest))
    (hends : ∀ buff, ends (⟨cmd, dest.candidates cfg inet dns, port⟩, buff)
      (g.receive (requestBytes cmd rsv dest port))) :
    (conversation mayDial (Delivers stream id dns)).wp exits ends
      (readRequest cfg host inet state id buff) g := by
  obtain ⟨atyp, data, hdest⟩ : ∃ atyp data, dest.encode = atyp :: data := by
    cases dest <;> exact ⟨_, _, rfl⟩
  obtain ⟨b₀, b₁, hport⟩ : ∃ b₀ b₁, networkPort port = [b₀, b₁] := ⟨_, _, rfl⟩
  have hversion : stream = g.received ++
      ([0x05] ++ ([cmd, rsv] ++ ([atyp] ++ (data ++ ([b₀, b₁] ++ rest))))) := by
    rw [hstream]
    simp [requestBytes, hdest, hport]
  rw [readRequest, Contract.wp_bind]
  refine deliver_receive rfl hversion fun hcmd => ?_
  rw [byteAt_storeAt_front, Contract.wp_bind]
  refine wp_failUnless (fun _ => ?_) fun hbad => absurd hbad (by decide)
  rw [Contract.wp_bind]
  refine deliver_receive rfl hcmd fun hatyp => ?_
  rw [byteAt_storeAt_front, Contract.wp_bind]
  refine deliver_receive rfl hatyp fun hdata => ?_
  rw [byteAt_storeAt_front, Contract.wp_bind]
  refine deliver_readDestination hdest hdata fun buff => ?_
  have hleft : stream = ((((g.receive [0x05]).receive [cmd, rsv]).receive [atyp]).receive
      data).received ++ ([b₀, b₁] ++ rest) := by
    rw [hdata]
    simp [Transcript.receive]
  rw [Contract.wp_bind]
  refine deliver_receive rfl hleft fun _ => ?_
  have hdecoded : host.ntohs (host.loadU16 b₀ b₁) = port :=
    networkPort_injective (by rw [ByteOrder.ntohs_loadU16, hport])
  have hrequest : ((((g.receive [0x05]).receive [cmd, rsv]).receive [atyp]).receive data).receive
      [b₀, b₁] = g.receive (requestBytes cmd rsv dest port) := by
    simp [Transcript.receive, requestBytes, hdest, hport]
  rw [byteAt_storeAt_front, byteAt_storeAt_second, hdecoded, hrequest]
  exact hends _

/-- What the client sends is read, and nothing else. -/
theorem deliver_negotiate {dest : Destination} {port : UInt16} {bytes pipelined : Bytes}
    {ends : Request × Bytes → Transcript → Prop} (hbytes : ConnectBytes cfg dest port bytes)
    (hstream : stream = bytes ++ pipelined)
    (hends : ∀ buff g, g.received = bytes → g.dials = [] →
      ends (⟨0x01, dest.candidates cfg inet dns, port⟩, buff) g) :
    (conversation mayDial (Delivers stream id dns)).wp exits ends
      (negotiate cfg host inet state id buff) .empty := by
  rw [negotiate, Contract.wp_bind]
  cases hbytes with
  | anonymous methods rsv hfirst =>
    refine deliver_selectMethod hfirst (hstream.trans (List.append_assoc _ _ _)) fun buff => ?_
    dsimp only
    rw [if_neg (by decide)]
    exact deliver_readRequest (hstream.trans (List.append_assoc _ _ _)) fun buff =>
      hends buff _ rfl rfl
  | login methods username password user rsv hfirst huser hpassword =>
    refine deliver_selectMethod hfirst (hstream.trans (List.append_assoc _ _ _)) fun buff => ?_
    dsimp only
    rw [if_pos rfl, Contract.wp_bind]
    have hlogin : stream = greetingBytes methods ++ (loginBytes username password ++
        (requestBytes 0x01 rsv dest port ++ pipelined)) := by
      rw [hstream, List.append_assoc, List.append_assoc]
    refine deliver_login huser hpassword hlogin fun buff => ?_
    have hrequest : stream = (greetingBytes methods ++ loginBytes username password) ++
        (requestBytes 0x01 rsv dest port ++ pipelined) := by
      rw [hlogin, List.append_assoc]
    exact deliver_readRequest hrequest fun buff => hends buff _ (List.append_assoc _ _ _) rfl

/-- Reading is followed by the connection attempts. -/
theorem deliver_execute {dest : Destination} {port : UInt16} {bytes pipelined : Bytes}
    {claimed : HandlerClaimState} (hbytes : ConnectBytes cfg dest port bytes)
    (hstream : stream = bytes ++ pipelined) (hstate : state.handlerClaimStates = [claimed]) :
    (conversation (fun _ _ _ => True) (Delivers stream claimed.handlerID dns)).wp
      (fun _ g => g.received = bytes ∧ Dialled port (dest.candidates cfg inet dns) g.dials)
      (fun _ _ => True) (execute cfg host inet state) .empty := by
  unfold execute
  rw [hstate]
  dsimp only
  rw [Contract.wp_bind]
  refine wp_silent (fun _ => rfl) trivial fun handler hhandler => ?_
  obtain ⟨fd, rfl⟩ := Option.isSome_iff_exists.mp (hhandler rfl)
  dsimp only
  rw [converse, Contract.wp_bind]
  refine deliver_negotiate hbytes hstream fun buff g hreceived hdials => ?_
  have hkept : ∀ dials, Dialled port (dest.candidates cfg inet dns) dials →
      (g.dial dials).received = bytes ∧
        Dialled port (dest.candidates cfg inet dns) (g.dial dials).dials := by
    intro dials hdialled
    refine ⟨hreceived, ?_⟩
    rwa [Transcript.dial, hdials, List.nil_append]
  dsimp only
  rw [Contract.wp_bind, perform, if_pos rfl]
  refine wp_connectAny (fun _ _ _ _ _ _ => trivial) (fun dials s hd => hkept dials hd) ?_
  intro dials attempt hdialled _
  exact wp_respond fun r res => hkept dials hdialled

variable {world : Transcript → (o : JobOp) → o.Answer → Prop}

/-- What is read before the check of the command is an encoded request. -/
theorem wp_negotiate (hworld : WorldSound world) (hdns : WorldResolves dns world)
    {ends : Request × Bytes → Transcript → Prop} (hexits : ∀ r g, exits r g)
    (hends : ∀ req buff g, (req.cmd = 0x01 → ∃ dest, ConnectBytes cfg dest req.port g.received ∧
      req.destIPs = dest.candidates cfg inet dns) → g.dials = [] → ends (req, buff) g) :
    (conversation mayDial world).wp exits ends (negotiate cfg host inet state id buff) .empty := by
  have hexits' : ∀ (g' : Transcript) s, g'.short = true → exits (.terminal s) g' :=
    fun g' s _ => hexits _ g'
  rw [negotiate, Contract.wp_bind]
  refine wp_selectMethod hworld hexits' (fun _ _ _ => hexits _ _) (fun _ _ _ _ _ => hexits _ _)
    (fun _ _ _ _ _ _ => hexits _ _) fun methods m buff hfirst => ?_
  dsimp only
  split_ifs with hm
  · subst hm
    rw [Contract.wp_bind]
    refine wp_login hworld hexits' (fun _ _ _ _ => hexits _ _) (fun _ _ _ _ _ => hexits _ _)
      (fun _ _ _ _ _ _ => hexits _ _) fun username password buff hmatch => ?_
    refine wp_readRequest hworld hdns (fun _ _ _ => hexits _ _) hexits'
      fun cmd rsv dest port buff => hends _ buff _ (fun hcmd => ⟨dest, ?_, rfl⟩) rfl
    obtain rfl : cmd = 0x01 := hcmd
    obtain ⟨user, huser, hpassword⟩ := credentialsMatch_iff.mp hmatch
    have hbytes : ConnectBytes cfg dest port (greetingBytes methods ++
        (loginBytes username password ++ requestBytes 0x01 rsv dest port)) :=
      .login methods username password user rsv hfirst huser hpassword
    rw [← List.append_assoc] at hbytes
    exact hbytes
  · refine wp_readRequest hworld hdns (fun _ _ _ => hexits _ _) hexits'
      fun cmd rsv dest port buff => hends _ buff _ (fun hcmd => ⟨dest, ?_, rfl⟩) rfl
    obtain rfl : cmd = 0x01 := hcmd
    have hanonymous : m = 0x00 := (hfirst.1.resolve_left hm).1
    subst hanonymous
    exact .anonymous methods rsv hfirst

/-- What is dialled was asked for. -/
theorem wp_execute_dialsNext (hworld : WorldSound world) (hdns : WorldResolves dns world) :
    (conversation (fun g target _ => g.DialsNext cfg inet dns target) world).wp (fun _ _ => True)
      (fun _ _ => True) (execute cfg host inet state) .empty := by
  unfold execute
  split
  · rw [Contract.wp_bind]
    refine wp_silent (fun _ => rfl) trivial fun handler _ => ?_
    cases handler with
    | none => exact wp_failWithDisclaim fun _ => trivial
    | some fd =>
      dsimp only
      rw [converse, Contract.wp_bind]
      refine wp_negotiate hworld hdns (fun _ _ => trivial) fun req buff g hreq hdials => ?_
      dsimp only
      rw [Contract.wp_bind, perform]
      split_ifs with hcmd
      · obtain ⟨dest, hbytes, hips⟩ := hreq hcmd
        refine wp_connectAny (fun done ip rest dials hsplit hfailed => ?_) (fun _ _ _ => trivial)
          fun _ attempt _ _ => wp_respond fun _ _ => trivial
        refine ⟨dest, req.port, hbytes, done, ip, rest, hips.symm.trans hsplit, rfl, ?_⟩
        rwa [Transcript.dial, hdials, List.nil_append]
      · exact wp_respond fun _ _ => trivial
  · exact wp_failWithDisclaim fun _ => trivial

/-- Decoding undoes encoding. If the bytes of a CONNECT request with all that comes before it are
delivered, a run that ends has read exactly these bytes, whatever the client sent after them, and
has dialled the candidates of the destination in order. Conversely, a handshake that gets to the
command of a CONNECT request has read such bytes and tries their candidates, and each endpoint
that it dials is the next of them. -/
theorem request_decoded (cfg : Config) (host : ByteOrder) (inet : InetPton) (dns : Resolver)
    (state : State) (t : List (Event JobOp.Answer)) :
    (∀ bytes pipelined dest port claimed r, ConnectBytes cfg dest port bytes →
      state.handlerClaimStates = [claimed] →
      (execute cfg host inet state).follow t = some (.exit r) →
      Delivered (bytes ++ pipelined) claimed.handlerID dns t →
      (transcript t).received = bytes ∧
        Dialled port (dest.candidates cfg inet dns) (transcript t).dials) ∧
    (∀ id buff req buff',
      (negotiate cfg host inet state id buff).follow t = some (.pure (req, buff')) →
      (∀ e ∈ t, e.1.WellFormed e.2 ∧ dns.Answers e.1 e.2) → req.cmd = 0x01 →
      ∃ dest, ConnectBytes cfg dest req.port (transcript t).received ∧
        req.destIPs = dest.candidates cfg inet dns) ∧
    ∀ target timeout k,
      (execute cfg host inet state).follow t =
        some (.call (.connectAndCreateHandler target timeout) k) →
      (∀ e ∈ t, e.1.WellFormed e.2 ∧ dns.Answers e.1 e.2) →
      (transcript t).DialsNext cfg inet dns target := by
  have hworld : WorldSound fun _ o a => o.WellFormed a ∧ dns.Answers o a := fun _ _ _ h => h.1
  have hdns : WorldResolves dns fun _ o a => o.WellFormed a ∧ dns.Answers o a :=
    fun _ _ _ => ⟨fun _ h => h.2, fun _ h => h.2⟩
  refine ⟨?_, ?_, ?_⟩
  · intro bytes pipelined dest port claimed r hbytes hstate hrun hdelivered
    exact Contract.wp_follow hrun (deliver_execute hbytes rfl hstate) hdelivered
  · intro id buff req buff' hrun hanswers
    have hread : (conversation (fun _ _ _ => True) fun _ o a =>
        o.WellFormed a ∧ dns.Answers o a).wp (fun _ _ => True)
        (fun r g => r.1.cmd = 0x01 → ∃ dest, ConnectBytes cfg dest r.1.port g.received ∧
          r.1.destIPs = dest.candidates cfg inet dns)
        (negotiate cfg host inet state id buff) .empty :=
      wp_negotiate hworld hdns (fun _ _ => trivial) fun _ _ _ h _ => h
    exact Contract.wp_follow hrun hread (Contract.kept_of_forall fun e he _ => hanswers e he)
  · intro target timeout k hrun hanswers
    have hdial := Contract.wp_follow hrun (wp_execute_dialsNext hworld hdns)
      (Contract.kept_of_forall fun e he _ => hanswers e he)
    exact hdial.1

/-- One name is known, with an address of either family. -/
def oneName : Resolver where
  a6 name _ := if name = [104] then some [⟨List.replicate 16 1, rfl⟩] else none
  a4 name _ := if name = [104] then some [⟨[10, 0, 0, 1], rfl⟩] else none

/-- The local endpoint of a connected socket. -/
def localEndpoint : SockAddr := ⟨[2, 0, 31, 144] ++ List.replicate 24 9, rfl⟩

/-- A login and a request for a name, whose IPv6 address cannot be reached. -/
def namedEvents : List (Event JobOp.Answer) :=
  [⟨.getHandler 1, some 7⟩, field [0x05], field [1], field [0x02], sent [0x05, 0x02], field [0x01],
    field [1], field [117], field [1], field [112], sent [0x01, 0x00], field [0x05],
    field [0x01, 0x00], field [0x03], field [1], field [104], ⟨.dnsNew, true⟩, ⟨.dnsOpen, true⟩,
    ⟨.dnsResolveA6 [104] true, oneName.a6 [104] true⟩,
    ⟨.dnsResolveA4 [104] true, oneName.a4 [104] true⟩, ⟨.dnsClose, ()⟩, ⟨.dnsFree, ()⟩, field [0, 80],
    ⟨.connectAndCreateHandler ⟨.ofRaw (List.replicate 16 1), 80⟩ ⟨15, 0⟩, handlerErrorNetUnavail⟩,
    ⟨.connectAndCreateHandler ⟨.ofRaw [10, 0, 0, 1], 80⟩ ⟨15, 0⟩, (2 : ℕ)⟩, ⟨.getHandler 2, some 8⟩,
    ⟨.getState 0, ⟨1, 1⟩⟩, ⟨.newClaim 2, (1 : ℕ)⟩, ⟨.claim 1, ⟨1, 2⟩⟩,
    ⟨.getsockname 8, some localEndpoint⟩, sent [0x05, 0x00, 0x00, 0x01, 9, 9, 9, 9, 144, 31],
    ⟨.disclaim 0, ⟨0, 1⟩⟩, ⟨.disclaim 1, ⟨0, 2⟩⟩]

/-- The bytes of that login and request. -/
def namedBytes : Bytes :=
  [0x05, 1, 0x02, 0x01, 1, 117, 1, 112, 0x05, 0x01, 0x00, 0x03, 1, 104, 0, 80]

/-- They are the bytes of a CONNECT request. -/
theorem namedBytes_connect : ConnectBytes oneUser (.domain ⟨[104], by decide⟩) 80 namedBytes := by
  have hfirst : FirstAcceptable oneUser [0x02] 0x02 :=
    ⟨.inl rfl, [], [], rfl, fun _ h => absurd h List.not_mem_nil⟩
  exact .login ⟨[0x02], by decide⟩ ⟨[117], by decide⟩ ⟨[112], by decide⟩ ⟨[117], [112]⟩ 0x00 hfirst rfl
    rfl

/-- The request is read up to its last byte, and both addresses are dialled, the second one with
success; the first one was the next to dial when the request had been read. -/
theorem request_decoded_named :
    (transcript namedEvents).received = namedBytes ∧
      Dialled 80 [.ofRaw (List.replicate 16 1), .ofRaw [10, 0, 0, 1]]
        (transcript namedEvents).dials ∧
      (transcript (namedEvents.take 23)).DialsNext oneUser noLiterals oneName
        ⟨.ofRaw (List.replicate 16 1), 80⟩ := by
  have hdelivered : Delivered (namedBytes ++ [1, 2, 3]) 1 oneName namedEvents := by
    simp [Delivered, Contract.Kept, conversation, Delivers, namedEvents, field, sent, namedBytes,
      Transcript.record, Transcript.receive, Transcript.reply, Transcript.empty]
  have hanswers : ∀ e ∈ namedEvents.take 23, e.1.WellFormed e.2 ∧ oneName.Answers e.1 e.2 := by
    simp only [namedEvents, field, sent, JobOp.WellFormed, Resolver.Answers, List.take_succ_cons,
      List.take_zero, List.forall_mem_cons, List.not_mem_nil, false_implies, implies_true,
      Nat.le_refl, and_self]
  obtain ⟨k, hdial⟩ : ∃ k, (execute oneUser .little noLiterals oneHandler).follow
      (namedEvents.take 23) = some (.call (.connectAndCreateHandler
        ⟨.ofRaw (List.replicate 16 1), 80⟩ ⟨15, 0⟩) k) := ⟨_, rfl⟩
  obtain ⟨hread, hdialled⟩ := (request_decoded oneUser .little noLiterals oneName oneHandler
    namedEvents).1 namedBytes [1, 2, 3] _ 80 _ _ namedBytes_connect rfl rfl hdelivered
  obtain ⟨-, -, hnext⟩ := request_decoded oneUser .little noLiterals oneName oneHandler
    (namedEvents.take 23)
  exact ⟨hread, hdialled, hnext _ _ k hdial hanswers⟩

end Handshake

end TinySox
