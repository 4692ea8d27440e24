import TinySox.EndpointOrder

/-!
# An endpoint through a `sockaddr`

The service that connects and the listener fill a zeroed structure with `IPAddress::ToSA` and store
the port with `htons`. `IPEndpoint(const sockaddr*)` reads the address back, but takes the port as
it stands in the structure. On a little-endian host it comes back with its bytes exchanged.
-/

namespace TinySox

/-- The bytes of a port that `htons` has converted are in network byte order on either host. -/
theorem ByteOrder.storeU16_ntohs (host : ByteOrder) (port : UInt16) :
    host.storeU16 (host.ntohs port) = networkPort port := by
  have hlt := port.toNat_lt
  cases host with
  | little =>
    have hswapped : (256 * (port.toNat % 256) + port.toNat / 256) % 2 ^ 16 =
        256 * (port.toNat % 256) + port.toNat / 256 := Nat.mod_eq_of_lt (by omega)
    have hlow : (256 * (port.toNat % 256) + port.toNat / 256) % 256 = port.toNat / 256 := by omega
    have hhigh : (256 * (port.toNat % 256) + port.toNat / 256) / 256 = port.toNat % 256 := by omega
    rw [storeU16, ntohs, UInt16.toNat_ofNat', hswapped, hlow, hhigh, networkPort]
  | big => rfl

/-- A port that is loaded without `ntohs` is the right one on a big-endian host, and if its bytes are
equal. -/
theorem ByteOrder.loadU16_eq_iff (host : ByteOrder) (port : UInt16) :
    host.loadU16 (UInt8.ofNat (port.toNat / 256)) (UInt8.ofNat (port.toNat % 256)) = port ↔
      host = .big ∨ ∃ b, networkPort port = [b, b] := by
  have hlt := port.toNat_lt
  have hhigh : port.toNat / 256 % 2 ^ 8 = port.toNat / 256 := Nat.mod_eq_of_lt (by omega)
  have hlow : port.toNat % 256 % 2 ^ 8 = port.toNat % 256 := Nat.mod_eq_of_lt (by omega)
  have hbytes : (∃ b, networkPort port = [b, b]) ↔ port.toNat / 256 = port.toNat % 256 := by
    unfold networkPort
    constructor
    · rintro ⟨b, h⟩
      simp only [List.cons.injEq, and_true] at h
      have heq := congrArg UInt8.toNat (h.1.trans h.2.symm)
      rwa [UInt8.toNat_ofNat', UInt8.toNat_ofNat', hhigh, hlow] at heq
    · intro h
      exact ⟨UInt8.ofNat (port.toNat % 256), by rw [h]⟩
  rw [hbytes, ← UInt16.toNat_inj]
  cases host with
  | little =>
    rw [loadU16, UInt16.toNat_ofNat', UInt8.toNat_ofNat', UInt8.toNat_ofNat', hhigh, hlow,
      Nat.mod_eq_of_lt (by omega)]
    constructor
    · intro h
      exact .inr (by omega)
    · rintro (h | h)
      · contradiction
      · omega
  | big =>
    rw [loadU16, UInt16.toNat_ofNat', UInt8.toNat_ofNat', UInt8.toNat_ofNat', hhigh, hlow,
      Nat.mod_eq_of_lt (by omega)]
    exact ⟨fun _ => .inl rfl, fun _ => by omega⟩

namespace IPAddress

/-- The addresses that the constructors make; the payload of an `rtattr` is raw bytes too. -/
inductive Constructed (inet : InetPton) (host : ByteOrder) : IPAddress → Prop
  | invalid : Constructed inet host .invalid
  | ofRaw (raw : Bytes) : Constructed inet host (.ofRaw raw)
  | ofString (string : Bytes) : Constructed inet host (.ofString inet string)
  | ofSockaddr (sa : SockAddr) : Constructed inet host (.ofSockaddr host sa)

/-- `IPAddress::ToSA`, on the memory that the pointer leads to. -/
def toSA (host : ByteOrder) (a : IPAddress) (targetSA : Bytes) : Bytes :=
  if a.isValid then
    if a.isV6 then
      storeAt (storeAt targetSA 0 (host.storeU16 afInet6)) 8 (a.ip.data.take ipv6AddrLen)
    else
      storeAt (storeAt targetSA 0 (host.storeU16 afInet)) 4 (a.ip.data.take ipv4AddrLen)
  else targetSA

/-- An IPv6 address is written with its family. -/
theorem toSA_ofRaw_v6 {raw : Bytes} (host : ByteOrder) (hlen : raw.length = ipv6AddrLen)
    (targetSA : Bytes) : (ofRaw raw).toSA host targetSA =
      storeAt (storeAt targetSA 0 (host.storeU16 afInet6)) 8 raw := by
  have hv6 : (ofRaw raw).isV6 = true := decide_eq_true hlen
  have hbytes := toRawBuff_ofRaw (.inl hlen)
  rw [toRawBuff, hv6, if_pos rfl] at hbytes
  rw [toSA, ofRaw_isValid (.inl hlen), if_pos rfl, hv6, if_pos rfl, hbytes]

/-- An IPv4 address is written with its family. -/
theorem toSA_ofRaw_v4 {raw : Bytes} (host : ByteOrder) (hlen : raw.length = ipv4AddrLen)
    (targetSA : Bytes) : (ofRaw raw).toSA host targetSA =
      storeAt (storeAt targetSA 0 (host.storeU16 afInet)) 4 raw := by
  have hdistinct : ¬ipv4AddrLen = ipv6AddrLen := by decide
  have hv4 : (ofRaw raw).isV6 = false := decide_eq_false (hlen ▸ hdistinct)
  have hbytes := toRawBuff_ofRaw (.inr hlen)
  rw [toRawBuff, hv4, if_neg Bool.false_ne_true] at hbytes
  rw [toSA, ofRaw_isValid (.inr hlen), if_pos rfl, hv4, if_neg Bool.false_ne_true, hbytes]

/-- Whichever constructor made an address, it is made of raw bytes of either length, or it is the
default one. -/
theorem Constructed.raw_or_invalid {inet : InetPton} {host : ByteOrder} {a : IPAddress}
    (h : a.Constructed inet host) :
    (∃ raw : Bytes, (raw.length = ipv6AddrLen ∨ raw.length = ipv4AddrLen) ∧ a = .ofRaw raw) ∨
      a = .invalid := by
  cases h with
  | invalid => exact .inr rfl
  | ofRaw raw =>
    by_cases hlen : raw.length = ipv6AddrLen ∨ raw.length = ipv4AddrLen
    · exact .inl ⟨raw, hlen, rfl⟩
    · obtain ⟨hv6, hv4⟩ := not_or.mp hlen
      right
      simp only [IPAddress.ofRaw, IPAddress.invalid, hv6, hv4, or_self, decide_false, if_false]
  | ofString string =>
    rw [ofString_eq]
    cases h4 : inet.v4 (cString string) with
    | some raw => exact .inl ⟨raw, .inr (inet.length_v4 _ _ h4), rfl⟩
    | none =>
      cases h6 : inet.v6 (cString string) with
      | some raw => exact .inl ⟨raw, .inl (inet.length_v6 _ _ h6), rfl⟩
      | none => exact .inr rfl
  | ofSockaddr sa =>
    have hfield (offset len : ℕ) (hfit : offset + len ≤ 28) : (sa.field offset len).length = len := by
      rw [SockAddr.field, List.length_take, List.length_drop, sa.size]
      omega
    by_cases hv4 : sa.family host = afInet
    · have hlen := hfield 4 ipv4AddrLen (by decide)
      exact .inl ⟨_, .inr hlen, ofSockaddr_v4 hv4 rfl hlen⟩
    · by_cases hv6 : sa.family host = afInet6
      · have hlen := hfield 8 ipv6AddrLen (by decide)
        exact .inl ⟨_, .inl hlen, ofSockaddr_v6 hv6 rfl hlen⟩
      · right
        simp only [IPAddress.ofSockaddr, IPAddress.invalid, hv6, hv4, or_self, decide_false, if_false]

/-- A valid address is made of its raw bytes, whichever constructor made it: the other bytes are
cleared. -/
theorem Constructed.exists_raw {inet : InetPton} {host : ByteOrder} {a : IPAddress}
    (h : a.Constructed inet host) (hvalid : a.isValid = true) :
    ∃ raw : Bytes, (raw.length = ipv6AddrLen ∨ raw.length = ipv4AddrLen) ∧ a = .ofRaw raw := by
  rcases h.raw_or_invalid with hraw | rfl
  · exact hraw
  · contradiction

end IPAddress

namespace IPEndpoint

/-- `v6sa` or `v4sa` in `ConnectAndCreateHandler` -/
def connectSockaddr (host : ByteOrder) (target : IPEndpoint) : Bytes :=
  if target.address.isV6 then
    storeAt (target.address.toSA host (List.replicate 28 0)) 2
      (host.storeU16 (host.ntohs target.port))
  else
    storeAt (target.address.toSA host (List.replicate 16 0)) 2
      (host.storeU16 (host.ntohs target.port))

/-- `ipv6Addr` or `ipv4Addr` in `TCPServerListener::Worker` -/
def listenSockaddr (host : ByteOrder) (endpoint : IPEndpoint) : Bytes :=
  if endpoint.address.isV6 then
    endpoint.address.toSA host (storeAt (storeAt (List.replicate 28 0) 0 (host.storeU16 afInet6)) 2
      (host.storeU16 (host.ntohs endpoint.port)))
  else
    endpoint.address.toSA host (storeAt (storeAt (List.replicate 16 0) 0 (host.storeU16 afInet)) 2
      (host.storeU16 (host.ntohs endpoint.port)))

/-- The structure of an endpoint: its family, its port, its address, and zeros. -/
def sockaddrLayout (host : ByteOrder) (raw : Bytes) (port : UInt16) : Bytes :=
  if raw.length = ipv6AddrLen then
    host.storeU16 afInet6 ++ networkPort port ++ List.replicate 4 0 ++ raw ++ List.replicate 4 0
  else
    host.storeU16 afInet ++ networkPort port ++ raw ++ List.replicate 8 0

variable {host : ByteOrder} {raw : Bytes} {port : UInt16}

/-- Both parties write the same structure. -/
theorem connectSockaddr_eq (hraw : raw.length = ipv6AddrLen ∨ raw.length = ipv4AddrLen) :
    connectSockaddr host ⟨.ofRaw raw, port⟩ = sockaddrLayout host raw port ∧
      listenSockaddr host ⟨.ofRaw raw, port⟩ = sockaddrLayout host raw port := by
  have hfamily (v : UInt16) : ∃ f₀ f₁, host.storeU16 v = [f₀, f₁] := by cases host <;> exact ⟨_, _, rfl⟩
  rcases hraw with hlen | hlen
  · obtain ⟨f₀, f₁, hstore⟩ := hfamily afInet6
    have hv6 : (IPAddress.ofRaw raw).isV6 = true := decide_eq_true hlen
    have hsize : raw.length = 16 := hlen
    rw [sockaddrLayout, if_pos hlen]
    simp [connectSockaddr, listenSockaddr, IPAddress.toSA_ofRaw_v6 host hlen, hv6, hsize,
      host.storeU16_ntohs, hstore, storeAt, networkPort]
  · obtain ⟨f₀, f₁, hstore⟩ := hfamily afInet
    have hdistinct : ¬raw.length = ipv6AddrLen := by rw [hlen]; decide
    have hv4 : (IPAddress.ofRaw raw).isV6 = false := decide_eq_false hdistinct
    have hsize : raw.length = 4 := hlen
    rw [sockaddrLayout, if_neg hdistinct]
    simp [connectSockaddr, listenSockaddr, IPAddress.toSA_ofRaw_v4 host hlen, hv4, hsize,
      host.storeU16_ntohs, hstore, storeAt, networkPort]

/-- What is read from such a structure, whatever stands behind it. -/
theorem ofSockaddr_layout (hraw : raw.length = ipv6AddrLen ∨ raw.length = ipv4AddrLen)
    {sa : SockAddr} (hmemory : sockaddrLayout host raw port <+: sa.memory) :
    ofSockaddr host sa = ⟨.ofRaw raw,
      host.loadU16 (UInt8.ofNat (port.toNat / 256)) (UInt8.ofNat (port.toNat % 256))⟩ := by
  obtain ⟨rest, hrest⟩ := hmemory
  have hdistinct : ¬ipv4AddrLen = ipv6AddrLen := by decide
  rcases hraw with hlen | hlen
  · rw [sockaddrLayout, if_pos hlen] at hrest
    have hfamily : sa.family host = afInet6 := by
      rw [SockAddr.family, SockAddr.loadU16, ← hrest]
      cases host <;> rfl
    have hfield : sa.field 8 ipv6AddrLen = raw := by
      rw [SockAddr.field, ← hrest, ← hlen]
      cases host <;> simp [ByteOrder.storeU16, networkPort]
    rw [ofSockaddr, IPAddress.ofSockaddr_v6 hfamily hfield hlen, decodePort, SockAddr.loadU16, ← hrest]
    cases host <;> rfl
  · rw [sockaddrLayout, if_neg (hlen ▸ hdistinct)] at hrest
    have hfamily : sa.family host = afInet := by
      rw [SockAddr.family, SockAddr.loadU16, ← hrest]
      cases host <;> rfl
    have hfield : sa.field 4 ipv4AddrLen = raw := by
      rw [SockAddr.field, ← hrest, ← hlen]
      cases host <;> simp [ByteOrder.storeU16, networkPort]
    rw [ofSockaddr, IPAddress.ofSockaddr_v4 hfamily hfield hlen, decodePort, SockAddr.loadU16, ← hrest]
    cases host <;> rfl

/-- An endpoint with the same address is equal if the ports are. -/
theorem equals_self_iff (a : IPAddress) (p q : UInt16) :
    equals ⟨a, p⟩ ⟨a, q⟩ ↔ p = q := by
  rw [equals_iff, orderKey, orderKey, Prod.mk.injEq, UInt16.toNat_inj]
  exact and_iff_right rfl

/-- The round trip of an endpoint through a `sockaddr`. An endpoint with a valid address is read back
from the structure that either party fills exactly if the host is big-endian, or the two bytes of
the port are equal. -/
theorem sockaddr_round_trip_iff {inet : InetPton} {ep : IPEndpoint} {sa : SockAddr}
    (hbuilt : ep.address.Constructed inet host) (hvalid : ep.address.isValid = true)
    (hmemory : connectSockaddr host ep <+: sa.memory ∨ listenSockaddr host ep <+: sa.memory) :
    (ofSockaddr host sa).equals ep ↔ host = .big ∨ ∃ b, networkPort ep.port = [b, b] := by
  obtain ⟨address, port⟩ := ep
  obtain ⟨raw, hraw, rfl⟩ := hbuilt.exists_raw hvalid
  obtain ⟨hconnect, hlisten⟩ := @connectSockaddr_eq host _ port hraw
  rw [hconnect, hlisten, or_self] at hmemory
  rw [ofSockaddr_layout hraw hmemory, equals_self_iff]
  exact host.loadU16_eq_iff port

/-- The structure of 10.0.0.1 with this port on a little-endian host, and zeros behind it. -/
def filledSockaddr (port : UInt16) : SockAddr where
  memory := connectSockaddr .little ⟨.ofRaw [10, 0, 0, 1], port⟩ ++ List.replicate 12 0
  size := by
    rw [(connectSockaddr_eq (.inr rfl)).1]
    rfl

/-- A port whose bytes are equal is read back on a little-endian host. -/
theorem sockaddr_round_trip_equalBytes :
    (ofSockaddr .little (filledSockaddr 0x5050)).equals ⟨.ofRaw [10, 0, 0, 1], 0x5050⟩ ↔
      ByteOrder.little = .big ∨ ∃ b, networkPort 0x5050 = [b, b] :=
  have hbuilt : (IPAddress.ofRaw [10, 0, 0, 1]).Constructed
      ⟨fun _ => none, fun _ => none, InetPton.length_none ipv4AddrLen,
        InetPton.length_none ipv6AddrLen⟩ .little :=
    .ofRaw [10, 0, 0, 1]
  sockaddr_round_trip_iff hbuilt rfl (.inl (List.prefix_append _ _))

/-- Port 80 comes back as 20480 on a little-endian host. -/
theorem sockaddr_exchanges_port :
    ofSockaddr .little (filledSockaddr 80) = ⟨.ofRaw [10, 0, 0, 1], 20480⟩ ∧
      (ofSockaddr .little (filledSockaddr 80)).equals ⟨.ofRaw [10, 0, 0, 1], 80⟩ = false := by
  decide

end IPEndpoint

end TinySox
