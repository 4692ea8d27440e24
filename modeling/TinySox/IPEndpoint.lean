import TinySox.ByteBuffer
import Mathlib.Tactic.Common

/-!
# Addresses, ports and endpoints

`IPAddress` and `IPEndpoint` with the constructors that the handshake uses: from raw
bytes, from a string, and from a `sockaddr`. The byte order of the host decides how a
port is loaded from memory and stored; `inet_pton` is a given function.
-/

namespace TinySox

/-- The byte order of the host. -/
inductive ByteOrder
  | little
  | big
  deriving DecidableEq, Repr

namespace ByteOrder

/-- The 16-bit value at two adjacent bytes. -/
def loadU16 (e : ByteOrder) (b₀ b₁ : UInt8) : UInt16 :=
  match e with
  | .little => UInt16.ofNat (b₀.toNat + 256 * b₁.toNat)
  | .big => UInt16.ofNat (256 * b₀.toNat + b₁.toNat)

/-- The two bytes of a 16-bit value in memory. -/
def storeU16 (e : ByteOrder) (v : UInt16) : Bytes :=
  match e with
  | .little => [UInt8.ofNat (v.toNat % 256), UInt8.ofNat (v.toNat / 256)]
  | .big => [UInt8.ofNat (v.toNat / 256), UInt8.ofNat (v.toNat % 256)]

/-- `ntohs`, and `htons` too: swap the bytes on a little-endian host. -/
def ntohs (e : ByteOrder) (v : UInt16) : UInt16 :=
  match e with
  | .little => UInt16.ofNat (256 * (v.toNat % 256) + v.toNat / 256)
  | .big => v

end ByteOrder

/-- A port in network byte order. -/
def networkPort (port : UInt16) : Bytes :=
  [UInt8.ofNat (port.toNat / 256), UInt8.ofNat (port.toNat % 256)]

@[simp] theorem length_networkPort (port : UInt16) : (networkPort port).length = 2 := rfl

/-- A port that arrives in network byte order is decoded on either kind of host. -/
theorem ByteOrder.ntohs_loadU16 (e : ByteOrder) (b₀ b₁ : UInt8) :
    networkPort (e.ntohs (e.loadU16 b₀ b₁)) = [b₀, b₁] := by
  have h₀ := b₀.toNat_lt
  have h₁ := b₁.toNat_lt
  have hlittle : (b₀.toNat + 256 * b₁.toNat) % 2 ^ 16 = b₀.toNat + 256 * b₁.toNat :=
    Nat.mod_eq_of_lt (by omega)
  have hport : (e.ntohs (e.loadU16 b₀ b₁)).toNat = 256 * b₀.toNat + b₁.toNat := by
    cases e with
    | little =>
      have hdiv : (b₀.toNat + 256 * b₁.toNat) / 256 = b₁.toNat := by omega
      have hmod : (b₀.toNat + 256 * b₁.toNat) % 256 = b₀.toNat := by omega
      simp only [ntohs, loadU16, UInt16.toNat_ofNat', hlittle, hdiv, hmod]
      omega
    | big =>
      simp only [ntohs, loadU16, UInt16.toNat_ofNat']
      omega
  have hhigh : (256 * b₀.toNat + b₁.toNat) / 256 = b₀.toNat := by omega
  have hlow : (256 * b₀.toNat + b₁.toNat) % 256 = b₁.toNat := by omega
  rw [networkPort, hport, hhigh, hlow, UInt8.ofNat_toNat, UInt8.ofNat_toNat]

/-- No two ports share their bytes. -/
theorem networkPort_injective : Function.Injective networkPort := by
  intro p q h
  have hp := p.toNat_lt
  have hq := q.toNat_lt
  simp only [networkPort, List.cons.injEq, and_true] at h
  have hhigh := congrArg UInt8.toNat h.1
  have hlow := congrArg UInt8.toNat h.2
  simp only [UInt8.toNat_ofNat'] at hhigh hlow
  apply UInt16.toNat.inj
  omega

/-- `IPV4_ADDR_LEN` -/
def ipv4AddrLen : ℕ := 4

/-- `IPV6_ADDR_LEN`, and the size of the stored address. -/
def ipv6AddrLen : ℕ := 16

/-- `IPAddress::RawIP`: sixteen bytes, of which an IPv4 address uses the first four. -/
structure RawIP where
  data : Bytes
  size : data.length = ipv6AddrLen
  deriving DecidableEq, Repr

namespace RawIP

/-- The default constructor clears the bytes. -/
def zero : RawIP := ⟨List.replicate ipv6AddrLen 0, List.length_replicate⟩

/-- Copy the source over the cleared bytes, as far as it fits. -/
def ofRaw (source : Bytes) : RawIP where
  data := storeAt zero.data 0 (source.take ipv6AddrLen)
  size := by
    have hfit : 0 + (source.take ipv6AddrLen).length ≤ zero.data.length := by
      rw [zero.size, List.length_take]
      omega
    rw [length_storeAt _ _ _ hfit, zero.size]

/-- A source that fits is followed by zeros. -/
theorem data_ofRaw {source : Bytes} (hfit : source.length ≤ ipv6AddrLen) :
    (ofRaw source).data = source ++ List.replicate (ipv6AddrLen - source.length) 0 := by
  change storeAt zero.data 0 (source.take ipv6AddrLen) = _
  rw [List.take_of_length_le hfit, storeAt, List.take_zero, List.nil_append, Nat.zero_add, zero,
    List.drop_replicate]

end RawIP

/-- `inet_pton` on the text of an address, for either family. -/
structure InetPton where
  v4 : Bytes → Option Bytes
  v6 : Bytes → Option Bytes
  length_v4 : ∀ text raw, v4 text = some raw → raw.length = ipv4AddrLen
  length_v6 : ∀ text raw, v6 text = some raw → raw.length = ipv6AddrLen

/-- Where no text is read, every length is the right one. -/
theorem InetPton.length_none (len : ℕ) (_text raw : Bytes) (h : none = some raw) :
    raw.length = len := by
  contradiction

/-- The C string at the start of the text: everything before its first NUL byte. -/
def cString (text : Bytes) : Bytes := text.takeWhile (· ≠ 0)

/-- `AF_INET` -/
def afInet : UInt16 := 2

/-- `AF_INET6` -/
def afInet6 : UInt16 := 10

/-- The memory behind a `sockaddr` pointer, as far as `sockaddr_in6` reaches. -/
structure SockAddr where
  memory : Bytes
  size : memory.length = 28
  deriving DecidableEq, Repr

/-- The bytes of a field. -/
def SockAddr.field (sa : SockAddr) (offset len : ℕ) : Bytes := (sa.memory.drop offset).take len

/-- The 16-bit value at an offset, in host byte order. -/
def SockAddr.loadU16 (host : ByteOrder) (sa : SockAddr) (offset : ℕ) : UInt16 :=
  host.loadU16 (sa.memory.getD offset 0) (sa.memory.getD (offset + 1) 0)

/-- `sa_family` -/
def SockAddr.family (host : ByteOrder) (sa : SockAddr) : UInt16 := sa.loadU16 host 0

/-- `IPAddress` -/
structure IPAddress where
  isValid : Bool
  isV6 : Bool
  ip : RawIP
  deriving DecidableEq, Repr

namespace IPAddress

/-- The default constructor. -/
def invalid : IPAddress := ⟨false, false, .zero⟩

/-- `IPAddress(const void *raw, size_t len)`, with `len` the length of the bytes. -/
def ofRaw (raw : Bytes) : IPAddress :=
  let isValid := raw.length = ipv6AddrLen ∨ raw.length = ipv4AddrLen
  ⟨isValid, raw.length = ipv6AddrLen, if isValid then .ofRaw raw else .zero⟩

/-- `DetectIPVer`: the family whose text form this is. -/
def detectIPVer (inet : InetPton) (text : Bytes) : ℕ :=
  if (inet.v4 text).isSome then 1 else if (inet.v6 text).isSome then 2 else 0

/-- `IPAddress(const std::string &string)` -/
def ofString (inet : InetPton) (string : Bytes) : IPAddress :=
  let text := cString string
  let isValid := 0 < detectIPVer inet text
  let isV6 := isValid ∧ detectIPVer inet text = 2
  let raw := if isV6 then inet.v6 text else inet.v4 text
  ⟨isValid, isV6, if isValid then .ofRaw (raw.getD []) else .zero⟩

/-- `IPAddress(const sockaddr *sa)` -/
def ofSockaddr (host : ByteOrder) (sa : SockAddr) : IPAddress :=
  let isV6 := sa.family host = afInet6
  let isValid := sa.family host = afInet ∨ isV6
  let raw := if isV6 then sa.field 8 ipv6AddrLen else sa.field 4 ipv4AddrLen
  ⟨isValid, isV6, if isValid then .ofRaw raw else .zero⟩

/-- `IPAddress::ToRawBuff` -/
def toRawBuff (a : IPAddress) : Bytes := a.ip.data.take (if a.isV6 then ipv6AddrLen else ipv4AddrLen)

/-- Raw bytes of either address length make a valid address. -/
theorem ofRaw_isValid {raw : Bytes} (hlen : raw.length = ipv6AddrLen ∨ raw.length = ipv4AddrLen) :
    (ofRaw raw).isValid = true := by
  simp only [ofRaw, decide_eq_true_eq]
  exact hlen

/-- Bytes of either address length fit. -/
theorem length_le {n : ℕ} (hlen : n = ipv6AddrLen ∨ n = ipv4AddrLen) : n ≤ ipv6AddrLen := by
  rcases hlen with rfl | rfl
  · exact Nat.le_refl _
  · decide

/-- The bytes that a valid address was made from can be read back. -/
theorem toRawBuff_ofRaw {raw : Bytes} (hlen : raw.length = ipv6AddrLen ∨ raw.length = ipv4AddrLen) :
    (ofRaw raw).toRawBuff = raw := by
  have hsize : (if decide (raw.length = ipv6AddrLen) = true then ipv6AddrLen else ipv4AddrLen) =
      raw.length := by
    rcases hlen with h | h <;> rw [h] <;> decide
  simp only [toRawBuff, ofRaw, if_pos hlen, RawIP.data_ofRaw (length_le hlen), hsize, List.take_left]

/-- The raw form of an address has one of the two lengths. -/
theorem length_toRawBuff (a : IPAddress) :
    a.toRawBuff.length = if a.isV6 then ipv6AddrLen else ipv4AddrLen := by
  have hfit : (if a.isV6 then ipv6AddrLen else ipv4AddrLen) ≤ ipv6AddrLen := by
    split <;> decide
  rw [toRawBuff, List.length_take, a.ip.size, Nat.min_eq_left hfit]

/-- The text form of an address is read as that address. -/
theorem ofString_eq (inet : InetPton) (string : Bytes) :
    ofString inet string =
      match inet.v4 (cString string), inet.v6 (cString string) with
      | some raw, _ => .ofRaw raw
      | none, some raw => .ofRaw raw
      | none, none => .invalid := by
  cases h4 : inet.v4 (cString string) with
  | some raw =>
    have hlen := inet.length_v4 _ _ h4
    simp [ofString, detectIPVer, h4, ofRaw, hlen, ipv4AddrLen, ipv6AddrLen]
  | none =>
    cases h6 : inet.v6 (cString string) with
    | some raw =>
      have hlen := inet.length_v6 _ _ h6
      simp [ofString, detectIPVer, h4, h6, ofRaw, hlen]
    | none => simp [ofString, detectIPVer, h4, h6, invalid]

/-- A structure of the IPv4 family makes the address that stands in it. -/
theorem ofSockaddr_v4 {host : ByteOrder} {sa : SockAddr} {addr : Bytes}
    (hfamily : sa.family host = afInet) (haddr : sa.field 4 ipv4AddrLen = addr)
    (hlen : addr.length = ipv4AddrLen) : ofSockaddr host sa = .ofRaw addr := by
  have hother : afInet ≠ afInet6 := by decide
  have hdistinct : ipv4AddrLen ≠ ipv6AddrLen := by decide
  subst haddr
  simp [ofSockaddr, ofRaw, hfamily, hother, hlen, hdistinct]

/-- A structure of the IPv6 family makes the address that stands in it. -/
theorem ofSockaddr_v6 {host : ByteOrder} {sa : SockAddr} {addr : Bytes}
    (hfamily : sa.family host = afInet6) (haddr : sa.field 8 ipv6AddrLen = addr)
    (hlen : addr.length = ipv6AddrLen) : ofSockaddr host sa = .ofRaw addr := by
  simp [ofSockaddr, ofRaw, hfamily, haddr, hlen]

end IPAddress

/-- `IPEndpoint` -/
structure IPEndpoint where
  address : IPAddress
  port : UInt16
  deriving DecidableEq, Repr

namespace IPEndpoint

/-- The default constructor. -/
def unset : IPEndpoint := ⟨.invalid, 0⟩

/-- `DecodePort`: the port field of either structure, as the host loads it. -/
def decodePort (host : ByteOrder) (sa : SockAddr) : UInt16 := sa.loadU16 host 2

/-- `IPEndpoint(const sockaddr *sa)` -/
def ofSockaddr (host : ByteOrder) (sa : SockAddr) : IPEndpoint :=
  ⟨.ofSockaddr host sa, decodePort host sa⟩

/-- `IPEndpoint::ToRawBuff` -/
def toRawBuff (host : ByteOrder) (ep : IPEndpoint) : Bytes :=
  ep.address.toRawBuff ++ host.storeU16 (host.ntohs ep.port)

/-- An endpoint takes its address and two bytes for the port. -/
theorem length_toRawBuff (host : ByteOrder) (ep : IPEndpoint) :
    (ep.toRawBuff host).length = (if ep.address.isV6 then ipv6AddrLen else ipv4AddrLen) + 2 := by
  have hport : (host.storeU16 (host.ntohs ep.port)).length = 2 := by cases host <;> rfl
  rw [toRawBuff, List.length_append, hport, ep.address.length_toRawBuff]

end IPEndpoint

end TinySox
