import TinySox.EndpointRoundTrip

/-!
# The order of the addresses that constructors make

`Less` and `Equals` of `IPAddress` are written apart, and both compare all sixteen bytes although an
IPv4 address uses four. Every constructor clears the others, so they never decide: two addresses are
compared by their flags and by the bytes that `ToRawBuff` copies. The five operators obey the laws of
a strict total order on all values, the invalid ones too, and `==` is equality.
-/

namespace TinySox

open TinySox.Common

/-- `RTA_LENGTH(0)`: the size of the header. -/
def rtaLength : ℕ := 4

/-- The memory behind an `rtattr` pointer: its length field, and what stands behind the header. -/
structure RtAttr where
  rtaLen : UInt16
  data : Bytes
  size : rtaLen.toNat ≤ rtaLength + data.length

/-- `RTA_PAYLOAD`, a `size_t`: it wraps if the length does not even cover the header. -/
def RtAttr.payload (rta : RtAttr) : ℕ := (rta.rtaLen.toNat + 2 ^ 64 - rtaLength) % 2 ^ 64

/-- A payload of the size of an address is there. -/
theorem RtAttr.length_payload {rta : RtAttr}
    (hlen : rta.payload = ipv6AddrLen ∨ rta.payload = ipv4AddrLen) :
    (rta.data.take rta.payload).length = rta.payload := by
  have hlt := rta.rtaLen.toNat_lt
  have hsize := rta.size
  have hshort := IPAddress.length_le hlen
  have hfit : rta.payload ≤ rta.data.length := by
    unfold payload rtaLength ipv6AddrLen at *
    omega
  rw [List.length_take, Nat.min_eq_left hfit]

/-- What two blocks end with alike does not matter. -/
theorem memcmp_append_right {as bs : Bytes} (hlen : as.length = bs.length) (cs : Bytes) :
    memcmp (as ++ cs) (bs ++ cs) = memcmp as bs := by
  induction as generalizing bs with
  | nil =>
    cases bs with
    | nil => exact (memcmp_eq_zero_iff rfl).mpr rfl
    | cons b bs => contradiction
  | cons a as ih =>
    cases bs with
    | nil => contradiction
    | cons b bs =>
      rw [List.cons_append, List.cons_append, memcmp, memcmp, ih (Nat.succ.inj hlen)]

namespace IPAddress

/-- `IPAddress(const rtattr *rta)` -/
def ofRtattr (rta : RtAttr) : IPAddress :=
  let isValid := rta.payload = ipv6AddrLen ∨ rta.payload = ipv4AddrLen
  ⟨isValid, rta.payload = ipv6AddrLen,
    if isValid then .ofRaw (rta.data.take rta.payload) else .zero⟩

/-- An attribute makes the address whose raw bytes are its payload, or an invalid one. -/
theorem ofRtattr_constructed (inet : InetPton) (host : ByteOrder) (rta : RtAttr) :
    (ofRtattr rta).Constructed inet host := by
  by_cases hlen : rta.payload = ipv6AddrLen ∨ rta.payload = ipv4AddrLen
  · have hraw : ofRtattr rta = .ofRaw (rta.data.take rta.payload) := by
      simp only [ofRtattr, ofRaw, RtAttr.length_payload hlen]
    rw [hraw]
    exact .ofRaw _
  · have hinvalid : ofRtattr rta = .invalid := by
      obtain ⟨hv6, hv4⟩ := not_or.mp hlen
      simp only [ofRtattr, invalid, hv6, hv4, or_self, decide_false, if_false]
    rw [hinvalid]
    exact .invalid

/-- The bytes that the raw form leaves out are zero. -/
def Cleared (a : IPAddress) : Prop :=
  a.ip.data = a.toRawBuff ++ List.replicate (ipv6AddrLen - a.toRawBuff.length) 0

/-- Raw bytes of either length are followed by zeros. -/
theorem cleared_ofRaw {raw : Bytes} (hlen : raw.length = ipv6AddrLen ∨ raw.length = ipv4AddrLen) :
    (ofRaw raw).Cleared := by
  have hdata := RawIP.data_ofRaw (length_le hlen)
  rw [Cleared, toRawBuff_ofRaw hlen, ← hdata]
  simp only [ofRaw, if_pos hlen]

/-- Every constructor clears the bytes that the address does not use. -/
theorem Constructed.cleared {inet : InetPton} {host : ByteOrder} {a : IPAddress}
    (h : a.Constructed inet host) : a.Cleared := by
  rcases h.raw_or_invalid with ⟨raw, hlen, rfl⟩ | rfl
  · exact cleared_ofRaw hlen
  · rfl

/-- The raw forms of two addresses of one family are equally long. -/
theorem length_toRawBuff_eq {a b : IPAddress} (hv6 : a.isV6 = b.isV6) :
    a.toRawBuff.length = b.toRawBuff.length := by
  rw [length_toRawBuff, length_toRawBuff, hv6]

/-- The bytes that two addresses of one family do not use never decide. -/
theorem Cleared.memcmp_eq {a b : IPAddress} (ha : a.Cleared) (hb : b.Cleared)
    (hv6 : a.isV6 = b.isV6) :
    memcmp a.ip.data b.ip.data = memcmp a.toRawBuff b.toRawBuff := by
  have hlen := length_toRawBuff_eq hv6
  rw [ha, hb, hlen]
  exact memcmp_append_right hlen _

/-- Two addresses with cleared bytes are equal if their flags are, and their raw forms. -/
theorem Cleared.equals_iff {a b : IPAddress} (ha : a.Cleared) (hb : b.Cleared) :
    a.equals b ↔ a.isValid = b.isValid ∧ a.isV6 = b.isV6 ∧ a.toRawBuff = b.toRawBuff := by
  rw [equals, decide_eq_true_eq]
  refine and_congr_right fun _ => and_congr_right fun hv6 => ?_
  rw [ha.memcmp_eq hb hv6, memcmp_eq_zero_iff (length_toRawBuff_eq hv6)]

/-- Invalid addresses come first, then the IPv4 addresses, then the IPv6 addresses, and two of one
kind are ordered as their raw forms are. -/
theorem Cleared.less_iff {a b : IPAddress} (ha : a.Cleared) (hb : b.Cleared) :
    a.less b ↔ a.flags < b.flags ∨
      a.flags = b.flags ∧ a.toRawBuff.map UInt8.toNat < b.toRawBuff.map UInt8.toNat := by
  rw [less]
  have hbytes (hflags : a.flags = b.flags) : memcmp a.ip.data b.ip.data < 0 ↔
      a.toRawBuff.map UInt8.toNat < b.toRawBuff.map UInt8.toNat := by
    have hv6 := ((flags_eq_iff a b).mp hflags).2
    rw [ha.memcmp_eq hb hv6, memcmp_neg_iff (length_toRawBuff_eq hv6)]
  split_ifs with hlt hless
  · exact ⟨fun _ => .inl hlt, fun _ => rfl⟩
  · exact ⟨fun _ => .inr ⟨hless.1, (hbytes hless.1).mp hless.2⟩, fun _ => rfl⟩
  · refine ⟨fun h => absurd h (by decide), fun h => ?_⟩
    rcases h with hfirst | ⟨hflags, hsecond⟩
    · exact absurd hfirst hlt
    · exact absurd ⟨hflags, (hbytes hflags).mpr hsecond⟩ hless

/-- `Equals` is equality. -/
theorem equals_iff_eq (a b : IPAddress) : a.equals b ↔ a = b := by
  rw [equals, decide_eq_true_eq, memcmp_eq_zero_iff (length_data a b)]
  constructor
  · rintro ⟨hvalid, hv6, hdata⟩
    obtain ⟨valid, v6, ⟨data, size⟩⟩ := a
    obtain ⟨valid', v6', ⟨data', size'⟩⟩ := b
    cases hvalid
    cases hv6
    cases hdata
    rfl
  · rintro rfl
    exact ⟨rfl, rfl, rfl⟩

/-- The order of addresses. At any three values, valid or not, exactly one of `<`, `==` and the
converse of `<` holds of the first two, `<` is transitive, `>` is its converse, and `<=` and `>=` are
the negations; and `==` holds only of an address and itself. -/
theorem order_laws (a b c : IPAddress) :
    comparison.Laws a b c ∧ (comparison.equals a b ↔ a = b) := by
  constructor
  · exact comparison_spelled.laws_of_linearOrder a b c
  · exact equals_iff_eq a b

-- The default address and `0.0.0.0` hold the same bytes, and the first is less by its flags.
example : invalid.ip = (ofRaw [0, 0, 0, 0]).ip ∧ comparison.less invalid (ofRaw [0, 0, 0, 0]) ∧
    comparison.less (ofRaw [255, 0, 0, 0]) (ofRaw (List.replicate 16 0)) := by decide

end IPAddress

end TinySox
