import TinySox.AddressOrder

/-!
# The hash of an endpoint

`Config` keeps the endpoints to listen at in an `unordered_set`, which finds them by `GetHashCode`. Its
loop goes over the sixteen bytes of the address and, twice, over the bytes of a `size_t` from the
highest to the lowest one. The four bytes of an IPv4 address are then above the port and the flags, and
the others are zero, so two IPv4 endpoints have one hash only if they are equal. The two halves of an
IPv6 address are on top of each other.

A `size_t` has eight bytes.
-/

namespace TinySox

/-- The loop of `GetHashCode` -/
def hashBytes : ℕ → Bytes → BitVec 64 → BitVec 64
  | _, [], result => result
  | shift, b :: bytes, result =>
    hashBytes (if shift = 0 then 7 else shift - 1) bytes
      (result ^^^ b.toBitVec.setWidth 64 <<< (8 * shift))

namespace IPAddress

/-- `result` before the loop. -/
def hashFlags (a : IPAddress) : BitVec 64 :=
  0#64 ^^^ (BitVec.ofBool a.isValid).setWidth 64 ^^^ (BitVec.ofBool a.isV6).setWidth 64 <<< 8

/-- `IPAddress::GetHashCode` -/
def getHashCode (a : IPAddress) : BitVec 64 := hashBytes 7 a.ip.data a.hashFlags

end IPAddress

/-- `IPEndpoint::GetHashCode` -/
def IPEndpoint.getHashCode (ep : IPEndpoint) : BitVec 64 :=
  ep.address.getHashCode ^^^ ep.port.toBitVec.setWidth 64

variable {bytes bytes' : Bytes} {n i : ℕ}

/-- The bytes are added to what was there before. -/
theorem hashBytes_eq (shift : ℕ) (bytes : Bytes) (result : BitVec 64) :
    hashBytes shift bytes result = result ^^^ hashBytes shift bytes 0#64 := by
  induction bytes generalizing shift result with
  | nil => exact BitVec.xor_zero.symm
  | cons b bytes ih =>
    rw [hashBytes, hashBytes, ih _ (result ^^^ _), ih _ (0#64 ^^^ _), BitVec.zero_xor, BitVec.xor_assoc]

/-- Zeros add nothing. -/
theorem hashBytes_zeros (shift n : ℕ) (result : BitVec 64) :
    hashBytes shift (List.replicate n 0) result = result := by
  induction n generalizing shift result with
  | zero => rfl
  | succ n ih =>
    have hzero : (0 : UInt8).toBitVec.setWidth 64 <<< (8 * shift) = 0#64 := BitVec.zero_shiftLeft _
    rw [List.replicate_succ, hashBytes, ih, hzero, BitVec.xor_zero]

/-- So they may stand behind other bytes. -/
theorem hashBytes_append_zeros (shift : ℕ) (bytes : Bytes) (n : ℕ) (result : BitVec 64) :
    hashBytes shift (bytes ++ List.replicate n 0) result = hashBytes shift bytes result := by
  induction bytes generalizing shift result with
  | nil => exact hashBytes_zeros shift n result
  | cons b bytes ih => rw [List.cons_append, hashBytes, hashBytes, ih]

/-- The first byte goes to its place, if there is one left for each of the others. -/
theorem hashBytes_cons (b : UInt8) (hfit : bytes.length ≤ n) :
    hashBytes n (b :: bytes) 0#64 =
      b.toBitVec.setWidth 64 <<< (8 * n) ^^^ hashBytes (n - 1) bytes 0#64 := by
  rw [hashBytes, hashBytes_eq, BitVec.zero_xor]
  cases n with
  | zero =>
    rw [List.eq_nil_of_length_eq_zero (Nat.le_zero.mp hfit)]
    rfl
  | succ n => rfl

/-- A byte has only the bits of its place. -/
theorem getLsbD_place (b : UInt8) (hi : i < 64) :
    (b.toBitVec.setWidth 64 <<< (8 * n)).getLsbD i =
      (decide (8 * n ≤ i) && b.toBitVec.getLsbD (i - 8 * n)) := by
  rw [BitVec.getLsbD_shiftLeft, BitVec.getLsbD_setWidth]
  have hlt : i - 8 * n < 64 := by omega
  by_cases hplace : 8 * n ≤ i
  · simp [hi, hlt, hplace]
  · simp [hplace]

/-- Bytes in the lowest places have no higher bits. -/
theorem getLsbD_hashBytes_above (hfit : bytes.length ≤ n) (hi : 8 * n ≤ i) :
    (hashBytes (n - 1) bytes 0#64).getLsbD i = false := by
  induction bytes generalizing n with
  | nil => exact BitVec.getLsbD_zero
  | cons b bytes ih =>
    rw [List.length_cons] at hfit
    obtain ⟨m, rfl⟩ : ∃ m, n = m + 1 := ⟨n - 1, by omega⟩
    rcases Nat.lt_or_ge i 64 with hlt | hge
    · have hrest : (hashBytes (m - 1) bytes 0#64).getLsbD i = false := ih (by omega) (by omega)
      have hbyte : b.toBitVec.getLsbD (i - 8 * m) = false := BitVec.getLsbD_of_ge _ _ (by omega)
      rw [Nat.add_sub_cancel, hashBytes_cons b (by omega), BitVec.getLsbD_xor, getLsbD_place b hlt,
        hrest, hbyte, Bool.and_false, Bool.xor_false]
    · exact BitVec.getLsbD_of_ge _ _ hge

/-- And none below the last of their places. -/
theorem getLsbD_hashBytes_below (hfit : bytes.length ≤ n) (hi : i < 8 * (n - bytes.length)) :
    (hashBytes (n - 1) bytes 0#64).getLsbD i = false := by
  induction bytes generalizing n with
  | nil => exact BitVec.getLsbD_zero
  | cons b bytes ih =>
    rw [List.length_cons] at hfit hi
    obtain ⟨m, rfl⟩ : ∃ m, n = m + 1 := ⟨n - 1, by omega⟩
    rcases Nat.lt_or_ge i 64 with hlt | hge
    · have hrest : (hashBytes (m - 1) bytes 0#64).getLsbD i = false := ih (by omega) (by omega)
      have hplace : ¬ 8 * m ≤ i := by omega
      rw [Nat.add_sub_cancel, hashBytes_cons b (by omega), BitVec.getLsbD_xor, getLsbD_place b hlt,
        hrest, decide_eq_false hplace, Bool.false_and, Bool.xor_false]
    · exact BitVec.getLsbD_of_ge _ _ hge

/-- Bytes with a place each are told apart. -/
theorem hashBytes_inj (hlen : bytes.length = bytes'.length) (hfit : bytes.length ≤ n) (hn : n ≤ 8)
    (heq : hashBytes (n - 1) bytes 0#64 = hashBytes (n - 1) bytes' 0#64) : bytes = bytes' := by
  induction bytes generalizing n bytes' with
  | nil => exact (List.eq_nil_of_length_eq_zero hlen.symm).symm
  | cons b bytes ih =>
    cases bytes' with
    | nil => contradiction
    | cons b' bytes' =>
      have hrest : bytes.length = bytes'.length := Nat.succ.inj hlen
      rw [List.length_cons] at hfit
      obtain ⟨m, rfl⟩ : ∃ m, n = m + 1 := ⟨n - 1, by omega⟩
      rw [Nat.add_sub_cancel, hashBytes_cons b (by omega), hashBytes_cons b' (by omega)] at heq
      have hbyte : b = b' := by
        refine UInt8.toBitVec_inj.mp (BitVec.eq_of_getLsbD_eq fun j hj => ?_)
        have hbit := congrArg (fun w => w.getLsbD (8 * m + j)) heq
        have hlt : 8 * m + j < 64 := by omega
        have hplace : 8 * m ≤ 8 * m + j := Nat.le_add_right _ _
        simp only [BitVec.getLsbD_xor, getLsbD_place _ hlt, decide_eq_true hplace, Bool.true_and,
          Nat.add_sub_cancel_left] at hbit
        rwa [getLsbD_hashBytes_above (n := m) (by omega) hplace,
          getLsbD_hashBytes_above (n := m) (by omega) hplace, Bool.xor_false, Bool.xor_false] at hbit
      rw [hbyte] at heq ⊢
      rw [ih hrest (by omega) (by omega) (BitVec.xor_right_inj _ |>.mp heq)]

/-- The bytes that the raw form leaves out are not in the hash. -/
theorem IPAddress.Cleared.getHashCode_eq {a : IPAddress} (h : a.Cleared) :
    a.getHashCode = a.hashFlags ^^^ hashBytes 7 a.toRawBuff 0#64 := by
  rw [getHashCode, h, hashBytes_append_zeros, hashBytes_eq]

namespace IPEndpoint

variable {inet : InetPton} {host : ByteOrder} {a b : IPEndpoint}

/-- The raw form of an IPv4 address has four bytes. -/
theorem length_raw_v4 (hv6 : a.address.isV6 = false) : a.address.toRawBuff.length = 4 := by
  rw [IPAddress.length_toRawBuff, hv6]
  rfl

/-- Where a `size_t` has eight bytes, two IPv4 endpoints, both valid or both not, have one hash just if
`==` holds of them, whatever constructors made their addresses. -/
theorem getHashCode_eq_iff_equals (ha : a.address.Constructed inet host)
    (hb : b.address.Constructed inet host) (hvalid : a.address.isValid = b.address.isValid)
    (hav6 : a.address.isV6 = false) (hbv6 : b.address.isV6 = false) :
    a.getHashCode = b.getHashCode ↔ a.equals b := by
  have hv6 : a.address.isV6 = b.address.isV6 := hav6.trans hbv6.symm
  have halen := length_raw_v4 hav6
  have hblen := length_raw_v4 hbv6
  have hflags : a.address.hashFlags = b.address.hashFlags := by
    rw [IPAddress.hashFlags, IPAddress.hashFlags, hvalid, hv6]
  rw [getHashCode, getHashCode, ha.cleared.getHashCode_eq, hb.cleared.getHashCode_eq, hflags,
    BitVec.xor_assoc, BitVec.xor_assoc, BitVec.xor_right_inj, equals, Bool.and_eq_true,
    ha.cleared.equals_iff hb.cleared, decide_eq_true_eq]
  constructor
  · intro heq
    have hport : a.port = b.port := by
      -- the lower half of the word is left to the port
      refine UInt16.toBitVec_inj.mp (BitVec.eq_of_getLsbD_eq fun j hj => ?_)
      have halow : (hashBytes 7 a.address.toRawBuff 0#64).getLsbD j = false :=
        getLsbD_hashBytes_below (n := 8) (by omega) (by omega)
      have hblow : (hashBytes 7 b.address.toRawBuff 0#64).getLsbD j = false :=
        getLsbD_hashBytes_below (n := 8) (by omega) (by omega)
      have hlt : j < 64 := by omega
      have hbit := congrArg (fun w => w.getLsbD j) heq
      simp only [BitVec.getLsbD_xor, halow, hblow, Bool.false_xor, BitVec.getLsbD_setWidth,
        decide_eq_true hlt, Bool.true_and] at hbit
      exact hbit
    rw [hport, BitVec.xor_left_inj] at heq
    have hraw := hashBytes_inj (n := 8) (halen.trans hblen.symm) (by omega) (Nat.le_refl 8) heq
    exact ⟨⟨hvalid, hv6, hraw⟩, hport⟩
  · rintro ⟨⟨-, -, hraw⟩, hport⟩
    rw [hraw, hport]

/-- Two ports of 10.0.0.1 have two hashes. -/
theorem getHashCode_eq_iff_equals_twoPorts :
    let a : IPEndpoint := ⟨.ofRaw [10, 0, 0, 1], 80⟩
    let b : IPEndpoint := ⟨.ofRaw [10, 0, 0, 1], 1080⟩
    (a.getHashCode = b.getHashCode ↔ a.equals b) ∧ a.equals b = false := by
  intro a b
  have hbuilt (raw : Bytes) : (IPAddress.ofRaw raw).Constructed
      ⟨fun _ => none, fun _ => none, InetPton.length_none ipv4AddrLen, InetPton.length_none ipv6AddrLen⟩
      .little := .ofRaw raw
  exact ⟨getHashCode_eq_iff_equals (hbuilt _) (hbuilt _) rfl rfl rfl, by decide⟩

-- The halves of an IPv6 address are on top of each other, and cancel out here.
example :
    let a : IPEndpoint := ⟨.ofRaw (List.replicate 16 0), 80⟩
    let b : IPEndpoint := ⟨.ofRaw (List.replicate 16 1), 80⟩
    a.getHashCode = b.getHashCode ∧ a.equals b = false := by decide

end IPEndpoint

end TinySox
