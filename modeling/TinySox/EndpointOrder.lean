import TinySox.Common.Comparison
import TinySox.IPEndpoint

/-!
# The order of addresses and endpoints

`IPAddress` compares its two flags, encoded as one number, and then all sixteen bytes. That is the
lexicographic order of a key, so it is a strict total order. `IPEndpoint` compares the ports even if
the first address is the greater one, so two endpoints whose addresses and ports disagree are each
less than the other. At every other pair its operators obey the laws.
-/

namespace TinySox

open TinySox.Common

/-- `std::memcmp`: the difference of the first two bytes that differ. -/
def memcmp : Bytes → Bytes → Int
  | a :: as, b :: bs => if a = b then memcmp as bs else a.toNat - b.toNat
  | _, _ => 0

/-- Exchanging the two blocks negates the result. -/
theorem memcmp_swap (as bs : Bytes) : memcmp bs as = -memcmp as bs := by
  induction as generalizing bs with
  | nil => cases bs <;> rfl
  | cons a as ih =>
    cases bs with
    | nil => rfl
    | cons b bs =>
      rw [memcmp, memcmp]
      by_cases heq : a = b
      · rw [if_pos heq, if_pos heq.symm, ih]
      · rw [if_neg heq, if_neg (Ne.symm heq), Int.neg_sub]

/-- Blocks of one length are equal if no difference is found. -/
theorem memcmp_eq_zero_iff {as bs : Bytes} (hlen : as.length = bs.length) :
    memcmp as bs = 0 ↔ as = bs := by
  induction as generalizing bs with
  | nil =>
    cases bs with
    | nil => exact ⟨fun _ => rfl, fun _ => rfl⟩
    | cons b bs => contradiction
  | cons a as ih =>
    cases bs with
    | nil => contradiction
    | cons b bs =>
      have hrest : as.length = bs.length := Nat.succ.inj hlen
      rw [memcmp, List.cons.injEq]
      split_ifs with heq
      · rw [ih hrest]
        exact ⟨fun h => ⟨heq, h⟩, And.right⟩
      · have hne : a.toNat ≠ b.toNat := fun h => heq (UInt8.toNat.inj h)
        exact ⟨fun h => absurd h (by omega), fun h => absurd h.1 heq⟩

/-- Blocks of one length are compared lexicographically, as unsigned bytes. -/
theorem memcmp_neg_iff {as bs : Bytes} (hlen : as.length = bs.length) :
    memcmp as bs < 0 ↔ as.map UInt8.toNat < bs.map UInt8.toNat := by
  induction as generalizing bs with
  | nil =>
    cases bs with
    | nil => exact ⟨fun h => absurd h (by decide), fun h => absurd h (lt_irrefl _)⟩
    | cons b bs => contradiction
  | cons a as ih =>
    cases bs with
    | nil => contradiction
    | cons b bs =>
      have hrest : as.length = bs.length := Nat.succ.inj hlen
      rw [memcmp, List.map_cons, List.map_cons, List.cons_lt_cons_iff]
      split_ifs with heq
      · rw [ih hrest, heq]
        exact ⟨fun h => .inr ⟨rfl, h⟩, fun h => (h.resolve_left (lt_irrefl _)).2⟩
      · have hne : a.toNat ≠ b.toNat := fun h => heq (UInt8.toNat.inj h)
        constructor
        · intro hneg
          exact .inl (by omega)
        · rintro (hlt | ⟨habsurd, -⟩)
          · omega
          · exact absurd habsurd hne

namespace IPAddress

/-- `10*isValid+1*isV6` -/
def flags (a : IPAddress) : ℕ := 10 * a.isValid.toNat + 1 * a.isV6.toNat

/-- `IPAddress::Equals` -/
def equals (a other : IPAddress) : Bool :=
  a.isValid = other.isValid ∧ a.isV6 = other.isV6 ∧ memcmp a.ip.data other.ip.data = 0

/-- `IPAddress::Less` -/
def less (a other : IPAddress) : Bool :=
  if a.flags < other.flags then true
  else if a.flags = other.flags ∧ memcmp a.ip.data other.ip.data < 0 then true
  else false

/-- `IPAddress::Greater` -/
def greater (a other : IPAddress) : Bool :=
  if a.flags > other.flags then true
  else if a.flags = other.flags ∧ memcmp a.ip.data other.ip.data > 0 then true
  else false

/-- The operators of `IPAddress`. -/
def comparison : Comparison IPAddress where
  less := less
  equals := equals
  greater := greater
  lessEq a other := a.less other || a.equals other
  greaterEq a other := a.greater other || a.equals other

/-- The flags first, and then the bytes. -/
def orderKey (a : IPAddress) : ℕ ×ₗ List ℕ := toLex (a.flags, a.ip.data.map UInt8.toNat)

/-- The stored bytes are as many for every address. -/
theorem length_data (a b : IPAddress) : a.ip.data.length = b.ip.data.length :=
  a.ip.size.trans b.ip.size.symm

/-- The number tells the two flags apart. -/
theorem flags_eq_iff (a b : IPAddress) : a.flags = b.flags ↔ a.isValid = b.isValid ∧ a.isV6 = b.isV6 := by
  unfold flags
  cases a.isValid <;> cases b.isValid <;> cases a.isV6 <;> cases b.isV6 <;> decide

/-- `Equals` compares the key. -/
theorem equals_iff (a b : IPAddress) : a.equals b ↔ a.orderKey = b.orderKey := by
  have hbytes : a.ip.data.map UInt8.toNat = b.ip.data.map UInt8.toNat ↔ a.ip.data = b.ip.data :=
    (List.map_injective_iff.mpr fun _ _ => UInt8.toNat.inj).eq_iff
  rw [equals, decide_eq_true_eq, memcmp_eq_zero_iff (length_data a b), orderKey, orderKey,
    toLex_inj, Prod.mk.injEq, flags_eq_iff, hbytes, and_assoc]

/-- `Less` compares the key. -/
theorem less_iff (a b : IPAddress) : a.less b ↔ a.orderKey < b.orderKey := by
  rw [orderKey, orderKey, Prod.Lex.toLex_lt_toLex, ← memcmp_neg_iff (length_data a b), less]
  split_ifs with hflags hbytes
  · exact ⟨fun _ => .inl hflags, fun _ => rfl⟩
  · exact ⟨fun _ => .inr hbytes, fun _ => rfl⟩
  · exact ⟨fun h => absurd h (by decide), fun h => (h.elim hflags hbytes).elim⟩

/-- `Greater` is `Less` from the other side. -/
theorem greater_eq (a b : IPAddress) : a.greater b = b.less a := by
  have hbytes : memcmp a.ip.data b.ip.data > 0 ↔ memcmp b.ip.data a.ip.data < 0 := by
    rw [memcmp_swap a.ip.data b.ip.data]
    omega
  simp only [greater, less, gt_iff_lt, hbytes, eq_comm]

/-- The operators compare the key in its lexicographic order. -/
theorem comparison_spelled : comparison.Spelled orderKey (· < ·) where
  less := less_iff
  equals := equals_iff
  greater a b := by
    rw [← less_iff b a]
    exact (greater_eq a b).congr_left
  lessEq _ _ := rfl
  greaterEq _ _ := rfl

end IPAddress

namespace IPEndpoint

/-- `IPEndpoint::Equals` -/
def equals (ep other : IPEndpoint) : Bool := ep.address.equals other.address && ep.port = other.port

/-- `IPEndpoint::Less` -/
def less (ep other : IPEndpoint) : Bool :=
  if ep.address.less other.address then true
  else if ep.port < other.port then true
  else false

/-- `IPEndpoint::Greater` -/
def greater (ep other : IPEndpoint) : Bool :=
  if ep.address.greater other.address then true
  else if ep.port > other.port then true
  else false

/-- The operators of `IPEndpoint`. -/
def comparison : Comparison IPEndpoint where
  less := less
  equals := equals
  greater := greater
  lessEq ep other := ep.less other || ep.equals other
  greaterEq ep other := ep.greater other || ep.equals other

/-- The address and the port do not order the two endpoints in opposite ways. -/
def Agree (a b : IPEndpoint) : Prop :=
  (a.address.less b.address → a.port ≤ b.port) ∧ (b.address.less a.address → b.port ≤ a.port)

/-- What is compared of an endpoint. -/
def orderKey (ep : IPEndpoint) : (ℕ ×ₗ List ℕ) × ℕ := (ep.address.orderKey, ep.port.toNat)

/-- `Equals` compares the key. -/
theorem equals_iff (a b : IPEndpoint) : a.equals b ↔ a.orderKey = b.orderKey := by
  rw [equals, Bool.and_eq_true, IPAddress.equals_iff, decide_eq_true_eq, orderKey, orderKey,
    Prod.mk.injEq, UInt16.toNat_inj]

/-- `Less` looks for a smaller component of the key. -/
theorem less_iff (a b : IPEndpoint) : a.less b ↔ EitherLess a.orderKey b.orderKey := by
  have haddress := IPAddress.less_iff a.address b.address
  unfold less EitherLess
  split_ifs with hless hport
  · exact ⟨fun _ => .inl (haddress.mp hless), fun _ => rfl⟩
  · exact ⟨fun _ => .inr hport, fun _ => rfl⟩
  · refine ⟨fun h => absurd h (by decide), fun h => ?_⟩
    rcases h with hlt | hlt
    · exact absurd (haddress.mpr hlt) hless
    · exact absurd hlt hport

/-- `Greater` is `Less` from the other side. -/
theorem greater_eq (a b : IPEndpoint) : a.greater b = b.less a := by
  unfold greater less
  rw [IPAddress.greater_eq]

/-- The operators look for a smaller component of the key. -/
theorem comparison_spelled : comparison.Spelled orderKey EitherLess where
  less := less_iff
  equals := equals_iff
  greater a b := by
    rw [← less_iff b a]
    exact (greater_eq a b).congr_left
  lessEq _ _ := rfl
  greaterEq _ _ := rfl

/-- Agreement is concordance of the keys. -/
theorem agree_iff (a b : IPEndpoint) : a.Agree b ↔ Concordant a.orderKey b.orderKey := by
  unfold Agree Concordant
  rw [IPAddress.less_iff, IPAddress.less_iff]
  rfl

/-- The order of endpoints. Its laws hold at three endpoints exactly if the addresses and the ports
of the first two do not disagree. -/
theorem order_laws_iff_agree (a b c : IPEndpoint) : comparison.Laws a b c ↔ a.Agree b := by
  rw [agree_iff]
  exact comparison_spelled.laws_iff_concordant a b c

/-- The smaller address with the greater port, and the other way round: each is less than the other,
and the laws of a strict total order do not hold of all endpoints. -/
theorem order_breaks_trichotomy :
    let a : IPEndpoint := ⟨.ofRaw [1, 0, 0, 1], 443⟩
    let b : IPEndpoint := ⟨.ofRaw [1, 0, 0, 2], 80⟩
    a.less b = true ∧ b.less a = true ∧ ¬∀ a b c, comparison.Laws a b c := by
  refine ⟨by decide, by decide, fun h => ?_⟩
  rcases (h ⟨.ofRaw [1, 0, 0, 1], 443⟩ ⟨.ofRaw [1, 0, 0, 2], 80⟩ .unset).trichotomy with
    ⟨-, -, hnot⟩ | ⟨hnot, -, -⟩ | ⟨hnot, -, -⟩
  · exact hnot (by decide)
  · exact hnot (by decide)
  · exact hnot (by decide)

end IPEndpoint

end TinySox
