import Mathlib
import PlaintextEquivalence.Group.Basic

/-!
# Lawful groups

What is asked of the operations of a group: scalars are a field whose order is a prime above `2 ^ 64`,
in which numbers stand for themselves, and elements are the multiples of the generator, each of one
scalar only.  The operations then are those of a field and of a space over it.

Principal results:
* `ofWord_eq_cast`, `natCast_inj`, `ofWord_injective` — numbers up to `2 ^ 64` are scalars, different
  ones for different numbers.
* `mulGenerator_injective` — different multiples of the generator for different scalars.
-/

set_option autoImplicit false

namespace PlaintextEquivalence.PrimeGroup

/-- The laws of a group of prime order. -/
class Lawful (G : PrimeGroup) : Prop where
  scalar_add_assoc : ∀ a b c : G.Scalar, a + b + c = a + (b + c)
  scalar_add_comm : ∀ a b : G.Scalar, a + b = b + a
  scalar_zero_add : ∀ a : G.Scalar, 0 + a = a
  scalar_neg_add : ∀ a : G.Scalar, -a + a = 0
  scalar_sub_eq : ∀ a b : G.Scalar, a - b = a + -b
  scalar_mul_assoc : ∀ a b c : G.Scalar, a * b * c = a * (b * c)
  scalar_mul_comm : ∀ a b : G.Scalar, a * b = b * a
  scalar_one_mul : ∀ a : G.Scalar, 1 * a = a
  scalar_mul_add : ∀ a b c : G.Scalar, a * (b + c) = a * b + a * c
  mul_invert : ∀ a : G.Scalar, a ≠ 0 → a * G.invert a = 1
  invertAll_eq : ∀ as : List G.Scalar, 0 ∉ as → G.invertAll as = as.map G.invert
  ofWord_next : ∀ w : UInt64, w.toNat + 1 < 2 ^ 64 → G.ofWord (w + 1) = G.ofWord w + 1
  prime_order : (Nat.card G.Scalar).Prime
  large_order : 2 ^ 64 < Nat.card G.Scalar
  add_assoc : ∀ a b c : G.Element, a + b + c = a + (b + c)
  add_comm : ∀ a b : G.Element, a + b = b + a
  zero_add : ∀ a : G.Element, 0 + a = a
  neg_add : ∀ a : G.Element, -a + a = 0
  sub_eq : ∀ a b : G.Element, a - b = a + -b
  one_smul : ∀ a : G.Element, (1 : G.Scalar) • a = a
  mul_smul : ∀ (k l : G.Scalar) (a : G.Element), (k * l) • a = k • l • a
  smul_add : ∀ (k : G.Scalar) (a b : G.Element), k • (a + b) = k • a + k • b
  add_smul : ∀ (k l : G.Scalar) (a : G.Element), (k + l) • a = k • a + l • a
  generated : ∀ a : G.Element, ∃ k : G.Scalar, a = k • G.generator
  generator_ne_zero : G.generator ≠ 0

variable {G : PrimeGroup} [hG : Lawful G]

theorem scalar_mul_zero (a : G.Scalar) : a * 0 = 0 := by
  have hdouble : a * 0 + a * 0 = a * 0 := by
    rw [← hG.scalar_mul_add, hG.scalar_zero_add]
  calc a * 0 = -(a * 0) + a * 0 + a * 0 := by rw [hG.scalar_neg_add, hG.scalar_zero_add]
    _ = -(a * 0) + a * 0 := by rw [hG.scalar_add_assoc, hdouble]
    _ = 0 := hG.scalar_neg_add _

theorem scalar_zero_ne_one : (0 : G.Scalar) ≠ 1 := by
  intro h
  have hfinite : Finite G.Scalar := Nat.finite_of_card_ne_zero hG.prime_order.ne_zero
  have hnontrivial : Nontrivial G.Scalar :=
    Finite.one_lt_card_iff_nontrivial.1 hG.prime_order.one_lt
  obtain ⟨a, b, hab⟩ := hnontrivial
  have hzero : ∀ c : G.Scalar, c = 0 := fun c => by
    rw [← hG.scalar_one_mul c, ← h, hG.scalar_mul_comm, scalar_mul_zero]
  exact hab ((hzero a).trans (hzero b).symm)

instance instField : Field G.Scalar where
  zero := 0
  one := 1
  add := (· + ·)
  neg := (- ·)
  sub := (· - ·)
  mul := (· * ·)
  inv a := if a = 0 then 0 else G.invert a
  add_assoc := hG.scalar_add_assoc
  add_comm := hG.scalar_add_comm
  zero_add := hG.scalar_zero_add
  add_zero a := by rw [hG.scalar_add_comm, hG.scalar_zero_add]
  neg_add_cancel := hG.scalar_neg_add
  sub_eq_add_neg := hG.scalar_sub_eq
  mul_assoc := hG.scalar_mul_assoc
  mul_comm := hG.scalar_mul_comm
  one_mul := hG.scalar_one_mul
  mul_one a := by rw [hG.scalar_mul_comm, hG.scalar_one_mul]
  left_distrib := hG.scalar_mul_add
  right_distrib a b c := by
    rw [hG.scalar_mul_comm, hG.scalar_mul_add, hG.scalar_mul_comm c a, hG.scalar_mul_comm c b]
  zero_mul a := by rw [hG.scalar_mul_comm, scalar_mul_zero]
  mul_zero := scalar_mul_zero
  exists_pair_ne := ⟨0, 1, scalar_zero_ne_one⟩
  mul_inv_cancel a h := by
    simp only [if_neg h]
    exact hG.mul_invert a h
  inv_zero := if_pos rfl
  nsmul := nsmulRec
  zsmul := zsmulRec
  nnqsmul := _
  qsmul := _

instance instAddCommGroup : AddCommGroup G.Element where
  zero := 0
  add := (· + ·)
  neg := (- ·)
  sub := (· - ·)
  add_assoc := hG.add_assoc
  add_comm := hG.add_comm
  zero_add := hG.zero_add
  add_zero a := by rw [hG.add_comm, hG.zero_add]
  neg_add_cancel := hG.neg_add
  sub_eq_add_neg := hG.sub_eq
  nsmul := nsmulRec
  zsmul := zsmulRec

instance instModule : Module G.Scalar G.Element where
  smul := (· • ·)
  one_smul := hG.one_smul
  mul_smul := hG.mul_smul
  smul_add := hG.smul_add
  add_smul := hG.add_smul
  smul_zero k := by
    have h := hG.smul_add k 0 0
    rw [hG.zero_add] at h
    exact left_eq_add.1 h
  zero_smul a := by
    have h := hG.add_smul 0 0 a
    rw [hG.scalar_zero_add] at h
    exact left_eq_add.1 h

/-! ## Numbers as scalars -/

theorem ofWord_eq_cast (w : UInt64) : G.ofWord w = (w.toNat : G.Scalar) := by
  have hcast : ∀ n, n < 2 ^ 64 → G.ofWord (UInt64.ofNat n) = (n : G.Scalar) := by
    intro n
    induction n with
    | zero => intro _; exact Nat.cast_zero.symm
    | succ n ih =>
      intro hn
      have hlt : n < 2 ^ 64 := by omega
      have hnext : (UInt64.ofNat n).toNat + 1 < 2 ^ 64 := by
        rw [UInt64.toNat_ofNat_of_lt' hlt]
        exact hn
      rw [Nat.cast_succ, ← ih hlt, ← hG.ofWord_next _ hnext]
      exact congrArg G.ofWord (UInt64.ofNat_add n 1)
  rw [← hcast w.toNat w.toNat_lt, UInt64.ofNat_toNat]

/-- Numbers up to `2 ^ 64` are different scalars. -/
theorem natCast_inj {m n : ℕ} (hm : m ≤ 2 ^ 64) (hn : n ≤ 2 ^ 64) :
    (m : G.Scalar) = (n : G.Scalar) ↔ m = n := by
  have hfinite : Finite G.Scalar := Nat.finite_of_card_ne_zero hG.prime_order.ne_zero
  have := Fintype.ofFinite G.Scalar
  have hprime : Fact (Nat.card G.Scalar).Prime := ⟨hG.prime_order⟩
  have hchar : CharP G.Scalar (Nat.card G.Scalar) :=
    charP_of_card_eq_prime Nat.card_eq_fintype_card.symm
  constructor
  · intro h
    exact CharP.natCast_injOn_Iio G.Scalar _ (hm.trans_lt hG.large_order)
      (hn.trans_lt hG.large_order) h
  · rintro rfl
    rfl

theorem ofWord_injective : Function.Injective G.ofWord := by
  intro v w h
  rw [ofWord_eq_cast, ofWord_eq_cast, natCast_inj v.toNat_lt.le w.toNat_lt.le] at h
  exact UInt64.toNat_inj.1 h

/-! ## Multiples -/

theorem mulGenerator_injective : Function.Injective G.mulGenerator := by
  intro k l h
  have hsub : (k - l) • G.generator = 0 := by
    rw [sub_smul]
    exact sub_eq_zero.2 h
  rcases smul_eq_zero.1 hsub with hkl | hgenerator
  · exact sub_eq_zero.1 hkl
  · exact absurd hgenerator hG.generator_ne_zero

end PlaintextEquivalence.PrimeGroup
