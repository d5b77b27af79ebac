import Mathlib.Data.List.Prime
import Mathlib.FieldTheory.Finite.Basic
import Mathlib.NumberTheory.LucasPrimality
import Mathlib.Tactic.LinearCombination
import Mathlib.Tactic.NormNum.Prime
import PlaintextEquivalence.Curve.Edwards

/-!
# Square roots in the field of the curve

The modulus of the curve is a prime, by Lucas's test down a chain of smaller primes.  So its numbers
are a domain in which a number has at most two square roots, one of them not negative, and the powers
that are taken along a chain of squarings find it.

Principal results:
* `prime_fieldPrime` — the modulus is a prime.
* `abs_eq_of_mul_self_eq` — a number that is not negative is determined by its square.
* `mul_sqrtRatio` — the root that is given of a quotient is one.
* `isSquare_sqrtRatio` — the inverse of a square is found to be a square.
-/

set_option autoImplicit false

namespace PlaintextEquivalence.Curve

open scoped Fin.CommRing

/-! ## The modulus is a prime -/

/-- The power of a number along the bits of an exponent, greatest first. -/
def power {M : Type} [Mul M] [One M] (a : M) (width n : ℕ) : M :=
  (bits width n).foldl (fun acc bit => if bit then acc * acc * a else acc * acc) 1

theorem foldl_bits {M : Type} [CommMonoid M] (a acc : M) (width n : ℕ) :
    (bits width n).foldl (fun acc bit => if bit then acc * acc * a else acc * acc) acc =
      acc ^ 2 ^ width * a ^ (n % 2 ^ width) := by
  induction width generalizing acc with
  | zero => simp [bits, Nat.mod_one]
  | succ width ih =>
    have hmod : n % 2 ^ (width + 1) = n % 2 ^ width + 2 ^ width * (n.testBit width).toNat := by
      rw [Nat.mod_pow_succ, Nat.toNat_testBit]
    rw [bits, List.foldl_cons, ih, hmod]
    cases n.testBit width with
    | false =>
      simp only [Bool.false_eq_true, if_false, Bool.toNat_false, mul_zero, add_zero]
      rw [← pow_two, ← pow_mul, ← pow_succ']
    | true =>
      simp only [if_true, Bool.toNat_true, mul_one]
      rw [mul_pow, ← pow_two, ← pow_mul, ← pow_succ', pow_add a, mul_assoc, mul_comm (a ^ 2 ^ width)]

theorem power_eq {M : Type} [CommMonoid M] (a : M) {width n : ℕ} (h : n < 2 ^ width) :
    power a width n = a ^ n := by
  rw [power, foldl_bits, one_pow, one_mul, Nat.mod_eq_of_lt h]

/-- Lucas's test: the factors of the number before a prime tell that it is one.  The small factors are seen
to be primes at once, the large ones have been shown to be. -/
theorem prime_of_factors {p : ℕ} (a : ZMod p) (small large : List ℕ) (hsmall : ∀ q ∈ small, q.Prime)
    (hlarge : ∀ q ∈ large, q.Prime) (hcheck : p < Nat.pow 2 256 ∧ (small ++ large).prod = p - 1 ∧
      power a 256 (p - 1) = 1 ∧ ∀ q ∈ small ++ large, power a 256 ((p - 1) / q) ≠ 1) : p.Prime := by
  obtain ⟨hsize, hprod, hone, hne⟩ := hcheck
  have hprime : ∀ q ∈ small ++ large, q.Prime := List.forall_mem_append.2 ⟨hsmall, hlarge⟩
  have hpower : ∀ n ≤ p - 1, power a 256 n = a ^ n := fun n hn =>
    power_eq a ((hn.trans (Nat.sub_le p 1)).trans_lt hsize)
  rw [hpower _ le_rfl] at hone
  refine lucas_primality p a hone fun q hq hdvd => ?_
  rw [← hprod, hq.prime.dvd_prod_iff] at hdvd
  obtain ⟨r, hr, hqr⟩ := hdvd
  rw [(Nat.prime_dvd_prime_iff_eq hq (hprime r hr)).1 hqr, ← hpower _ (Nat.div_le_self _ _)]
  exact hne r hr

theorem prime_2773320623 : Nat.Prime 2773320623 :=
  prime_of_factors 5 [2, 2437, 569003] [] (by norm_num) (List.forall_mem_nil _) (by decide +kernel)

theorem prime_72106336199 : Nat.Prime 72106336199 :=
  prime_of_factors 7 [2, 13] [2773320623] (by norm_num)
    (List.forall_mem_singleton.2 prime_2773320623) (by decide +kernel)

theorem prime_31757755568855353 : Nat.Prime 31757755568855353 :=
  prime_of_factors 10 [2, 2, 2, 3, 31, 107, 223, 4153, 430751] [] (by norm_num) (List.forall_mem_nil _)
    (by decide +kernel)

theorem prime_1919519569386763 : Nat.Prime 1919519569386763 :=
  prime_of_factors 2 [2, 3, 7, 19, 47, 47, 127, 8574133] [] (by norm_num) (List.forall_mem_nil _)
    (by decide +kernel)

theorem prime_75445702479781427272750846543864801 :
    Nat.Prime 75445702479781427272750846543864801 := by
  refine prime_of_factors 7 [2, 2, 2, 2, 2, 3, 3, 5, 5, 75707] [72106336199, 1919519569386763]
    (by norm_num) ?_ (by decide +kernel)
  exact List.forall_mem_cons.2 ⟨prime_72106336199,
    List.forall_mem_singleton.2 prime_1919519569386763⟩

theorem prime_factor_fieldPrime :
    Nat.Prime 74058212732561358302231226437062788676166966415465897661863160754340907 := by
  refine prime_of_factors 2 [2, 3, 353, 57467, 132049, 1923133]
    [31757755568855353, 75445702479781427272750846543864801] (by norm_num) ?_ (by decide +kernel)
  exact List.forall_mem_cons.2 ⟨prime_31757755568855353,
    List.forall_mem_singleton.2 prime_75445702479781427272750846543864801⟩

/-- **The modulus is a prime.** -/
theorem prime_fieldPrime : fieldPrime.Prime :=
  prime_of_factors 2 [2, 2, 3, 65147]
    [74058212732561358302231226437062788676166966415465897661863160754340907] (by norm_num)
    (List.forall_mem_singleton.2 prime_factor_fieldPrime) (by decide +kernel)

instance : IsDomain Field :=
  have : Fact fieldPrime.Prime := ⟨prime_fieldPrime⟩
  (ZMod.finEquiv fieldPrime).toMulEquiv.isDomain (ZMod fieldPrime)

namespace Field

variable {x u v : Field}

/-- Fermat's little theorem. -/
theorem pow_pred_eq_one (hx : x ≠ 0) : x ^ (fieldPrime - 1) = 1 := by
  have hfact : Fact fieldPrime.Prime := ⟨prime_fieldPrime⟩
  apply (ZMod.finEquiv fieldPrime).injective
  rw [map_pow, map_one]
  exact ZMod.pow_card_sub_one_eq_one ((map_ne_zero_iff _ (ZMod.finEquiv fieldPrime).injective).2 hx)

/-! ## Signs -/

theorem isNegative_neg (hx : x ≠ 0) : (-x).isNegative = !x.isNegative := by
  have hodd : fieldPrime % 2 = 1 := by decide
  have hpos : 0 < x.val := Nat.pos_of_ne_zero fun h => hx (Fin.ext h)
  have hlt := x.isLt
  have hval : (-x).val = fieldPrime - x.val := by
    rw [Fin.val_neg', Nat.mod_eq_of_lt (by omega)]
  rw [isNegative, isNegative, hval, Bool.eq_iff_iff]
  simp only [beq_iff_eq, Bool.not_eq_true', beq_eq_false_iff_ne]
  omega

theorem isNegative_zero : (0 : Field).isNegative = false := rfl

theorem abs_eq_self_or_neg (x : Field) : x.abs = x ∨ x.abs = -x := by
  unfold abs
  split
  · exact .inr rfl
  · exact .inl rfl

theorem abs_of_not_isNegative (hx : x.isNegative = false) : x.abs = x := by
  rw [abs, hx, if_neg Bool.false_ne_true]

theorem isNegative_abs (x : Field) : x.abs.isNegative = false := by
  cases hx : x.isNegative with
  | false => rwa [abs_of_not_isNegative hx]
  | true =>
    have hne : x ≠ 0 := fun h => by rw [h, isNegative_zero] at hx; cases hx
    rw [abs, hx, if_pos rfl, isNegative_neg hne, hx]
    rfl

theorem abs_mul_abs (x : Field) : x.abs * x.abs = x * x := by
  rcases abs_eq_self_or_neg x with h | h <;> rw [h]
  exact neg_mul_neg x x

theorem abs_eq_zero : x.abs = 0 ↔ x = 0 := by
  rw [← mul_self_eq_zero, abs_mul_abs, mul_self_eq_zero]

theorem add_self_eq_zero : x + x = 0 ↔ x = 0 := by
  have htwo : (2 : Field) ≠ 0 := by decide
  rw [← two_mul, mul_eq_zero, or_iff_right htwo]

/-- **A number that is not negative** is determined by its square. -/
theorem abs_eq_of_mul_self_eq {s : Field} (hs : s.isNegative = false) (h : x * x = s * s) :
    x.abs = s := by
  by_cases hzero : s = 0
  · subst hzero
    rw [mul_zero, mul_self_eq_zero] at h
    rw [h]
    rfl
  rcases mul_self_eq_mul_self_iff.1 h with rfl | rfl
  · exact abs_of_not_isNegative hs
  · rw [abs, isNegative_neg hzero, hs, Bool.not_false, if_pos rfl, neg_neg]

/-! ## Powers along chains of squarings -/

theorem squarings_eq (n : ℕ) (x : Field) : squarings n x = x ^ 2 ^ n := by
  induction n generalizing x with
  | zero => rw [squarings, pow_zero, pow_one]
  | succ n ih => rw [squarings, ih, ← pow_two, ← pow_mul, ← pow_succ']

/-- A power with a row of ones as its exponent is made of two shorter ones. -/
theorem squarings_mul (m n : ℕ) (x : Field) :
    squarings n (x ^ (2 ^ m - 1)) * x ^ (2 ^ n - 1) = x ^ (2 ^ (m + n) - 1) := by
  have hone : ∀ k, 1 ≤ 2 ^ k := fun k => Nat.one_le_two_pow
  rw [squarings_eq, ← pow_mul, ← pow_add, Nat.sub_mul, one_mul, ← pow_add,
    Nat.sub_add_sub_cancel (Nat.pow_le_pow_right two_pos (Nat.le_add_left n m)) (hone n)]

theorem longPower_eq (x : Field) : longPower x = (x ^ (2 ^ 250 - 1), x ^ 11) := by
  have h9 : squarings 2 (x * x) * x = x ^ 9 := by rw [squarings_eq]; ring
  have h11 : x ^ 9 * (x * x) = x ^ 11 := by ring
  have h5 : x ^ 11 * x ^ 11 * x ^ 9 = x ^ (2 ^ 5 - 1) := by ring
  simp only [longPower, h9, h11, h5, squarings_mul, Nat.reduceAdd]

theorem rootPower_eq (x : Field) : rootPower x = x ^ (2 ^ 252 - 3) := by
  have hexponent : (2 ^ 250 - 1) * 2 ^ 2 + 1 = 2 ^ 252 - 3 := by norm_num
  rw [rootPower, longPower_eq, squarings_eq, ← pow_mul, ← pow_succ, hexponent]

/-! ## Square roots -/

theorem rootOfMinusOne_mul_self : rootOfMinusOne * rootOfMinusOne = -1 := by decide +kernel

theorem isNegative_sqrtRatio (u v : Field) : (sqrtRatio u v).2.isNegative = false := by
  simp only [sqrtRatio]
  exact isNegative_abs _

/-- **The root that is given of a quotient is one.** -/
theorem mul_sqrtRatio (h : (sqrtRatio u v).1 = true) :
    v * ((sqrtRatio u v).2 * (sqrtRatio u v).2) = u := by
  simp only [sqrtRatio, Bool.or_eq_true, beq_iff_eq] at h ⊢
  generalize u * (v * v * v) * rootPower (u * (v * v * v * (v * v * v) * v)) = r at h ⊢
  have hflip : v * (rootOfMinusOne * r * (rootOfMinusOne * r)) = -(v * (r * r)) := by
    linear_combination v * r * r * rootOfMinusOne_mul_self
  rw [abs_mul_abs]
  split
  case isFalse hnot => exact h.resolve_right fun hminus => hnot (.inl hminus)
  case isTrue hsome =>
    rw [hflip]
    rcases h with hroot | hminus
    · -- a number that is its own opposite or a root of minus one times it is zero
      have hzero : u = 0 := by
        rcases hsome with hminus | htwice
        · exact add_self_eq_zero.1 (by linear_combination hminus - hroot)
        · have hproduct : u * (1 + rootOfMinusOne) = 0 := by linear_combination htwice - hroot
          exact (mul_eq_zero.1 hproduct).resolve_right (by decide +kernel)
      rw [hroot, hzero, neg_zero]
    · rw [hminus, neg_neg]

/-- **The inverse of a square is found to be a square.** -/
theorem isSquare_sqrtRatio {w : Field} (hw : w ≠ 0) : (sqrtRatio 1 (w * w)).1 = true := by
  have h6 : w * w * (w * w) * (w * w) = w ^ 6 := by ring
  have h14 : w ^ 6 * w ^ 6 * (w * w) = w ^ 14 := by ring
  have hroot : w ^ 6 * (w ^ 14) ^ (2 ^ 252 - 3) = w ^ (6 + 14 * (2 ^ 252 - 3)) := by
    rw [← pow_mul, ← pow_add]
  have hcheck : ∀ n, w * w * (w ^ n * w ^ n) = w ^ (2 + 2 * n) := fun n => by ring
  have hexponent : (2 + 2 * (6 + 14 * (2 ^ 252 - 3))) * 2 = (fieldPrime - 1) * 7 := by decide
  simp only [sqrtRatio, h6, one_mul, rootPower_eq, h14, hroot, hcheck, Bool.or_eq_true, beq_iff_eq]
  apply mul_self_eq_one_iff.1
  rw [← pow_two, ← pow_mul, hexponent, pow_mul, pow_pred_eq_one hw, one_pow]

end Field

end PlaintextEquivalence.Curve
