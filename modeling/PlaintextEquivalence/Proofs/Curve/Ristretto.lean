import PlaintextEquivalence.Curve.Ristretto
import PlaintextEquivalence.Proofs.Curve.Field

/-!
# An encoding is that of its point

An element of the ristretto255 group is held as a field number.  The number of an element that was
read decodes to a point whose canonical encoding it is: encoding takes the inverse root of a square, and
of the two numbers that it may give the one that is not negative is the number that was decoded.

Principal results:
* `isDecoding_decode` — what is known of the point that a number properly decodes to.
* `IsDecoding.encode_eq` — such a point is encoded to the number.
* `encode_toPoint` — an element that was read is the encoding of its point.
-/

set_option autoImplicit false

namespace PlaintextEquivalence.Curve.Ristretto

open scoped Fin.CommRing

variable {s x y : Field}

/-- A number and the coordinates of a point that it properly decodes to. -/
structure IsDecoding (s x y : Field) : Prop where
  height : s * s * (1 + y) = 1 - y
  side_eq_zero : x = 0 ↔ s = 0
  side_sign : x.isNegative = false
  product_sign : (x * y).isNegative = false
  height_ne_zero : y ≠ 0

/-- **What is known of the point** that a number properly decodes to. -/
theorem isDecoding_decode (h : (decode s).2 = true) :
    ∃ x y, (decode s).1 = ⟨x, y, 1, x * y⟩ ∧ IsDecoding s x y := by
  simp only [decode, Bool.and_eq_true, Bool.not_eq_true', bne_iff_ne] at h ⊢
  obtain ⟨⟨hsquare, hproduct⟩, hheight⟩ := h
  have hinverse := Field.mul_sqrtRatio hsquare
  generalize (Field.sqrtRatio 1 _).2 = inv at hinverse hproduct hheight ⊢
  refine ⟨_, _, rfl, ?height, ?side_eq_zero, Field.isNegative_abs _, hproduct, hheight⟩
  case height => linear_combination (1 - s * s) * hinverse
  case side_eq_zero =>
    have hinv : inv ≠ 0 := by
      rintro rfl
      exact zero_ne_one (by linear_combination hinverse)
    have hu2 : 1 + s * s ≠ 0 := fun hzero => by
      rw [hzero] at hinverse
      exact zero_ne_one (by linear_combination hinverse)
    rw [Field.abs_eq_zero, mul_eq_zero, or_iff_left (mul_ne_zero hinv hu2), Field.add_self_eq_zero]

/-- **Such a point is encoded to the number.** -/
theorem IsDecoding.encode_eq (h : IsDecoding s x y) (hs : s.isNegative = false) :
    encode ⟨x, y, 1, x * y⟩ = ⟨s⟩ := by
  simp only [encode]
  have hradicand : (1 + y) * (1 - y) * (x * y * (x * y)) =
      s * (1 + y) * (x * y) * (s * (1 + y) * (x * y)) := by
    linear_combination -(1 + y) * (x * y) * (x * y) * h.height
  by_cases hzero : s = 0
  · -- the neutral element is set apart: the number under the root is zero
    simp only [h.side_eq_zero.2 hzero, hzero, zero_mul, mul_zero, Field.isNegative_zero,
      Bool.false_eq_true, if_false]
    rfl
  · have hside : 1 + y ≠ 0 := fun hy => by
      have htwo : (1 : Field) + 1 = 0 := by linear_combination (1 + s * s) * hy - h.height
      exact one_ne_zero (Field.add_self_eq_zero.1 htwo)
    have hw : s * (1 + y) * (x * y) ≠ 0 :=
      mul_ne_zero (mul_ne_zero hzero hside)
        (mul_ne_zero (mt h.side_eq_zero.1 hzero) h.height_ne_zero)
    have hinverse := Field.mul_sqrtRatio (Field.isSquare_sqrtRatio hw)
    rw [hradicand]
    generalize (Field.sqrtRatio 1 _).2 = inv at hinverse ⊢
    -- the inverse of `z` comes out as one, so that nothing is turned or negated
    have hone : inv * ((1 + y) * (1 - y)) * (inv * (x * y)) * (x * y) = 1 := by
      linear_combination hinverse + inv * inv * hradicand
    simp only [hone, mul_one, h.product_sign, h.side_sign, Bool.false_eq_true, if_false]
    refine congrArg Ristretto.mk (Field.abs_eq_of_mul_self_eq hs ?_)
    linear_combination s * s * hinverse -
      inv * inv * (x * y) * (x * y) * ((1 - y) + s * s * (1 + y)) * h.height

/-- **An element that was read** is the encoding of its point. -/
theorem encode_toPoint {bytes : Bytes} {a : Ristretto} (h : ofBytes? bytes = some a) :
    encode a.toPoint = a := by
  simp only [ofBytes?] at h
  split at h
  case isFalse => cases h
  split at h
  case isFalse => cases h
  split at h
  case isFalse => cases h
  case isTrue hread =>
    cases h
    rw [Bool.and_eq_true, Bool.not_eq_true'] at hread
    obtain ⟨x, y, hpoint, hdecoding⟩ := isDecoding_decode hread.2
    rw [toPoint, hpoint, hdecoding.encode_eq hread.1]

end PlaintextEquivalence.Curve.Ristretto
