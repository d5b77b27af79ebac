import PlaintextEquivalence.Curve.Subgroup
import PlaintextEquivalence.Proofs.Curve.Field

/-!
# The bytes of a point that is read

A point of the prime-order subgroup is read from the bytes that it is written as, and the neutral point
from three byte strings more: with the sign of a zero `x` set, with a `y` that is not reduced, and with
both.  No other point is read from bytes other than its own, though nothing in reading asks for it:
of the `y` that fit into 255 bits without being reduced only one belongs to the subgroup, and so does
only one of the two points with a zero `x`.

Principal results:
* `ofBytes?_aliases` — the three byte strings are read as the neutral point.
* `toBytes_eq_iff` — every other byte string that is read is written back.
-/

set_option autoImplicit false

namespace PlaintextEquivalence.Curve.Affine

open scoped Fin.CommRing

variable {y : Field} {sign : Bool} {a : Affine} {bytes : Bytes}

/-- The byte strings that are read as the neutral point and are not those that it is written as. -/
def aliases : List Bytes :=
  [1 + Nat.pow 2 255, fieldPrime + 1, fieldPrime + 1 + Nat.pow 2 255].map (Bytes.ofNat 32)

/-- **The three byte strings** are read as the neutral point, which is not written as them. -/
theorem ofBytes?_aliases :
    ∀ bytes ∈ aliases, ofBytes? bytes = some neutral ∧ neutral.toBytes ≠ bytes := by
  decide +kernel

/-- A point with a given `y` has a side that is not negative, or its opposite. -/
theorem exists_of_ofY?_eq_some (h : ofY? y sign = some a) :
    ∃ x : Field, a = ⟨if sign then -x else x, y⟩ ∧ x.isNegative = false ∧
      (y * y * edwardsD + 1) * (x * x) = y * y - 1 := by
  simp only [ofY?] at h
  split at h
  case isFalse => cases h
  case isTrue hsquare =>
    cases h
    exact ⟨_, rfl, Field.isNegative_sqrtRatio _ _, Field.mul_sqrtRatio hsquare⟩

/-- The point opposite to the neutral one is not in the subgroup. -/
theorem isTorsionFree_opposite : isTorsionFree ⟨0, -1⟩ = false := by decide +kernel

/-- The only point of the subgroup with a zero `x` is the neutral one. -/
theorem sign_of_ofY?_eq_some (h : ofY? y sign = some a) (hfree : a.isTorsionFree = true) :
    a.y = y ∧ (a.x.isNegative = sign ∨ sign = true ∧ y = 1) := by
  obtain ⟨x, rfl, hsign, hcurve⟩ := exists_of_ofY?_eq_some h
  refine ⟨rfl, ?_⟩
  cases sign with
  | false => exact .inl hsign
  | true =>
    by_cases hx : x = 0
    · -- the curve meets the line of zero `x` in the neutral point and in its opposite
      subst hx
      have hroot : y * y = 1 := by linear_combination -hcurve
      rcases mul_self_eq_one_iff.1 hroot with hy | rfl
      · exact .inr ⟨rfl, hy⟩
      · rw [if_pos rfl, neg_zero, isTorsionFree_opposite] at hfree
        cases hfree
    · refine .inl ((Field.isNegative_neg hx).trans ?_)
      rw [hsign, Bool.not_false]

/-- Of the nineteen heights that fit into 255 bits without being reduced, only the one after the modulus
belongs to the subgroup. -/
theorem not_isTorsionFree_of_lt : ∀ k : Fin 19, ∀ sign, k ≠ 1 →
    (ofY? (Field.ofNat k) sign).all (fun a => !a.isTorsionFree) = true := by
  decide +kernel

theorem eq_some_of_ofBytes?_eq_some (h : ofBytes? bytes = some a) :
    bytes.length = 32 ∧ a.isTorsionFree = true ∧
      ofY? (Field.ofNat (bytes.toNat % Nat.pow 2 255)) (bytes.toNat.testBit 255) = some a := by
  simp only [ofBytes?] at h
  split at h
  case isFalse => cases h
  case isTrue hlength =>
    split at h
    case h_2 => cases h
    case h_1 point hpoint =>
      split at h
      case isFalse => cases h
      case isTrue hfree =>
        cases h
        exact ⟨hlength, hfree, hpoint⟩

/-- Thirty-two bytes are 255 bits and one. -/
theorem toNat_eq_add (hlength : bytes.length = 32) :
    bytes.toNat = bytes.toNat % Nat.pow 2 255 +
      if bytes.toNat.testBit 255 then Nat.pow 2 255 else 0 := by
  have hlt : bytes.toNat < 2 ^ (255 + 1) := by simpa [hlength] using Bytes.toNat_lt bytes
  have hmod : bytes.toNat % 2 ^ (255 + 1) =
      bytes.toNat % 2 ^ 255 + 2 ^ 255 * (bytes.toNat.testBit 255).toNat := by
    rw [Nat.mod_pow_succ, Nat.toNat_testBit]
  rw [Nat.mod_eq_of_lt hlt] at hmod
  refine hmod.trans ?_
  cases bytes.toNat.testBit 255 <;> rfl

/-- The height of a point that is read is reduced, or it is one above the modulus. -/
theorem lt_or_eq_of_ofY? {m : ℕ} (hm : m < Nat.pow 2 255)
    (h : ofY? (Field.ofNat m) sign = some a) (hfree : a.isTorsionFree = true) :
    m < fieldPrime ∨ m = fieldPrime + 1 := by
  by_contra hnot
  obtain ⟨hle, hne⟩ := not_or.1 hnot
  have hsum : fieldPrime + 19 = Nat.pow 2 255 := by decide
  obtain ⟨k, rfl⟩ := Nat.exists_eq_add_of_le (not_lt.1 hle)
  have hk : k < 19 := by omega
  have hofNat : Field.ofNat (fieldPrime + k) = Field.ofNat k :=
    Fin.ext (Nat.add_mod_left fieldPrime k)
  have hk1 : (⟨k, hk⟩ : Fin 19) ≠ 1 := fun hone => hne (congrArg (fieldPrime + ·) (Fin.ext_iff.1 hone))
  have hall := not_isTorsionFree_of_lt ⟨k, hk⟩ sign hk1
  rw [← hofNat, h, Option.all_some, hfree] at hall
  cases hall

/-- **Every other byte string that is read is written back.** -/
theorem toBytes_eq_iff (h : ofBytes? bytes = some a) : a.toBytes = bytes ↔ bytes ∉ aliases := by
  constructor
  · intro hbytes halias
    obtain ⟨hread, hne⟩ := ofBytes?_aliases bytes halias
    rw [hread, Option.some.injEq] at h
    exact hne (h ▸ hbytes)
  · intro hnot
    obtain ⟨hlength, hfree, hpoint⟩ := eq_some_of_ofBytes?_eq_some h
    have hbytes : Bytes.ofNat 32 bytes.toNat = bytes := hlength ▸ Bytes.ofNat_toNat bytes
    have hnumber := toNat_eq_add hlength
    have hother : bytes.toNat ∉ [1 + Nat.pow 2 255, fieldPrime + 1, fieldPrime + 1 + Nat.pow 2 255] :=
      fun hmem => hnot (hbytes ▸ List.mem_map_of_mem hmem)
    simp only [List.mem_cons, not_or] at hother
    obtain ⟨hnegative, hunreduced, hboth, -⟩ := hother
    obtain ⟨hy, hside⟩ := sign_of_ofY?_eq_some hpoint hfree
    rcases lt_or_eq_of_ofY? (Nat.mod_lt _ (by decide)) hpoint hfree with hlt | heq
    · have hval : (Field.ofNat (bytes.toNat % Nat.pow 2 255)).val = bytes.toNat % Nat.pow 2 255 :=
        Nat.mod_eq_of_lt hlt
      rcases hside with hsign | ⟨hsign, hone⟩
      · rw [toBytes, hy, hval, hsign, ← hnumber, hbytes]
      · rw [hsign, if_pos rfl, ← hval, hone] at hnumber
        exact absurd hnumber hnegative
    · rw [heq] at hnumber
      split at hnumber
      · exact absurd hnumber hboth
      · exact absurd hnumber hunreduced

end PlaintextEquivalence.Curve.Affine
