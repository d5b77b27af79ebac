import PlaintextEquivalence.Proofs.Group.Lawful

/-!
# Residues as a group

The residues modulo a prime above `2 ^ 64` are a lawful group, generated by one, whose scalars they are
themselves.  Logarithms are plain to see in it, so it keeps no secrets; but it shows that the laws
can be had, and decryptions in it are easily followed.

Principal results:
* `lawful_residues` — the laws hold of the residues modulo a prime above `2 ^ 64`.
* `prime_modulus` — such a prime.
-/

set_option autoImplicit false

namespace PlaintextEquivalence.PrimeGroup

/-- The residues modulo a number, which bytes write from the lowest digit up. -/
def residues (p : ℕ) : PrimeGroup where
  Scalar := ZMod p
  Element := ZMod p
  scalarEq := inferInstance
  elementEq := inferInstance
  ofWord w := (w.toNat : ZMod p)
  addScalar := (· + ·)
  subScalar := (· - ·)
  mulScalar := (· * ·)
  negScalar := (- ·)
  invert := (·⁻¹)
  invertAll := List.map (·⁻¹)
  ofWide bytes := (bytes.toNat : ZMod p)
  scalarSize := 32
  scalarBytes k := Bytes.ofNat 32 k.val
  scalarOfBytes? bytes := if bytes.toNat < p then some (bytes.toNat : ZMod p) else none
  identity := 0
  generator := 1
  add := (· + ·)
  sub := (· - ·)
  neg := (- ·)
  smul := (· * ·)
  elementSize := 32
  elementBytes a := Bytes.ofNat 32 a.val
  elementOfBytes? bytes := if bytes.toNat < p then some (bytes.toNat : ZMod p) else none
  stopsAtShorter := false

section Laws

variable {p : ℕ}

theorem residues_zero : (0 : (residues p).Scalar) = (0 : ZMod p) :=
  (congrArg (Nat.cast (R := ZMod p)) UInt64.toNat_zero).trans Nat.cast_zero

theorem residues_one : (1 : (residues p).Scalar) = (1 : ZMod p) :=
  (congrArg (Nat.cast (R := ZMod p)) UInt64.toNat_one).trans Nat.cast_one

/-- The number after a number is the residue after its residue. -/
theorem residues_ofWord_next {w : UInt64} (h : w.toNat + 1 < 2 ^ 64) :
    (residues p).ofWord (w + 1) = (residues p).ofWord w + 1 := by
  have hnext : (w + 1).toNat = w.toNat + 1 := by
    rw [UInt64.toNat_add, UInt64.toNat_one, Nat.mod_eq_of_lt h]
  rw [residues_one]
  calc ((w + 1).toNat : ZMod p) = ((w.toNat + 1 : ℕ) : ZMod p) := by rw [hnext]
    _ = (w.toNat : ZMod p) + 1 := Nat.cast_succ _

/-- **The laws hold** of the residues modulo a prime above `2 ^ 64`. -/
theorem lawful_residues (hp : p.Prime) (hlarge : 2 ^ 64 < p) : Lawful (residues p) := by
  have hfact : Fact p.Prime := ⟨hp⟩
  have hcard : Nat.card (residues p).Scalar = p := Nat.card_zmod p
  refine
    { scalar_add_assoc := add_assoc (G := ZMod p)
      scalar_add_comm := add_comm (G := ZMod p)
      scalar_zero_add := ?zeroAdd
      scalar_neg_add := ?negAdd
      scalar_sub_eq := sub_eq_add_neg (G := ZMod p)
      scalar_mul_assoc := mul_assoc (G := ZMod p)
      scalar_mul_comm := mul_comm (G := ZMod p)
      scalar_one_mul := ?oneMul
      scalar_mul_add := mul_add (R := ZMod p)
      mul_invert := ?mulInvert
      invertAll_eq := fun _ _ => rfl
      ofWord_next := fun _ => residues_ofWord_next
      prime_order := hcard.symm ▸ hp
      large_order := hcard.symm ▸ hlarge
      add_assoc := add_assoc (G := ZMod p)
      add_comm := add_comm (G := ZMod p)
      zero_add := zero_add (M := ZMod p)
      neg_add := neg_add_cancel (G := ZMod p)
      sub_eq := sub_eq_add_neg (G := ZMod p)
      one_smul := ?oneSmul
      mul_smul := mul_assoc (G := ZMod p)
      smul_add := mul_add (R := ZMod p)
      add_smul := add_mul (R := ZMod p)
      generated := fun a => ⟨a, (mul_one (M := ZMod p) a).symm⟩
      generator_ne_zero := (one_ne_zero : (1 : ZMod p) ≠ 0) }
  case zeroAdd => rw [residues_zero]; exact zero_add (M := ZMod p)
  case negAdd => rw [residues_zero]; exact neg_add_cancel (G := ZMod p)
  case oneMul => rw [residues_one]; exact one_mul (M := ZMod p)
  case mulInvert =>
    rw [residues_zero, residues_one]
    intro (a : ZMod p) ha
    have hmul : a * a⁻¹ = 1 := mul_inv_cancel₀ ha
    exact hmul
  case oneSmul => rw [residues_one]; exact one_mul (M := ZMod p)

end Laws

/-- A prime above `2 ^ 64`. -/
def modulus : ℕ := 3 * 2 ^ 66 + 1

theorem prime_modulus : modulus.Prime := by
  unfold modulus
  refine lucas_primality _ 10 ?_ fun q hq hdvd => ?_
  · norm_num only
    reduce_mod_char
  · rw [Nat.add_sub_cancel] at hdvd
    have hfactor : q = 3 ∨ q = 2 :=
      ((Nat.Prime.dvd_mul hq).1 hdvd).imp (Nat.prime_dvd_prime_iff_eq hq Nat.prime_three).1
        (Nat.prime_eq_prime_of_dvd_pow hq Nat.prime_two)
    rcases hfactor with rfl | rfl
    · norm_num only
      reduce_mod_char
      decide +kernel
    · norm_num only
      reduce_mod_char
      decide +kernel

instance : Lawful (residues modulus) := lawful_residues prime_modulus (by decide)

end PlaintextEquivalence.PrimeGroup
