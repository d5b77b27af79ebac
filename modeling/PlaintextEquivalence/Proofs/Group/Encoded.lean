import PlaintextEquivalence.Proofs.Group.Residue

/-!
# Byte forms of scalars and elements

What is asked of the byte forms of a group: they have the sizes that are announced, and a scalar or an
element is read from its own.

Principal results:
* `elementBytes_injective` — different elements have different bytes.
* `encoded_residues` — residues are read from their bytes, modulo a number that fits into them.
-/

set_option autoImplicit false

namespace PlaintextEquivalence.PrimeGroup

/-- Scalars and elements have byte forms of fixed sizes, and are read from them. -/
class Encoded (G : PrimeGroup) : Prop where
  length_scalarBytes : ∀ k : G.Scalar, (G.scalarBytes k).length = G.scalarSize
  scalarOfBytes?_scalarBytes : ∀ k : G.Scalar, G.scalarOfBytes? (G.scalarBytes k) = some k
  length_elementBytes : ∀ a : G.Element, (G.elementBytes a).length = G.elementSize
  elementOfBytes?_elementBytes : ∀ a : G.Element, G.elementOfBytes? (G.elementBytes a) = some a

/-- Different elements have different bytes. -/
theorem elementBytes_injective {G : PrimeGroup} [Encoded G] : Function.Injective G.elementBytes := by
  intro a b hbytes
  have hread := congrArg G.elementOfBytes? hbytes
  rwa [Encoded.elementOfBytes?_elementBytes, Encoded.elementOfBytes?_elementBytes,
    Option.some.injEq] at hread

/-- Residues are read from their bytes, modulo a number that fits into them. -/
theorem encoded_residues {p : ℕ} (hpos : p ≠ 0) (hp : p ≤ Nat.pow 256 32) : Encoded (residues p) := by
  have hnonzero : NeZero p := ⟨hpos⟩
  have hread : ∀ a : ZMod p, (if (Bytes.ofNat 32 a.val).toNat < p then
      some ((Bytes.ofNat 32 a.val).toNat : ZMod p) else none) = some a := by
    intro a
    have hlt := ZMod.val_lt a
    rw [Bytes.toNat_ofNat (Nat.lt_of_lt_of_le hlt hp), if_pos hlt, ZMod.natCast_zmod_val]
  exact
    { length_scalarBytes := fun _ => Bytes.length_ofNat _ _
      scalarOfBytes?_scalarBytes := hread
      length_elementBytes := fun _ => Bytes.length_ofNat _ _
      elementOfBytes?_elementBytes := hread }

instance : Encoded (residues modulus) := encoded_residues prime_modulus.ne_zero (by decide)

end PlaintextEquivalence.PrimeGroup
