import PlaintextEquivalence.Election.Basic
import PlaintextEquivalence.Proofs.Elgamal.Ciphertext
import PlaintextEquivalence.Sigma.Blinding

/-!
# Honest proofs are accepted

In a lawful group the commitments that a verifier restores from an honest proof are those that the
prover made, so that the challenge comes out the same, whatever it is derived from.

Principal results:
* `expectedCommitments_honest`, `Blinding.verify_honest` — what is restored from an honest blinding, and
  that it is accepted.
* `verify_prove` — an honest proof of equal logarithms is accepted.
* `verifyShare_proveShare` — the share of a guardian with the right secret is accepted.
-/

set_option autoImplicit false

namespace PlaintextEquivalence

variable {G : PrimeGroup} [PrimeGroup.Lawful G]

theorem PrimeGroup.sumMultiples_pair (k l : G.Scalar) (a b : G.Element) :
    G.sumMultiples [(k, a), (l, b)] = k • a + l • b := by
  simp [sumMultiples]

/-! ## Blinding -/

/-- The commitments restored from any answer about a multiple of the ratio are a multiple of it. -/
theorem Blinding.expectedCommitments_smul (ratio : Ciphertext G) (exponent c v : G.Scalar) :
    expectedCommitments ratio (exponent • ratio) c v = (v + c * exponent) • ratio := by
  have hsum : ∀ a : G.Element, v • a + c • exponent • a = (v + c * exponent) • a := by
    intro a
    rw [add_smul, mul_smul]
  ext
  · exact (PrimeGroup.sumMultiples_pair _ _ _ _).trans (hsum ratio.pad)
  · exact (PrimeGroup.sumMultiples_pair _ _ _ _).trans (hsum ratio.data)

/-- If the response is the mask less the challenged exponent, the mask is restored. -/
theorem Blinding.expectedCommitments_honest (ratio : Ciphertext G) (exponent mask c : G.Scalar) :
    expectedCommitments ratio (exponent • ratio) c (mask - c * exponent) = mask • ratio := by
  rw [expectedCommitments_smul, sub_add_cancel]

/-- An honest proof of a blinding is accepted. -/
theorem Blinding.verify_honest (election : Election G) (ratio : Ciphertext G)
    (exponent mask : G.Scalar) {c : G.Scalar}
    (hc : c = challengeFor election ratio (exponent • ratio) (mask • ratio)) :
    (⟨c, mask - c * exponent⟩ : Blinding G).verify election ratio (exponent • ratio) = .ok () := by
  unfold verify
  simp only [expectedCommitments_honest]
  exact if_pos hc.symm

/-! ## Equality of logarithms -/

namespace LogEquality

/-- The commitments restored from any answer about true powers are powers of one number. -/
theorem commitments_powers (base : PublicKey G) (secret c s : G.Scalar) :
    (⟨c, s⟩ : LogEquality G).commitments base (G.mulGenerator secret, secret • base.element) =
      (G.mulGenerator (s - c * secret), (s - c * secret) • base.element) := by
  have hpower : ∀ a : G.Element, -c • secret • a + s • a = (s - c * secret) • a := by
    intro a
    rw [smul_smul, ← add_smul, neg_mul, neg_add_eq_sub]
  unfold commitments
  rw [PrimeGroup.sumMultiples_pair, PrimeGroup.sumMultiples_pair]
  exact Prod.ext (hpower G.generator) (hpower base.element)

/-- The commitments restored from a proof with the randomness `x` are those made with it. -/
theorem commitments_honest (base : PublicKey G) (secret c x : G.Scalar) :
    (⟨c, c * secret + x⟩ : LogEquality G).commitments base
      (G.mulGenerator secret, secret • base.element) = (G.mulGenerator x, x • base.element) := by
  rw [commitments_powers, add_sub_cancel_left]

theorem verify_proveWith (base : PublicKey G) (secret : G.Scalar) (t : Transcript) (x : G.Scalar) :
    ((proveWith base secret (G.mulGenerator secret, secret • base.element) t x).1.verify base
      (G.mulGenerator secret, secret • base.element) t).1 = .ok () := by
  unfold verify proveWith
  simp only [commitments_honest, if_true]

/-- An honest proof of equal logarithms is accepted. -/
theorem verify_prove (base : PublicKey G) (secret : G.Scalar) (t : Transcript) (tape : Tape) :
    ((prove base secret (G.mulGenerator secret, secret • base.element) t tape).1.verify base
      (G.mulGenerator secret, secret • base.element) t).1 = .ok () :=
  verify_proveWith base secret t _

end LogEquality

/-! ## Guardians -/

/-- The share of a guardian with the right secret is accepted. -/
theorem Election.verifyShare_proveShare {election : Election G} {index : UInt64}
    {key : PublicKey G} {secret : G.Scalar} (hkey : election.keys.participantKey? index = some key)
    (hsecret : key.element = G.mulGenerator secret) (ciphertext : Ciphertext G) (tape : Tape) :
    election.verifyShare (election.proveShare index secret ciphertext tape).1.1 ciphertext index
      (election.proveShare index secret ciphertext tape).1.2 = .ok () := by
  unfold verifyShare
  rw [hkey]
  simp only [hsecret]
  exact LogEquality.verify_prove (PublicKey.ofElement ciphertext.pad) secret _ tape

end PlaintextEquivalence
