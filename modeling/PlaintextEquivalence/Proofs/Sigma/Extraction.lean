import PlaintextEquivalence.Blinding.Trustee
import PlaintextEquivalence.Proofs.Sigma.Agreement

/-!
# What two answers give away, and what one does not

Both proofs of knowledge restore commitments that are linear in the challenge and the response.  So two
answers to different challenges that restore the same commitments give the secret number away; and for
the true number, whatever the challenge and the response, the commitments restored are multiples by one
number, so that an answer can be made up without knowing it and shows nothing.

The two proofs have opposite signs: a trustee answers `v = u - c ξ`, a guardian `s = x + c r`.

Principal results:
* `eq_smul_of_add_smul_eq` — what two restored commitments say about a multiple.
* `Blinding.eq_smul_of_expectedCommitments`, `LogEquality.powers_eq_of_commitments` — what two answers
  give away.
* `expectedCommitments_smul`, `commitments_powers` — what is restored from any answer.
* `extractable_and_simulatable` — both proofs, together with what provers really answer.
-/

set_option autoImplicit false

namespace PlaintextEquivalence

/-- If multiples of two elements add up to the same in two ways, the second element is a multiple of the
first. -/
theorem eq_smul_of_add_smul_eq {K V : Type} [Field K] [AddCommGroup V] [Module K V] {a b : V}
    {c d v w : K} (hne : c ≠ d) (h : v • a + c • b = w • a + d • b) :
    b = ((v - w) / (d - c)) • a := by
  have hdiff : d - c ≠ 0 := sub_ne_zero.2 hne.symm
  have hcollected : (v - w) • a = (d - c) • b := by
    rw [sub_smul, sub_smul, sub_eq_sub_iff_add_eq_add, h, add_comm]
  rw [div_eq_inv_mul, mul_smul, hcollected, inv_smul_smul₀ hdiff]

variable {G : PrimeGroup} [PrimeGroup.Lawful G]

/-! ## Blinding -/

namespace Blinding

/-- **Two answers give the exponent away.** -/
theorem eq_smul_of_expectedCommitments {ratio blinded : Ciphertext G} {c d v w : G.Scalar}
    (hne : c ≠ d)
    (h : expectedCommitments ratio blinded c v = expectedCommitments ratio blinded d w) :
    blinded = ((v - w) / (d - c)) • ratio := by
  simp only [expectedCommitments, PrimeGroup.sumMultiples_pair, Ciphertext.mk.injEq] at h
  obtain ⟨hpad, hdata⟩ := h
  ext
  · exact eq_smul_of_add_smul_eq hne hpad
  · exact eq_smul_of_add_smul_eq hne hdata

end Blinding

/-- A trustee that answers two challenges gives its exponent away. -/
theorem BlindingTrustee.exponent_of_respond (pair : NoncePair G) {c d : G.Scalar} (hne : c ≠ d) :
    ((respond c pair).response - (respond d pair).response) / (d - c) = pair.exponent := by
  have hdiff : d - c ≠ 0 := sub_ne_zero.2 hne.symm
  have hresponses : pair.mask - c * pair.exponent - (pair.mask - d * pair.exponent) =
      pair.exponent * (d - c) := by
    ring
  rw [respond, respond, hresponses, mul_div_cancel_right₀ _ hdiff]

/-! ## Equality of logarithms -/

namespace LogEquality

variable {base : PublicKey G} {powers : G.Element × G.Element}

/-- **Two answers give the logarithm away**, and it is that of both powers. -/
theorem powers_eq_of_commitments {proof proof' : LogEquality G}
    (hne : proof.challenge ≠ proof'.challenge)
    (h : proof.commitments base powers = proof'.commitments base powers) :
    powers =
      (G.mulGenerator ((proof.response - proof'.response) / (proof.challenge - proof'.challenge)),
        ((proof.response - proof'.response) / (proof.challenge - proof'.challenge)) • base.element) := by
  have hneg : -proof.challenge ≠ -proof'.challenge := neg_injective.ne hne
  have hdiff : -proof'.challenge - -proof.challenge = proof.challenge - proof'.challenge := by ring
  -- the second term is the one with the response here, so that both sides are turned around first
  have hpower : ∀ a b : G.Element,
      -proof.challenge • b + proof.response • a = -proof'.challenge • b + proof'.response • a →
        b = ((proof.response - proof'.response) / (proof.challenge - proof'.challenge)) • a := by
    intro a b hab
    rw [add_comm, add_comm (-proof'.challenge • b)] at hab
    rw [← hdiff]
    exact eq_smul_of_add_smul_eq hneg hab
  simp only [commitments, PrimeGroup.sumMultiples_pair, Prod.mk.injEq] at h
  obtain ⟨hgenerator, hbase⟩ := h
  exact Prod.ext (hpower _ _ hgenerator) (hpower _ _ hbase)

/-- A prover that uses one random number in two transcripts gives the secret away. -/
theorem secret_of_proveWith (secret x : G.Scalar) (t t' : Transcript)
    (hne : (proveWith base secret powers t x).1.challenge ≠
      (proveWith base secret powers t' x).1.challenge) :
    ((proveWith base secret powers t x).1.response -
        (proveWith base secret powers t' x).1.response) /
      ((proveWith base secret powers t x).1.challenge -
        (proveWith base secret powers t' x).1.challenge) = secret := by
  have hresponse : ∀ t, (proveWith base secret powers t x).1.response =
      (proveWith base secret powers t x).1.challenge * secret + x := fun _ => rfl
  rw [hresponse, hresponse, add_sub_add_right_eq_sub, ← sub_mul,
    mul_div_cancel_left₀ _ (sub_ne_zero.2 hne)]

end LogEquality

/-! ## Both proofs -/

/-- **Both proofs give the secret away in two answers, and nothing in one.**  Two answers to different
challenges with the same commitments show by which number a ratio was blinded, or of which number both
powers are; and that is the number of the trustee or guardian, if it answered as it should.  For a true
statement any challenge and response restore commitments that are the multiples by one number.  The
commitments restored are all that the verifiers look at: they accept a proof just if its challenge is
the one taken after them, and one of equal logarithms goes on with the transcript in which it was taken. -/
theorem extractable_and_simulatable :
    (∀ (ratio blinded : Ciphertext G) (c d v w : G.Scalar), c ≠ d →
      Blinding.expectedCommitments ratio blinded c v = Blinding.expectedCommitments ratio blinded d w →
        blinded = ((v - w) / (d - c)) • ratio) ∧
    (∀ (ratio : Ciphertext G) (exponent c v : G.Scalar),
      Blinding.expectedCommitments ratio (exponent • ratio) c v = (v + c * exponent) • ratio) ∧
    (∀ (pair : NoncePair G) (c d : G.Scalar), c ≠ d →
      ((BlindingTrustee.respond c pair).response - (BlindingTrustee.respond d pair).response) /
        (d - c) = pair.exponent) ∧
    (∀ (base : PublicKey G) (powers : G.Element × G.Element) (c d s t : G.Scalar), c ≠ d →
      (⟨c, s⟩ : LogEquality G).commitments base powers =
          (⟨d, t⟩ : LogEquality G).commitments base powers →
        powers = (G.mulGenerator ((s - t) / (c - d)), ((s - t) / (c - d)) • base.element)) ∧
    (∀ (base : PublicKey G) (secret c s : G.Scalar),
      (⟨c, s⟩ : LogEquality G).commitments base (G.mulGenerator secret, secret • base.element) =
        (G.mulGenerator (s - c * secret), (s - c * secret) • base.element)) ∧
    (∀ (base : PublicKey G) (powers : G.Element × G.Element) (secret x : G.Scalar) (t t' : Transcript),
      let proof := (LogEquality.proveWith base secret powers t x).1
      let proof' := (LogEquality.proveWith base secret powers t' x).1
      proof.challenge ≠ proof'.challenge →
        (proof.response - proof'.response) / (proof.challenge - proof'.challenge) = secret) ∧
    (∀ (proof : Blinding G) (election : Election G) (ratio blinded : Ciphertext G),
      proof.verify election ratio blinded = .ok () ↔
        Blinding.challengeFor election ratio blinded
          (Blinding.expectedCommitments ratio blinded proof.challenge proof.response) =
            proof.challenge) ∧
    ∀ (proof : LogEquality G) (base : PublicKey G) (powers : G.Element × G.Element) (t : Transcript),
      let absorbed := LogEquality.absorbed t base powers (proof.commitments base powers)
      ((proof.verify base powers t).1 = .ok () ↔
          (absorbed.challengeScalar G "c").1 = proof.challenge) ∧
        (proof.verify base powers t).2 = (absorbed.challengeScalar G "c").2 := by
  refine ⟨?_, Blinding.expectedCommitments_smul, ?_, ?_, LogEquality.commitments_powers, ?_,
    fun _ _ _ _ => Blinding.verify_eq_ok,
    fun _ _ _ _ => ⟨LogEquality.verify_eq_ok, LogEquality.transcript_verify⟩⟩
  · exact fun _ _ _ _ _ _ hne h => Blinding.eq_smul_of_expectedCommitments hne h
  · exact fun pair _ _ hne => BlindingTrustee.exponent_of_respond pair hne
  · exact fun _ _ _ _ _ _ hne h => LogEquality.powers_eq_of_commitments hne h
  · exact fun _ _ secret x t t' hne => LogEquality.secret_of_proveWith secret x t t' hne

/-! ## Small answers -/

namespace Small

/-- Two answers about a ratio that is blinded by five, and two about the third powers of the generator and
of a joint key. -/
theorem extracted_small :
    let number := Group.ofWord
    let ratio : Ciphertext Group := ⟨number 2, number 11⟩
    let blinded : Ciphertext Group := ⟨number 10, number 55⟩
    let powers : Group.Element × Group.Element := (number 3, number 15)
    (Blinding.expectedCommitments ratio blinded (number 1) (number 12) =
        Blinding.expectedCommitments ratio blinded (number 3) (number 2) ∧
      blinded = ((number 12 - number 2) / (number 3 - number 1)) • ratio) ∧
    ((⟨number 4, number 18⟩ : LogEquality Group).commitments keys.sharedKey powers =
        (⟨number 2, number 12⟩ : LogEquality Group).commitments keys.sharedKey powers ∧
      powers = (Group.mulGenerator ((number 18 - number 12) / (number 4 - number 2)),
        ((number 18 - number 12) / (number 4 - number 2)) • keys.sharedKey.element)) := by
  intro number ratio blinded powers
  obtain ⟨hblinding, -, -, hpowers, -⟩ := extractable_and_simulatable (G := Group)
  have hsame : Blinding.expectedCommitments ratio blinded (number 1) (number 12) =
      Blinding.expectedCommitments ratio blinded (number 3) (number 2) := by
    decide +kernel
  have hsame' : (⟨number 4, number 18⟩ : LogEquality Group).commitments keys.sharedKey powers =
      (⟨number 2, number 12⟩ : LogEquality Group).commitments keys.sharedKey powers := by
    decide +kernel
  exact ⟨⟨hsame, hblinding _ _ _ _ _ _ (by decide) hsame⟩,
    hsame', hpowers _ _ _ _ _ _ (by decide) hsame'⟩

end Small

end PlaintextEquivalence
