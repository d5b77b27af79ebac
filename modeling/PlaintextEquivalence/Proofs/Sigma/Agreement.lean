import PlaintextEquivalence.Proofs.Sigma.Binding
import PlaintextEquivalence.Proofs.Sigma.Completeness

/-!
# Provers and verifiers in step

A prover of equal logarithms makes its commitments, a verifier restores them, and both absorb what they
have and take the challenge from that.  Whatever was absorbed before, the two transcripts are the same
afterwards just if the commitments are; and these are the same for the powers of the prover's secret, and
for other powers only if the challenge happens to be zero.

Principal results:
* `challengeScalar_inj` — what a challenge was taken from can be told.
* `commitments_proveWith` — what is restored from a proof about any powers.
* `commitments_eq_iff` — when that is what the prover committed to.
* `agrees_iff_powers` — an honest proof is accepted in step, and one about other powers is not in step.
-/

set_option autoImplicit false

namespace PlaintextEquivalence

/-- The transcript in which a challenge was taken tells what it was taken from. -/
theorem Transcript.challengeScalar_inj (G : PrimeGroup) {t t' : Transcript} {label : String} :
    (t.challengeScalar G label).2 = (t'.challengeScalar G label).2 ↔ t = t' := by
  constructor
  · intro h
    obtain ⟨hlabel, hentries⟩ := Transcript.mk.inj h
    exact (entries_eq_iff hlabel).1 (List.append_inj' hentries rfl).1
  · rintro rfl
    rfl

variable {G : PrimeGroup}

namespace LogEquality

/-- The multiples of both bases by one number. -/
def powersOf (base : PublicKey G) (k : G.Scalar) : G.Element × G.Element :=
  (G.mulGenerator k, k • base.element)

/-! ## What is absorbed -/

section Absorbed

variable {base : PublicKey G} {secret x : G.Scalar} {powers : G.Element × G.Element} {t : Transcript}

/-- A prover absorbs its commitments and takes the challenge. -/
theorem transcript_proveWith (secret x : G.Scalar) :
    (proveWith base secret powers t x).2 =
      ((absorbed t base powers (powersOf base x)).challengeScalar G "c").2 :=
  rfl

/-- A verifier absorbs the commitments that it restores and takes the challenge. -/
theorem transcript_verify {proof : LogEquality G} :
    (proof.verify base powers t).2 =
      ((absorbed t base powers (proof.commitments base powers)).challengeScalar G "c").2 :=
  rfl

theorem label_absorbed (commitments : G.Element × G.Element) :
    (absorbed t base powers commitments).label = t.label :=
  rfl

/-- A proof from which the commitments are restored is accepted in step. -/
theorem verify_of_restored
    (h : (proveWith base secret powers t x).1.commitments base powers = powersOf base x) :
    (proveWith base secret powers t x).1.verify base powers t =
      (.ok (), (proveWith base secret powers t x).2) := by
  unfold verify
  rw [h]
  exact Prod.ext (if_pos rfl) rfl

end Absorbed

/-! ## What is restored -/

variable [hG : PrimeGroup.Lawful G] {base : PublicKey G} {powers : G.Element × G.Element}

/-- What is restored from a proof about any powers: the commitments, moved by the challenge along the
difference of the powers from those of the secret. -/
theorem commitments_proveWith (secret x : G.Scalar) (t : Transcript) :
    (proveWith base secret powers t x).1.commitments base powers =
      powersOf base x +
        (proveWith base secret powers t x).1.challenge • (powersOf base secret - powers) := by
  set proof := (proveWith base secret powers t x).1
  have hresponse : proof.response = proof.challenge * secret + x := rfl
  have hmoved : ∀ a b : G.Element, -proof.challenge • b + proof.response • a =
      x • a + proof.challenge • (secret • a - b) := by
    intro a b
    rw [hresponse]
    module
  unfold commitments
  rw [PrimeGroup.sumMultiples_pair, PrimeGroup.sumMultiples_pair]
  exact Prod.ext (hmoved G.generator powers.1) (hmoved base.element powers.2)

/-- **The commitments are restored** from a proof about the powers of the secret, and from one about other
powers only if its challenge is zero. -/
theorem commitments_eq_iff (secret x : G.Scalar) (t : Transcript) :
    (proveWith base secret powers t x).1.commitments base powers = powersOf base x ↔
      (proveWith base secret powers t x).1.challenge = 0 ∨ powers = powersOf base secret := by
  rw [commitments_proveWith, add_eq_left, smul_eq_zero, sub_eq_zero, eq_comm (a := powersOf base secret)]

/-- **An honest proof is accepted in step, and one about other powers is not in step.**  From any transcript
on, a proof about the powers of the secret is accepted, and the verifier ends with the prover's
transcript.  If a proof is made and checked with any powers, the prover absorbs its commitments and the
verifier those that it restores; these are the same, and so are all entries absorbed, just if the powers
are those of the secret or the challenge is zero. -/
theorem agrees_iff_powers (hinj : Function.Injective G.elementBytes) (base : PublicKey G)
    (secret : G.Scalar) (t : Transcript) (tape : Tape) :
    let honest := prove base secret (powersOf base secret) t tape
    honest.1.verify base (powersOf base secret) t = (.ok (), honest.2.1) ∧
    ∀ powers : G.Element × G.Element,
      let made := prove base secret powers t tape
      let committed := powersOf base (G.draw tape).1
      let restored := made.1.commitments base powers
      made.2.1 = ((absorbed t base powers committed).challengeScalar G "c").2 ∧
      (made.1.verify base powers t).2 = ((absorbed t base powers restored).challengeScalar G "c").2 ∧
      (restored = committed ↔ made.1.challenge = 0 ∨ powers = powersOf base secret) ∧
      ((absorbed t base powers restored).entries = (absorbed t base powers committed).entries ↔
        made.1.challenge = 0 ∨ powers = powersOf base secret) ∧
      ((made.1.verify base powers t).2 = made.2.1 ↔
        made.1.challenge = 0 ∨ powers = powersOf base secret) := by
  intro honest
  refine ⟨verify_of_restored ((commitments_eq_iff secret _ t).2 (.inr rfl)), ?_⟩
  intro powers made committed restored
  have hrestored : restored = committed ↔ made.1.challenge = 0 ∨ powers = powersOf base secret :=
    commitments_eq_iff secret (G.draw tape).1 t
  have habsorbed : absorbed t base powers restored = absorbed t base powers committed ↔
      restored = committed := by
    rw [absorbed_inj hinj]
    simp only [true_and]
  refine ⟨transcript_proveWith secret _, transcript_verify, hrestored, ?entries, ?after⟩
  case entries =>
    rw [Transcript.entries_eq_iff (by rw [label_absorbed, label_absorbed]), habsorbed, hrestored]
  case after =>
    have hafter : (made.1.verify base powers t).2 = made.2.1 ↔
        absorbed t base powers restored = absorbed t base powers committed :=
      Transcript.challengeScalar_inj G
    rw [hafter, habsorbed, hrestored]

end LogEquality

namespace Small

/-- A proof about the third multiples of the generator and of the identity is accepted in step; if it is
made of another multiple of the generator, it is in step only if its challenge is zero. -/
theorem agrees_small :
    let base : PublicKey Group := .ofElement 0
    let secret := Group.ofWord 3
    let powers := LogEquality.powersOf base secret
    let wrong := (Group.ofWord 4, powers.2)
    let t := Transcript.start "small"
    let tape : Tape := ⟨fun _ => List.replicate 64 1, 0⟩
    Function.Injective Group.elementBytes ∧
      (LogEquality.prove base secret powers t tape).1.verify base powers t =
        (.ok (), (LogEquality.prove base secret powers t tape).2.1) ∧
      ((LogEquality.prove base secret wrong t tape).1.commitments base wrong =
          LogEquality.powersOf base (Group.draw tape).1 ↔
        (LogEquality.prove base secret wrong t tape).1.challenge = 0) := by
  intro base secret powers wrong t tape
  have hinj : Function.Injective Group.elementBytes := PrimeGroup.elementBytes_injective
  obtain ⟨hhonest, hany⟩ := LogEquality.agrees_iff_powers hinj base secret t tape
  obtain ⟨-, -, hwrong, -⟩ := hany wrong
  refine ⟨hinj, hhonest, hwrong.trans (or_iff_left fun h => ?_)⟩
  exact absurd (congrArg Prod.fst h) (by decide)

end Small

end PlaintextEquivalence
