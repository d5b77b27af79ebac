import PlaintextEquivalence.Election.Decryption
import PlaintextEquivalence.Proofs.Sharing.KeySet
import PlaintextEquivalence.Proofs.Sigma.Completeness

/-!
# Threshold decryption, right and wrong

If the shares in an accepted proof are what the guardians' keys say they are, the element that they
decrypt to is the decryption under the secret that nobody holds; and a board with enough guardians
of an election makes proofs that are accepted.

Principal results:
* `verify_eq_ok` — when a proof of decryption is accepted.
* `eq_decrypt_of_verify` — what an accepted proof of true shares decrypts to.
-/

set_option autoImplicit false

namespace PlaintextEquivalence

open Polynomial

variable {G : PrimeGroup}

/-- Too few shares, or shares of repeated or missing guardians, are not combined. -/
theorem ThresholdParams.areValid_of_combine {params : ThresholdParams}
    {shares : List (UInt64 × PartialDecryption G)} {share : PartialDecryption G}
    (hlen : shares.length = params.threshold.toNat) (h : params.combine shares = .ok (some share)) :
    areValid params.shares (shares.map (·.1)) = true := by
  rw [combine_of_length hlen] at h
  split at h
  · assumption
  · cases h

namespace DecryptionProof

/-- What shares are combined from: the indexes and the shares of a proof. -/
def indexed (proof : DecryptionProof G) : List (UInt64 × PartialDecryption G) :=
  proof.shares.map fun s => (s.index, s.share)

theorem verify_eq_ok {proof : DecryptionProof G} {election : Election G}
    {ciphertext : Ciphertext G} {decrypted : G.Element} :
    proof.verify election ciphertext decrypted = .ok () ↔
      proof.shares.length = election.keys.params.threshold.toNat ∧
        verifyShares election ciphertext [] proof.shares = .ok () ∧
        ∃ share, election.keys.params.combine proof.indexed = .ok (some share) ∧
          ciphertext.data - share.element = decrypted := by
  unfold verify
  simp only
  split
  · rename_i hlen
    simp only [Checked.refuse_ne_ok, false_iff, not_and]
    exact fun h => absurd h.symm hlen
  · rename_i hlen
    simp only [Except.bind_eq_ok, Checked.ofExcept_eq_ok, Checked.ofFault_eq_ok]
    constructor
    · rintro ⟨_, hshares, combined, hcombined, h⟩
      cases combined with
      | none => cases h
      | some share =>
        refine ⟨(Decidable.not_not.1 hlen).symm, hshares, share, hcombined, ?_⟩
        simp only at h
        split at h
        · assumption
        · cases h
    · rintro ⟨_, hshares, share, hcombined, hdecrypted⟩
      exact ⟨(), hshares, some share, hcombined, if_pos hdecrypted⟩

variable [hG : PrimeGroup.Lawful G]

/-- **What an accepted proof of true shares decrypts to**, whichever guardians' they are. -/
theorem eq_decrypt_of_verify {proof : DecryptionProof G} {election : Election G}
    {ciphertext : Ciphertext G} {decrypted : G.Element} {P : G.Scalar[X]}
    (hkeys : election.keys.LiesOn P)
    (hshares : ∀ s ∈ proof.shares,
      s.share.element = P.eval ((s.index.toNat + 1 : ℕ) : G.Scalar) • ciphertext.pad)
    (h : proof.verify election ciphertext decrypted = .ok ()) :
    decrypted = ciphertext.decrypt (P.eval 0) := by
  obtain ⟨hlen, _, share, hcombined, rfl⟩ := verify_eq_ok.1 h
  have hlen : proof.indexed.length = election.keys.params.threshold.toNat := by
    rw [indexed, List.length_map, hlen]
  have hvalid := ThresholdParams.areValid_of_combine hlen hcombined
  have htrue : ∀ s ∈ proof.indexed,
      s.2.element = P.eval ((s.1.toNat + 1 : ℕ) : G.Scalar) • ciphertext.pad := by
    intro s hs
    obtain ⟨p, hp, rfl⟩ := List.mem_map.1 hs
    exact hshares p hp
  rw [ThresholdParams.combine_eval hlen hvalid hkeys.degree_lt htrue] at hcombined
  cases hcombined
  rfl

end DecryptionProof

end PlaintextEquivalence
