import PlaintextEquivalence.Proofs.Election.Board

/-!
# When a proof of decryption is accepted

Shares at different points are combined by the products `x_j / (x_j - x_i)` of Lagrange's formula at zero,
whatever the shares are and whether or not the keys of the election lie on a polynomial.  So the checks of
a proof of decryption, one share after the other, come to a condition in which the order of the shares
plays no part.

Principal results:
* `weight_eq` — the scaled multiples are Lagrange's products.
* `combine_weights` — what any shares are combined to.
* `verify_iff_weights` — when a proof is accepted.
-/

set_option autoImplicit false

namespace PlaintextEquivalence

variable {G : PrimeGroup}

/-! ## Weights -/

namespace Interpolation

variable [hG : PrimeGroup.Lawful G]

/-- The weight of an index at zero: the product of `x_j / (x_j - x_i)` over the other indexes. -/
def weight (indexes : Finset UInt64) (i : UInt64) : G.Scalar :=
  ∏ j ∈ indexes.erase i, node j / (node j - node i)

/-- The scaled multiples at zero are the weights. -/
theorem weight_eq {indexes : List UInt64} (hindexes : indexes.Nodup) {i : UInt64} (hi : i ∈ indexes) :
    (indexes.map node).prod * (denominatorOf indexes i : G.Scalar)⁻¹ = weight indexes.toFinset i := by
  have hfactor : ∀ j : UInt64, (0 - node j : G.Scalar) * (node i - node j)⁻¹ =
      node j / (node j - node i) := by
    intro j
    rw [← div_eq_mul_inv, zero_sub, ← neg_sub (node j), neg_div_neg_eq]
  rw [scaled_zero hindexes hi, eval_basis, ← Finset.prod_inv_distrib, ← Finset.prod_mul_distrib, weight]
  exact Finset.prod_congr rfl fun j _ => hfactor j

end Interpolation

namespace ThresholdParams

variable [hG : PrimeGroup.Lawful G] {params : ThresholdParams}
  {shares : List (UInt64 × PartialDecryption G)}

/-- **What any shares are combined to**: the sum of their multiples by the weights. -/
theorem combine_weights (hlen : shares.length = params.threshold.toNat)
    (hvalid : areValid params.shares (shares.map (·.1)) = true) :
    params.combine shares = .ok (some ⟨(shares.map fun s =>
      (Interpolation.weight (shares.map (·.1)).toFinset s.1 : G.Scalar) • s.2.element).sum⟩) := by
  obtain ⟨hnodup, hlt⟩ := areValid_iff.1 hvalid
  have hterm : ∀ s ∈ shares, ((shares.map (·.1)).map Interpolation.node : List G.Scalar).prod •
      (Interpolation.denominatorOf (shares.map (·.1)) s.1 : G.Scalar)⁻¹ • s.2.element =
        (Interpolation.weight (shares.map (·.1)).toFinset s.1 : G.Scalar) • s.2.element := by
    intro s hs
    rw [smul_smul, Interpolation.weight_eq hnodup (List.mem_map_of_mem hs)]
  rw [combine_of_length hlen, if_pos hvalid, Interpolation.coefficients_eq hlt]
  simp only [bind, Except.bind, Interpolation.combine, Interpolation.multiples, List.map_map]
  rw [Interpolation.multiply_eq (by simp), List.zip_map', List.map_map]
  simp only [pure, Except.pure, List.smul_sum, List.map_map, Function.comp_def] at hterm ⊢
  rw [List.map_congr_left hterm]

end ThresholdParams

/-! ## Acceptance -/

namespace DecryptionProof

/-- Each share has a key to be checked with. -/
theorem exists_key_of_verifyShare {election : Election G} {share : PartialDecryption G}
    {ciphertext : Ciphertext G} {index : UInt64} {proof : LogEquality G}
    (h : election.verifyShare share ciphertext index proof = .ok ()) :
    ∃ key, election.keys.participantKey? index = some key := by
  unfold Election.verifyShare at h
  split at h
  · cases h
  · rename_i key hkey
    exact ⟨key, hkey⟩

variable [hG : PrimeGroup.Lawful G]

/-- The combination of the shares of a proof by the weights of their indexes. -/
def combined (proof : DecryptionProof G) : G.Element :=
  (proof.shares.map fun s =>
    (Interpolation.weight (proof.shares.map (·.index)).toFinset s.index : G.Scalar) •
      s.share.element).sum

/-- The order of shares does not matter to their combination. -/
theorem combined_perm {proof other : DecryptionProof G} (h : other.shares.Perm proof.shares) :
    other.combined = proof.combined := by
  have hindexes : (other.shares.map (·.index)).toFinset = (proof.shares.map (·.index)).toFinset :=
    List.toFinset_eq_of_perm _ _ (h.map _)
  rw [combined, combined, hindexes]
  exact (h.map _).sum_eq

/-- Shares of as many different guardians as the threshold says are combined to that. -/
theorem combine_indexed {proof : DecryptionProof G} {params : ThresholdParams}
    (hlen : proof.shares.length = params.threshold.toNat)
    (hnodup : (proof.shares.map (·.index)).Nodup) (hlt : ∀ s ∈ proof.shares, s.index < params.shares) :
    params.combine proof.indexed = .ok (some ⟨proof.combined⟩) := by
  have hindexes : proof.indexed.map (·.1) = proof.shares.map (·.index) := by
    rw [indexed, List.map_map]
    rfl
  have hvalid : ThresholdParams.areValid params.shares (proof.indexed.map (·.1)) = true := by
    rw [hindexes, ThresholdParams.areValid_iff]
    exact ⟨hnodup, List.forall_mem_map.2 hlt⟩
  rw [ThresholdParams.combine_weights (by rw [indexed, List.length_map, hlen]) hvalid, hindexes]
  rw [indexed, List.map_map]
  rfl

/-- **When a proof of decryption is accepted**, in any election: it has as many shares as the threshold
says, of different guardians that exist and have keys, each share is proved, and the element is the datum
less the sum of the shares by their weights. -/
theorem verify_eq_ok_iff {proof : DecryptionProof G} {election : Election G}
    {ciphertext : Ciphertext G} {decrypted : G.Element} :
    proof.verify election ciphertext decrypted = .ok () ↔
      proof.shares.length = election.keys.params.threshold.toNat ∧
        (proof.shares.map (·.index)).Nodup ∧
        (∀ s ∈ proof.shares, s.index < election.keys.params.shares ∧
          (∃ key, election.keys.participantKey? s.index = some key) ∧
          election.verifyShare s.share ciphertext s.index s.proof = .ok ()) ∧
        decrypted = ciphertext.data - proof.combined := by
  rw [verify_eq_ok, verifyShares_eq_ok]
  constructor
  · rintro ⟨hlen, ⟨hnodup, hproved⟩, share, hcombined, rfl⟩
    have hcount : proof.indexed.length = election.keys.params.threshold.toNat := by
      rw [indexed, List.length_map, hlen]
    have hvalid := ThresholdParams.areValid_of_combine hcount hcombined
    have hlt : ∀ s ∈ proof.shares, s.index < election.keys.params.shares := by
      intro s hs
      refine (ThresholdParams.areValid_iff.1 hvalid).2 _ ?_
      rw [indexed, List.map_map]
      exact List.mem_map_of_mem hs
    rw [combine_indexed hlen hnodup hlt] at hcombined
    cases hcombined
    exact ⟨hlen, hnodup,
      fun s hs => ⟨hlt s hs, exists_key_of_verifyShare (hproved s hs).2, (hproved s hs).2⟩, rfl⟩
  · rintro ⟨hlen, hnodup, hshares, hdecrypted⟩
    exact ⟨hlen, ⟨hnodup, fun s hs => ⟨List.not_mem_nil, (hshares s hs).2.2⟩⟩, _,
      combine_indexed hlen hnodup fun s hs => (hshares s hs).1, hdecrypted.symm⟩

/-- **Just the proofs that meet the conditions are accepted**, whether or not the keys of the election fit
each other; the order of the shares does not matter, and no two elements are accepted for the same
shares. -/
theorem verify_iff_weights (election : Election G) (ciphertext : Ciphertext G)
    (proof : DecryptionProof G) (decrypted : G.Element) :
    (proof.verify election ciphertext decrypted = .ok () ↔
      proof.shares.length = election.keys.params.threshold.toNat ∧
        (proof.shares.map (·.index)).Nodup ∧
        (∀ s ∈ proof.shares, s.index < election.keys.params.shares ∧
          (∃ key, election.keys.participantKey? s.index = some key) ∧
          election.verifyShare s.share ciphertext s.index s.proof = .ok ()) ∧
        decrypted = ciphertext.data - (proof.shares.map fun s =>
          (∏ j ∈ (proof.shares.map (·.index)).toFinset.erase s.index,
            ((j.toNat + 1 : ℕ) : G.Scalar) /
              (((j.toNat + 1 : ℕ) : G.Scalar) - ((s.index.toNat + 1 : ℕ) : G.Scalar))) •
            s.share.element).sum) ∧
    (∀ other : DecryptionProof G, other.shares.Perm proof.shares →
      (other.verify election ciphertext decrypted = .ok () ↔
        proof.verify election ciphertext decrypted = .ok ())) ∧
    ∀ other : G.Element, proof.verify election ciphertext decrypted = .ok () →
      proof.verify election ciphertext other = .ok () → other = decrypted := by
  refine ⟨verify_eq_ok_iff, fun other hperm => ?_, fun other h hother => ?_⟩
  · rw [verify_eq_ok_iff, verify_eq_ok_iff, combined_perm hperm, hperm.length_eq,
      (hperm.map (·.index)).nodup_iff]
    simp only [hperm.mem_iff]
  · exact (verify_eq_ok_iff.1 hother).2.2.2.trans (verify_eq_ok_iff.1 h).2.2.2.symm

end DecryptionProof

namespace Small

/-- The shares of the last guardian and the first for the encryption of the generator. -/
def proofOfGenerator : DecryptionProof Group :=
  ⟨(GuardianBoard.proveShares election ⟨0, Group.generator⟩ guardians tape).1⟩

/-- The proof is accepted in either order, and for the generator only. -/
theorem weights_small :
    proofOfGenerator.verify election ⟨0, Group.generator⟩ Group.generator = .ok () ∧
      (⟨proofOfGenerator.shares.reverse⟩ : DecryptionProof Group).verify election
        ⟨0, Group.generator⟩ Group.generator = .ok () ∧
      proofOfGenerator.verify election ⟨0, Group.generator⟩ 0 ≠ .ok () := by
  have hdecrypt : (⟨0, Group.generator⟩ : Ciphertext Group).decrypt (dealer.polynomial.eval 0) =
      Group.generator := by
    rw [Ciphertext.decrypt, smul_zero, sub_zero]
  have haccepted := GuardianBoard.verify_proveShares liesOn_keys rfl (by decide) holds_guardians
    ⟨0, Group.generator⟩ tape
  rw [hdecrypt] at haccepted
  obtain ⟨-, hperm, hunique⟩ := DecryptionProof.verify_iff_weights election ⟨0, Group.generator⟩
    proofOfGenerator Group.generator
  refine ⟨haccepted, (hperm _ (List.reverse_perm _)).2 haccepted, fun h => ?_⟩
  exact absurd (hunique 0 haccepted h) (by decide)

end Small

end PlaintextEquivalence
