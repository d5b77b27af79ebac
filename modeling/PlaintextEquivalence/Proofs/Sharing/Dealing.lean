import PlaintextEquivalence.Election.Basic
import PlaintextEquivalence.Proofs.Sharing.KeySet

/-!
# Guardians accept the shares that were dealt

A dealer computes a guardian's share from the secret coefficients, the highest first; the guardian's key is
computed from the published multiples of the generator by ascending powers.  Both are the value of one
polynomial at the guardian's point, and a multiple of the generator is that of one scalar only, so that of
all secrets a guardian accepts just the one that it was dealt.

Principal results:
* `participantKey?_keys` — the key of the guardian that a share is dealt to.
* `make_keys` — what a guardian answers to a secret.
* `accepts_iff_dealt` — guardians accept just their share.
-/

set_option autoImplicit false

namespace PlaintextEquivalence.Dealer

variable {G : PrimeGroup} [hG : PrimeGroup.Lawful G] {dealer : Dealer G} {index : UInt64}

/-- The key of a guardian is the multiple of the generator by the value at the guardian's point. -/
theorem participantKey?_keys (h : index < dealer.params.shares) :
    dealer.keys.participantKey? index =
      some (.ofSecret (dealer.polynomial.eval (Interpolation.node index))) := by
  have hlt := UInt64.lt_iff_toNat_lt.1 h
  unfold KeySet.participantKey? keys
  rw [List.getElem?_map, List.getElem?_range hlt]
  rfl

/-- There are no more keys than guardians. -/
theorem participantKey?_keys_eq_none (h : dealer.params.shares ≤ index) :
    dealer.keys.participantKey? index = none := by
  unfold KeySet.participantKey? keys
  rw [List.getElem?_eq_none]
  rw [List.length_map, List.length_range]
  exact UInt64.le_iff_toNat_le.1 h

/-- **What a guardian answers to a secret**: it is accepted if it is the value at the guardian's point. -/
theorem make_keys (h : index < dealer.params.shares) (secret : G.Scalar) :
    Guardian.make dealer.keys index secret =
      if secret = dealer.polynomial.eval (Interpolation.node index) then
        .ok ⟨dealer.keys, index, secret⟩
      else .error .invalidSecret := by
  unfold Guardian.make
  rw [participantKey?_keys h]
  exact if_congr PrimeGroup.mulGenerator_injective.eq_iff rfl rfl

theorem make_keys_of_le (h : dealer.params.shares ≤ index) (secret : G.Scalar) :
    Guardian.make dealer.keys index secret =
      .error (.participantIndex index dealer.params.shares) := by
  unfold Guardian.make
  rw [participantKey?_keys_eq_none h]
  rfl

/-- **Guardians accept just their share.**  A dealer with as many coefficients as the threshold says makes a
key set.  Each of its guardians is dealt a share and accepts a secret exactly if it is that share; the
guardian's key then is that of the secret, and any other secret is refused.  Nobody else accepts
anything. -/
theorem accepts_iff_dealt (dealer : Dealer G) (hpos : 0 < dealer.params.threshold)
    (hlen : dealer.coefficients.length = dealer.params.threshold.toNat) :
    ∃ keys, KeySet.ofPolynomial dealer.params dealer.publicPolynomial = .ok keys ∧
      (∀ index, index < dealer.params.shares → ∃ share, dealer.share index = .ok share ∧
        ∀ secret,
          ((∃ g, Guardian.make keys index secret = .ok g) ↔ secret = share) ∧
          (∀ g, Guardian.make keys index secret = .ok g →
            g = ⟨keys, index, secret⟩ ∧ g.publicKey? = some (.ofSecret secret)) ∧
          (secret ≠ share → Guardian.make keys index secret = .error .invalidSecret)) ∧
      ∀ index, dealer.params.shares ≤ index → ∀ secret,
        Guardian.make keys index secret = .error (.participantIndex index dealer.params.shares) := by
  refine ⟨dealer.keys, ofPolynomial_eq dealer hpos hlen, fun index h => ?inside, fun index h =>
    make_keys_of_le h⟩
  case inside =>
    refine ⟨_, share_eq h, fun secret => ?_⟩
    rw [make_keys h]
    by_cases hsecret : secret = dealer.polynomial.eval (Interpolation.node index)
    · rw [if_pos hsecret]
      refine ⟨⟨fun _ => hsecret, fun _ => ⟨_, rfl⟩⟩, fun g hg => ?_, fun hne => absurd hsecret hne⟩
      cases hg
      refine ⟨rfl, ?_⟩
      rw [hsecret]
      exact participantKey?_keys h
    · rw [if_neg hsecret]
      exact ⟨⟨nofun, fun heq => absurd heq hsecret⟩, fun _ => nofun, fun _ => rfl⟩

end PlaintextEquivalence.Dealer

namespace PlaintextEquivalence.Small

/-- Of the three guardians of a dealer with the polynomial `5 + 7 X`, the last accepts 26 and not 19, and
there is no fourth. -/
theorem dealt_small :
    0 < dealer.params.threshold ∧ dealer.coefficients.length = dealer.params.threshold.toNat ∧
      (∃ g, Guardian.make keys 2 (Group.ofWord 26) = .ok g ∧
        g.publicKey? = some (.ofSecret (Group.ofWord 26))) ∧
      Guardian.make keys 2 (Group.ofWord 19) = .error .invalidSecret ∧
      Guardian.make keys 3 (Group.ofWord 26) = .error (.participantIndex 3 3) := by
  have hpos : 0 < dealer.params.threshold := by decide
  obtain ⟨set, hset, hinside, houtside⟩ := Dealer.accepts_iff_dealt dealer hpos rfl
  obtain rfl : set = keys := Except.ok.inj (hset.symm.trans ofPolynomial_dealer)
  obtain ⟨share, hshare, hsecrets⟩ := hinside 2 (by decide)
  obtain rfl : share = Group.ofWord 26 := Except.ok.inj (hshare.symm.trans rfl)
  obtain ⟨hdealt, hkey, -⟩ := hsecrets (Group.ofWord 26)
  obtain ⟨g, hg⟩ := hdealt.2 rfl
  obtain ⟨-, -, hother⟩ := hsecrets (Group.ofWord 19)
  exact ⟨hpos, rfl, ⟨g, hg, (hkey g hg).2⟩, hother (by decide), houtside 3 (by decide) _⟩

end PlaintextEquivalence.Small
