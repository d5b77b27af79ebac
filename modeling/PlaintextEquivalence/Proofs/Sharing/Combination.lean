import PlaintextEquivalence.Proofs.Sharing.Reconstruction

/-!
# Which shares are combined, and to what

Of the shares that are given only the first are looked at, as many as the threshold says.  They are
combined exactly if there are enough of them, of different guardians that exist; and what they are
combined to is the value at zero of the polynomial that they are values of.  Any elements at different
points are the values of some polynomial, so that their order does not matter.

Principal results:
* `combine_answers` — shares are combined, or not, without a fault.
* `combine_perm` — as many shares as the threshold says are combined to the same in any order.
* `combine_interpolates` — when shares are combined, and to what.
-/

set_option autoImplicit false

namespace PlaintextEquivalence

open Polynomial

variable {G : PrimeGroup}

namespace ThresholdParams

variable {params : ThresholdParams} {shares others : List (UInt64 × PartialDecryption G)}

/-- Shares after the first ones are not looked at. -/
theorem combine_take (params : ThresholdParams) (shares : List (UInt64 × PartialDecryption G)) :
    params.combine (shares.take params.threshold.toNat) = params.combine shares := by
  unfold combine
  simp only [List.take_take, min_self]

theorem combine_of_few (h : shares.length < params.threshold.toNat) :
    params.combine shares = .ok none := by
  have htaken : (shares.take params.threshold.toNat).length < params.threshold.toNat := by
    rw [List.length_take]
    omega
  unfold combine
  simp only [htaken, if_true]
  rfl

theorem combine_of_not_areValid
    (h : areValid params.shares ((shares.take params.threshold.toNat).map (·.1)) = false) :
    params.combine shares = .ok none := by
  unfold combine
  simp only [h, Bool.false_eq_true, if_false, ite_self]
  rfl

variable [hG : PrimeGroup.Lawful G]

theorem exists_combine (henough : params.threshold.toNat ≤ shares.length)
    (hvalid : areValid params.shares ((shares.take params.threshold.toNat).map (·.1)) = true) :
    ∃ combined, params.combine shares = .ok (some combined) := by
  have hcount : (shares.take params.threshold.toNat).length = params.threshold.toNat :=
    List.length_take_of_le henough
  rw [← combine_take, combine_of_length hcount, if_pos hvalid,
    Interpolation.coefficients_eq (areValid_iff.1 hvalid).2]
  simp only [bind, Except.bind, Interpolation.combine]
  rw [Interpolation.multiply_eq (by simp [Interpolation.multiples])]
  exact ⟨_, rfl⟩

/-- **Shares are combined or not**, whatever they are and whatever the parameters. -/
theorem combine_answers (params : ThresholdParams)
    (shares : List (UInt64 × PartialDecryption G)) : ∃ combined, params.combine shares = .ok combined := by
  rcases Nat.lt_or_ge shares.length params.threshold.toNat with hfew | henough
  · exact ⟨none, combine_of_few hfew⟩
  · cases hvalid : areValid params.shares ((shares.take params.threshold.toNat).map (·.1)) with
    | false => exact ⟨none, combine_of_not_areValid hvalid⟩
    | true =>
      obtain ⟨combined, hcombined⟩ := exists_combine henough hvalid
      exact ⟨some combined, hcombined⟩

/-- As many shares as the threshold says are combined to the same in any order: the value at zero of the
polynomial of lowest degree that they are values of. -/
theorem combine_perm (hlen : shares.length = params.threshold.toNat) (hperm : others.Perm shares) :
    params.combine others = params.combine shares := by
  have hothers : others.length = params.threshold.toNat := hperm.length_eq.trans hlen
  have hindexes : (others.map (·.1)).Perm (shares.map (·.1)) := hperm.map _
  have hsame : areValid params.shares (others.map (·.1)) =
      areValid params.shares (shares.map (·.1)) := by
    rw [Bool.eq_iff_iff, areValid_iff, areValid_iff, hindexes.nodup_iff]
    simp only [hindexes.mem_iff]
  cases hvalid : areValid params.shares (shares.map (·.1)) with
  | false =>
    rw [combine_of_length hothers, combine_of_length hlen, hsame, hvalid]
    rfl
  | true =>
    have hnodup : ((shares.map fun s => (s.1, s.2.element)).map (·.1)).Nodup := by
      rw [List.map_map]
      exact (areValid_iff.1 hvalid).1
    obtain ⟨P, hP, hvalues⟩ := Interpolation.exists_polynomial _ hnodup
    rw [List.length_map, hlen] at hP
    have hshares : ∀ s ∈ shares,
        s.2.element = P.eval ((s.1.toNat + 1 : ℕ) : G.Scalar) • G.generator :=
      fun s hs => hvalues _ (List.mem_map_of_mem hs)
    rw [combine_eval hlen hvalid hP hshares,
      combine_eval hothers (hsame.trans hvalid) hP fun s hs => hshares s (hperm.mem_iff.1 hs)]

/-- **Combination is interpolation at zero.**  There is no combination exactly if there are too few
shares, or if one of the first ones, as many as the threshold says, is of a guardian that does not exist
or of the same guardian as another.  If those are multiples of one element by the values of a polynomial
of low degree, the combination is the multiple by its value at zero; and just as many shares are combined
to the same in any order. -/
theorem combine_interpolates (params : ThresholdParams)
    (shares : List (UInt64 × PartialDecryption G)) :
    let first := shares.take params.threshold.toNat
    ∃ result, params.combine shares = .ok result ∧
      (result = none ↔ shares.length < params.threshold.toNat ∨
        (∃ s ∈ first, params.shares ≤ s.1) ∨ ¬(first.map (·.1)).Nodup) ∧
      (∀ combined, result = some combined → ∀ (P : G.Scalar[X]) (a : G.Element),
        P.degree < params.threshold.toNat →
        (∀ s ∈ first, s.2.element = P.eval ((s.1.toNat + 1 : ℕ) : G.Scalar) • a) →
          combined.element = P.eval 0 • a) ∧
      (shares.length = params.threshold.toNat → ∀ others, others.Perm shares →
        params.combine others = .ok result) := by
  intro first
  have hinvalid : areValid params.shares (first.map (·.1)) = false ↔
      (∃ s ∈ first, params.shares ≤ s.1) ∨ ¬(first.map (·.1)).Nodup := by
    rw [← Bool.not_eq_true, areValid_iff, not_and_or, or_comm]
    simp
  rcases Nat.lt_or_ge shares.length params.threshold.toNat with hfew | henough
  · refine ⟨none, combine_of_few hfew, by simp [hfew], nofun, fun hlen => ?_⟩
    exact absurd hlen hfew.ne
  cases hvalid : areValid params.shares (first.map (·.1)) with
  | false =>
    have hnone := combine_of_not_areValid hvalid
    refine ⟨none, hnone, ?_, nofun, fun hlen others hperm => (combine_perm hlen hperm).trans hnone⟩
    simp only [hinvalid.1 hvalid, or_true]
  | true =>
    obtain ⟨combined, hcombined⟩ := exists_combine henough hvalid
    refine ⟨some combined, hcombined, ?_, fun _ hsome P a hP hshares => ?_,
      fun hlen others hperm => (combine_perm hlen hperm).trans hcombined⟩
    · have hfine := hvalid ▸ hinvalid
      simp only [reduceCtorEq, false_iff, not_or, Nat.not_lt] at hfine ⊢
      exact ⟨henough, hfine⟩
    · cases hsome
      rw [← combine_take, combine_eval (List.length_take_of_le henough) hvalid hP hshares] at hcombined
      cases hcombined
      rfl

end ThresholdParams

namespace Small

/-- The shares of the last guardian and the first, and one more that is not looked at. -/
def shares : List (UInt64 × PartialDecryption Group) :=
  [(2, ⟨Group.ofWord 26⟩), (0, ⟨Group.ofWord 12⟩), (2, ⟨Group.ofWord 1⟩)]

/-- The value at zero of `5 + 7 X`, from its values at three and one. -/
theorem combine_small :
    (∃ combined, dealer.params.combine shares = .ok (some combined) ∧
      combined.element = Group.ofWord 5) ∧
    dealer.params.combine [((0 : UInt64), (⟨Group.ofWord 12⟩ : PartialDecryption Group))] = .ok none := by
  obtain ⟨result, hresult, hnone, hsome, -⟩ :=
    ThresholdParams.combine_interpolates dealer.params shares
  obtain ⟨few, hfew, hfewNone, -⟩ := ThresholdParams.combine_interpolates dealer.params
    [((0 : UInt64), (⟨Group.ofWord 12⟩ : PartialDecryption Group))]
  constructor
  · cases result with
    | none => exact absurd (hnone.1 rfl) (by decide)
    | some combined =>
      refine ⟨combined, hresult, ?_⟩
      have hvalue := hsome combined rfl dealer.polynomial Group.generator
        (Dealer.degree_polynomialOf_lt _) ?_
      · rw [hvalue, eval_dealer]
        rfl
      · intro s hs
        rw [← dealer.valueAt_eq]
        fin_cases hs <;> decide +kernel
  · rw [hfew, hfewNone.2 (.inl (by decide))]

end Small

end PlaintextEquivalence
