import PlaintextEquivalence.Proofs.Sharing.Reconstruction

/-!
# Consistent keys

Guardians' keys are consistent if they are the values, at one, two and so on, of a polynomial with
coefficients in the group, as many as the threshold says.  Every element has a logarithm, so this is to
say that the keys are the multiples of the generator by the values of a polynomial of lower degree than
the threshold.

Principal results:
* `valueWith_logarithms`, `valueWith_multiples` — polynomials over the group and over the scalars.
* `ofKeys_of_forall` — keys on a polynomial make a key set.
* `ofKeys_iff_areValuesOf` — just the consistent keys make a key set; those of a public polynomial do.
-/

set_option autoImplicit false

namespace PlaintextEquivalence

open Polynomial

variable {G : PrimeGroup} [hG : PrimeGroup.Lawful G]

/-! ## Polynomials over the group -/

section Values

variable {count : ℕ}

/-- The value at a scalar of the polynomial with given coefficients in the group, lowest first. -/
def valueWith (coefficients : Fin count → G.Element) (x : G.Scalar) : G.Element :=
  ∑ k : Fin count, x ^ (k : ℕ) • coefficients k

/-- The coefficients of any polynomial over the group have logarithms. -/
theorem valueWith_logarithms (coefficients : Fin count → G.Element) :
    ∃ P : G.Scalar[X], P.degree < count ∧
      ∀ x, valueWith coefficients x = G.mulGenerator (P.eval x) := by
  choose log hlog using hG.generated
  refine ⟨∑ k : Fin count, C (log (coefficients k)) * X ^ (k : ℕ), degree_sum_fin_lt _, fun x => ?_⟩
  rw [eval_finsetSum, PrimeGroup.mulGenerator, Finset.sum_smul]
  refine Finset.sum_congr rfl fun k _ => ?_
  rw [eval_mul, eval_C, eval_pow, eval_X, mul_comm, mul_smul, ← hlog]

/-- The multiples of the generator by the coefficients of a polynomial over the scalars. -/
theorem valueWith_multiples {P : G.Scalar[X]} (hP : P.degree < count) (x : G.Scalar) :
    valueWith (fun k : Fin count => G.mulGenerator (P.coeff k)) x = G.mulGenerator (P.eval x) := by
  have heval : P.eval x = ∑ k : Fin count, P.coeff k * x ^ (k : ℕ) :=
    eval_eq_sum.trans (sum_fin (fun k a => a * x ^ k) (fun _ => zero_mul _) hP).symm
  rw [heval, valueWith, PrimeGroup.mulGenerator, Finset.sum_smul]
  refine Finset.sum_congr rfl fun k _ => ?_
  rw [PrimeGroup.mulGenerator, smul_smul, mul_comm]

/-- At zero only the lowest coefficient counts. -/
theorem valueWith_zero (hpos : 0 < count) (coefficients : Fin count → G.Element) :
    valueWith coefficients 0 = coefficients ⟨0, hpos⟩ := by
  rw [valueWith, Finset.sum_eq_single ⟨0, hpos⟩]
  · rw [pow_zero, one_smul]
  · intro k _ hk
    rw [zero_pow fun h => hk (Fin.ext h), zero_smul]
  · exact fun h => absurd (Finset.mem_univ _) h

end Values

namespace KeySet

variable {params : ThresholdParams} {keys : List (PublicKey G)} {P : G.Scalar[X]}

/-- Keys are the values of a polynomial over the group at one, two and so on. -/
def AreValuesOf (keys : List (PublicKey G)) {count : ℕ} (coefficients : Fin count → G.Element) : Prop :=
  ∀ i key, keys[i]? = some key → key.element = valueWith coefficients ((i + 1 : ℕ) : G.Scalar)

/-- **Keys on a polynomial** of lower degree than the threshold make a key set. -/
theorem ofKeys_of_forall (hle : params.threshold ≤ params.shares)
    (hlen : keys.length = params.shares.toNat) (hP : P.degree < params.threshold.toNat)
    (hkeys : ∀ i key, keys[i]? = some key →
      key.element = G.mulGenerator (P.eval ((i + 1 : ℕ) : G.Scalar))) :
    ofKeys params keys = .ok ⟨params, .ofElement (G.mulGenerator (P.eval 0)), keys⟩ := by
  have hle := UInt64.le_iff_toNat_le.1 hle
  have hfirst : (keys.take params.threshold.toNat).map (·.element) =
      (Interpolation.firstIndexes params.threshold.toNat).map
        fun i => P.eval (Interpolation.node i) • G.generator := by
    refine List.ext_getElem (by simp [Interpolation.firstIndexes, hlen, hle]) fun i hi hi' => ?_
    have hlt : i < params.threshold.toNat := by simpa [Interpolation.firstIndexes] using hi'
    have hkey := hkeys i keys[i] (List.getElem?_eq_getElem (by omega))
    simp only [List.getElem_map, List.getElem_take, Interpolation.firstIndexes, List.getElem_range]
    rw [hkey, Interpolation.node_ofNat (hlt.trans params.threshold.toNat_lt)]
    rfl
  have hfits : (keys.zipIdx.drop params.threshold.toNat).all (fits P) = true := by
    rw [List.all_eq_true]
    intro x hx
    exact decide_eq_true (hkeys _ _ (mem_drop_zipIdx.1 hx).2).symm
  rw [ofKeys_eq hlen hP hfirst, if_pos hfits]

theorem ofKeys_of_areValuesOf (hpos : 0 < params.threshold.toNat) (hle : params.threshold ≤ params.shares)
    (hlen : keys.length = params.shares.toNat)
    {coefficients : Fin params.threshold.toNat → G.Element} (hkeys : AreValuesOf keys coefficients) :
    ofKeys params keys = .ok ⟨params, .ofElement (coefficients ⟨0, hpos⟩), keys⟩ := by
  obtain ⟨P, hP, hvalues⟩ := valueWith_logarithms coefficients
  rw [ofKeys_of_forall hle hlen hP fun i key hkey => (hkeys i key hkey).trans (hvalues _), ← hvalues,
    valueWith_zero hpos]

/-- Keys are consistent or refused. -/
theorem areValuesOf_or_refused (hle : params.threshold ≤ params.shares)
    (hlen : keys.length = params.shares.toNat) :
    (∃ coefficients : Fin params.threshold.toNat → G.Element, AreValuesOf keys coefficients) ∨
      ofKeys params keys = Checked.refuse .malformedParticipantKeys := by
  obtain ⟨P, hP, hfirst⟩ := exists_first hle hlen
  by_cases hothers : (keys.zipIdx.drop params.threshold.toNat).all (fits P) = true
  · refine .inl ⟨fun k => G.mulGenerator (P.coeff k), fun i key hkey => ?_⟩
    exact (forall_of_fits hlen hfirst hothers i key hkey).trans (valueWith_multiples hP _).symm
  · rw [ofKeys_eq hlen hP hfirst, if_neg hothers]
    exact .inr rfl

theorem ofKeys_of_liesOn {set : KeySet G} (h : set.LiesOn P) :
    ofKeys set.params set.participantKeys =
      .ok ⟨set.params, .ofElement set.sharedKey.element, set.participantKeys⟩ := by
  rw [ofKeys_of_forall h.threshold_le h.length h.degree_lt h.participant, h.shared]

/-- **Just the consistent keys make a key set.**  As many keys as there are guardians make one exactly if
they are the values at one, two and so on of a polynomial over the group with as many coefficients as
the threshold says; its lowest coefficient is then the joint key.  In particular the guardians' keys on
a public polynomial make the key set that they are from. -/
theorem ofKeys_iff_areValuesOf (hpos : 0 < params.threshold.toNat)
    (hle : params.threshold ≤ params.shares) :
    (∀ keys : List (PublicKey G), keys.length = params.shares.toNat →
      ((∃ set, ofKeys params keys = .ok set) ↔
        ∃ coefficients : Fin params.threshold.toNat → G.Element, AreValuesOf keys coefficients) ∧
      (∀ coefficients : Fin params.threshold.toNat → G.Element, AreValuesOf keys coefficients →
        ofKeys params keys = .ok ⟨params, .ofElement (coefficients ⟨0, hpos⟩), keys⟩) ∧
      ((¬∃ coefficients : Fin params.threshold.toNat → G.Element, AreValuesOf keys coefficients) →
        ofKeys params keys = Checked.refuse .malformedParticipantKeys)) ∧
    ∀ polynomial : List G.Element, polynomial.length = params.threshold.toNat →
      ∃ set, ofPolynomial params polynomial = .ok set ∧
        ofKeys params set.participantKeys = .ok set := by
  have hthreshold : 0 < params.threshold := UInt64.lt_iff_toNat_lt.2 hpos
  constructor
  · intro keys hlen
    have hmade : ∀ coefficients : Fin params.threshold.toNat → G.Element, AreValuesOf keys coefficients →
        ofKeys params keys = .ok ⟨params, .ofElement (coefficients ⟨0, hpos⟩), keys⟩ :=
      fun _ hkeys => ofKeys_of_areValuesOf hpos hle hlen hkeys
    refine ⟨⟨fun ⟨set, hset⟩ => ?_, fun ⟨_, hkeys⟩ => ⟨_, hmade _ hkeys⟩⟩, hmade, fun hnone => ?_⟩
    · refine (areValuesOf_or_refused hle hlen).resolve_right fun hrefused => ?_
      exact Checked.refuse_ne_ok _ _ (hrefused.symm.trans hset)
    · exact (areValuesOf_or_refused hle hlen).resolve_left hnone
  · intro polynomial hlen
    obtain ⟨dealer, rfl, rfl⟩ := exists_dealer params polynomial
    have hcoefficients : dealer.coefficients.length = dealer.params.threshold.toNat := by
      simpa [Dealer.publicPolynomial] using hlen
    have hset := Dealer.ofPolynomial_eq dealer hthreshold hcoefficients
    have hkeys := ofKeys_of_liesOn (Dealer.liesOn_of_dealer hthreshold hle hset)
    exact ⟨dealer.keys, hset, hkeys⟩

end KeySet

namespace Small

/-- The coefficients of `5 + 7 X`. -/
def coefficients : Fin 2 → Group.Element := ![Group.ofWord 5, Group.ofWord 7]

/-- The keys of which the last is not on the polynomial of the others. -/
def crookedKeys : List (PublicKey Group) :=
  [12, 19, 27].map fun secret => .ofSecret (Group.ofWord secret)

theorem valueWith_two (line : Fin 2 → Group.Element) (x : Group.Scalar) :
    valueWith line x = line 0 + x • line 1 := by
  rw [valueWith, Fin.sum_univ_two]
  simp

theorem areValuesOf_keys : KeySet.AreValuesOf keys.participantKeys coefficients
  | 0, _, rfl => by rw [valueWith_two]; decide +kernel
  | 1, _, rfl => by rw [valueWith_two]; decide +kernel
  | 2, _, rfl => by rw [valueWith_two]; decide +kernel

theorem not_areValuesOf_crookedKeys (line : Fin 2 → Group.Element) :
    ¬KeySet.AreValuesOf crookedKeys line := by
  intro h
  have hone := h 0 _ rfl
  have htwo := h 1 _ rfl
  have hthree := h 2 _ rfl
  rw [valueWith_two] at hone htwo hthree
  -- on a line the outer values are twice the one between them
  have hbetween : (PublicKey.ofSecret (G := Group) (Group.ofWord 12)).element +
      (PublicKey.ofSecret (G := Group) (Group.ofWord 27)).element =
        (2 : Group.Scalar) • (PublicKey.ofSecret (G := Group) (Group.ofWord 19)).element := by
    rw [hone, htwo, hthree]
    push_cast
    module
  exact absurd hbetween (by decide +kernel)

theorem ofKeys_small :
    0 < dealer.params.threshold.toNat ∧ dealer.params.threshold ≤ dealer.params.shares ∧
      KeySet.ofKeys dealer.params keys.participantKeys = .ok keys ∧
      KeySet.ofKeys dealer.params crookedKeys = Checked.refuse .malformedParticipantKeys := by
  have hpos : 0 < dealer.params.threshold.toNat := by decide
  have hle : dealer.params.threshold ≤ dealer.params.shares := by decide
  obtain ⟨hkeys, -⟩ := KeySet.ofKeys_iff_areValuesOf (G := Group) hpos hle
  obtain ⟨-, hmade, -⟩ := hkeys keys.participantKeys rfl
  obtain ⟨-, -, hrefused⟩ := hkeys crookedKeys rfl
  exact ⟨hpos, hle, hmade coefficients areValuesOf_keys,
    hrefused fun ⟨line, hline⟩ => not_areValuesOf_crookedKeys line hline⟩

end Small

end PlaintextEquivalence
