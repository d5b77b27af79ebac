import PlaintextEquivalence.Proofs.Group.Residue
import PlaintextEquivalence.Proofs.Sharing.Interpolation
import PlaintextEquivalence.Sharing.Dealer

/-!
# Keys on a polynomial

The keys of guardians that a dealer makes are the multiples of the generator by the values of one
polynomial, that of the guardian with index `i` at `i + 1` and the joint key at zero.  Shares of
as many different guardians as the threshold says are then combined to the multiple by the value at
zero, whoever they are and in whatever order.

Principal results:
* `combine_eval` — what shares are combined to.
* `liesOn_of_dealer` — the keys of a dealer lie on the dealer's polynomial.
-/

set_option autoImplicit false

namespace PlaintextEquivalence

open Polynomial

variable {G : PrimeGroup}

/-! ## Combination -/

namespace ThresholdParams

theorem areValid_iff {bound : UInt64} :
    ∀ {indexes : List UInt64},
      areValid bound indexes = true ↔ indexes.Nodup ∧ ∀ i ∈ indexes, i < bound
  | [] => by simp [areValid]
  | i :: rest => by
    simp only [areValid, Bool.and_eq_true, decide_eq_true_eq, Bool.not_eq_true', areValid_iff,
      List.nodup_cons, List.forall_mem_cons, ← Bool.not_eq_true, List.contains_iff_mem]
    tauto

theorem combine_of_length {params : ThresholdParams}
    {shares : List (UInt64 × PartialDecryption G)} (h : shares.length = params.threshold.toNat) :
    params.combine shares =
      if areValid params.shares (shares.map (·.1)) then do
        let multiples ← Interpolation.coefficients G (shares.map (·.1))
        let value ← Interpolation.combine G multiples (shares.map (·.2.element))
        pure (some ⟨value⟩)
      else pure none := by
  unfold combine
  simp only [← h, List.take_length, lt_irrefl, if_false]

variable [hG : PrimeGroup.Lawful G]

/-- **What shares are combined to**: if all are multiples of one element by the values of a polynomial
of low degree, the multiple by its value at zero. -/
theorem combine_eval {params : ThresholdParams} {shares : List (UInt64 × PartialDecryption G)}
    {P : G.Scalar[X]} {a : G.Element} (hlen : shares.length = params.threshold.toNat)
    (hvalid : areValid params.shares (shares.map (·.1)) = true)
    (hP : P.degree < params.threshold.toNat)
    (hshares : ∀ s ∈ shares, s.2.element = P.eval ((s.1.toNat + 1 : ℕ) : G.Scalar) • a) :
    params.combine shares = .ok (some ⟨P.eval 0 • a⟩) := by
  obtain ⟨hnodup, hlt⟩ := areValid_iff.1 hvalid
  have helements : shares.map (·.2.element) =
      (shares.map (·.1)).map fun i => P.eval (Interpolation.node i) • a := by
    rw [List.map_map]
    exact List.map_congr_left hshares
  rw [combine_of_length hlen, if_pos hvalid, helements, Interpolation.coefficients_eq hlt]
  simp only [bind, Except.bind]
  rw [Interpolation.combine_multiples hnodup (by simpa [hlen] using hP)]
  rfl

end ThresholdParams

/-! ## Keys -/

variable [hG : PrimeGroup.Lawful G]

/-- The keys are those of the values of a polynomial, of lower degree than the threshold. -/
structure KeySet.LiesOn (keys : KeySet G) (P : G.Scalar[X]) : Prop where
  threshold_pos : 0 < keys.params.threshold
  threshold_le : keys.params.threshold ≤ keys.params.shares
  degree_lt : P.degree < keys.params.threshold.toNat
  length : keys.participantKeys.length = keys.params.shares.toNat
  participant : ∀ i key, keys.participantKeys[i]? = some key →
    key.element = G.mulGenerator (P.eval ((i + 1 : ℕ) : G.Scalar))
  shared : keys.sharedKey.element = G.mulGenerator (P.eval 0)

theorem KeySet.LiesOn.lt_of_participantKey? {keys : KeySet G} {P : G.Scalar[X]} (h : keys.LiesOn P)
    {i : UInt64} {key : PublicKey G} (hkey : keys.participantKey? i = some key) :
    i < keys.params.shares := by
  rw [UInt64.lt_iff_toNat_lt, ← h.length]
  exact (List.getElem?_eq_some_iff.1 hkey).1

/-! ## Dealers -/

namespace Dealer

/-- The polynomial with given coefficients, lowest first. -/
noncomputable def polynomialOf : List G.Scalar → G.Scalar[X]
  | [] => 0
  | c :: cs => C c + X * polynomialOf cs

theorem eval_polynomialOf (cs : List G.Scalar) (x : G.Scalar) :
    (polynomialOf cs).eval x = cs.foldr (fun c value => value * x + c) 0 := by
  induction cs with
  | nil => simp [polynomialOf]
  | cons c cs ih =>
    rw [polynomialOf, eval_add, eval_C, eval_mul, eval_X, ih, List.foldr_cons]
    ring

theorem degree_polynomialOf_lt (cs : List G.Scalar) : (polynomialOf cs).degree < cs.length := by
  rw [degree_lt_iff_coeff_zero]
  induction cs with
  | nil => simp [polynomialOf]
  | cons c cs ih =>
    intro n hn
    cases n with
    | zero => simp at hn
    | succ n =>
      rw [polynomialOf, coeff_add, coeff_C_succ, coeff_X_mul, zero_add]
      exact ih n (by simpa using hn)

/-- The secret polynomial. -/
noncomputable def polynomial (dealer : Dealer G) : G.Scalar[X] := polynomialOf dealer.coefficients

theorem valueAt_eq (dealer : Dealer G) (x : G.Scalar) :
    dealer.valueAt x = dealer.polynomial.eval x := by
  rw [polynomial, eval_polynomialOf, valueAt, List.foldl_reverse]

/-- The share of a guardian is the value at the guardian's point. -/
theorem share_eq {dealer : Dealer G} {index : UInt64} (h : index < dealer.params.shares) :
    dealer.share index = .ok (dealer.polynomial.eval (Interpolation.node index)) := by
  unfold share
  rw [if_pos h, Word.next_of_lt h]
  simp only [bind, Except.bind, pure, Except.pure]
  rw [Interpolation.ofWord_next h, valueAt_eq]

/-- The value of a public polynomial is the multiple of the generator by that of the secret one. -/
theorem valueAt_public (cs : List G.Scalar) (x : G.Scalar) :
    (⟨cs.map G.mulGenerator⟩ : PublicPolynomial G).valueAt x =
      .ok (G.mulGenerator ((polynomialOf cs).eval x)) := by
  have hsum : ∀ (cs : List G.Scalar) (power : G.Scalar),
      (((PublicPolynomial.powers x cs.length power).zip (cs.map G.mulGenerator)).map
        fun t => t.1 • t.2).sum = G.mulGenerator (power * (polynomialOf cs).eval x) := by
    intro cs
    induction cs with
    | nil => intro power; simp [PublicPolynomial.powers, polynomialOf, PrimeGroup.mulGenerator]
    | cons c cs ih =>
      intro power
      rw [List.length_cons, PublicPolynomial.powers, List.map_cons, List.zip_cons_cons,
        List.map_cons, List.sum_cons, ih]
      simp only [PrimeGroup.mulGenerator, polynomialOf, eval_add, eval_C, eval_mul, eval_X,
        smul_smul, ← add_smul]
      congr 1
      ring
  have hlen : ∀ (n : Nat) (power : G.Scalar), (PublicPolynomial.powers x n power).length = n := by
    intro n
    induction n with
    | zero => intro _; rfl
    | succ n ih => intro power; rw [PublicPolynomial.powers, List.length_cons, ih]
  unfold PublicPolynomial.valueAt
  rw [Interpolation.multiply_eq (by rw [hlen]), List.length_map, hsum, one_mul]

/-- The keys on the secret polynomial. -/
noncomputable def keys (dealer : Dealer G) : KeySet G where
  params := dealer.params
  sharedKey := .ofElement (G.mulGenerator (dealer.polynomial.eval 0))
  participantKeys := (List.range dealer.params.shares.toNat).map fun i =>
    .ofElement (G.mulGenerator (dealer.polynomial.eval ((i + 1 : ℕ) : G.Scalar)))

theorem ofPolynomial_eq (dealer : Dealer G) (hpos : 0 < dealer.params.threshold)
    (hlen : dealer.coefficients.length = dealer.params.threshold.toNat) :
    KeySet.ofPolynomial dealer.params dealer.publicPolynomial = .ok dealer.keys := by
  have hzero : (⟨dealer.publicPolynomial⟩ : PublicPolynomial G).valueAtZero =
      .ok (G.mulGenerator (dealer.polynomial.eval 0)) := by
    have hpos := UInt64.lt_iff_toNat_lt.1 hpos
    unfold PublicPolynomial.valueAtZero publicPolynomial polynomial
    cases hc : dealer.coefficients with
    | nil => simp [hc] at hlen; omega
    | cons c cs => simp [polynomialOf]
  have hvalues : ((List.range dealer.params.shares.toNat).mapM fun i => do
      let x ← Word.next (UInt64.ofNat i)
      (⟨dealer.publicPolynomial⟩ : PublicPolynomial G).valueAt (G.ofWord x)) =
      .ok ((List.range dealer.params.shares.toNat).map fun i =>
        G.mulGenerator (dealer.polynomial.eval ((i + 1 : ℕ) : G.Scalar))) := by
    refine Except.mapM_of_forall fun i hi => ?_
    have hi := List.mem_range.1 hi
    have htoNat : (UInt64.ofNat i).toNat = i :=
      UInt64.toNat_ofNat_of_lt' (hi.trans dealer.params.shares.toNat_lt)
    have hlt : UInt64.ofNat i < dealer.params.shares := by
      rw [UInt64.lt_iff_toNat_lt, htoNat]
      exact hi
    rw [Word.next_of_lt hlt]
    simp only [bind, Except.bind]
    rw [publicPolynomial, valueAt_public, PrimeGroup.ofWord_eq_cast, Word.toNat_next_of_lt hlt, htoNat]
    rfl
  unfold KeySet.ofPolynomial
  rw [if_neg (by simp [publicPolynomial, hlen])]
  rw [Checked.ofFault_eq_ok, Except.bind_eq_ok]
  refine ⟨_, hzero, ?_⟩
  rw [Except.bind_eq_ok]
  refine ⟨_, hvalues, ?_⟩
  rw [List.map_map]
  rfl

/-- If the public polynomial of a dealer gives keys, they are those on the secret polynomial. -/
theorem eq_keys {dealer : Dealer G} {keys : KeySet G} (hpos : 0 < dealer.params.threshold)
    (h : KeySet.ofPolynomial dealer.params dealer.publicPolynomial = .ok keys) :
    dealer.coefficients.length = dealer.params.threshold.toNat ∧ keys = dealer.keys := by
  have hlen : dealer.coefficients.length = dealer.params.threshold.toNat := by
    unfold KeySet.ofPolynomial at h
    split at h
    · cases h
    · rename_i hlen
      simpa [publicPolynomial] using hlen
  rw [ofPolynomial_eq dealer hpos hlen] at h
  exact ⟨hlen, (Except.ok.inj h).symm⟩

/-- **The keys of a dealer** lie on the dealer's polynomial. -/
theorem liesOn_of_dealer {dealer : Dealer G} {keys : KeySet G}
    (hpos : 0 < dealer.params.threshold) (hle : dealer.params.threshold ≤ dealer.params.shares)
    (h : KeySet.ofPolynomial dealer.params dealer.publicPolynomial = .ok keys) :
    keys.LiesOn dealer.polynomial := by
  obtain ⟨hlen, rfl⟩ := eq_keys hpos h
  refine ⟨hpos, hle, ?_, ?_, ?_, rfl⟩
  · rw [show dealer.keys.params = dealer.params from rfl, ← hlen]
    exact degree_polynomialOf_lt dealer.coefficients
  · simp [Dealer.keys]
  · intro i key hkey
    obtain ⟨_, hj, rfl⟩ := List.getElem?_eq_some_iff.1 hkey
    simp [Dealer.keys, PublicKey.ofElement]

end Dealer

/-! ## A small dealer -/

namespace Small

abbrev Group : PrimeGroup := .residues PrimeGroup.modulus

/-- A dealer for three guardians, two of which decrypt, with the polynomial `5 + 7 X`. -/
def dealer : Dealer Group := ⟨⟨3, 2⟩, [Group.ofWord 5, Group.ofWord 7]⟩

def keys : KeySet Group where
  params := dealer.params
  sharedKey := .ofSecret (Group.ofWord 5)
  participantKeys := [12, 19, 26].map fun secret => .ofSecret (Group.ofWord secret)

theorem ofPolynomial_dealer :
    KeySet.ofPolynomial dealer.params dealer.publicPolynomial = .ok keys :=
  rfl

theorem eval_dealer : dealer.polynomial.eval 0 = Group.ofWord 5 := (dealer.valueAt_eq 0).symm

end Small

end PlaintextEquivalence
