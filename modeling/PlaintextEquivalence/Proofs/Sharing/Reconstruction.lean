import PlaintextEquivalence.Proofs.Sharing.KeySet

/-!
# Every key set lies on a polynomial

Any keys of as many guardians as the threshold says lie on one polynomial of lower degree, since every
key has a logarithm.  Guardians' own keys therefore make a key set exactly if the other keys lie on the
polynomial of the first ones; and a public polynomial of any elements is that of some dealer.

Principal results:
* `ofKeys_eq` — when guardians' keys make a key set, and which.
* `exists_liesOn_of_ofPolynomial`, `exists_liesOn_of_ofKeys` — every key set lies on a polynomial.
-/

set_option autoImplicit false

namespace PlaintextEquivalence

open Polynomial

variable {G : PrimeGroup} [hG : PrimeGroup.Lawful G]

/-! ## Interpolation of elements -/

namespace Interpolation

/-- The first indexes. -/
def firstIndexes (count : ℕ) : List UInt64 := (List.range count).map UInt64.ofNat

theorem nodup_firstIndexes {count : ℕ} (h : count ≤ 2 ^ 64) : (firstIndexes count).Nodup := by
  refine List.Nodup.map_on (fun i hi j hj heq => ?_) List.nodup_range
  have hi := (List.mem_range.1 hi).trans_le h
  have hj := (List.mem_range.1 hj).trans_le h
  rw [← UInt64.toNat_ofNat_of_lt' hi, heq, UInt64.toNat_ofNat_of_lt' hj]

theorem lt_of_mem_firstIndexes {count : UInt64} {i : UInt64} (h : i ∈ firstIndexes count.toNat) :
    i < count := by
  obtain ⟨j, hj, rfl⟩ := List.mem_map.1 h
  have hj := List.mem_range.1 hj
  rw [UInt64.lt_iff_toNat_lt, UInt64.toNat_ofNat_of_lt' (hj.trans count.toNat_lt)]
  exact hj

theorem node_ofNat {i : ℕ} (h : i < 2 ^ 64) :
    node (G := G) (UInt64.ofNat i) = ((i + 1 : ℕ) : G.Scalar) := by
  rw [node, UInt64.toNat_ofNat_of_lt' h]

/-- Elements at different indexes are the multiples of the generator by the values of a polynomial of
lower degree than there are elements. -/
theorem exists_polynomial (values : List (UInt64 × G.Element)) (h : (values.map (·.1)).Nodup) :
    ∃ P : G.Scalar[X], P.degree < values.length ∧
      ∀ v ∈ values, v.2 = P.eval (node v.1) • G.generator := by
  choose log hlog using hG.generated
  let point := fun v : UInt64 × G.Element => node (G := G) v.1
  have hinjective : Set.InjOn point values.toFinset := by
    intro v hv w hw hvw
    exact List.inj_on_of_nodup_map h (List.mem_toFinset.1 hv) (List.mem_toFinset.1 hw)
      (node_injective hvw)
  refine ⟨Lagrange.interpolate values.toFinset point fun v => log v.2, ?_, fun v hv => ?_⟩
  · have hcard : values.toFinset.card = values.length := List.toFinset_card_of_nodup h.of_map
    rw [← hcard]
    exact Lagrange.degree_interpolate_lt _ hinjective
  · rw [Lagrange.eval_interpolate_at_node _ hinjective (List.mem_toFinset.2 hv)]
    exact hlog _

/-- The inverses of the points of all guardians are the inverses of the numbers from one on. -/
theorem inverses_points (count : UInt64) :
    G.inverses ((List.range count.toNat).map fun i => G.ofWord (UInt64.ofNat (i + 1))) =
      .ok (inverseNumbers count.toNat) := by
  have hcount := count.toNat_lt
  have hpoints : ((List.range count.toNat).map fun i => G.ofWord (UInt64.ofNat (i + 1))) =
      (List.range count.toNat).map fun i => ((i + 1 : ℕ) : G.Scalar) := by
    refine List.map_congr_left fun i hi => ?_
    have hi := List.mem_range.1 hi
    rw [PrimeGroup.ofWord_eq_cast, UInt64.toNat_ofNat_of_lt' (by simp only [UInt64.size]; omega)]
  have hnonzero : ∀ k ∈ (List.range count.toNat).map fun i => ((i + 1 : ℕ) : G.Scalar), k ≠ 0 := by
    rw [List.forall_mem_map]
    intro i hi
    have hi := List.mem_range.1 hi
    rw [← node_ofNat (by omega)]
    exact node_ne_zero _
  rw [hpoints, inverses_eq hnonzero, List.map_map]
  rfl

end Interpolation

/-! ## Key sets -/

namespace KeySet

open Interpolation

theorem mem_drop_zipIdx {α : Type} {l : List α} {count : ℕ} {x : α × ℕ} :
    x ∈ l.zipIdx.drop count ↔ count ≤ x.2 ∧ l[x.2]? = some x.1 := by
  rw [List.mem_iff_getElem?]
  simp only [List.getElem?_drop, List.getElem?_zipIdx, Option.map_eq_some_iff, zero_add]
  constructor
  · rintro ⟨i, a, ha, rfl⟩
    exact ⟨Nat.le_add_right _ _, ha⟩
  · rintro ⟨hle, ha⟩
    refine ⟨x.2 - count, x.1, ?_, ?_⟩
    · rw [Nat.add_sub_cancel' hle]
      exact ha
    · rw [Nat.add_sub_cancel' hle]

variable {params : ThresholdParams} {keys : List (PublicKey G)} {P : G.Scalar[X]}

/-- Whether the key of the guardian with an index lies on a polynomial. -/
def fits (P : G.Scalar[X]) (keyed : PublicKey G × ℕ) : Bool :=
  G.mulGenerator (P.eval ((keyed.2 + 1 : ℕ) : G.Scalar)) = keyed.1.element

/-- What is compared of a later key. -/
theorem expected_eq (hlen : keys.length = params.shares.toNat) (hP : P.degree < params.threshold.toNat)
    {x : PublicKey G × ℕ} (hx : x ∈ keys.zipIdx.drop params.threshold.toNat) :
    (do
      let there ← coefficientsAt G (firstIndexes params.threshold.toNat)
        (multiples (firstIndexes params.threshold.toNat)).1 (inverseNumbers params.shares.toNat)
        (UInt64.ofNat x.2)
      let expected ← combine G there
        ((firstIndexes params.threshold.toNat).map fun i => P.eval (node i) • G.generator)
      pure (decide (expected = x.1.element))) = .ok (fits P x) := by
  obtain ⟨hge, hkey⟩ := mem_drop_zipIdx.1 hx
  have hlt : x.2 < params.shares.toNat := hlen ▸ (List.getElem?_eq_some_iff.1 hkey).1
  have hsmall := hlt.trans params.shares.toNat_lt
  have hword : (UInt64.ofNat x.2).toNat = x.2 := UInt64.toNat_ofNat_of_lt' hsmall
  have hafter : ∀ i ∈ firstIndexes params.threshold.toNat, i < UInt64.ofNat x.2 := by
    intro i hi
    rw [UInt64.lt_iff_toNat_lt, hword]
    exact (UInt64.lt_iff_toNat_lt.1 (lt_of_mem_firstIndexes hi)).trans_le hge
  have hlow : P.degree < (firstIndexes params.threshold.toNat).length := by
    simpa [firstIndexes] using hP
  rw [coefficientsAt_eq hafter (hword.trans_lt hlt)]
  simp only [bind, Except.bind]
  rw [combine_multiplesAt (nodup_firstIndexes params.threshold.toNat_lt.le) hafter hlow,
    node_ofNat hsmall]
  rfl

/-- **When guardians' keys make a key set**: if those after the first, as many as the threshold says,
lie on the polynomial of the first. -/
theorem ofKeys_eq (hlen : keys.length = params.shares.toNat) (hP : P.degree < params.threshold.toNat)
    (hfirst : (keys.take params.threshold.toNat).map (·.element) =
      (firstIndexes params.threshold.toNat).map fun i => P.eval (node i) • G.generator) :
    ofKeys params keys =
      if (keys.zipIdx.drop params.threshold.toNat).all (fits P) then
        .ok ⟨params, PublicKey.ofElement (G.mulGenerator (P.eval 0)), keys⟩
      else Checked.refuse .malformedParticipantKeys := by
  have hnodup := nodup_firstIndexes params.threshold.toNat_lt.le
  have hlow : P.degree < (firstIndexes params.threshold.toNat).length := by
    simpa [firstIndexes] using hP
  unfold ofKeys
  rw [if_neg (by simp [hlen])]
  simp only [hfirst, ← firstIndexes.eq_1]
  rw [coefficients_eq fun _ => lt_of_mem_firstIndexes]
  simp only [Checked.ofFault, bind, Except.bind]
  rw [combine_multiples hnodup hlow, inverses_points]
  have hothers := Except.mapM_of_forall fun x hx => expected_eq (G := G) hlen hP hx
  simp only [bind, Except.bind] at hothers
  simp only [hothers, List.all_map, Function.id_comp]
  rfl

/-- The elements of the first keys are on a polynomial. -/
theorem exists_first (hle : params.threshold ≤ params.shares)
    (hlen : keys.length = params.shares.toNat) :
    ∃ P : G.Scalar[X], P.degree < params.threshold.toNat ∧
      (keys.take params.threshold.toNat).map (·.element) =
        (firstIndexes params.threshold.toNat).map fun i => P.eval (node i) • G.generator := by
  have hle := UInt64.le_iff_toNat_le.1 hle
  let first := (keys.take params.threshold.toNat).map (·.element)
  let indexes := firstIndexes params.threshold.toNat
  have hcount : first.length = indexes.length := by
    simp only [first, indexes, firstIndexes, List.length_map, List.length_range, List.length_take, hlen]
    exact min_eq_left hle
  have hindexes : (indexes.zip first).map (·.1) = indexes := List.map_fst_zip hcount.ge
  obtain ⟨P, hP, hvalues⟩ := exists_polynomial (indexes.zip first) <| by
    rw [hindexes]
    exact nodup_firstIndexes params.threshold.toNat_lt.le
  refine ⟨P, by simpa [hcount, indexes, firstIndexes] using hP, ?_⟩
  calc first = (indexes.zip first).map (·.2) := (List.map_snd_zip hcount.le).symm
    _ = (indexes.zip first).map fun v => P.eval (node v.1) • G.generator :=
      List.map_congr_left hvalues
    _ = ((indexes.zip first).map (·.1)).map fun i => P.eval (node i) • G.generator := by
      rw [List.map_map]
      rfl
    _ = indexes.map fun i => P.eval (node i) • G.generator := by rw [hindexes]

/-- If the later keys fit the polynomial of the first ones, all keys are on it. -/
theorem forall_of_fits (hlen : keys.length = params.shares.toNat)
    (hfirst : (keys.take params.threshold.toNat).map (·.element) =
      (firstIndexes params.threshold.toNat).map fun i => P.eval (node i) • G.generator)
    (hothers : (keys.zipIdx.drop params.threshold.toNat).all (fits P) = true) (i : ℕ)
    (key : PublicKey G) (hkey : keys[i]? = some key) :
    key.element = G.mulGenerator (P.eval ((i + 1 : ℕ) : G.Scalar)) := by
  have hlt : i < 2 ^ 64 :=
    ((List.getElem?_eq_some_iff.1 hkey).1.trans_eq hlen).trans params.shares.toNat_lt
  by_cases hi : i < params.threshold.toNat
  · have hkeyed := congrArg (·[i]?) hfirst
    simp only [List.getElem?_map, List.getElem?_take_of_lt hi, hkey, Option.map_some, firstIndexes,
      List.getElem?_range hi, Option.some.injEq, node_ofNat hlt] at hkeyed
    exact hkeyed
  · have hfit := List.all_eq_true.1 hothers (key, i) (mem_drop_zipIdx.2 ⟨Nat.le_of_not_lt hi, hkey⟩)
    exact (of_decide_eq_true hfit).symm

/-- A key set made of guardians' own keys holds just these, the values of a polynomial, and the joint key
is its value at zero. -/
theorem exists_values_of_ofKeys {set : KeySet G} (hle : params.threshold ≤ params.shares)
    (h : ofKeys params keys = .ok set) :
    keys.length = params.shares.toNat ∧ ∃ P : G.Scalar[X], P.degree < params.threshold.toNat ∧
      (∀ i key, keys[i]? = some key →
        key.element = G.mulGenerator (P.eval ((i + 1 : ℕ) : G.Scalar))) ∧
      set = ⟨params, .ofElement (G.mulGenerator (P.eval 0)), keys⟩ := by
  have hlen : keys.length = params.shares.toNat := by
    by_contra hne
    rw [ofKeys, if_pos (Ne.symm hne)] at h
    cases h
  obtain ⟨P, hP, hfirst⟩ := exists_first hle hlen
  rw [ofKeys_eq hlen hP hfirst] at h
  split at h
  case isFalse => cases h
  case isTrue hothers =>
    exact ⟨hlen, P, hP, forall_of_fits hlen hfirst hothers, (Except.ok.inj h).symm⟩

/-- **Guardians' own keys** lie on a polynomial if they make a key set. -/
theorem exists_liesOn_of_ofKeys {set : KeySet G} (hpos : 0 < params.threshold)
    (hle : params.threshold ≤ params.shares) (h : ofKeys params keys = .ok set) :
    set.params = params ∧ ∃ P, set.LiesOn P := by
  obtain ⟨hlen, P, hP, hkeys, rfl⟩ := exists_values_of_ofKeys hle h
  exact ⟨rfl, P, hpos, hle, hP, hlen, hkeys, rfl⟩

/-- Whoever made a public polynomial could have been a dealer. -/
theorem exists_dealer (params : ThresholdParams) (polynomial : List G.Element) :
    ∃ dealer : Dealer G, dealer.params = params ∧ dealer.publicPolynomial = polynomial := by
  choose log hlog using hG.generated
  have hid : G.mulGenerator ∘ log = id := funext fun a => (hlog a).symm
  refine ⟨⟨params, polynomial.map log⟩, rfl, ?_⟩
  rw [Dealer.publicPolynomial, List.map_map, hid, List.map_id]

/-- **A public polynomial**, whoever made it, gives keys that lie on a polynomial. -/
theorem exists_liesOn_of_ofPolynomial {polynomial : List G.Element} {set : KeySet G}
    (hpos : 0 < params.threshold) (hle : params.threshold ≤ params.shares)
    (h : ofPolynomial params polynomial = .ok set) :
    set.params = params ∧ ∃ P, set.LiesOn P := by
  obtain ⟨dealer, rfl, rfl⟩ := exists_dealer params polynomial
  exact ⟨congrArg KeySet.params (Dealer.eq_keys hpos h).2, dealer.polynomial,
    Dealer.liesOn_of_dealer hpos hle h⟩

end KeySet

end PlaintextEquivalence
