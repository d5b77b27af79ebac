import PlaintextEquivalence.Proofs.Fault
import PlaintextEquivalence.Proofs.Group.Lawful
import PlaintextEquivalence.Sharing.Interpolation

/-!
# Interpolation is exact

In a lawful group no step of the computation of multiples meets a fault, as long as every index has a
point: distances are taken from the greater index, and no denominator is zero.  If all indexes differ,
the scaled multiples are the values of Mathlib's Lagrange basis, so that what they combine is the value
of the polynomial of lower degree than there are indexes.

Principal results:
* `coefficients_eq`, `coefficientsAt_eq` — the multiples are computed without a fault.
* `combine_multiples`, `combine_multiplesAt` — interpolation of a polynomial's multiples of an element, at zero and
  at the point of a greater index.
-/

set_option autoImplicit false

namespace PlaintextEquivalence

/-- An index below a bound has a next number. -/
theorem Word.next_of_lt {i bound : UInt64} (h : i < bound) : Word.next i = .ok (i + 1) := by
  have hi := UInt64.lt_iff_toNat_lt.1 h
  unfold Word.next
  rw [if_pos (Nat.lt_of_le_of_lt hi bound.toNat_lt_size)]

theorem Word.toNat_next_of_lt {i bound : UInt64} (h : i < bound) : (i + 1).toNat = i.toNat + 1 := by
  have hi := UInt64.lt_iff_toNat_lt.1 h
  have hbound := bound.toNat_lt
  rw [UInt64.toNat_add, UInt64.toNat_one, Nat.mod_eq_of_lt (by omega)]

theorem Word.minus_of_le {a b : UInt64} (h : b ≤ a) : Word.minus a b = .ok (a - b) := if_pos h

namespace Interpolation

variable {G : PrimeGroup} [hG : PrimeGroup.Lawful G]

/-! ## Points -/

/-- The point of the guardian with an index. -/
def node (index : UInt64) : G.Scalar := ((index.toNat + 1 : ℕ) : G.Scalar)

theorem ofWord_next {i bound : UInt64} (h : i < bound) : G.ofWord (i + 1) = node i := by
  rw [PrimeGroup.ofWord_eq_cast, Word.toNat_next_of_lt h, node]

theorem ofWord_sub {i j : UInt64} (h : j ≤ i) : G.ofWord (i - j) = node i - node j := by
  rw [PrimeGroup.ofWord_eq_cast, UInt64.toNat_sub_of_le _ _ h,
    Nat.cast_sub (UInt64.le_iff_toNat_le.1 h), node, node, Nat.cast_succ, Nat.cast_succ,
    add_sub_add_right_eq_sub]

theorem node_injective : Function.Injective (node (G := G)) := by
  intro i j h
  have hi := i.toNat_lt
  have hj := j.toNat_lt
  rw [node, node, PrimeGroup.natCast_inj (by omega) (by omega)] at h
  exact UInt64.toNat_inj.1 (by omega)

theorem node_ne_zero (i : UInt64) : (node i : G.Scalar) ≠ 0 := by
  have hi := i.toNat_lt
  rw [node, ← Nat.cast_zero, ne_eq, PrimeGroup.natCast_inj (by omega) (by omega)]
  omega

/-! ## Denominators -/

/-- What an index brings to the denominator of an index, with its sign. -/
def partOf (index other : UInt64) : G.Scalar :=
  if other = index then node index else node other - node index

theorem partOf_ne_zero (index other : UInt64) : (partOf index other : G.Scalar) ≠ 0 := by
  unfold partOf
  split
  · exact node_ne_zero index
  · rename_i hne
    exact sub_ne_zero.2 fun h => hne (node_injective h)

theorem part_eq {index bound : UInt64} (h : index < bound) (other : UInt64) :
    part G index other =
      .ok (other < index, signed G (other < index) (partOf index other)) := by
  unfold part partOf signed
  by_cases hlt : other < index
  · have hne : other ≠ index := UInt64.ne_of_lt hlt
    simp [hlt, hne, Word.minus_of_le (UInt64.le_of_lt hlt), ofWord_sub (G := G) (UInt64.le_of_lt hlt),
      bind, Except.bind, pure, Except.pure]
  · by_cases hgt : index < other
    · have hne : other ≠ index := (UInt64.ne_of_lt hgt).symm
      simp [hlt, hgt, hne, Word.minus_of_le (UInt64.le_of_lt hgt),
        ofWord_sub (G := G) (UInt64.le_of_lt hgt), bind, Except.bind, pure, Except.pure]
    · obtain rfl : other = index :=
        UInt64.le_antisymm (UInt64.not_lt.1 hgt) (UInt64.not_lt.1 hlt)
      simp [Word.next_of_lt h, ofWord_next (G := G) h, bind, Except.bind, pure, Except.pure]

theorem signed_mul (a b : Bool) (k l : G.Scalar) :
    signed G (a ^^ b) (k * l) = signed G a k * signed G b l := by
  cases a <;> cases b <;> simp [signed]

theorem signed_signed (a : Bool) (k : G.Scalar) : signed G a (signed G a k) = k := by
  cases a <;> simp [signed]

/-- Signs taken apart from sizes are those of the product. -/
theorem signed_prod (parts : List (Bool × G.Scalar)) :
    signed G (parts.foldl (fun negative p => negative ^^ p.1) false) (parts.map (·.2)).prod =
      (parts.map fun p => signed G p.1 p.2).prod := by
  have hfold : ∀ (parts : List (Bool × G.Scalar)) (negative : Bool) (k : G.Scalar),
      signed G (parts.foldl (fun negative p => negative ^^ p.1) negative)
          (k * (parts.map (·.2)).prod) =
        signed G negative k * (parts.map fun p => signed G p.1 p.2).prod := by
    intro parts
    induction parts with
    | nil => intro negative k; simp
    | cons p parts ih =>
      intro negative k
      simp only [List.foldl_cons, List.map_cons, List.prod_cons, ← mul_assoc]
      rw [ih, signed_mul]
  have hall := hfold parts false 1
  rw [one_mul] at hall
  rw [hall]
  exact one_mul _

/-- The product of all parts of a denominator. -/
def denominatorOf (indexes : List UInt64) (index : UInt64) : G.Scalar :=
  (indexes.map (partOf index)).prod

theorem denominatorOf_ne_zero (indexes : List UInt64) (index : UInt64) :
    (denominatorOf indexes index : G.Scalar) ≠ 0 := by
  unfold denominatorOf
  refine List.prod_ne_zero fun hzero => ?_
  obtain ⟨other, _, hpart⟩ := List.mem_map.1 hzero
  exact partOf_ne_zero index other hpart

theorem denominator_eq {indexes : List UInt64} {index bound : UInt64} (h : index < bound) :
    denominator G indexes index = .ok (denominatorOf indexes index) := by
  unfold denominator
  rw [Except.mapM_of_forall fun other _ => part_eq h other]
  simp only [bind, Except.bind, pure, Except.pure, PrimeGroup.product, ← List.prod_eq_foldl]
  rw [signed_prod, List.map_map, denominatorOf]
  congr 2
  exact List.map_congr_left fun other _ => signed_signed _ _

/-! ## Multiples -/

theorem inverses_eq {ks : List G.Scalar} (h : ∀ k ∈ ks, k ≠ 0) :
    G.inverses ks = .ok (ks.map (·⁻¹)) := by
  have hzero : (0 : G.Scalar) ∉ ks := fun hmem => h 0 hmem rfl
  unfold PrimeGroup.inverses
  rw [if_neg hzero, hG.invertAll_eq _ hzero]
  congr 1
  exact List.map_congr_left fun k hk => eq_inv_of_mul_eq_one_right (hG.mul_invert k (h k hk))

/-- The multiples at zero and their scale. -/
def multiples (indexes : List UInt64) : List G.Scalar × G.Scalar :=
  (indexes.map fun i => (denominatorOf indexes i)⁻¹, (indexes.map node).prod)

/-- The multiples at zero are computed if every index has a point. -/
theorem coefficients_eq {indexes : List UInt64} {bound : UInt64} (h : ∀ i ∈ indexes, i < bound) :
    coefficients G indexes = .ok (multiples indexes) := by
  have hnonzero : ∀ k ∈ indexes.map (denominatorOf (G := G) indexes), k ≠ 0 := by
    rw [List.forall_mem_map]
    exact fun i _ => denominatorOf_ne_zero indexes i
  unfold coefficients
  rw [Except.mapM_of_forall fun i hi => denominator_eq (h i hi)]
  simp only [bind, Except.bind, pure, Except.pure]
  rw [inverses_eq hnonzero, Except.mapM_of_forall fun i hi => Word.next_of_lt (h i hi)]
  simp only [PrimeGroup.product, ← List.prod_eq_foldl, List.map_map]
  congr 3
  exact List.map_congr_left fun i hi => ofWord_next (h i hi)

/-- The inverses of the numbers from one on. -/
def inverseNumbers (count : ℕ) : List G.Scalar :=
  (List.range count).map fun i => ((i + 1 : ℕ) : G.Scalar)⁻¹

theorem multipleAt_eq {i index : UInt64} {count : ℕ} (h : i < index) (hcount : index.toNat < count)
    (k : G.Scalar) :
    multipleAt G (inverseNumbers count) index i k =
      .ok (k * node i * (node index - node i)⁻¹) := by
  have hlt := UInt64.lt_iff_toNat_lt.1 h
  have hle := UInt64.le_of_lt h
  have hdistance : (index - i).toNat = index.toNat - i.toNat := UInt64.toNat_sub_of_le _ _ hle
  have hone : 1 ≤ index - i := by
    rw [UInt64.le_iff_toNat_le, hdistance, UInt64.toNat_one]
    omega
  have hposition : (index - i - 1).toNat = index.toNat - i.toNat - 1 := by
    rw [UInt64.toNat_sub_of_le _ _ hone, hdistance, UInt64.toNat_one]
  have hinverse : (inverseNumbers (G := G) count)[(index - i - 1).toNat]? =
      some (node index - node i)⁻¹ := by
    have hback : index.toNat - i.toNat - 1 + 1 = index.toNat - i.toNat := by omega
    rw [inverseNumbers, hposition, List.getElem?_map, List.getElem?_range (by omega),
      ← ofWord_sub hle, PrimeGroup.ofWord_eq_cast, hdistance]
    simp only [Option.map_some, hback]
  unfold multipleAt
  simp only [Word.next_of_lt h, Word.minus_of_le hle, Word.minus_of_le hone, bind, Except.bind,
    hinverse, ofWord_next (G := G) h]
  rfl

/-- The multiples at the point of a greater index and their scale. -/
def multiplesAt (indexes : List UInt64) (index : UInt64) : List G.Scalar × G.Scalar :=
  (indexes.map fun i => (denominatorOf indexes i)⁻¹ * node i * (node index - node i)⁻¹,
    signed G (indexes.length % 2 = 0) (indexes.map fun i => node index - node i).prod)

/-- The multiples at the point of a greater index are computed. -/
theorem coefficientsAt_eq {indexes : List UInt64} {index : UInt64} {count : ℕ}
    (h : ∀ i ∈ indexes, i < index) (hcount : index.toNat < count) :
    coefficientsAt G indexes (multiples indexes).1 (inverseNumbers count) index =
      .ok (multiplesAt indexes index) := by
  have hdistances : indexes.map (G.ofWord ∘ fun i => index - i) =
      indexes.map fun i => node index - node i :=
    List.map_congr_left fun i hi => ofWord_sub (UInt64.le_of_lt (h i hi))
  have hzip : indexes.zip (multiples (G := G) indexes).1 =
      indexes.map fun i => (i, (denominatorOf indexes i)⁻¹) := by
    have hmap : (indexes.map id).zip (multiples (G := G) indexes).1 =
        indexes.map fun i => (i, (denominatorOf indexes i)⁻¹) := List.zip_map'
    rw [List.map_id] at hmap
    exact hmap
  have hthere : ∀ x ∈ indexes.map fun i => (i, (denominatorOf (G := G) indexes i)⁻¹),
      multipleAt G (inverseNumbers count) index x.1 x.2 =
        .ok (x.2 * node x.1 * (node index - node x.1)⁻¹) := by
    rw [List.forall_mem_map]
    exact fun i hi => multipleAt_eq (h i hi) hcount _
  unfold coefficientsAt
  rw [Except.mapM_of_forall fun i hi => Word.minus_of_le (UInt64.le_of_lt (h i hi)), hzip]
  simp only [bind, Except.bind]
  rw [Except.mapM_of_forall hthere]
  simp only [PrimeGroup.product, ← List.prod_eq_foldl, List.map_map, hdistances]
  rfl

/-! ## Polynomials -/

/-- In a denominator the index itself stands apart. -/
theorem denominatorOf_eq {indexes : List UInt64} (hindexes : indexes.Nodup) {i : UInt64}
    (hi : i ∈ indexes) :
    (denominatorOf indexes i : G.Scalar) =
      node i * ∏ j ∈ indexes.toFinset.erase i, (node j - node i) := by
  rw [denominatorOf, ← List.prod_toFinset _ hindexes,
    ← Finset.mul_prod_erase _ _ (List.mem_toFinset.2 hi)]
  congr 1
  · exact if_pos rfl
  · exact Finset.prod_congr rfl fun j hj => if_neg (Finset.ne_of_mem_erase hj)

/-- The values of the Lagrange basis of an index. -/
theorem eval_basis (s : Finset UInt64) (i : UInt64) (t : G.Scalar) :
    (Lagrange.basis s node i).eval t =
      (∏ j ∈ s.erase i, (t - node j)) * (∏ j ∈ s.erase i, (node i - node j))⁻¹ := by
  rw [Lagrange.basis, Polynomial.eval_prod]
  simp only [Lagrange.basisDivisor, Polynomial.eval_mul, Polynomial.eval_C, Polynomial.eval_sub,
    Polynomial.eval_X]
  rw [Finset.prod_mul_distrib, Finset.prod_inv_distrib, mul_comm]

theorem prod_erase_ne_zero (s : Finset UInt64) (i : UInt64) :
    ∏ j ∈ s.erase i, (node i - node j : G.Scalar) ≠ 0 :=
  Finset.prod_ne_zero_iff.2 fun _ hj =>
    sub_ne_zero.2 fun h => Finset.ne_of_mem_erase hj (node_injective h).symm

/-- The other nodes less the node of an index, or the other way round. -/
theorem prod_erase_comm (s : Finset UInt64) (i : UInt64) :
    ∏ j ∈ s.erase i, (node j - node i : G.Scalar) =
      (-1) ^ (s.erase i).card * ∏ j ∈ s.erase i, (node i - node j) := by
  rw [← Finset.prod_neg]
  exact Finset.prod_congr rfl fun j _ => (neg_sub _ _).symm

/-- The scaled multiples at zero are the values of the Lagrange basis. -/
theorem scaled_zero {indexes : List UInt64} (hindexes : indexes.Nodup) {i : UInt64}
    (hi : i ∈ indexes) :
    (indexes.map node).prod * (denominatorOf indexes i : G.Scalar)⁻¹ =
      (Lagrange.basis indexes.toFinset node i).eval 0 := by
  have hscale : ((indexes.map node).prod : G.Scalar) =
      node i * ∏ j ∈ indexes.toFinset.erase i, node j := by
    rw [← List.prod_toFinset _ hindexes, ← Finset.mul_prod_erase _ _ (List.mem_toFinset.2 hi)]
  have hzero : ∏ j ∈ indexes.toFinset.erase i, (0 - node j : G.Scalar) =
      (-1) ^ (indexes.toFinset.erase i).card * ∏ j ∈ indexes.toFinset.erase i, node j := by
    rw [← Finset.prod_neg]
    exact Finset.prod_congr rfl fun j _ => zero_sub _
  have hne := prod_erase_ne_zero (G := G) indexes.toFinset i
  have hnode := node_ne_zero (G := G) i
  have hsign : ((-1 : G.Scalar) ^ (indexes.toFinset.erase i).card) ≠ 0 :=
    pow_ne_zero _ (neg_ne_zero.2 one_ne_zero)
  rw [eval_basis, hscale, denominatorOf_eq hindexes hi, hzero, prod_erase_comm]
  rcases neg_one_pow_eq_or G.Scalar (indexes.toFinset.erase i).card with heven | hodd
  · rw [heven]
    field_simp
  · rw [hodd]
    field_simp

theorem signed_even {n : ℕ} (hn : 0 < n) (k : G.Scalar) :
    signed G (n % 2 = 0) k = (-1) ^ (n - 1) * k := by
  unfold signed
  rcases Nat.even_or_odd' n with ⟨m, rfl | rfl⟩
  · have hodd : Odd (2 * m - 1) := ⟨m - 1, by omega⟩
    rw [hodd.neg_one_pow]
    simp
  · have heven : Even (2 * m + 1 - 1) := ⟨m, by omega⟩
    rw [heven.neg_one_pow, if_neg (by simp), one_mul]

/-- So are the scaled multiples at the point of a greater index. -/
theorem scaled_node {indexes : List UInt64} (hindexes : indexes.Nodup) {i index : UInt64}
    (hi : i ∈ indexes) (hlt : i < index) :
    signed G (indexes.length % 2 = 0) (indexes.map fun i => node index - node i).prod *
        ((denominatorOf indexes i)⁻¹ * node i * (node index - node i)⁻¹) =
      (Lagrange.basis indexes.toFinset node i).eval (node index) := by
  have hmem := List.mem_toFinset.2 hi
  have hcard : (indexes.toFinset.erase i).card = indexes.length - 1 := by
    rw [Finset.card_erase_of_mem hmem, List.toFinset_card_of_nodup hindexes]
  have hscale : ((indexes.map fun i => node index - node i).prod : G.Scalar) =
      (node index - node i) * ∏ j ∈ indexes.toFinset.erase i, (node index - node j) := by
    rw [← List.prod_toFinset _ hindexes, ← Finset.mul_prod_erase _ _ hmem]
  have hapart : (node index - node i : G.Scalar) ≠ 0 :=
    sub_ne_zero.2 fun h => (UInt64.ne_of_lt hlt).symm (node_injective h)
  have hne := prod_erase_ne_zero (G := G) indexes.toFinset i
  have hnode := node_ne_zero (G := G) i
  rw [eval_basis, signed_even (List.length_pos_of_mem hi), hscale, denominatorOf_eq hindexes hi,
    prod_erase_comm, hcard]
  rcases neg_one_pow_eq_or G.Scalar (indexes.length - 1) with heven | hodd
  · rw [heven]
    field_simp
  · rw [hodd]
    field_simp

theorem multiply_eq {ks : List G.Scalar} {as : List G.Element} (h : ks.length = as.length) :
    G.multiply ks as = .ok ((ks.zip as).map fun x => x.1 • x.2).sum := by
  unfold PrimeGroup.multiply PrimeGroup.sumMultiples
  rw [if_pos (.inl h), List.sum_eq_foldl, List.foldl_map]

/-- What is combined of the values of a polynomial by the values of the Lagrange basis. -/
theorem combine_basis {indexes : List UInt64} (hindexes : indexes.Nodup) {multiple : UInt64 → G.Scalar}
    {scale t : G.Scalar}
    (hbasis : ∀ i ∈ indexes,
      scale * multiple i = (Lagrange.basis indexes.toFinset node i).eval t)
    {P : Polynomial G.Scalar} (hP : P.degree < indexes.length) (a : G.Element) :
    combine G (indexes.map multiple, scale) (indexes.map fun i => P.eval (node i) • a) =
      .ok (P.eval t • a) := by
  have hcard : P.degree < indexes.toFinset.card := by
    rw [List.toFinset_card_of_nodup hindexes]
    exact hP
  have hsum : (indexes.map fun i => scale * multiple i * P.eval (node i)).sum = P.eval t := by
    conv_rhs => rw [Lagrange.eq_interpolate (node_injective (G := G)).injOn hcard]
    rw [Lagrange.interpolate_apply, Polynomial.eval_finsetSum, ← List.sum_toFinset _ hindexes]
    refine Finset.sum_congr rfl fun i hi => ?_
    rw [Polynomial.eval_mul, Polynomial.eval_C, hbasis i (List.mem_toFinset.1 hi), mul_comm]
  unfold combine
  simp only [bind, Except.bind]
  rw [multiply_eq (by simp), List.zip_map', List.map_map, ← hsum, List.sum_smul, List.map_map]
  simp only [pure, Except.pure, List.smul_sum, List.map_map, Function.comp_def, smul_smul, mul_assoc]

/-- **Interpolation at zero is exact.** -/
theorem combine_multiples {indexes : List UInt64} (hindexes : indexes.Nodup)
    {P : Polynomial G.Scalar} (hP : P.degree < indexes.length) (a : G.Element) :
    combine G (multiples indexes) (indexes.map fun i => P.eval (node i) • a) = .ok (P.eval 0 • a) :=
  combine_basis hindexes (fun _ hi => scaled_zero hindexes hi) hP a

/-- **Interpolation at the point of a greater index is exact.** -/
theorem combine_multiplesAt {indexes : List UInt64} (hindexes : indexes.Nodup) {index : UInt64}
    (h : ∀ i ∈ indexes, i < index) {P : Polynomial G.Scalar} (hP : P.degree < indexes.length)
    (a : G.Element) :
    combine G (multiplesAt indexes index) (indexes.map fun i => P.eval (node i) • a) =
      .ok (P.eval (node index) • a) :=
  combine_basis hindexes (fun i hi => scaled_node hindexes hi (h i hi)) hP a

end Interpolation

end PlaintextEquivalence
