import PlaintextEquivalence.Proofs.Codec.RoundTrip
import PlaintextEquivalence.Proofs.Sharing.Consistency

/-!
# The joint key of accepted keys

Guardians' keys are accepted if they are not the identity.  That says nothing of the joint key, which is
another value of their polynomial: as soon as two guardians are needed, there are accepted keys whose
polynomial is zero at zero.  Values are then encrypted in the clear, and the key set is not read back.
Only if one guardian is enough, the keys are all the same as the joint key.

Principal results:
* `PublicKey.isAccepted_ofElement` — the key of an element is accepted unless it is the identity.
* `multiples_make_zero` — accepted keys that make the identity their joint key.
* `areAccepted_iff_threshold_eq_one` — accepted keys always make an accepted joint key just if one
  guardian is enough.
-/

set_option autoImplicit false

namespace PlaintextEquivalence

open Polynomial
open PrimeGroup (Encoded Lawful)

variable {G : PrimeGroup}

namespace PublicKey

variable [Encoded G]

/-- The key of an element is accepted unless it is the identity. -/
theorem isAccepted_ofElement {element : G.Element} :
    (ofElement element).IsAccepted ↔ element ≠ 0 := by
  have hread := ofBytes?_elementBytes element
  constructor
  · rintro ⟨-, other, hother⟩ rfl
    rw [if_pos rfl] at hread
    cases hread.symm.trans hother
  · intro hne
    exact ⟨.inl ⟨element, rfl⟩, _, hread.trans (if_neg hne)⟩

theorem IsAccepted.ne_zero {key : PublicKey G} (h : key.IsAccepted) : key.element ≠ 0 :=
  ofBytes?_ne_identity h.ofBytes?_bytes

end PublicKey

variable [hG : Lawful G]

/-- Encryption for a key shows every value just if the key is the identity. -/
theorem PublicKey.element_eq_zero_iff {key : PublicKey G} :
    key.element = 0 ↔ ∀ value r, (key.encryptWith value r).data = value := by
  constructor
  · intro hzero value r
    rw [encryptWith, hzero, smul_zero, add_zero]
  · intro hclear
    have hone : (0 : G.Element) + (1 : G.Scalar) • key.element = 0 := hclear 0 1
    rwa [zero_add, one_smul] at hone

namespace KeySet

variable {params : ThresholdParams}

/-- The multiples of the generator by one, two and so on. -/
def multiples (G : PrimeGroup) [Lawful G] (count : ℕ) : List (PublicKey G) :=
  (List.range count).map fun i => .ofElement (G.mulGenerator ((i + 1 : ℕ) : G.Scalar))

theorem isAccepted_multiples [Encoded G] {count : ℕ} (hcount : count < 2 ^ 64) :
    ∀ key ∈ multiples G count, key.IsAccepted := by
  rw [multiples, List.forall_mem_map]
  intro i hi
  have hlt : i + 1 ≤ 2 ^ 64 := (Nat.succ_le_of_lt (List.mem_range.1 hi)).trans hcount.le
  have hne : ((i + 1 : ℕ) : G.Scalar) ≠ 0 := by
    rw [← Nat.cast_zero, Ne, PrimeGroup.natCast_inj hlt (Nat.zero_le _)]
    exact Nat.succ_ne_zero i
  rw [PublicKey.isAccepted_ofElement]
  exact smul_ne_zero hne hG.generator_ne_zero

/-- **The multiples of the generator** are the values of a polynomial that is zero at zero; they make a key
set as soon as two guardians are needed. -/
theorem multiples_make_zero (htwo : 1 < params.threshold.toNat)
    (hle : params.threshold ≤ params.shares) :
    ofKeys params (multiples G params.shares.toNat) =
      .ok ⟨params, .ofElement 0, multiples G params.shares.toNat⟩ := by
  have hX : (X : G.Scalar[X]).degree < params.threshold.toNat := by
    rw [degree_X]
    exact_mod_cast htwo
  have hkeys : ∀ i key, (multiples G params.shares.toNat)[i]? = some key →
      key.element = G.mulGenerator ((X : G.Scalar[X]).eval ((i + 1 : ℕ) : G.Scalar)) := by
    intro i key hkey
    obtain ⟨_, rfl⟩ := List.getElem?_eq_some_iff.1 hkey
    simp [multiples, PublicKey.ofElement]
  have hzero : G.mulGenerator ((X : G.Scalar[X]).eval 0) = 0 := by
    rw [eval_X]
    exact zero_smul G.Scalar G.generator
  rw [ofKeys_of_forall hle (by simp [multiples]) hX hkeys, hzero]

/-- If one guardian is enough, accepted keys make an accepted joint key. -/
theorem sharedKey_ne_zero [Encoded G] {keys : List (PublicKey G)} {set : KeySet G}
    (hone : params.threshold.toNat = 1) (hle : params.threshold ≤ params.shares)
    (haccepted : ∀ key ∈ keys, key.IsAccepted) (h : ofKeys params keys = .ok set) :
    set.sharedKey.element ≠ 0 := by
  obtain ⟨hlen, P, hP, hkeys, rfl⟩ := exists_values_of_ofKeys hle h
  have hpos : 0 < keys.length := by
    have := UInt64.le_iff_toNat_le.1 hle
    omega
  have hconstant : P = C (P.coeff 0) := by
    rw [hone] at hP
    exact eq_C_of_degree_le_zero (Nat.WithBot.lt_one_iff_le_zero.1 hP)
  have hfirst := hkeys 0 keys[0] (List.getElem?_eq_getElem hpos)
  have hshared : G.mulGenerator (P.eval 0) = keys[0].element := by
    rw [hfirst, hconstant, eval_C, eval_C]
  show G.mulGenerator (P.eval 0) ≠ 0
  rw [hshared]
  exact (haccepted _ (List.getElem_mem hpos)).ne_zero

/-- **The joint key of a key set** made of guardians' own keys is accepted unless it is the identity, and
that is when encryption for it shows every value.  Accepted keys always make a key set of accepted
keys, and so one that is read back, just if the threshold is one. -/
theorem areAccepted_iff_threshold_eq_one [Encoded G] (hpos : 0 < params.threshold)
    (hle : params.threshold ≤ params.shares) :
    (∀ (keys : List (PublicKey G)) (set : KeySet G), ofKeys params keys = .ok set →
      (set.sharedKey.IsAccepted ↔ set.sharedKey.element ≠ 0) ∧
      (set.sharedKey.element = 0 ↔ ∀ value r, (set.sharedKey.encryptWith value r).data = value)) ∧
    ((∀ (keys : List (PublicKey G)) (set : KeySet G), (∀ key ∈ keys, key.IsAccepted) →
      ofKeys params keys = .ok set → set.AreAccepted) ↔ params.threshold = 1) := by
  have hpos := UInt64.lt_iff_toNat_lt.1 hpos
  refine ⟨fun keys set h => ⟨?_, PublicKey.element_eq_zero_iff⟩, fun hall => ?_,
    fun hone keys set haccepted h => ?_⟩
  · obtain ⟨_, P, _, _, rfl⟩ := exists_values_of_ofKeys hle h
    exact PublicKey.isAccepted_ofElement
  · by_contra hne
    have htwo : 1 < params.threshold.toNat := by
      have hone : params.threshold.toNat ≠ 1 := fun h => hne (UInt64.toNat_inj.1 h)
      omega
    have hset := hall _ _ (isAccepted_multiples params.shares.toNat_lt)
      (multiples_make_zero (G := G) htwo hle)
    exact PublicKey.isAccepted_ofElement.1 (hset _ List.mem_cons_self) rfl
  · have hzero := sharedKey_ne_zero (hone ▸ rfl) hle haccepted h
    obtain ⟨_, P, _, _, rfl⟩ := exists_values_of_ofKeys hle h
    exact List.forall_mem_cons.2 ⟨PublicKey.isAccepted_ofElement.2 hzero, haccepted⟩

end KeySet

namespace Small

/-- The joint key of the small key set is accepted; other accepted keys for three guardians, two of which
decrypt, make a joint key that is not. -/
theorem areAccepted_small :
    0 < dealer.params.threshold ∧ dealer.params.threshold ≤ dealer.params.shares ∧
      keys.sharedKey.IsAccepted ∧
      ∃ (own : List (PublicKey Group)) (set : KeySet Group), (∀ key ∈ own, key.IsAccepted) ∧
        KeySet.ofKeys dealer.params own = .ok set ∧ ¬set.AreAccepted := by
  have hpos : 0 < dealer.params.threshold := by decide
  have hle : dealer.params.threshold ≤ dealer.params.shares := by decide
  obtain ⟨hshared, hall⟩ := KeySet.areAccepted_iff_threshold_eq_one (G := Group) hpos hle
  have hkeys : KeySet.ofKeys dealer.params keys.participantKeys = .ok keys :=
    KeySet.ofKeys_of_liesOn (Dealer.liesOn_of_dealer hpos hle ofPolynomial_dealer)
  refine ⟨hpos, hle, (hshared _ _ hkeys).1.2 (by decide), ?_⟩
  by_contra hnone
  push Not at hnone
  exact absurd (hall.1 hnone) (by decide)

/-- The keys of the secrets one and two. -/
def lineKeys : List (PublicKey Group) := [.ofSecret (Group.ofWord 1), .ofSecret (Group.ofWord 2)]

theorem lineKeys_eq : lineKeys = KeySet.multiples Group 2 := by
  have hone : Group.ofWord 1 = ((0 + 1 : ℕ) : Group.Scalar) := PrimeGroup.ofWord_eq_cast 1
  have htwo : Group.ofWord 2 = ((1 + 1 : ℕ) : Group.Scalar) := PrimeGroup.ofWord_eq_cast 2
  rw [lineKeys, hone, htwo]
  rfl

/-- **Two accepted keys whose joint key is the identity**, which no bytes stand for. -/
theorem ofKeys_lineKeys :
    (∀ key ∈ lineKeys, PublicKey.ofBytes? key.bytes = .ok key) ∧
      KeySet.ofKeys ⟨2, 2⟩ lineKeys = .ok ⟨⟨2, 2⟩, .ofElement 0, lineKeys⟩ ∧
      PublicKey.ofBytes? (PublicKey.ofElement (0 : Group.Element)).bytes =
        (.error .identityKey : Except KeyError (PublicKey Group)) := by
  refine ⟨fun key hkey => ?_, ?_, ?_⟩
  · rw [lineKeys_eq] at hkey
    exact (KeySet.isAccepted_multiples (by decide) key hkey).ofBytes?_bytes
  · rw [lineKeys_eq]
    exact @KeySet.multiples_make_zero Group _ ⟨2, 2⟩ (by decide) (by decide)
  · exact (PublicKey.ofBytes?_elementBytes (G := Group) 0).trans (if_pos rfl)

end Small

end PlaintextEquivalence
