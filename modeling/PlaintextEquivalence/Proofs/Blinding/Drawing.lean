import PlaintextEquivalence.Proofs.Blinding.Trustee
import PlaintextEquivalence.Proofs.Random.Tape

/-!
# Where a trustee's numbers stand on its tape

A trustee draws its numbers from one tape, pair after pair, so that each number has a place of its own
there: the second one of a pair behind the first, and every pair behind the pairs before it.

Principal results:
* `drawNonces_movedTo` — which numbers are drawn from a place on, and where the tape stands then.
* `noncePlaces_between`, `pairwise_noncePlaces` — their places do not overlap.
* `ne_zero_of_mem_drawNonces` — when none of them is zero.
-/

set_option autoImplicit false

namespace PlaintextEquivalence

/-- The two numbers that stand at two places of a tape. -/
def NoncePair.readAt {G : PrimeGroup} (tape : Tape) (places : Nat × Nat) : NoncePair G :=
  ⟨G.numberAt tape places.1, G.numberAt tape places.2⟩

namespace BlindingTrustee

variable (G : PrimeGroup) (tape : Tape)

/-- The places of the next two numbers on a tape that stands at a place. -/
def pairPlaces (place : Nat) : Nat × Nat :=
  let exponent := G.firstNonzero tape redraws place
  (exponent, G.firstNonzero tape redraws (exponent + 64))

/-- The places of the numbers for `n` ratios, drawn from a place on. -/
def noncePlaces : Nat → Nat → List (Nat × Nat)
  | 0, _ => []
  | n + 1, place => pairPlaces G tape place :: noncePlaces n ((pairPlaces G tape place).2 + 64)

/-- Where the tape stands when they are drawn. -/
def placeAfter : Nat → Nat → Nat
  | 0, place => place
  | n + 1, place => placeAfter n ((pairPlaces G tape place).2 + 64)

/-- **Which numbers are drawn** from a place on. -/
theorem drawNonces_movedTo (n place : Nat) :
    drawNonces (G := G) n (tape.movedTo place) =
      ((noncePlaces G tape n place).map (.readAt tape), tape.movedTo (placeAfter G tape n place)) := by
  induction n generalizing place with
  | zero => rfl
  | succ n ih =>
    rw [drawNonces]
    simp only [PrimeGroup.drawNonzero_movedTo]
    rw [ih]
    rfl

/-- Numbers are drawn from further on the same tape. -/
theorem block_drawNonces (n : Nat) :
    (drawNonces (G := G) n tape).2.block = tape.block := by
  have hdrawn := drawNonces_movedTo G tape n tape.used
  rw [tape.movedTo_used] at hdrawn
  rw [hdrawn]
  rfl

/-! ## Places apart -/

theorem pairPlaces_spec (place : Nat) :
    place ≤ (pairPlaces G tape place).1 ∧
      (pairPlaces G tape place).1 + 64 ≤ (pairPlaces G tape place).2 :=
  ⟨G.le_firstNonzero redraws place, G.le_firstNonzero redraws _⟩

theorem le_placeAfter (n place : Nat) : place ≤ placeAfter G tape n place := by
  induction n generalizing place with
  | zero => exact Nat.le_refl place
  | succ n ih =>
    obtain ⟨hfirst, hsecond⟩ := pairPlaces_spec G tape place
    have hrest := ih ((pairPlaces G tape place).2 + 64)
    rw [placeAfter]
    omega

/-- The numbers drawn stand between the places where the tape stands before and afterwards. -/
theorem noncePlaces_between (n place : Nat) :
    ∀ p ∈ noncePlaces G tape n place,
      place ≤ p.1 ∧ p.1 + 64 ≤ p.2 ∧ p.2 + 64 ≤ placeAfter G tape n place := by
  induction n generalizing place with
  | zero => nofun
  | succ n ih =>
    obtain ⟨hfirst, hsecond⟩ := pairPlaces_spec G tape place
    rw [noncePlaces, placeAfter, List.forall_mem_cons]
    refine ⟨⟨hfirst, hsecond, le_placeAfter G tape n _⟩, fun p hp => ?_⟩
    obtain ⟨hstart, horder, hend⟩ := ih _ p hp
    omega

/-- **Pairs stand one behind the other.** -/
theorem pairwise_noncePlaces (n place : Nat) :
    (noncePlaces G tape n place).Pairwise fun p q => p.2 + 64 ≤ q.1 := by
  induction n generalizing place with
  | zero => exact .nil
  | succ n ih => exact .cons (fun q hq => (noncePlaces_between G tape n _ q hq).1) (ih _)

/-! ## Numbers other than zero -/

variable {G} {tape}

theorem ne_zero_of_mem_noncePlaces (n : Nat) {place : Nat}
    (h : ∀ later, place ≤ later → ∃ i ≤ redraws, G.numberAt tape (later + 64 * i) ≠ 0) :
    ∀ p ∈ noncePlaces G tape n place, G.numberAt tape p.1 ≠ 0 ∧ G.numberAt tape p.2 ≠ 0 := by
  induction n generalizing place with
  | zero => nofun
  | succ n ih =>
    have hread (later : Nat) (hlater : place ≤ later) :
        G.numberAt tape (G.firstNonzero tape redraws later) ≠ 0 :=
      (G.numberAt_firstNonzero_ne_zero_iff redraws later).2 (h later hlater)
    obtain ⟨hfirst, hsecond⟩ := pairPlaces_spec G tape place
    rw [noncePlaces, List.forall_mem_cons]
    refine ⟨⟨hread place (Nat.le_refl _), hread ((pairPlaces G tape place).1 + 64) (by omega)⟩, ih ?_⟩
    exact fun later hlater => h later (by omega)

/-- **No number drawn is zero** unless as many zeros stand one behind the other as a trustee looks at. -/
theorem ne_zero_of_mem_drawNonces
    (h : ∀ place, tape.used ≤ place → ∃ i ≤ redraws, G.numberAt tape (place + 64 * i) ≠ 0) (n : Nat) :
    ∀ pair ∈ (drawNonces (G := G) n tape).1, pair.exponent ≠ 0 ∧ pair.mask ≠ 0 := by
  intro pair hpair
  rw [← tape.movedTo_used, drawNonces_movedTo] at hpair
  obtain ⟨p, hp, rfl⟩ := List.mem_map.1 hpair
  exact ne_zero_of_mem_noncePlaces n h p hp

end BlindingTrustee

end PlaintextEquivalence
