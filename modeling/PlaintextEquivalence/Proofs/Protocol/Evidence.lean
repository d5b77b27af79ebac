import Mathlib.Data.List.Forall2
import PlaintextEquivalence.Proofs.Lists
import PlaintextEquivalence.Proofs.Protocol.Run

/-!
# What the two rounds lead to

The steps of a run put several lists side by side: ratios, sums of contributions, challenges and sums
of responses.  All of them are one function of a selection and its position, applied to the
selections of the quotient in order, so that no item is lost or moved.

Principal results:
* `degenerate_eq_nil` — when all summed blindings are proper.
* `proofs_eq_ok` — when all selections are proved, and by which proofs.
* `verify_proofAt` — a sum that the coordinator accepts is a proof that a verifier accepts.
-/

set_option autoImplicit false

namespace PlaintextEquivalence

variable {G : PrimeGroup}

namespace Quotient

/-- The selections with their positions. -/
def places (q : Quotient G) : List (SelectionQuotient G × Nat) := q.selections.zipIdx

theorem map_fst_places (q : Quotient G) : q.places.map Prod.fst = q.selections :=
  List.zipIdx_map_fst 0 q.selections

theorem map_snd_places (q : Quotient G) : q.places.map Prod.snd = List.range q.size := by
  rw [places, List.zipIdx_map_snd, List.range_eq_range', size]

theorem length_places (q : Quotient G) : q.places.length = q.size := List.length_zipIdx

theorem mem_places {q : Quotient G} {x : SelectionQuotient G × Nat} :
    x ∈ q.places ↔ q.selections[x.2]? = some x.1 :=
  List.mem_zipIdx_iff_getElem?

theorem getElem?_places {q : Quotient G} {x : SelectionQuotient G × Nat} (h : x ∈ q.places) :
    q.places[x.2]? = some x := by
  rw [places, List.getElem?_zipIdx, mem_places.1 h]
  simp

theorem length_ratios (q : Quotient G) : q.ratios.length = q.size := List.length_map _

theorem ratios_eq (q : Quotient G) : q.ratios = q.places.map fun x => x.1.ratio := by
  rw [ratios, ← map_fst_places, List.map_map]
  rfl

end Quotient

/-- The sum of contributions, component by component. -/
theorem Aggregate.of_eq (ratio : Ciphertext G) (cs : List (Contribution G)) :
    Aggregate.of ratio cs =
      ⟨ratio, (cs.map (·.blinded)).foldl (· + ·) 0, (cs.map (·.commitments)).foldl (· + ·) 0⟩ := by
  have hfold : ∀ (cs : List (Contribution G)) (a b : Ciphertext G),
      cs.foldl
          (fun a c => { a with
            blinded := a.blinded + c.blinded
            commitments := a.commitments + c.commitments })
          (⟨ratio, a, b⟩ : Aggregate G) =
        ⟨ratio, (cs.map (·.blinded)).foldl (· + ·) a, (cs.map (·.commitments)).foldl (· + ·) b⟩ := by
    intro cs
    induction cs with
    | nil => intro a b; rfl
    | cons c cs ih => intro a b; exact ih _ _
  exact hfold cs 0 0

@[simp] theorem Aggregate.of_ratio (ratio : Ciphertext G) (cs : List (Contribution G)) :
    (Aggregate.of ratio cs).ratio = ratio := by
  rw [Aggregate.of_eq]

namespace Session

theorem columns_eq {α : Type} (q : Quotient G) (rows : List (List α)) :
    columns q.size rows = q.places.map fun x => column x.2 rows := by
  rw [columns, ← Quotient.map_snd_places, List.map_map]
  rfl

/-! ## Sums -/

/-- The sum of the contributions for a selection, from those of each trustee. -/
def aggregateAt (rows : List (List (Contribution G))) (x : SelectionQuotient G × Nat) :
    Aggregate G :=
  Aggregate.of x.1.ratio (column x.2 rows)

theorem aggregates_eq (q : Quotient G) (rows : List (List (Contribution G))) :
    aggregates q rows = q.places.map (aggregateAt rows) := by
  rw [aggregates, columns_eq, Quotient.ratios_eq, List.zipWith_map, List.zipWith_self]
  rfl

theorem blinded_roundsOf (session : Session G) (q : Quotient G)
    (rows : List (List (Contribution G))) (answers : List (List (ChallengeResponse G))) :
    blinded (session.roundsOf q rows answers) =
      q.places.map fun x => (aggregateAt rows x).blinded := by
  rw [blinded, roundsOf, aggregates_eq, List.map_map]
  rfl

/-- The degenerate selections in order. -/
theorem degenerate_eq (q : Quotient G) (rows : List (List (Contribution G))) :
    degenerate q (aggregates q rows) =
      (q.places.filter fun x => (aggregateAt rows x).blinded.isDegenerate).map (·.1.path) := by
  have hzip : q.selections.zip (aggregates q rows) =
      q.places.map fun x => (x.1, aggregateAt rows x) := by
    rw [aggregates_eq, ← List.zip_map', Quotient.map_fst_places]
  rw [degenerate, hzip, List.filterMap_map, ← List.filterMap_eq_map, ← List.filterMap_eq_filter,
    List.filterMap_filterMap]
  congr 1
  funext x
  by_cases h : (aggregateAt rows x).blinded.isDegenerate <;> simp [h, Option.guard]

theorem degenerate_eq_nil {q : Quotient G} {rows : List (List (Contribution G))} :
    degenerate q (aggregates q rows) = [] ↔
      ∀ x ∈ q.places, (aggregateAt rows x).blinded.isDegenerate = false := by
  rw [degenerate_eq, List.map_eq_nil_iff, List.filter_eq_nil_iff]
  simp

/-! ## Proofs -/

/-- The challenge for a selection. -/
def challengeAt (session : Session G) (rows : List (List (Contribution G)))
    (x : SelectionQuotient G × Nat) : G.Scalar :=
  (aggregateAt rows x).challenge session.election

theorem challenges_eq (session : Session G) (q : Quotient G)
    (rows : List (List (Contribution G))) :
    session.challenges q rows = q.places.map (session.challengeAt rows) := by
  rw [challenges, aggregates_eq, List.map_map]
  rfl

theorem length_challenges (session : Session G) (q : Quotient G) (rows : List (List (Contribution G))) :
    (session.challenges q rows).length = q.ratios.length := by
  rw [challenges_eq, List.length_map, Quotient.length_places, Quotient.length_ratios]

/-- The proof for a selection: its challenge and the sum of the responses. -/
def proofAt (session : Session G) (rows : List (List (Contribution G)))
    (answers : List (List (ChallengeResponse G))) (x : SelectionQuotient G × Nat) : Blinding G :=
  ⟨session.challengeAt rows x, totalResponse (column x.2 answers)⟩

/-- Whether the sum of the responses answers the challenge for a selection. -/
def answersAt (session : Session G) (rows : List (List (Contribution G)))
    (answers : List (List (ChallengeResponse G))) (x : SelectionQuotient G × Nat) : Bool :=
  Session.answers x.1.ratio (aggregateAt rows x).blinded (aggregateAt rows x).commitments
    (session.challengeAt rows x) (totalResponse (column x.2 answers))

theorem aggregateAt_ratio (rows : List (List (Contribution G))) (x : SelectionQuotient G × Nat) :
    (aggregateAt rows x).ratio = x.1.ratio :=
  Aggregate.of_ratio _ _

/-- The proof for a selection, or the trustees whose part of it fails. -/
def tryAt (session : Session G) (rows : List (List (Contribution G)))
    (answers : List (List (ChallengeResponse G))) (x : SelectionQuotient G × Nat) :
    Except FaultyBlinding (Blinding G) :=
  proofOf x.1.path (aggregateAt rows x) (session.challengeAt rows x) (column x.2 rows)
    (column x.2 answers)

theorem tryAt_eq_ok {session : Session G} {rows : List (List (Contribution G))}
    {answers : List (List (ChallengeResponse G))} {x : SelectionQuotient G × Nat}
    {proof : Blinding G} :
    session.tryAt rows answers x = .ok proof ↔
      session.answersAt rows answers x = true ∧ proof = session.proofAt rows answers x := by
  unfold tryAt proofOf answersAt
  simp only [aggregateAt_ratio]
  split
  · rename_i h
    simp [h, proofAt, eq_comm]
  · rename_i h
    simp [h]

/-- The tries of all selections are those of `proofs`. -/
theorem tries_eq (session : Session G) (q : Quotient G) (rows : List (List (Contribution G)))
    (answers : List (List (ChallengeResponse G))) :
    (q.selections.zip ((aggregates q rows).zip ((session.challenges q rows).zip
        ((columns q.size rows).zip (columns q.size answers))))).map
      (fun (s, a, c, cs, rs) => proofOf s.path a c cs rs) =
    q.places.map (session.tryAt rows answers) := by
  rw [columns_eq, columns_eq, challenges_eq, aggregates_eq, List.zip_map', List.zip_map',
    List.zip_map']
  nth_rewrite 1 [← Quotient.map_fst_places]
  rw [List.zip_map', List.map_map]
  rfl

/-- The failures among tries. -/
def failures (tries : List (Except FaultyBlinding (Blinding G))) : List FaultyBlinding :=
  tries.filterMap fun
    | .error f => some f
    | .ok _ => none

/-- The successes among tries. -/
def successes (tries : List (Except FaultyBlinding (Blinding G))) : List (Blinding G) :=
  tries.filterMap fun
    | .ok p => some p
    | .error _ => none

/-- If there is no failure among tries, all of them are successes. -/
theorem tries_eq_ok {tries : List (Except FaultyBlinding (Blinding G))} {good : List (Blinding G)} :
    failures tries = [] ∧ successes tries = good ↔ tries = good.map .ok := by
  unfold failures successes
  induction tries generalizing good with
  | nil => simp [eq_comm]
  | cons t tries ih =>
    cases t with
    | error f => cases good <;> simp
    | ok p =>
      cases good with
      | nil => simp
      | cons g good => simp [← ih, and_left_comm]

theorem proofs_roundsOf (session : Session G) (q : Quotient G)
    (rows : List (List (Contribution G))) (answers : List (List (ChallengeResponse G))) :
    proofs q (session.roundsOf q rows answers) =
      if (failures (q.places.map (session.tryAt rows answers))).isEmpty then
        .ok (successes (q.places.map (session.tryAt rows answers)))
      else .error (failures (q.places.map (session.tryAt rows answers))) := by
  rw [← tries_eq]
  rfl

/-- **All selections are proved** iff the sums of responses answer all challenges, and the proofs are
the challenges with those sums. -/
theorem proofs_eq_ok {session : Session G} {q : Quotient G} {rows : List (List (Contribution G))}
    {answers : List (List (ChallengeResponse G))} {good : List (Blinding G)} :
    proofs q (session.roundsOf q rows answers) = .ok good ↔
      (∀ x ∈ q.places, session.answersAt rows answers x = true) ∧
        good = q.places.map (session.proofAt rows answers) := by
  have htries : proofs q (session.roundsOf q rows answers) = .ok good ↔
      q.places.map (session.tryAt rows answers) = good.map .ok := by
    rw [proofs_roundsOf, ← tries_eq_ok]
    split
    · rename_i h
      simp [List.isEmpty_iff.1 h]
    · rename_i h
      simp [mt List.isEmpty_iff.2 h]
  have hpaired : q.places.map (session.tryAt rows answers) = good.map .ok ↔
      List.Forall₂ (fun x p => session.answersAt rows answers x = true ∧
        p = session.proofAt rows answers x) q.places good := by
    rw [← List.forall₂_eq_eq_eq, List.forall₂_map_left_iff, List.forall₂_map_right_iff]
    simp only [tryAt_eq_ok]
  rw [htries, hpaired, List.forall₂_and_left]
  exact and_congr Iff.rfl Paired.forall₂_eq_map

/-- **A sum of responses that answers the challenge** makes a proof that a verifier accepts: the
commitments it restores are those that the challenge was derived from. -/
theorem verify_proofAt {session : Session G} {rows : List (List (Contribution G))}
    {answers : List (List (ChallengeResponse G))} {x : SelectionQuotient G × Nat}
    (h : session.answersAt rows answers x = true) :
    (session.proofAt rows answers x).verify session.election x.1.ratio
      (aggregateAt rows x).blinded = .ok () := by
  have hrestored := of_decide_eq_true h
  unfold Blinding.verify proofAt
  simp only [hrestored]
  rw [challengeAt, Aggregate.challenge, aggregateAt_ratio, if_pos rfl]

end Session

end PlaintextEquivalence
