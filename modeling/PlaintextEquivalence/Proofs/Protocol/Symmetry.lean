import PlaintextEquivalence.Proofs.Protocol.Honest

/-!
# The order of trustees and their modes do not matter

What a run does with the numbers of honest trustees goes through their sums: the blinding of a ratio, its
commitments, the challenge and the summed response are the same in whichever order the trustees come,
and the same whether a trustee keeps its numbers or lets them travel, since it draws the same ones.
So is then the result, with any decryptor that starts from the same state.

Principal results:
* `conclude_congr` — what a run does after the rounds depends on the randomness of the trustees only.
* `run_symmetric` — so does its result.
-/

set_option autoImplicit false

namespace PlaintextEquivalence

variable {G : PrimeGroup}

/-- Whoever decrypts, with a state of its own. -/
abbrev Decryptor (G : PrimeGroup) (δ : Type) :=
  List (Ciphertext G) → δ → Checked BoardError (List (G.Element × DecryptionProof G)) × δ

namespace Assembly

variable {δ : Type}

/-- The world of honest trustees with any decryptor instead of the guardians. -/
def worldWith (election : Election G) (clock : Nat → Nat) (decryptor : Decryptor G δ) :
    World (Question G) Question.Answer (Assembly G × δ)
  | .decrypt ciphertexts, s => ((decryptor ciphertexts s.2).1, s.1, (decryptor ciphertexts s.2).2)
  | q, s => ((world election clock q s.1).1, (world election clock q s.1).2, s.2)

end Assembly

/-- A question is one of the rounds with the trustees. -/
def Question.OfRounds : Question G → Prop
  | .decrypt _ => False
  | _ => True

/-- A question is one of those after the rounds. -/
def Question.OfConclusion : Question G → Prop
  | .decrypt _ => True
  | .reached _ => True
  | _ => False

namespace Session

theorem ofRounds_rounds {σ : Type} (session : Session G) (run : RunId) (quotient : Quotient G)
    (world : World (Question G) Question.Answer σ) (s : σ) :
    ∀ e ∈ (session.rounds run quotient).exchanges world s, e.1.OfRounds :=
  (course_rounds (Dialogue.course_hold world _ s)).forall_mem (fun _ _ => trivial)
    (fun _ _ _ => trivial) (fun _ => trivial) fun _ => trivial

theorem ofConclusion_conclude {σ : Type} (session : Session G) (quotient : Quotient G)
    (rounds : Rounds G) (world : World (Question G) Question.Answer σ) (s : σ) :
    ∀ e ∈ (session.conclude quotient rounds).exchanges world s, e.1.OfConclusion :=
  (course_conclude (Dialogue.course_hold world _ s)).forall_mem (fun _ _ => trivial) fun _ => trivial

end Session

namespace Assembly

variable {δ : Type} {election : Election G} {clock : Nat → Nat} {decryptor : Decryptor G δ}

/-- The rounds do not reach the decryptor. -/
theorem hold_rounds_worldWith (election : Election G) (clock : Nat → Nat) (decryptor : Decryptor G δ)
    (session : Session G) (run : RunId) (quotient : Quotient G) (a : Assembly G) (state : δ) :
    (session.rounds run quotient).hold (worldWith election clock decryptor) (a, state) =
      (((session.rounds run quotient).hold (world election clock) a).1,
        ((session.rounds run quotient).hold (world election clock) a).2, state) := by
  have hworld : ∀ q : Question G, q.OfRounds → ∀ (a : Assembly G) (s : Assembly G × δ), s = (a, state) →
      (worldWith election clock decryptor q s).1 = (world election clock q a).1 ∧
        (worldWith election clock decryptor q s).2 = ((world election clock q a).2, state) := by
    rintro q hq a _ rfl
    cases q with
    | decrypt _ => exact hq.elim
    | _ => exact ⟨rfl, rfl⟩
  obtain ⟨hresult, hstate⟩ := Dialogue.hold_congr hworld rfl
    (session.ofRounds_rounds run quotient (world election clock) a)
  exact Prod.ext hresult hstate

/-- What comes after the rounds depends on the state of the decryptor only. -/
theorem hold_conclude_worldWith {session : Session G} {quotient : Quotient G} {rounds : Rounds G}
    (clock clock' : Nat → Nat) (a b : Assembly G) (state : δ) :
    ((session.conclude quotient rounds).hold (worldWith election clock decryptor) (a, state)).1 =
      ((session.conclude quotient rounds).hold (worldWith election clock' decryptor) (b, state)).1 := by
  have hworld : ∀ q : Question G, q.OfConclusion → ∀ s t : Assembly G × δ, s.2 = t.2 →
      (worldWith election clock decryptor q t).1 = (worldWith election clock' decryptor q s).1 ∧
        (worldWith election clock' decryptor q s).2.2 =
          (worldWith election clock decryptor q t).2.2 := by
    intro q hq s t h
    cases q with
    | decrypt ciphertexts =>
      exact ⟨congrArg (fun d => (decryptor ciphertexts d).1) h.symm,
        congrArg (fun d => (decryptor ciphertexts d).2) h⟩
    | reached _ => exact ⟨rfl, h⟩
    | _ => exact hq.elim
  exact (Dialogue.hold_congr (R := fun s t => s.2 = t.2) hworld rfl
    (session.ofConclusion_conclude quotient rounds _ (b, state))).1

/-! ## Sums over the same randomness -/

section Sums

variable {a b : Assembly G} {session session' : Session G} {quotient : Quotient G}
  {x : SelectionQuotient G × Nat}

/-- The trustees of two assemblies have the same randomness, in whatever order. -/
def SameTapes (a b : Assembly G) : Prop :=
  (a.trustees.map (·.tape)).Perm (b.trustees.map (·.tape))

variable [hG : PrimeGroup.Lawful G]

/-- A sum over the numbers that trustees draw is one over their randomness. -/
theorem sum_nonceAt (h : SameTapes a b) (f : NoncePair G → G.Scalar) (n i : Nat) :
    (a.trustees.map fun trustee => f (trustee.nonceAt n i)).sum =
      (b.trustees.map fun trustee => f (trustee.nonceAt n i)).sum := by
  have hmap : ∀ c : Assembly G, (c.trustees.map fun trustee => f (trustee.nonceAt n i)) =
      (c.trustees.map (·.tape)).map fun tape =>
        f ((BlindingTrustee.drawNonces n tape).1.getD i ⟨0, 0⟩) := by
    intro c
    rw [List.map_map]
    rfl
  rw [hmap, hmap]
  exact (List.Perm.map _ h).sum_eq

theorem exponentSum_congr (h : SameTapes a b) (n i : Nat) : a.exponentSum n i = b.exponentSum n i :=
  sum_nonceAt h (·.exponent) n i

theorem maskSum_congr (h : SameTapes a b) (n i : Nat) : a.maskSum n i = b.maskSum n i :=
  sum_nonceAt h (·.mask) n i

theorem degenerateSelections_congr (h : SameTapes a b) (quotient : Quotient G) :
    a.degenerateSelections quotient = b.degenerateSelections quotient := by
  simp only [degenerateSelections, exponentSum_congr h]

theorem aggregateAt_congr (h : SameTapes a b) (hx : x ∈ quotient.places) :
    Session.aggregateAt (a.rows quotient) x = Session.aggregateAt (b.rows quotient) x := by
  rw [aggregateAt_rows hx, aggregateAt_rows hx, exponentSum_congr h, maskSum_congr h]

theorem proofAt_congr (h : SameTapes a b) (helection : session'.election = session.election)
    (hx : x ∈ quotient.places) :
    session.proofAt (a.rows quotient) (a.answers session quotient) x =
      session'.proofAt (b.rows quotient) (b.answers session' quotient) x := by
  have hchallenge : session.challengeAt (a.rows quotient) x =
      session'.challengeAt (b.rows quotient) x := by
    rw [Session.challengeAt, Session.challengeAt, aggregateAt_congr h hx, helection]
  rw [Session.proofAt, Session.proofAt, totalResponse_answers hx, totalResponse_answers hx,
    hchallenge, exponentSum_congr h, maskSum_congr h]

/-- **What a run does after the rounds** depends on the randomness of the trustees only. -/
theorem conclude_congr (h : SameTapes a b) (helection : session'.election = session.election)
    (quotient : Quotient G) :
    session.conclude quotient
        (session.roundsOf quotient (a.rows quotient) (a.answers session quotient)) =
      session'.conclude quotient
        (session'.roundsOf quotient (b.rows quotient) (b.answers session' quotient)) := by
  have hproofs : Session.proofs quotient
      (session.roundsOf quotient (a.rows quotient) (a.answers session quotient)) =
        Session.proofs quotient
          (session'.roundsOf quotient (b.rows quotient) (b.answers session' quotient)) := by
    rw [Session.proofs_eq_ok.2 ⟨fun _ => answersAt_answers, rfl⟩,
      Session.proofs_eq_ok.2 ⟨fun _ => answersAt_answers, rfl⟩]
    exact congrArg _ (List.map_congr_left fun x hx => proofAt_congr h helection hx)
  have haggregates :
      (session.roundsOf quotient (a.rows quotient) (a.answers session quotient)).aggregates =
        (session'.roundsOf quotient (b.rows quotient) (b.answers session' quotient)).aggregates := by
    simp only [Session.roundsOf, Session.aggregates_eq]
    exact List.map_congr_left fun x hx => aggregateAt_congr h hx
  unfold Session.conclude
  rw [hproofs, haggregates, helection]

end Sums

/-! ## Runs -/

section Runs

variable {session : Session G} {a : Assembly G} {state : δ} {first second : Ballot G}

theorem number_worldWith (a : Assembly G) (state : δ) :
    worldWith election clock decryptor .number (a, state) =
      (a.nextRun, { a with nextRun := a.nextRun + 1 }, state) :=
  rfl

variable [hG : PrimeGroup.Lawful G]

/-- How the steps of a run of comparable ballots end. -/
theorem exists_hold_steps (decryptor : Decryptor G δ) (state : δ) (clock : Nat → Nat)
    {quotient : Quotient G}
    (hcomparable : Quotient.ofBallots first second = .ok quotient)
    (hcount : session.trustees = a.trustees.length)
    (hfresh : ∀ trustee ∈ a.trustees, trustee.IsFreshFor ⟨session.name, a.nextRun⟩) :
    ∃ b : Assembly G,
      ((session.run first second).hold (worldWith session.election clock decryptor) (a, state)).1 =
        if a.degenerateSelections quotient = [] then
          ((session.conclude quotient
            (session.roundsOf quotient (a.rows quotient) (a.answers session quotient))).hold
              (worldWith session.election clock decryptor) (b, state)).1
        else Checked.refuse (.degenerateBlinding (a.degenerateSelections quotient)) := by
  obtain ⟨b, _, hrounds⟩ := exists_hold_rounds clock quotient hcount hfresh
  have hlifted := hold_rounds_worldWith session.election clock decryptor session
    ⟨session.name, a.nextRun⟩ quotient { a with nextRun := a.nextRun + 1 } state
  rw [hrounds] at hlifted
  refine ⟨b, ?_⟩
  rw [hold_run _ (number_worldWith a state)]
  unfold Session.steps
  simp only [hcomparable]
  have hreached : (Talk.reached .ratio).hold (worldWith session.election clock decryptor)
      ({ a with nextRun := a.nextRun + 1 }, state) = ((), { a with nextRun := a.nextRun + 1 }, state) :=
    rfl
  rw [Dialogue.hold_bind, hreached, Dialogue.hold_bind, hlifted]
  by_cases hproper : a.degenerateSelections quotient = []
  · rw [if_pos hproper, if_pos hproper]
  · rw [if_neg hproper, if_neg hproper]
    simp only [Dialogue.hold_bind]
    rfl

/-- **The order of trustees and their modes do not matter.**  Two runs for one election, with any
decryptor that starts from the same state, lead to the same result for every pair of ballots if the
trustees have the same randomness, in whatever order, and keep nothing for the run yet.  Each trustee may
keep its numbers or let them travel, and the sessions may have different names and limits. -/
theorem run_symmetric {session session' : Session G} {a b : Assembly G}
    (helection : session'.election = session.election) (decryptor : Decryptor G δ) (state : δ)
    (clock clock' : Nat → Nat) (htapes : SameTapes a b)
    (hcount : session.trustees = a.trustees.length)
    (hcount' : session'.trustees = b.trustees.length)
    (hfresh : ∀ trustee ∈ a.trustees, trustee.IsFreshFor ⟨session.name, a.nextRun⟩)
    (hfresh' : ∀ trustee ∈ b.trustees, trustee.IsFreshFor ⟨session'.name, b.nextRun⟩)
    (first second : Ballot G) :
    ((session.run first second).hold (worldWith session.election clock decryptor) (a, state)).1 =
      ((session'.run first second).hold (worldWith session'.election clock' decryptor)
        (b, state)).1 := by
  cases hcomparable : Quotient.ofBallots first second with
  | error e =>
    rw [hold_run _ (number_worldWith a state), hold_run _ (number_worldWith b state), Session.steps,
      Session.steps, hcomparable]
    rfl
  | ok quotient =>
    obtain ⟨c, hrun⟩ := exists_hold_steps decryptor state clock hcomparable hcount hfresh
    obtain ⟨c', hrun'⟩ := exists_hold_steps decryptor state clock' hcomparable hcount' hfresh'
    rw [hrun, hrun', degenerateSelections_congr htapes, conclude_congr htapes helection, helection]
    split
    · exact hold_conclude_worldWith clock clock' c c' state
    · rfl

end Runs

end Assembly

/-! ## A small run with the trustees exchanged -/

namespace Small

/-- A tape of twos. -/
def otherTape : Tape := ⟨fun _ => List.replicate 64 2, 0⟩

/-- Two trustees, of which the first keeps its numbers. -/
def inOrder : Assembly Group :=
  { assembly with trustees :=
      [.ofTape "first" tape, { BlindingTrustee.ofTape "second" otherTape with mode := .echoed }] }

/-- The same two the other way round, in the other modes. -/
def exchanged : Assembly Group :=
  { assembly with trustees :=
      [.ofTape "second" otherTape, { BlindingTrustee.ofTape "first" tape with mode := .echoed }] }

theorem run_exchanged :
    (inOrder.SameTapes exchanged ∧
      (∀ trustee ∈ inOrder.trustees, trustee.IsFreshFor ⟨session.name, inOrder.nextRun⟩) ∧
      ∀ trustee ∈ exchanged.trustees, trustee.IsFreshFor ⟨session.name, exchanged.nextRun⟩) ∧
    ((session.run first second).hold (Assembly.worldWith election id fun ciphertexts board =>
        GuardianBoard.decrypt board election ciphertexts) (inOrder, assembly.board)).1 =
      ((session.run first second).hold (Assembly.worldWith election id fun ciphertexts board =>
        GuardianBoard.decrypt board election ciphertexts) (exchanged, assembly.board)).1 := by
  have htapes : inOrder.SameTapes exchanged := List.Perm.swap _ _ _
  have hfresh : ∀ trustee ∈ inOrder.trustees,
      trustee.IsFreshFor ⟨session.name, inOrder.nextRun⟩ := by
    simp [inOrder, BlindingTrustee.IsFreshFor, BlindingTrustee.ofTape, BlindingTrustee.retains]
  have hfresh' : ∀ trustee ∈ exchanged.trustees,
      trustee.IsFreshFor ⟨session.name, exchanged.nextRun⟩ := by
    simp [exchanged, BlindingTrustee.IsFreshFor, BlindingTrustee.ofTape, BlindingTrustee.retains]
  exact ⟨⟨htapes, hfresh, hfresh'⟩, Assembly.run_symmetric rfl _ _ id id htapes rfl rfl hfresh hfresh'
    first second⟩

end Small

end PlaintextEquivalence
