import PlaintextEquivalence.Proofs.Blinding.Trustee
import PlaintextEquivalence.Proofs.Protocol.Evidence
import PlaintextEquivalence.Proofs.Protocol.Round

/-!
# Rounds among honest parties

Trustees and guardians that act as they should, whatever they keep from runs before.  A round asks
each trustee once, so that what it leads to is one answer of each, and the trustees are then as their
answers leave them.

Principal results:
* `hold_round` — a round in which every trustee answers as it should.
* `hold_rounds` — what the two rounds lead to.
-/

set_option autoImplicit false

namespace PlaintextEquivalence

variable {G : PrimeGroup}

/-- Trustees and guardians with all they keep, and the number of the next run. -/
structure Assembly (G : PrimeGroup) where
  trustees : List (BlindingTrustee G)
  board : GuardianBoard G
  nextRun : UInt64

namespace Assembly

/-- The reply of a trustee that takes no time. -/
def promptly {α : Type} (answer : Except Rejection (List α)) : Reply α :=
  ⟨0, match answer with
    | .ok items => .ok items
    | .error rejection => .error (.rejected rejection)⟩

/-- Has a trustee do something, if there is one with the given index. -/
def call {α : Type} (a : Assembly G) (j : Nat) (absent : α)
    (act : BlindingTrustee G → α × BlindingTrustee G) : α × Assembly G :=
  match a.trustees[j]? with
  | none => (absent, a)
  | some trustee => ((act trustee).1, { a with trustees := a.trustees.set j (act trustee).2 })

/-- The same assembly with the trustees changed one by one. -/
def update (a : Assembly G) (f : Nat → BlindingTrustee G → BlindingTrustee G) : Assembly G :=
  { a with trustees := a.trustees.mapIdx f }

/-- What a trustee is asked first, at the time that its clock shows. -/
def blindAt (clock : Nat → Nat) (request : BlindRequest G) (j : Nat) (trustee : BlindingTrustee G) :
    Reply (Contribution G) × BlindingTrustee G :=
  (promptly (trustee.blind (clock j) request).1, (trustee.blind (clock j) request).2)

/-- What a trustee is asked next. -/
def challengeAt (request : Nat → ChallengeRequest G) (j : Nat) (trustee : BlindingTrustee G) :
    Reply (ChallengeResponse G) × BlindingTrustee G :=
  (promptly (trustee.challenge (request j)).1, (trustee.challenge (request j)).2)

/-- The world of honest trustees and guardians of an election, each trustee with a clock. -/
def world (election : Election G) (clock : Nat → Nat) :
    World (Question G) Question.Answer (Assembly G)
  | .number, a => (a.nextRun, { a with nextRun := a.nextRun + 1 })
  | .blind j request, a => a.call j ⟨0, .error (.other "")⟩ (blindAt clock request j)
  | .challenge j request, a => a.call j ⟨0, .error (.other "")⟩ (challengeAt (fun _ => request) j)
  | .release j run, a => a.call j 0 fun trustee => (0, trustee.release run)
  | .decrypt ciphertexts, a =>
    ((a.board.decrypt election ciphertexts).1,
      { a with board := (a.board.decrypt election ciphertexts).2 })
  | .pass _, a => ((), a)
  | .reached _, a => ((), a)
  | .ended _, a => ((), a)

/-! ## One question to each trustee -/

variable {election : Election G} {clock : Nat → Nat} {α : Type}

/-- A call is one question to the trustee with its index. -/
def Asks (election : Election G) (clock : Nat → Nat) (call : Nat → Talk G α)
    (act : Nat → BlindingTrustee G → α × BlindingTrustee G) : Prop :=
  ∀ (j : Nat) (a : Assembly G) (trustee : BlindingTrustee G), a.trustees[j]? = some trustee →
    (call j).hold (world election clock) a =
      ((act j trustee).1, { a with trustees := a.trustees.set j (act j trustee).2 })

theorem asks_blind (election : Election G) (clock : Nat → Nat) (request : BlindRequest G) :
    Asks election clock (fun j => Talk.blind j request) (blindAt clock request) := by
  intro j a trustee h
  change a.call j _ _ = _
  rw [call, h]

theorem asks_challenge (election : Election G) (clock : Nat → Nat)
    (request : Nat → ChallengeRequest G) :
    Asks election clock (fun j => Talk.challenge j (request j)) (challengeAt request) := by
  intro j a trustee h
  change a.call j _ _ = _
  rw [call, h]
  rfl

/-- Those asked already are left as they are, and the others are asked in order. -/
theorem hold_askEach_append {call : Nat → Talk G α}
    {act : Nat → BlindingTrustee G → α × BlindingTrustee G} (hcall : Asks election clock call act) :
    ∀ (todo before : List (BlindingTrustee G)) (a : Assembly G), a.trustees = before ++ todo →
      (Session.askEach call before.length todo.length).hold (world election clock) a =
        (todo.mapIdx fun j trustee => (act (before.length + j) trustee).1,
          { a with trustees :=
              before ++ todo.mapIdx fun j trustee => (act (before.length + j) trustee).2 })
  | [], before, a, h => by
    rw [List.append_nil] at h
    simp [Session.askEach, ← h]
  | trustee :: todo, before, a, h => by
    have hget : a.trustees[before.length]? = some trustee := by simp [h]
    have hset : a.trustees.set before.length (act before.length trustee).2 =
        before ++ [(act before.length trustee).2] ++ todo := by
      simp [h]
    have hrest := hold_askEach_append hcall todo (before ++ [(act before.length trustee).2])
      { a with trustees := a.trustees.set before.length (act before.length trustee).2 } hset
    rw [List.length_append, List.length_singleton] at hrest
    rw [List.length_cons, Session.askEach, Dialogue.hold_bind, hcall _ _ _ hget,
      Dialogue.hold_bind, hrest]
    simp [List.mapIdx_cons, Nat.add_assoc, Nat.add_comm 1]

theorem hold_askEach {call : Nat → Talk G α}
    {act : Nat → BlindingTrustee G → α × BlindingTrustee G} (hcall : Asks election clock call act)
    (a : Assembly G) :
    (Session.askEach call 0 a.trustees.length).hold (world election clock) a =
      (a.trustees.mapIdx fun j trustee => (act j trustee).1,
        a.update fun j trustee => (act j trustee).2) := by
  have h := hold_askEach_append hcall a.trustees [] a rfl
  simpa [update] using h

/-- **A round in which every trustee answers as it should.** -/
theorem hold_round {session : Session G} {call : Nat → Talk G (Reply α)}
    {act : Nat → BlindingTrustee G → Reply α × BlindingTrustee G}
    (hcall : Asks election clock call act) {a : Assembly G}
    (hcount : session.trustees = a.trustees.length) {expected : Nat} {rows : List (List α)}
    (hrows : List.Forall₂ (Round.Accepts session.limits.patience expected)
      (a.trustees.mapIdx fun j trustee => (act j trustee).1) rows) :
    (session.round call expected).hold (world election clock) a =
      (.ok rows, a.update fun j trustee => (act j trustee).2) := by
  have hsettle := Round.settle_eq_ok.2 hrows
  unfold Session.round
  rw [Dialogue.hold_bind, hcount, hold_askEach hcall]
  generalize Round.settle session.limits.patience expected
    (a.trustees.mapIdx fun j trustee => (act j trustee).1) = settled at hsettle
  obtain ⟨time, result⟩ := settled
  simp only at hsettle
  subst hsettle
  rfl

/-! ## Both rounds -/

/-- The trustees' contributions for the ratios of a quotient. -/
def rows (a : Assembly G) (quotient : Quotient G) : List (List (Contribution G)) :=
  a.trustees.map fun trustee => trustee.contributions quotient.ratios

/-- The trustees' answers to the challenges for their contributions. -/
def answers (a : Assembly G) (session : Session G) (quotient : Quotient G) :
    List (List (ChallengeResponse G)) :=
  a.trustees.map fun trustee =>
    List.zipWith BlindingTrustee.respond (session.challenges quotient (a.rows quotient))
      (trustee.nonces quotient.size)

theorem forall₂_mapIdx {β γ δ : Type} {R : β → γ → Prop} {f : Nat → δ → β} {g : δ → γ} :
    ∀ {l : List δ}, (∀ j d, l[j]? = some d → R (f j d) (g d)) →
      List.Forall₂ R (l.mapIdx f) (l.map g)
  | [], _ => .nil
  | d :: l, h => by
    rw [List.mapIdx_cons]
    exact .cons (h 0 d rfl) (forall₂_mapIdx fun j d' hd => h (j + 1) d' hd)

section Run

variable {run : RunId} {quotient : Quotient G} {limit : Duration}

theorem accepts_blindAt {trustee : BlindingTrustee G} (h : trustee.IsFreshFor run) (j : Nat) :
    Round.Accepts limit quotient.size (blindAt clock ⟨run, quotient.ratios⟩ j trustee).1
      (trustee.contributions quotient.ratios) := by
  unfold blindAt
  rw [BlindingTrustee.blind_fst h]
  refine Round.accepts_prompt ?_
  rw [BlindingTrustee.length_contributions, Quotient.length_ratios]

theorem challengesOn_contribute (mode : NonceMode) :
    ∀ (cs : List G.Scalar) (ratios : List (Ciphertext G)) (pairs : List (NoncePair G)),
      ratios.length = pairs.length →
        Session.challengesOn cs (List.zipWith (BlindingTrustee.contribute mode) ratios pairs) =
          List.zipWith (fun c pair => ⟨c, BlindingTrustee.travelling mode pair⟩) cs pairs
  | [], _, _, _ => rfl
  | _ :: _, [], [], _ => rfl
  | c :: cs, ratio :: ratios, pair :: pairs, h => by
    have hrest := challengesOn_contribute mode cs ratios pairs (Nat.succ.inj h)
    unfold Session.challengesOn at hrest ⊢
    rw [List.zipWith_cons_cons, List.zipWith_cons_cons, hrest]
    cases mode <;> rfl

/-- The challenges put to a trustee, with what travels of its numbers. -/
theorem challengesOn_contributions (trustee : BlindingTrustee G) (cs : List G.Scalar)
    (ratios : List (Ciphertext G)) :
    Session.challengesOn cs (trustee.contributions ratios) =
      List.zipWith (fun c pair => ⟨c, BlindingTrustee.travelling trustee.mode pair⟩) cs
        (trustee.nonces ratios.length) :=
  challengesOn_contribute trustee.mode cs ratios _ (trustee.length_nonces _).symm

theorem accepts_challengeAt {trustee : BlindingTrustee G} (h : trustee.IsFreshFor run) (j : Nat)
    {cs : List G.Scalar} (hcs : cs.length = quotient.size) {request : Nat → ChallengeRequest G}
    (hrequest : request j = ⟨run, Session.challengesOn cs (trustee.contributions quotient.ratios)⟩) :
    Round.Accepts limit quotient.size
      (challengeAt request j (blindAt clock ⟨run, quotient.ratios⟩ j trustee).2).1
      (List.zipWith BlindingTrustee.respond cs (trustee.nonces quotient.size)) := by
  have hanswer := BlindingTrustee.challenge_blind ⟨run, quotient.ratios⟩ h (clock j)
    (hcs.trans quotient.length_ratios.symm)
  unfold challengeAt blindAt
  simp only at hanswer ⊢
  rw [hrequest, challengesOn_contributions, hanswer, Quotient.length_ratios]
  refine Round.accepts_prompt ?_
  rw [List.length_zipWith, BlindingTrustee.length_nonces, hcs, Nat.min_self]

theorem hold_reached {β : Type} (milestone : Milestone) (f : Unit → Talk G β) (a : Assembly G) :
    (Talk.reached milestone >>= f).hold (world election clock) a =
      (f ()).hold (world election clock) a := by
  rw [Dialogue.hold_bind]
  rfl

/-- The first answers of all trustees, each accepted. -/
theorem forall₂_blindAt (clock : Nat → Nat) (quotient : Quotient G) {a : Assembly G}
    (hfresh : ∀ trustee ∈ a.trustees, trustee.IsFreshFor run) :
    List.Forall₂ (Round.Accepts limit quotient.size)
      (a.trustees.mapIdx fun j trustee => (blindAt clock ⟨run, quotient.ratios⟩ j trustee).1)
      (a.rows quotient) :=
  forall₂_mapIdx fun j _ h => accepts_blindAt (hfresh _ (List.mem_of_getElem? h)) j

/-- The answers of all trustees to the challenges for their contributions, each accepted. -/
theorem forall₂_challengeAt (session : Session G) (clock : Nat → Nat) (quotient : Quotient G)
    {a : Assembly G}
    (hfresh : ∀ trustee ∈ a.trustees, trustee.IsFreshFor run) :
    List.Forall₂ (Round.Accepts limit quotient.size)
      ((a.update fun j trustee =>
          (blindAt clock ⟨run, quotient.ratios⟩ j trustee).2).trustees.mapIdx fun j trustee =>
        (challengeAt (session.challengeRequest run quotient (a.rows quotient)) j trustee).1)
      (a.answers session quotient) := by
  have hcs : (session.challenges quotient (a.rows quotient)).length = quotient.size := by
    rw [Session.length_challenges, Quotient.length_ratios]
  rw [update, List.mapIdx_mapIdx]
  refine forall₂_mapIdx fun j trustee h => ?_
  have hrow : (a.rows quotient).getD j [] = trustee.contributions quotient.ratios := by
    simp [rows, h]
  refine accepts_challengeAt (hfresh trustee (List.mem_of_getElem? h)) j hcs ?_
  rw [Session.challengeRequest, hrow]

/-- **What the two rounds lead to** among trustees that keep nothing for the run yet. -/
theorem hold_rounds (election : Election G) (clock : Nat → Nat) (quotient : Quotient G)
    {session : Session G} {a : Assembly G}
    (hcount : session.trustees = a.trustees.length)
    (hfresh : ∀ trustee ∈ a.trustees, trustee.IsFreshFor run) :
    ∃ b : Assembly G, b.board = a.board ∧
      (session.rounds run quotient).hold (world election clock) a =
        (if Session.degenerate quotient (Session.aggregates quotient (a.rows quotient)) = [] then
            .ok (session.roundsOf quotient (a.rows quotient) (a.answers session quotient))
          else .error (.degenerateBlinding
            (Session.degenerate quotient (Session.aggregates quotient (a.rows quotient)))), b) := by
  unfold Session.rounds
  rw [Dialogue.hold_bind,
    hold_round (asks_blind election clock _) hcount (forall₂_blindAt clock quotient hfresh)]
  simp only [hold_reached]
  by_cases hdegenerate :
      Session.degenerate quotient (Session.aggregates quotient (a.rows quotient)) = []
  · refine ⟨(a.update fun j trustee => (blindAt clock ⟨run, quotient.ratios⟩ j trustee).2).update
      fun j trustee =>
        (challengeAt (session.challengeRequest run quotient (a.rows quotient)) j trustee).2, rfl, ?_⟩
    have hround := hold_round (asks_challenge election clock _)
      (by simpa [update] using hcount) (forall₂_challengeAt session clock quotient hfresh)
    have hrows : List.Forall₂ (Round.Accepts session.limits.patience quotient.size)
        (a.trustees.mapIdx fun j trustee => (blindAt clock ⟨run, quotient.ratios⟩ j trustee).1)
        (a.rows quotient) :=
      forall₂_blindAt clock quotient hfresh
    have hlen := Round.length_of_accepts hrows
    simp only [Session.challengeRequest, ← Session.challengesFor_columns hlen, Session.challenges,
      Session.aggregates] at hround
    rw [if_neg (by simpa [Session.degenerate, Session.aggregates] using hdegenerate),
      if_pos hdegenerate, hold_reached, hold_reached, Dialogue.hold_bind, hround]
    rfl
  · refine ⟨a.update fun j trustee => (blindAt clock ⟨run, quotient.ratios⟩ j trustee).2, rfl, ?_⟩
    rw [if_pos (by simpa [Session.degenerate, Session.aggregates] using hdegenerate),
      if_neg hdegenerate]
    rfl

end Run

end Assembly

end PlaintextEquivalence
