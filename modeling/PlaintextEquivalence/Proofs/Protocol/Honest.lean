import PlaintextEquivalence.Proofs.Ballot.Votes
import PlaintextEquivalence.Proofs.Election.Board
import PlaintextEquivalence.Proofs.Protocol.Assembly
import PlaintextEquivalence.Proofs.Protocol.Certificate

/-!
# A run among honest parties

Honest trustees blind every ratio by one common exponent, the sum of theirs, and prove it.  So the only
way in which a run with them can fail is that a blinding comes out degenerate; otherwise the guardians
decrypt it, and the verdict is whether the ballots encrypt the same votes.

Principal results:
* `aggregateAt_rows` — the blinding of a ratio is the multiple by the sum of the exponents.
* `answersAt_answers` — the sum of the responses answers the challenge for it.
* `hold_run` — how a run ends.
-/

set_option autoImplicit false

namespace PlaintextEquivalence

open Polynomial

variable {G : PrimeGroup}

/-- The secret numbers that a trustee draws for the ratio at a position among `n`. -/
def BlindingTrustee.nonceAt (trustee : BlindingTrustee G) (n i : Nat) : NoncePair G :=
  (trustee.nonces n).getD i ⟨0, 0⟩

theorem BlindingTrustee.getElem?_nonces (trustee : BlindingTrustee G) {n i : Nat} (h : i < n) :
    (trustee.nonces n)[i]? = some (trustee.nonceAt n i) := by
  have hi : i < (trustee.nonces n).length := by rw [length_nonces]; exact h
  simp [nonceAt, hi]

namespace Assembly

/-! ## Sums -/

/-- The sum of the exponents by which the ratio at a position is blinded. -/
def exponentSum (a : Assembly G) (n i : Nat) : G.Scalar :=
  (a.trustees.map fun trustee => (trustee.nonceAt n i).exponent).sum

/-- The sum of the exponents of the commitments. -/
def maskSum (a : Assembly G) (n i : Nat) : G.Scalar :=
  (a.trustees.map fun trustee => (trustee.nonceAt n i).mask).sum

theorem column_map {α β : Type} {f : α → List β} {g : α → β} {i : Nat} {l : List α}
    (h : ∀ d ∈ l, (f d)[i]? = some (g d)) : Session.column i (l.map f) = l.map g := by
  rw [Session.column, List.filterMap_map, ← List.filterMap_eq_map]
  exact List.filterMap_congr h

section Places

variable {a : Assembly G} {session : Session G} {quotient : Quotient G}
  {x : SelectionQuotient G × Nat}

theorem column_rows (hx : x ∈ quotient.places) :
    Session.column x.2 (a.rows quotient) = a.trustees.map fun trustee =>
      BlindingTrustee.contribute trustee.mode x.1.ratio
        (trustee.nonceAt quotient.size x.2) := by
  have hget := Quotient.mem_places.1 hx
  have hi : x.2 < quotient.size := (List.getElem?_eq_some_iff.1 hget).1
  refine column_map fun trustee _ => ?_
  have hratio : quotient.ratios[x.2]? = some x.1.ratio := by
    rw [Quotient.ratios, List.getElem?_map, hget]
    rfl
  rw [BlindingTrustee.contributions, List.getElem?_zipWith, Quotient.length_ratios, hratio,
    trustee.getElem?_nonces hi]

theorem column_answers (hx : x ∈ quotient.places) :
    Session.column x.2 (a.answers session quotient) = a.trustees.map fun trustee =>
      BlindingTrustee.respond (session.challengeAt (a.rows quotient) x)
        (trustee.nonceAt quotient.size x.2) := by
  have hget := Quotient.mem_places.1 hx
  have hi : x.2 < quotient.size := (List.getElem?_eq_some_iff.1 hget).1
  refine column_map fun trustee _ => ?_
  rw [List.getElem?_zipWith, Session.challenges_eq, List.getElem?_map, Quotient.getElem?_places hx,
    trustee.getElem?_nonces hi]
  rfl

variable [hG : PrimeGroup.Lawful G]

/-- **The blinding of a ratio** is the multiple by the sum of the exponents. -/
theorem aggregateAt_rows (hx : x ∈ quotient.places) :
    Session.aggregateAt (a.rows quotient) x =
      ⟨x.1.ratio, a.exponentSum quotient.size x.2 • x.1.ratio,
        a.maskSum quotient.size x.2 • x.1.ratio⟩ := by
  have hsum : ∀ f : BlindingTrustee G → G.Scalar,
      (a.trustees.map fun trustee => f trustee • x.1.ratio).foldl (· + ·) 0 =
        (a.trustees.map f).sum • x.1.ratio := by
    intro f
    rw [← Ciphertext.sum_smul, List.map_map]
    rfl
  rw [Session.aggregateAt, column_rows hx, Aggregate.of_eq, List.map_map, List.map_map]
  simp only [Function.comp_def, BlindingTrustee.contribute, hsum]
  rfl

theorem totalResponse_respond (c : G.Scalar) (pairs : List (NoncePair G)) :
    Session.totalResponse (pairs.map (BlindingTrustee.respond c)) =
      (pairs.map (·.mask)).sum - c * (pairs.map (·.exponent)).sum := by
  have hfold : ∀ (pairs : List (NoncePair G)) (k : G.Scalar),
      (pairs.map (BlindingTrustee.respond c)).foldl (fun acc r => acc + r.response) k =
        k + ((pairs.map (·.mask)).sum - c * (pairs.map (·.exponent)).sum) := by
    intro pairs
    induction pairs with
    | nil => intro k; simp
    | cons pair pairs ih =>
      intro k
      rw [List.map_cons, List.foldl_cons, ih]
      simp only [BlindingTrustee.respond, List.map_cons, List.sum_cons]
      ring
  rw [Session.totalResponse, hfold, zero_add]

/-- The sum of the responses of all trustees. -/
theorem totalResponse_answers (hx : x ∈ quotient.places) :
    Session.totalResponse (Session.column x.2 (a.answers session quotient)) =
      a.maskSum quotient.size x.2 -
        session.challengeAt (a.rows quotient) x * a.exponentSum quotient.size x.2 := by
  have h := totalResponse_respond (session.challengeAt (a.rows quotient) x)
    (a.trustees.map fun trustee => trustee.nonceAt quotient.size x.2)
  rw [List.map_map, List.map_map, List.map_map] at h
  rw [column_answers hx]
  exact h

/-- **The sum of the responses** answers the challenge for the blinding. -/
theorem answersAt_answers (hx : x ∈ quotient.places) :
    session.answersAt (a.rows quotient) (a.answers session quotient) x = true := by
  rw [Session.answersAt, totalResponse_answers hx, aggregateAt_rows hx]
  exact decide_eq_true (Blinding.expectedCommitments_honest _ _ _ _)

/-- The degenerate selections: those that are blinded by zero, or whose ratio has an identity
component. -/
theorem degenerate_rows :
    Session.degenerate quotient (Session.aggregates quotient (a.rows quotient)) =
      (quotient.places.filter fun x => a.exponentSum quotient.size x.2 = 0 ∨
        x.1.ratio.isDegenerate = true).map (·.1.path) := by
  rw [Session.degenerate_eq]
  congr 1
  refine List.filter_congr fun x hx => ?_
  rw [aggregateAt_rows hx, Bool.eq_iff_iff, Ciphertext.isDegenerate_smul, decide_eq_true_eq]

end Places

/-! ## After the rounds -/

section Conclusion

variable {session : Session G} {quotient : Quotient G}
  {rows : List (List (Contribution G))} {answers : List (List (ChallengeResponse G))}

/-- The guardians on the board have the secrets of keys of an election, and are enough. -/
structure CanDecrypt (election : Election G) (b : Assembly G) : Prop where
  seated : ∀ g ∈ b.board.guardians, g.Holds election.keys
  nodup : (b.board.guardians.map (·.index)).Nodup
  enough : election.keys.params.threshold.toNat ≤ b.board.guardians.length

/-- The decryptions of all blindings, each with a proof that is accepted. -/
def AreDecrypted (session : Session G) (secret : G.Scalar) (quotient : Quotient G)
    (rows : List (List (Contribution G))) (ds : List (G.Element × DecryptionProof G)) : Prop :=
  List.Forall₂ (fun x d => GuardianBoard.Decrypts session.election secret
    (Session.aggregateAt rows x).blinded d) quotient.places ds

/-- A certificate of proper blindings, responses that answer the challenges and right decryptions
passes an audit. -/
theorem verify_certificateOf {ballotId : String}
    {groups : List (String × List (SelectionQuotient G))}
    (hq : quotient = Quotient.ofGroups ballotId groups)
    (hproper : ∀ x ∈ quotient.places, (Session.aggregateAt rows x).blinded.isDegenerate = false)
    (hanswers : ∀ x ∈ quotient.places, session.answersAt rows answers x = true) {secret : G.Scalar}
    {ds : List (G.Element × DecryptionProof G)} (hds : AreDecrypted session secret quotient rows ds) :
    (session.certificateOf quotient rows answers ds).verify session.election = .ok () := by
  have hcounted : ds.length = quotient.size := by
    rw [← hds.length_eq, Quotient.length_places]
  rw [BallotCertificate.verify_eq_ok]
  refine ⟨fun s hs => ?_, Session.computedVerdict_eq hq hcounted⟩
  have hitem : s.2 ∈ session.certificates quotient rows answers ds := by
    rw [← Session.certificate_items hq hcounted]
    exact List.mem_map_of_mem hs
  obtain ⟨x, d, hmem, hsel⟩ := Session.mem_certificates hitem
  have hx := (List.of_mem_zip hmem).1
  rw [hsel]
  exact ⟨hproper x hx, Session.verify_proofAt (hanswers x hx), (List.forall₂_zip hds hmem).accepted⟩

/-- **How a run ends after the rounds**, if all blindings are proper and proved. -/
theorem hold_conclude [hG : PrimeGroup.Lawful G] {P : G.Scalar[X]} (clock : Nat → Nat)
    {b : Assembly G} {ballotId : String} {groups : List (String × List (SelectionQuotient G))}
    (hq : quotient = Quotient.ofGroups ballotId groups)
    (hproper : ∀ x ∈ quotient.places, (Session.aggregateAt rows x).blinded.isDegenerate = false)
    (hanswers : ∀ x ∈ quotient.places, session.answersAt rows answers x = true)
    (hkeys : session.election.keys.LiesOn P) (hboard : CanDecrypt session.election b) :
    ∃ ds, AreDecrypted session (P.eval 0) quotient rows ds ∧
      (session.certificateOf quotient rows answers ds).verify session.election = .ok () ∧
      ((session.conclude quotient (session.roundsOf quotient rows answers)).hold
        (world session.election clock) b).1 =
          .ok (session.certificateOf quotient rows answers ds) := by
  obtain ⟨ds, hdecrypt, hds⟩ := GuardianBoard.decrypt_of_holds hkeys hboard.seated hboard.nodup
    hboard.enough (quotient.places.map fun x => (Session.aggregateAt rows x).blinded)
  have hds : AreDecrypted session (P.eval 0) quotient rows ds := List.forall₂_map_left_iff.1 hds
  have haudit := verify_certificateOf hq hproper hanswers hds
  refine ⟨ds, hds, haudit, ?_⟩
  have hcounted : ds.length = (Session.blinded (session.roundsOf quotient rows answers)).length := by
    rw [Session.blinded_roundsOf, List.length_map, hds.length_eq]
  have hasked : (Talk.decrypt (Session.blinded (session.roundsOf quotient rows answers))).hold
      (world session.election clock) b = (.ok ds, { b with board := (b.board.decrypt session.election
        (Session.blinded (session.roundsOf quotient rows answers))).2 }) := by
    refine Prod.ext ?_ rfl
    rw [Session.blinded_roundsOf]
    exact hdecrypt
  unfold Session.blinded at hcounted hasked
  have hcertificate : Session.certificate quotient (session.roundsOf quotient rows answers).aggregates
      (quotient.places.map (session.proofAt rows answers)) ds =
        session.certificateOf quotient rows answers ds := rfl
  unfold Session.conclude
  rw [Session.proofs_eq_ok.2 ⟨hanswers, rfl⟩]
  simp only [hold_reached]
  rw [Dialogue.hold_bind, hasked]
  simp only [hcounted, ne_eq, not_true_eq_false, if_false, hold_reached, hcertificate,
    haudit]
  rfl

end Conclusion

/-! ## The whole run -/

section Run

variable {session : Session G} {first second : Ballot G} {quotient : Quotient G} {a : Assembly G}

/-- The selections whose blinding is degenerate: their exponents add up to zero, or their ratio has an
identity component. -/
def degenerateSelections (a : Assembly G) (quotient : Quotient G) : List SelectionPath :=
  (quotient.places.filter fun x => a.exponentSum quotient.size x.2 = 0 ∨
    x.1.ratio.isDegenerate = true).map (·.1.path)

/-- The result of a run is that of its steps, under the number that it is given, whoever answers. -/
theorem hold_run {σ : Type} (world : World (Question G) Question.Answer σ) {s s' : σ} {n : UInt64}
    (hnumber : world .number s = (n, s')) (session : Session G) (first second : Ballot G) :
    ((session.run first second).hold world s).1 =
      ((session.steps ⟨session.name, n⟩ first second).hold world s').1 := by
  unfold Session.run
  rw [Dialogue.hold_bind, show Talk.number.hold world s = (n, s') from hnumber, Dialogue.hold_bind]
  split
  · rfl
  · rw [Dialogue.hold_bind]
    rfl

variable [hG : PrimeGroup.Lawful G]

/-- The two rounds of a run. -/
theorem exists_hold_rounds (clock : Nat → Nat) (quotient : Quotient G)
    (hcount : session.trustees = a.trustees.length)
    (hfresh : ∀ trustee ∈ a.trustees, trustee.IsFreshFor ⟨session.name, a.nextRun⟩) :
    ∃ b : Assembly G, b.board = a.board ∧
      (session.rounds ⟨session.name, a.nextRun⟩ quotient).hold (world session.election clock)
          { a with nextRun := a.nextRun + 1 } =
        (if a.degenerateSelections quotient = [] then
            .ok (session.roundsOf quotient (a.rows quotient) (a.answers session quotient))
          else .error (.degenerateBlinding (a.degenerateSelections quotient)), b) := by
  obtain ⟨b, hb, hrounds⟩ := hold_rounds session.election clock quotient
    (a := { a with nextRun := a.nextRun + 1 }) hcount hfresh
  refine ⟨b, hb, ?_⟩
  rw [hrounds, degenerate_rows]
  rfl

/-- A run ends with the degenerate selections if there are any. -/
theorem hold_run_degenerate (clock : Nat → Nat)
    (hcomparable : Quotient.ofBallots first second = .ok quotient)
    (hcount : session.trustees = a.trustees.length)
    (hfresh : ∀ trustee ∈ a.trustees, trustee.IsFreshFor ⟨session.name, a.nextRun⟩)
    (hdegenerate : a.degenerateSelections quotient ≠ []) :
    ((session.run first second).hold (world session.election clock) a).1 =
      .error (.error (.degenerateBlinding (a.degenerateSelections quotient))) := by
  obtain ⟨b, _, hrounds⟩ := exists_hold_rounds clock quotient hcount hfresh
  rw [if_neg hdegenerate] at hrounds
  rw [hold_run (world session.election clock) rfl]
  unfold Session.steps
  simp only [hcomparable, hold_reached]
  rw [Dialogue.hold_bind, hrounds]
  simp only
  rw [Dialogue.hold_bind]
  rfl

/-- A run ends with a certificate if there are none. -/
theorem hold_run_proper {P : G.Scalar[X]} (clock : Nat → Nat) (hkeys : session.election.keys.LiesOn P)
    (hboard : CanDecrypt session.election a)
    (hcomparable : Quotient.ofBallots first second = .ok quotient)
    (hcount : session.trustees = a.trustees.length)
    (hfresh : ∀ trustee ∈ a.trustees, trustee.IsFreshFor ⟨session.name, a.nextRun⟩)
    (hproper : a.degenerateSelections quotient = []) :
    ∃ ds, AreDecrypted session (P.eval 0) quotient (a.rows quotient) ds ∧
      (session.certificateOf quotient (a.rows quotient) (a.answers session quotient) ds).verify
        session.election = .ok () ∧
      ((session.run first second).hold (world session.election clock) a).1 =
        .ok (session.certificateOf quotient (a.rows quotient) (a.answers session quotient) ds) := by
  obtain ⟨b, hb, hrounds⟩ := exists_hold_rounds clock quotient hcount hfresh
  obtain ⟨groups, hq, _⟩ := Quotient.ofBallots_eq_ok hcomparable
  have hproper' : ∀ x ∈ quotient.places,
      (Session.aggregateAt (a.rows quotient) x).blinded.isDegenerate = false := by
    rw [← Session.degenerate_eq_nil, degenerate_rows]
    exact hproper
  have hboard : CanDecrypt session.election b := by
    obtain ⟨seated, nodup, enough⟩ := hboard
    exact ⟨hb ▸ seated, hb ▸ nodup, hb ▸ enough⟩
  have hanswers : ∀ x ∈ quotient.places,
      session.answersAt (a.rows quotient) (a.answers session quotient) x = true :=
    fun _ => answersAt_answers
  obtain ⟨ds, hds, haudit, hconclude⟩ := hold_conclude clock hq hproper' hanswers hkeys hboard
  rw [if_pos hproper] at hrounds
  refine ⟨ds, hds, haudit, ?_⟩
  rw [hold_run (world session.election clock) rfl]
  unfold Session.steps
  simp only [hcomparable, hold_reached]
  rw [Dialogue.hold_bind, hrounds]
  exact hconclude

end Run

/-! ## Votes -/

/-- Guardians with enough different indexes can decrypt. -/
theorem canDecrypt_of_holds {election : Election G} {a : Assembly G} {guardians : List (Guardian G)}
    {tape : Tape} (hboard : a.board = GuardianBoard.ofGuardians guardians tape)
    (hholds : ∀ g ∈ guardians, g.Holds election.keys)
    (henough : election.keys.params.threshold.toNat ≤ (guardians.map (·.index)).toFinset.card) :
    CanDecrypt election a := by
  refine ⟨fun g hg => ?_, ?_, ?_⟩
  · rw [hboard] at hg
    exact hholds g (GuardianBoard.mem_of_mem_ofGuardians hg)
  · rw [hboard]
    exact GuardianBoard.nodup_ofGuardians guardians tape
  · rw [hboard, GuardianBoard.length_ofGuardians]
    exact henough

theorem canDecrypt_ofGuardians {dealer : Dealer G} {election : Election G} {a : Assembly G}
    {guardians : List (Guardian G)} {tape : Tape}
    (hboard : a.board = GuardianBoard.ofGuardians guardians tape)
    (hguardians : ∀ g ∈ guardians, ∃ index secret, dealer.share index = .ok secret ∧
      Guardian.make election.keys index secret = .ok g)
    (henough : election.keys.params.threshold.toNat ≤ (guardians.map (·.index)).toFinset.card) :
    CanDecrypt election a := by
  refine canDecrypt_of_holds hboard (fun g hg => ?_) henough
  obtain ⟨index, secret, _, hmake⟩ := hguardians g hg
  exact Guardian.holds_of_make hmake

/-- The verdict on right decryptions of proper blindings is whether all ratios decrypt to the
identity. -/
theorem isEqual_certificateOf [hG : PrimeGroup.Lawful G] {session : Session G}
    {quotient : Quotient G} {a : Assembly G} {answers : List (List (ChallengeResponse G))}
    {secret : G.Scalar} {ds : List (G.Element × DecryptionProof G)}
    (hproper : a.degenerateSelections quotient = [])
    (hds : AreDecrypted session secret quotient (a.rows quotient) ds) :
    (session.certificateOf quotient (a.rows quotient) answers ds).isEqual = true ↔
      ∀ r ∈ quotient.selections, r.ratio.decrypt secret = 0 := by
  have hexponent : ∀ x ∈ quotient.places, a.exponentSum quotient.size x.2 ≠ 0 := by
    intro x hx hzero
    rw [degenerateSelections, List.map_eq_nil_iff, List.filter_eq_nil_iff] at hproper
    exact hproper x hx (decide_eq_true (.inl hzero))
  have hdecrypted : ∀ x ∈ quotient.places, ∀ d : G.Element × DecryptionProof G,
      GuardianBoard.Decrypts session.election secret
          (Session.aggregateAt (a.rows quotient) x).blinded d →
        (d.1 = 0 ↔ x.1.ratio.decrypt secret = 0) := by
    intro x hx d hd
    rw [hd.decrypted, aggregateAt_rows hx, Ciphertext.decrypt_smul, smul_eq_zero]
    exact or_iff_right (hexponent x hx)
  rw [Session.certificateOf_eq, ← Quotient.map_fst_places, List.forall_mem_map, List.all_eq_true]
  simp only [decide_eq_true_eq]
  constructor
  · intro h x hx
    obtain ⟨d, hd, hxd⟩ := Paired.exists_right hds hx
    exact (hdecrypted x hx d hxd).1 (h d hd)
  · intro h d hd
    obtain ⟨x, hx, hxd⟩ := Paired.exists_left hds hd
    exact (hdecrypted x hx d hxd).2 (h x hx)

/-- **A run among honest parties.**  Whatever trustees and guardians keep from runs before, it ends with
the selections whose blinding is degenerate, if there are any, because the exponents of all trustees add
up to zero or the ratio has an identity component.  Otherwise it gives a certificate that passes an
audit against the two ballots, and whose verdict is whether they encrypt the same votes. -/
theorem run_of_honest [hG : PrimeGroup.Lawful G] {dealer : Dealer G} {session : Session G}
    {guardians : List (Guardian G)} {tape : Tape} {a : Assembly G} {first second : Ballot G}
    {votes votes' : SelectionPath → UInt64} {quotient : Quotient G} (clock : Nat → Nat)
    (hpos : 0 < dealer.params.threshold) (hle : dealer.params.threshold ≤ dealer.params.shares)
    (hkeys : KeySet.ofPolynomial dealer.params dealer.publicPolynomial = .ok session.election.keys)
    (hguardians : ∀ g ∈ guardians, ∃ index secret, dealer.share index = .ok secret ∧
      Guardian.make session.election.keys index secret = .ok g)
    (henough : dealer.params.threshold.toNat ≤ (guardians.map (·.index)).toFinset.card)
    (hboard : a.board = GuardianBoard.ofGuardians guardians tape)
    (hcount : session.trustees = a.trustees.length)
    (hfresh : ∀ trustee ∈ a.trustees, trustee.IsFreshFor ⟨session.name, a.nextRun⟩)
    (hfirst : first.Encrypts session.election.jointKey votes)
    (hsecond : second.Encrypts session.election.jointKey votes')
    (hcomparable : Quotient.ofBallots first second = .ok quotient) :
    (a.degenerateSelections quotient ≠ [] →
      ((session.run first second).hold (world session.election clock) a).1 =
        .error (.error (.degenerateBlinding (a.degenerateSelections quotient)))) ∧
    (a.degenerateSelections quotient = [] → ∃ certificate,
      ((session.run first second).hold (world session.election clock) a).1 = .ok certificate ∧
        certificate.verifyAgainst session.election first second = .ok () ∧
        (certificate.isEqual = true ↔
          ∀ path ∈ Quotient.references first.contests, votes path = votes' path)) := by
  have hlies := Dealer.liesOn_of_dealer hpos hle hkeys
  have hparams : session.election.keys.params = dealer.params := by
    rw [(Dealer.eq_keys hpos hkeys).2]
    rfl
  have hdecrypt := canDecrypt_ofGuardians hboard hguardians (hparams ▸ henough)
  refine ⟨hold_run_degenerate clock hcomparable hcount hfresh, fun hproper => ?_⟩
  obtain ⟨ds, hds, haudit, hrun⟩ :=
    hold_run_proper clock hlies hdecrypt hcomparable hcount hfresh hproper
  have hcounted : ds.length = quotient.size := by
    rw [← hds.length_eq, Quotient.length_places]
  refine ⟨_, hrun, Session.verifyAgainst_certificateOf hcomparable hcounted haudit, ?_⟩
  rw [isEqual_certificateOf hproper hds]
  exact Quotient.decrypt_ratios_eq_zero hlies.shared hfirst hsecond hcomparable

end Assembly

/-! ## A small run -/

namespace Small

def session : Session Group := ⟨election, 2, .standard, Vector.replicate 16 0⟩

/-- One trustee that keeps its numbers and one that lets them travel. -/
def assembly : Assembly Group where
  trustees := [.ofTape "first" tape, { BlindingTrustee.ofTape "second" tape with mode := .echoed }]
  board := .ofGuardians guardians tape
  nextRun := 0

/-- A contest with one vote. -/
def question (vote r : UInt64) : Contest Group :=
  ⟨"question", [⟨"yes",
    election.jointKey.encryptWith (Group.mulGenerator (Group.ofWord vote)) (Group.ofWord r)⟩]⟩

/-- A ballot with a vote for, and an empty contest after it. -/
def first : Ballot Group := ⟨"ballot", [question 1 3, ⟨"empty", []⟩]⟩

/-- A ballot with a vote against, and the empty contest before it. -/
def second : Ballot Group := ⟨"ballot", [⟨"empty", []⟩, question 0 1]⟩

def quotient : Quotient Group :=
  .ofGroups "ballot"
    [("question", [⟨⟨"question", "yes"⟩, ⟨Group.ofWord 2, Group.ofWord 11⟩⟩]), ("empty", [])]

theorem ofBallots_small : Quotient.ofBallots first second = .ok quotient := rfl

theorem encrypts_first : first.Encrypts election.jointKey fun _ => 1 := by
  simp [Ballot.Encrypts, first, question]

theorem encrypts_second : second.Encrypts election.jointKey fun _ => 0 := by
  simp [Ballot.Encrypts, second, question]

theorem isFreshFor_small : ∀ trustee ∈ assembly.trustees,
    trustee.IsFreshFor ⟨session.name, assembly.nextRun⟩ := by
  simp [assembly, BlindingTrustee.IsFreshFor, BlindingTrustee.ofTape, BlindingTrustee.retains]

theorem degenerateSelections_small : assembly.degenerateSelections quotient = [] := by
  decide +kernel

/-- A small run ends with a certificate that the votes are different. -/
theorem run_of_small : ∃ certificate,
    ((session.run first second).hold (Assembly.world election id) assembly).1 = .ok certificate ∧
      certificate.verifyAgainst election first second = .ok () ∧ certificate.isEqual = false := by
  obtain ⟨certificate, hrun, haudit, hverdict⟩ := (Assembly.run_of_honest id
    (by decide) (by decide) ofPolynomial_dealer make_guardians (by decide) rfl rfl isFreshFor_small
    encrypts_first encrypts_second ofBallots_small).2 degenerateSelections_small
  refine ⟨certificate, hrun, haudit, ?_⟩
  rw [Bool.eq_false_iff, ne_eq, hverdict]
  decide

end Small

end PlaintextEquivalence
