import PlaintextEquivalence.Proofs.Blinding.Retention
import PlaintextEquivalence.Proofs.Protocol.Release

/-!
# Runs that are answered honestly

How a run ends is decided by what it was answered, however the answers came about.  If each trustee blinded
with numbers that it drew, and answered the challenges with the same numbers, and the guardians decrypted
what they were asked to, then the run ends with the selections whose blinding is degenerate, or with a
certificate that tells whether the votes agree.

Principal results:
* `RoundCourse.eq_ok` — a round in which every trustee answers as expected succeeds.
* `RunCourse.isFaithful` — how a run ends that is answered honestly.
-/

set_option autoImplicit false

namespace PlaintextEquivalence

open Polynomial

variable {G : PrimeGroup}

/-- The answers in a run are those of honest trustees and guardians, none too late: each trustee's with the
numbers that it drew in the state it was in when it was asked to blind. -/
structure AnsweredBy (session : Session G) (secret : G.Scalar) (trustees : List (BlindingTrustee G))
    (es : List (Event G)) : Prop where
  blind : ∀ j trustee request reply, trustees[j]? = some trustee →
    (⟨.blind j request, reply⟩ : Event G) ∈ es → reply.delay ≤ session.limits.patience.nanos ∧
      reply.result = .ok (trustee.contributions request.ciphertexts)
  challenge : ∀ j trustee request reply, trustees[j]? = some trustee →
    (⟨.challenge j request, reply⟩ : Event G) ∈ es → ∀ ratios cs, cs.length = ratios.length →
      request.challenges = Session.challengesOn cs (trustee.contributions ratios) →
        reply.delay ≤ session.limits.patience.nanos ∧
          reply.result = .ok (List.zipWith BlindingTrustee.respond cs (trustee.nonces ratios.length))
  decrypt : ∀ ciphertexts answer, (⟨.decrypt ciphertexts, answer⟩ : Event G) ∈ es →
    ∃ ds, answer = .ok ds ∧
      List.Forall₂ (GuardianBoard.Decrypts session.election secret) ciphertexts ds

theorem AnsweredBy.mono {session : Session G} {secret : G.Scalar} {trustees : List (BlindingTrustee G)}
    {es es' : List (Event G)} (h : AnsweredBy session secret trustees es) (hsub : es' ⊆ es) :
    AnsweredBy session secret trustees es' where
  blind j trustee request reply hj hmem := h.blind j trustee request reply hj (hsub hmem)
  challenge j trustee request reply hj hmem := h.challenge j trustee request reply hj (hsub hmem)
  decrypt ciphertexts answer hmem := h.decrypt ciphertexts answer (hsub hmem)

theorem AnsweredBy.append {session : Session G} {secret : G.Scalar} {trustees : List (BlindingTrustee G)}
    {es es' : List (Event G)} (h : AnsweredBy session secret trustees es)
    (h' : AnsweredBy session secret trustees es') : AnsweredBy session secret trustees (es ++ es') where
  blind j trustee request reply hj hmem := (List.mem_append.1 hmem).elim
    (h.blind j trustee request reply hj) (h'.blind j trustee request reply hj)
  challenge j trustee request reply hj hmem := (List.mem_append.1 hmem).elim
    (h.challenge j trustee request reply hj) (h'.challenge j trustee request reply hj)
  decrypt ciphertexts answer hmem := (List.mem_append.1 hmem).elim
    (h.decrypt ciphertexts answer) (h'.decrypt ciphertexts answer)

/-- The answer of a trustee that is asked to blind. -/
theorem answeredBy_blind {session : Session G} {trustees : List (BlindingTrustee G)} {j : Nat}
    {trustee : BlindingTrustee G} (hj : trustees[j]? = some trustee) (secret : G.Scalar)
    (request : BlindRequest G) {delay : Nat} (hpatient : delay ≤ session.limits.patience.nanos) :
    AnsweredBy session secret trustees
      [⟨.blind j request, ⟨delay, .ok (trustee.contributions request.ciphertexts)⟩⟩] := by
  constructor
  case blind =>
    intro k drawer request reply hk hmem
    cases List.mem_singleton.1 hmem
    cases hj.symm.trans hk
    exact ⟨hpatient, rfl⟩
  case challenge =>
    intro k drawer request reply hk hmem
    cases List.mem_singleton.1 hmem
  case decrypt =>
    intro ciphertexts answer hmem
    cases List.mem_singleton.1 hmem

/-- A trustee that is asked to release a run answers nothing that could be wrong. -/
theorem answeredBy_release (session : Session G) (secret : G.Scalar) (trustees : List (BlindingTrustee G))
    (j : Nat) (run : RunId) (delay : Nat) :
    AnsweredBy session secret trustees [⟨.release j run, delay⟩] := by
  refine ⟨fun k drawer request reply _ hmem => ?_, fun k drawer request reply _ hmem => ?_,
    fun ciphertexts answer hmem => ?_⟩
  all_goals cases List.mem_singleton.1 hmem

/-- Selections of two ballots are all those whose blinding is degenerate with some numbers that trustees
draw from their tapes. -/
def AreDegenerate (trustees : List (BlindingTrustee G)) (first second : Ballot G)
    (paths : List SelectionPath) : Prop :=
  ∃ (quotient : Quotient G) (drew : Assembly G), Quotient.ofBallots first second = .ok quotient ∧
    drew.trustees.map (·.settings) = trustees.map (·.settings) ∧
    paths = drew.degenerateSelections quotient

/-- A faithful result of comparing two ballots: selections of theirs, if the blinding of some is degenerate,
or a certificate that passes an audit against them and tells whether their votes agree. -/
def IsFaithful (election : Election G) (trustees : List (BlindingTrustee G)) (first second : Ballot G)
    (votes votes' : SelectionPath → UInt64) : Checked RunError (BallotCertificate G) → Prop
  | .ok certificate => certificate.verifyAgainst election first second = .ok () ∧
      (certificate.isEqual = true ↔
        ∀ path ∈ Quotient.references first.contests, votes path = votes' path)
  | .error (.error (.degenerateBlinding paths)) =>
      paths ≠ [] ∧ (∀ path ∈ paths, path ∈ Quotient.references first.contests) ∧
        AreDegenerate trustees first second paths
  | .error _ => False

namespace Session

variable {session : Session G}

/-- **A round in which every trustee answers as expected** succeeds with the answers. -/
theorem RoundCourse.eq_ok {α : Type} {event : Nat → Reply α → Event G} {expected : Nat}
    {es : List (Event G)} {result : Except RunError (List (List α))}
    {trustees : List (BlindingTrustee G)} {items : BlindingTrustee G → List α}
    (h : RoundCourse session event expected es result) (hcount : session.trustees = trustees.length)
    (hreplies : ∀ j trustee reply, trustees[j]? = some trustee → event j reply ∈ es →
      Round.Accepts session.limits.patience expected reply (items trustee)) :
    result = .ok (trustees.map items) := by
  obtain ⟨replies, time, hasked, rfl, rfl⟩ := h.exists_replies
  have haccepted : List.Forall₂ (Round.Accepts session.limits.patience expected) replies
      (trustees.map items) := by
    rw [List.forall₂_map_right_iff, List.forall₂_iff_get]
    refine ⟨hasked.trans hcount, fun j hj hj' => ?_⟩
    refine hreplies j _ _ (List.getElem?_eq_getElem hj') (List.mem_append_left _ ?_)
    exact List.mem_mapIdx.2 ⟨j, hj, rfl⟩
  exact Round.mapError_settle_eq_ok.2 haccepted

/-! ## The two rounds -/

section Rounds

variable {a : Assembly G} {secret : G.Scalar} {run : RunId} {quotient : Quotient G} {es : List (Event G)}

/-- The first round gives the contributions of all trustees. -/
theorem RoundCourse.eq_rows {result : Except RunError (List (List (Contribution G)))}
    (h : RoundCourse session (.blind ⟨run, quotient.ratios⟩) quotient.size es result)
    (hcount : session.trustees = a.trustees.length)
    (hanswered : AnsweredBy session secret a.trustees es) : result = .ok (a.rows quotient) := by
  refine h.eq_ok hcount fun j trustee reply hj hmem => ?_
  obtain ⟨htime, hresult⟩ := hanswered.blind j trustee _ reply hj hmem
  refine ⟨htime, hresult, ?_⟩
  rw [BlindingTrustee.length_contributions, Quotient.length_ratios]

/-- The second round gives their answers to the challenges for their contributions. -/
theorem RoundCourse.eq_answers {result : Except RunError (List (List (ChallengeResponse G)))}
    (h : RoundCourse session (.challenge (session.challengeRequest run quotient (a.rows quotient)))
      quotient.size es result)
    (hcount : session.trustees = a.trustees.length)
    (hanswered : AnsweredBy session secret a.trustees es) :
    result = .ok (a.answers session quotient) := by
  have hchallenges := session.length_challenges quotient (a.rows quotient)
  refine h.eq_ok hcount fun j trustee reply hj hmem => ?_
  have hrow : (a.rows quotient).getD j [] = trustee.contributions quotient.ratios := by
    simp [Assembly.rows, hj]
  obtain ⟨htime, hresult⟩ := hanswered.challenge j trustee _ reply hj hmem quotient.ratios _ hchallenges
    (by rw [Session.challengeRequest, hrow])
  rw [Quotient.length_ratios] at hresult
  refine ⟨htime, hresult, ?_⟩
  rw [List.length_zipWith, BlindingTrustee.length_nonces, hchallenges, Quotient.length_ratios,
    Nat.min_self]

variable [hG : PrimeGroup.Lawful G]

/-- The two rounds lead to the degenerate selections if there are any, and else to what the sums of the
contributions and of the answers are. -/
theorem RoundsCourse.eq_of_answeredBy {result : Except RunError (Rounds G)}
    (h : RoundsCourse session run quotient es result) (hcount : session.trustees = a.trustees.length)
    (hanswered : AnsweredBy session secret a.trustees es) :
    result = if a.degenerateSelections quotient = [] then
        .ok (session.roundsOf quotient (a.rows quotient) (a.answers session quotient))
      else .error (.degenerateBlinding (a.degenerateSelections quotient)) := by
  have hdegenerate : Session.degenerate quotient (aggregates quotient (a.rows quotient)) =
      a.degenerateSelections quotient := Assembly.degenerate_rows
  cases h with
  | unblinded first => cases first.eq_rows hcount hanswered
  | degenerate first found =>
    cases first.eq_rows hcount (hanswered.mono (List.subset_append_left _ _))
    rw [hdegenerate] at found ⊢
    rw [if_neg found]
  | unanswered first proper second =>
    cases first.eq_rows hcount (hanswered.mono (List.subset_append_left _ _))
    have hanswered' := hanswered.mono (List.subset_append_right _ _)
    cases second.eq_answers hcount (hanswered'.mono fun e he => by simp [he])
  | answered first proper second =>
    cases first.eq_rows hcount (hanswered.mono (List.subset_append_left _ _))
    have hanswered' := hanswered.mono (List.subset_append_right _ _)
    cases second.eq_answers hcount (hanswered'.mono fun e he => by simp [he])
    rw [hdegenerate] at proper
    rw [if_pos proper]

end Rounds

/-! ## The whole run -/

theorem mem_references_of_degenerate {a : Assembly G} {first second : Ballot G} {quotient : Quotient G}
    (hcomparable : Quotient.ofBallots first second = .ok quotient) :
    ∀ path ∈ a.degenerateSelections quotient, path ∈ Quotient.references first.contests := by
  intro path hpath
  obtain ⟨x, hx, rfl⟩ := List.mem_map.1 hpath
  have hselection : x.1 ∈ quotient.selections :=
    List.mem_of_getElem? (Quotient.mem_places.1 (List.mem_filter.1 hx).1)
  rw [← Quotient.paths_eq_references hcomparable]
  exact List.mem_map_of_mem hselection

variable [hG : PrimeGroup.Lawful G]

/-- **After the rounds** the run ends with a certificate that passes an audit. -/
theorem ConclusionCourse.eq_of_answeredBy {a : Assembly G} {secret : G.Scalar} {first second : Ballot G}
    {quotient : Quotient G} {es : List (Event G)} {result : Checked RunError (BallotCertificate G)}
    (hcomparable : Quotient.ofBallots first second = .ok quotient)
    (hproper : a.degenerateSelections quotient = [])
    (h : ConclusionCourse session quotient
      (session.roundsOf quotient (a.rows quotient) (a.answers session quotient)) es result)
    (hanswered : AnsweredBy session secret a.trustees es) :
    ∃ ds, Assembly.AreDecrypted session secret quotient (a.rows quotient) ds ∧
      (session.certificateOf quotient (a.rows quotient) (a.answers session quotient) ds).verify
        session.election = .ok () ∧
      result =
        .ok (session.certificateOf quotient (a.rows quotient) (a.answers session quotient) ds) := by
  obtain ⟨groups, hq, _⟩ := Quotient.ofBallots_eq_ok hcomparable
  have hproper' : ∀ x ∈ quotient.places,
      (aggregateAt (a.rows quotient) x).blinded.isDegenerate = false := by
    rw [← degenerate_eq_nil, Assembly.degenerate_rows]
    exact hproper
  have hanswers : ∀ x ∈ quotient.places,
      session.answersAt (a.rows quotient) (a.answers session quotient) x = true :=
    fun _ => Assembly.answersAt_answers
  have hgood : ∀ {good}, proofs quotient (session.roundsOf quotient (a.rows quotient)
      (a.answers session quotient)) = .ok good →
        good = quotient.places.map (session.proofAt (a.rows quotient) (a.answers session quotient)) :=
    fun hproved => (proofs_eq_ok.1 hproved).2
  -- the guardians are asked for the blindings, and what they answer is right
  have hdecrypt : ∀ answer, Event.decrypt (blinded (session.roundsOf quotient (a.rows quotient)
      (a.answers session quotient))) answer ∈ es → ∃ ds, answer = .ok ds ∧
        Assembly.AreDecrypted session secret quotient (a.rows quotient) ds ∧
        (session.certificateOf quotient (a.rows quotient) (a.answers session quotient) ds).verify
          session.election = .ok () := by
    intro answer hmem
    obtain ⟨ds, hds, hdecrypts⟩ := hanswered.decrypt _ _ hmem
    rw [blinded_roundsOf, List.forall₂_map_left_iff] at hdecrypts
    exact ⟨ds, hds, hdecrypts, Assembly.verify_certificateOf hq hproper' hanswers hdecrypts⟩
  cases h with
  | unproved unproved => cases unproved.symm.trans (proofs_eq_ok.2 ⟨hanswers, rfl⟩)
  | faulted =>
    obtain ⟨ds, hds, -⟩ := hdecrypt _ (List.mem_cons_of_mem _ List.mem_cons_self)
    cases hds
  | undecrypted =>
    obtain ⟨ds, hds, -⟩ := hdecrypt _ (List.mem_cons_of_mem _ List.mem_cons_self)
    cases hds
  | miscounted proved miscounted =>
    obtain ⟨ds, hds, hdecrypted, -⟩ := hdecrypt _ (List.mem_cons_of_mem _ List.mem_cons_self)
    cases hds
    rw [blinded_roundsOf, List.length_map, hdecrypted.length_eq] at miscounted
    exact absurd rfl miscounted
  | unaudited proved counted audit =>
    obtain ⟨ds, hds, -, haudit⟩ := hdecrypt _ (List.mem_cons_of_mem _ List.mem_cons_self)
    cases hds
    cases hgood proved
    cases haudit.symm.trans audit
  | rejected proved counted audit =>
    obtain ⟨ds, hds, -, haudit⟩ := hdecrypt _ (List.mem_cons_of_mem _ List.mem_cons_self)
    cases hds
    cases hgood proved
    cases haudit.symm.trans audit
  | certified proved counted audit =>
    obtain ⟨ds, hds, hdecrypted, haudit⟩ := hdecrypt _ (List.mem_cons_of_mem _ List.mem_cons_self)
    cases hds
    cases hgood proved
    exact ⟨_, hdecrypted, haudit, rfl⟩

/-- **A run that is answered honestly** has a faithful result. -/
theorem RunCourse.isFaithful {P : G.Scalar[X]} {a : Assembly G} {trustees : List (BlindingTrustee G)}
    {first second : Ballot G} {votes votes' : SelectionPath → UInt64} {es : List (Event G)}
    {result : Checked RunError (BallotCertificate G)}
    (h : RunCourse session first second es result) (hkeys : session.election.keys.LiesOn P)
    (hcount : session.trustees = a.trustees.length)
    (hsettings : a.trustees.map (·.settings) = trustees.map (·.settings))
    (hanswered : AnsweredBy session (P.eval 0) a.trustees es)
    (hcomparable : ∃ quotient, Quotient.ofBallots first second = .ok quotient)
    (hfirst : first.Encrypts session.election.jointKey votes)
    (hsecond : second.Encrypts session.election.jointKey votes') :
    IsFaithful session.election trustees first second votes votes' result := by
  obtain ⟨quotient, hcomparable⟩ := hcomparable
  cases h with
  | incomparable mismatch => cases hcomparable.symm.trans mismatch
  | released comparable failed asked =>
    cases hcomparable.symm.trans comparable
    have hrounds := failed.eq_of_answeredBy hcount (hanswered.mono fun e he => by simp [he])
    split at hrounds
    · cases hrounds
    · rename_i hdegenerate
      cases hrounds
      exact ⟨hdegenerate, mem_references_of_degenerate hcomparable, _, a, hcomparable, hsettings, rfl⟩
  | concluded comparable answered conclusion =>
    cases hcomparable.symm.trans comparable
    have hrounds := answered.eq_of_answeredBy hcount (hanswered.mono fun e he => by simp [he])
    split at hrounds
    · rename_i hproper
      cases hrounds
      obtain ⟨ds, hds, haudit, rfl⟩ := conclusion.eq_of_answeredBy hcomparable hproper
        (hanswered.mono fun e he => by simp [he])
      have hcounted : ds.length = quotient.size := by
        rw [← hds.length_eq, Quotient.length_places]
      refine ⟨verifyAgainst_certificateOf hcomparable hcounted haudit, ?_⟩
      rw [Assembly.isEqual_certificateOf hproper hds]
      exact Quotient.decrypt_ratios_eq_zero hkeys.shared hfirst hsecond hcomparable
    · cases hrounds

end Session

end PlaintextEquivalence
