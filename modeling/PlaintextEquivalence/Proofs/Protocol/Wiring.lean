import PlaintextEquivalence.Proofs.Protocol.Attribution

/-!
# No message goes astray

What trustees contribute is turned from rows into columns, one for each selection.  A column is summed, and
a challenge derived for the sum; and the request to a trustee is made of its item in every column.  In all
this every item stays with its selection and its trustee: each gets back the numbers that it gave itself,
for the selection that it gave them for, with the challenge for what all have given for that selection;
and the certificate has at each place the sums of what was given for it.

Principal results:
* `aggregateAt_eq` — the sums for a selection, from what the trustees contributed for it.
* `isChallengeTo_challengeRequest` — what each trustee is challenged with.
* `certificateOf_getElem?` — what is certified at each place.
* `messages_wired` — all messages of a run.
-/

set_option autoImplicit false

namespace PlaintextEquivalence

variable {G : PrimeGroup}

namespace Session

/-! ## Sums over all trustees -/

section Sums

variable (session : Session G) (es : List (Event G)) (i : Nat)

/-- The sum over all trustees of what they blinded the ratio at a position to. -/
def blindedIn : Ciphertext G := ((session.contributionsIn es i).map (·.blinded)).foldl (· + ·) 0

/-- The sum over all trustees of their commitments for the ratio at a position. -/
def commitmentsIn : Ciphertext G :=
  ((session.contributionsIn es i).map (·.commitments)).foldl (· + ·) 0

/-- The sum over all trustees of their responses to the challenge at a position. -/
def responseIn : G.Scalar := ((session.responsesIn es i).map (·.response)).foldl (· + ·) 0

/-- A request puts challenges to a trustee for what was contributed in a run: at each position the
challenge for what all trustees contributed, with the nonces that this one contributed itself. -/
structure IsChallengeTo (run : RunId) (quotient : Quotient G) (j : Nat) (request : ChallengeRequest G) :
    Prop where
  run : request.run = run
  length : request.challenges.length = quotient.size
  challenge : ∀ i r, quotient.selections[i]? = some r →
    ∃ contribution, contributed? es j i = some contribution ∧
      request.challenges[i]? = some
        ⟨Blinding.challengeFor session.election r.ratio (session.blindedIn es i)
          (session.commitmentsIn es i), contribution.nonces⟩

end Sums

variable {session : Session G} {es : List (Event G)} {quotient : Quotient G}
  {rows : List (List (Contribution G))} {answers : List (List (ChallengeResponse G))}

/-- The sums for a selection, from what the trustees contributed for it. -/
theorem aggregateAt_eq (hlen : rows.length = session.trustees)
    (hgiven : ∀ j i, contributed? es j i = rows[j]?.bind (·[i]?)) (x : SelectionQuotient G × Nat) :
    aggregateAt rows x = ⟨x.1.ratio, session.blindedIn es x.2, session.commitmentsIn es x.2⟩ := by
  rw [← sumIn_eq hlen hgiven, sumIn, Aggregate.of_eq]
  rfl

theorem totalResponse_column (hlen : answers.length = session.trustees)
    (hgiven : ∀ j i, responded? es j i = answers[j]?.bind (·[i]?)) (i : Nat) :
    totalResponse (column i answers) = session.responseIn es i := by
  rw [responseIn, responsesIn, filterMap_range_eq_column hlen (hgiven · i), List.foldl_map]
  rfl

/-! ## Challenges -/

/-- **What each trustee is challenged with.** -/
theorem isChallengeTo_challengeRequest {run : RunId} (hlen : rows.length = session.trustees)
    (hrow : ∀ row ∈ rows, row.length = quotient.size)
    (hgiven : ∀ j i, contributed? es j i = rows[j]?.bind (·[i]?)) {j : Nat} (hj : j < session.trustees) :
    session.IsChallengeTo es run quotient j (session.challengeRequest run quotient rows j) := by
  have hj : j < rows.length := hlen.symm ▸ hj
  have hgot : rows[j]? = some rows[j] := List.getElem?_eq_getElem hj
  have hsize : rows[j].length = quotient.size := hrow _ (List.getElem_mem hj)
  constructor
  case run => rfl
  case length =>
    rw [challengeRequest, challengesOn, List.length_zipWith, length_challenges, Quotient.length_ratios,
      List.getD_eq_getElem?_getD, hgot, Option.getD_some, hsize, Nat.min_self]
  case challenge =>
    intro i r hr
    have hx : (r, i) ∈ quotient.places := Quotient.mem_places.2 hr
    have hi : i < rows[j].length := by
      rw [hsize]
      exact (List.getElem?_eq_some_iff.1 hr).1
    have hitem : rows[j][i]? = some rows[j][i] := List.getElem?_eq_getElem hi
    refine ⟨rows[j][i], by rw [hgiven, hgot, Option.bind_some, hitem], ?_⟩
    rw [challengeRequest_getElem? hx hgot, hitem, challengeAt, aggregateAt_eq hlen hgiven]
    rfl

/-- **What is certified at each place.** -/
theorem certificateOf_getElem? {first second : Ballot G}
    {decryptions : List (G.Element × DecryptionProof G)}
    (hcomparable : Quotient.ofBallots first second = .ok quotient)
    (counted : decryptions.length = quotient.size) {i : Nat} {r : SelectionQuotient G}
    (hr : quotient.selections[i]? = some r) :
    ∃ d, (session.certificateOf quotient rows answers decryptions).selections[i]? =
      some (r.path, session.certificateAt rows answers ((r, i), d)) := by
  have hx : (r, i) ∈ quotient.places := Quotient.mem_places.2 hr
  have hi : i < decryptions.length := by
    rw [counted]
    exact (List.getElem?_eq_some_iff.1 hr).1
  have hpaths : List.Forall₂ (fun x r => x.1 = r.path ∧ x.2.ratio = r.ratio)
      (session.certificateOf quotient rows answers decryptions).selections quotient.selections :=
    certificate_selections_of_comparable hcomparable counted
  obtain ⟨s, hs, hpath, -⟩ := Paired.exists_getElem? hpaths hr
  obtain ⟨_, hq, -⟩ := Quotient.ofBallots_eq_ok hcomparable
  refine ⟨decryptions[i], hs.trans (congrArg some (Prod.ext hpath ?_))⟩
  have hitem : (session.certificates quotient rows answers decryptions)[i]? = some s.2 := by
    rw [← certificate_items hq counted, List.getElem?_map, hs]
    rfl
  have hzip : (quotient.places.zip decryptions)[i]? = some ((r, i), decryptions[i]) :=
    List.getElem?_zip_eq_some.2 ⟨Quotient.getElem?_places hx, List.getElem?_eq_getElem hi⟩
  rw [certificates, List.getElem?_map, hzip] at hitem
  exact (Option.some.inj hitem).symm

/-! ## Every run -/

/-- If all trustees contribute, and no sum is degenerate, all are challenged. -/
theorem AreCallsOf.challenged_of_answered {run : RunId}
    {blinds : List (Call (BlindRequest G) (Contribution G))}
    {challenges : List (Call (ChallengeRequest G) (ChallengeResponse G))}
    (h : AreCallsOf session run quotient blinds challenges) (hblinds : blindCalls es = blinds)
    (hanswered : ∀ call ∈ blinds,
      ∃ items, Round.Accepts session.limits.patience quotient.size call.reply items) :
    (∀ j < session.trustees, ∀ i < quotient.size, (contributed? es j i).isSome) ∧
      ((∀ i < quotient.size, (session.blindedIn es i).isDegenerate = false) →
        List.Forall₂ (fun j call => call.trustee = j ∧
            session.IsChallengeTo es run quotient j call.request)
          (List.range session.trustees) challenges) := by
  cases h with
  | @stopped replies asked stopped =>
    obtain ⟨rows, haccepted⟩ := exists_accepted hanswered
    have hlen : rows.length = session.trustees := haccepted.length_eq ▸ asked
    have hgiven := contributed?_eq hblinds haccepted
    refine ⟨fun j hj i hi => ?_, fun hproper => absurd ?_ (stopped rows haccepted)⟩
    · rw [hgiven]
      exact isSome_item hlen (Round.length_of_accepts haccepted) hj hi
    · rw [degenerate_eq_nil]
      intro x hx
      rw [aggregateAt_eq hlen hgiven]
      exact hproper x.2 (List.getElem?_eq_some_iff.1 (Quotient.mem_places.1 hx)).1
  | @challenged replies rows replies' asked accepted proper asked' =>
    have hlen : rows.length = session.trustees := accepted.length_eq ▸ asked
    have hrow := Round.length_of_accepts accepted
    have hgiven := contributed?_eq hblinds accepted
    refine ⟨fun j hj i hi => ?_, fun _ => ?_⟩
    · rw [hgiven]
      exact isSome_item hlen hrow hj hi
    · rw [← asked']
      exact forall₂_callsOf fun j hj _ =>
        ⟨rfl, isChallengeTo_challengeRequest hlen hrow hgiven (asked' ▸ hj)⟩

/-- **No message goes astray.**  Every trustee is asked to blind all ratios of the quotient in order; if all
of them do and no sum is degenerate, every trustee is challenged for what all have contributed, with the
nonces that it contributed itself; and if the run succeeds, the certificate has at each place the sums of
what all trustees contributed and responded for it. -/
theorem messages_wired {σ : Type} (session : Session G)
    (world : World (Question G) Question.Answer σ) (s : σ) (first second : Ballot G)
    {quotient : Quotient G} (hcomparable : Quotient.ofBallots first second = .ok quotient) :
    let run : RunId := ⟨session.name, (world .number s).1⟩
    let said := (session.run first second).exchanges world s
    let result := ((session.run first second).hold world s).1
    ((blindCalls said).map fun call => (call.trustee, call.request)) =
        ((List.range session.trustees).map fun j => (j, ⟨run, quotient.ratios⟩)) ∧
    ((∀ call ∈ blindCalls said,
        ∃ items, Round.Accepts session.limits.patience quotient.size call.reply items) →
      (∀ j < session.trustees, ∀ i < quotient.size, (contributed? said j i).isSome) ∧
      ((∀ i < quotient.size, (session.blindedIn said i).isDegenerate = false) →
        List.Forall₂ (fun j call => call.trustee = j ∧
            session.IsChallengeTo said run quotient j call.request)
          (List.range session.trustees) (challengeCalls said))) ∧
    ∀ certificate, result = .ok certificate →
      (∀ j < session.trustees, ∀ i < quotient.size,
        (contributed? said j i).isSome ∧ (responded? said j i).isSome) ∧
      certificate.selections.length = quotient.size ∧
      ∀ i r, quotient.selections[i]? = some r →
        ∃ certified, certificate.selections[i]? = some (r.path, certified) ∧
          certified.blinded = session.blindedIn said i ∧
          certified.blinding.response = session.responseIn said i := by
  intro run said result
  have hcourse : RunCourse session first second said result :=
    course_run (Dialogue.course_hold world (session.run first second) s)
  obtain ⟨later, hsaid⟩ : ∃ later, said = ⟨.number, (world .number s).1⟩ :: later := ⟨_, rfl⟩
  rw [hsaid] at hcourse
  obtain ⟨es, after, outcome, rfl, hrounds, haside, hfailed, hconcluded⟩ :=
    hcourse.exists_rounds hcomparable
  obtain ⟨hblinds, hchallenges⟩ : blindCalls said = blindCalls es ∧
      challengeCalls said = challengeCalls es := by
    rw [hsaid]
    exact calls_of_rounds _ es haside
  have hcalls := hrounds.areCallsOf
  rw [← hblinds, ← hchallenges] at hcalls
  refine ⟨hcalls.map_blinds, hcalls.challenged_of_answered rfl, fun certificate hresult => ?_⟩
  cases outcome with
  | error e => cases hresult.symm.trans (hfailed e rfl)
  | ok rounds =>
    obtain ⟨es', hconclusion⟩ := hconcluded rounds rfl
    obtain ⟨rows, answers, rfl, htable⟩ := hrounds.tabulates hblinds hchallenges
    rw [hresult] at hconclusion
    cases hconclusion with
    | @certified good decryptions proved counted audit =>
      obtain ⟨-, rfl⟩ := proofs_eq_ok.1 proved
      rw [blinded_roundsOf, List.length_map, Quotient.length_places] at counted
      refine ⟨fun j hj i hi => htable.isSome hj hi,
        (certificate_selections_of_comparable hcomparable counted).length_eq, fun i r hr => ?_⟩
      obtain ⟨d, hcertified⟩ := certificateOf_getElem? hcomparable counted hr
      refine ⟨_, hcertified, ?_, totalResponse_column htable.answers_length htable.responded i⟩
      show (aggregateAt rows (r, i)).blinded = _
      rw [aggregateAt_eq htable.rows_length htable.contributed]

end Session

/-! ## Small messages -/

namespace Small

/-- Two trustees are challenged with what each of them contributed; and what two trustees that follow the
protocol contributed and responded is summed in the certificate. -/
theorem wired_small :
    let said := (session.run first second).exchanges halfway ()
    let said' := (session.run first second).exchanges (Assembly.world election id) assembly
    Quotient.ofBallots first second = .ok quotient ∧
      (∀ call ∈ Session.blindCalls said,
        ∃ items, Round.Accepts session.limits.patience quotient.size call.reply items) ∧
      (∀ i < quotient.size, (session.blindedIn said i).isDegenerate = false) ∧
      List.Forall₂ (fun j call => call.trustee = j ∧
          session.IsChallengeTo said ⟨session.name, 0⟩ quotient j call.request)
        [0, 1] (Session.challengeCalls said) ∧
      ∃ certificate certified,
        ((session.run first second).hold (Assembly.world election id) assembly).1 = .ok certificate ∧
          certificate.selections[0]? = some (⟨"question", "yes"⟩, certified) ∧
          certified.blinded = session.blindedIn said' 0 ∧
          certified.blinding.response = session.responseIn said' 0 := by
  intro said said'
  have hcalls : Session.blindCalls said = _ := blindCalls_halfway
  have haccepted : ∀ call ∈ Session.blindCalls said,
      ∃ items, Round.Accepts session.limits.patience quotient.size call.reply items := by
    rw [hcalls]
    simp only [Session.callsOf, halfwayReplies, List.mapIdx_cons, List.mapIdx_nil,
      List.forall_mem_cons]
    exact ⟨⟨_, Round.accepts_prompt rfl⟩, ⟨_, Round.accepts_prompt rfl⟩, List.forall_mem_nil _⟩
  have hproper : ∀ i < quotient.size, (session.blindedIn said i).isDegenerate = false := by
    show ∀ i < quotient.size,
      (session.blindedIn ((session.run first second).exchanges halfway ()) i).isDegenerate = false
    decide +kernel
  obtain ⟨-, hchallenged, -⟩ := Session.messages_wired session halfway () first second ofBallots_small
  obtain ⟨ds, _, _, hrun⟩ := Assembly.hold_run_proper id liesOn_keys
    (Assembly.canDecrypt_ofGuardians rfl make_guardians (by decide)) ofBallots_small rfl
    isFreshFor_small degenerateSelections_small
  obtain ⟨-, -, hcertified⟩ := Session.messages_wired session (Assembly.world election id) assembly
    first second ofBallots_small
  obtain ⟨-, -, hat⟩ := hcertified _ hrun
  obtain ⟨certified, hselection, hblinded, hresponse⟩ := hat 0 _ rfl
  exact ⟨ofBallots_small, haccepted, hproper, (hchallenged haccepted).2 hproper,
    _, certified, hrun, hselection, hblinded, hresponse⟩

end Small

end PlaintextEquivalence
