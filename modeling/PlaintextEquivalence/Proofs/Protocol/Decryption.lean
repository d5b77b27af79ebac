import PlaintextEquivalence.Proofs.Certificate.Audit
import PlaintextEquivalence.Proofs.Protocol.Certificate
import PlaintextEquivalence.Proofs.Protocol.Round

/-!
# Guardians decrypt what is proved

Whatever trustees and guardians answer, a run asks the guardians at most once, after both rounds, and
only for blindings that the trustees' responses prove.  What is left to go wrong then is the
decryption, so that it is all that the last audit can find.

Principal results:
* `decrypt_proved` — what the guardians have been shown before they are asked.
* `findings_of_certificateOf` — what the audit of a proved certificate finds.
-/

set_option autoImplicit false

namespace PlaintextEquivalence

variable {G : PrimeGroup}

/-- Whether the guardians are asked. -/
def Event.isDecrypt : Event G → Bool
  | ⟨.decrypt _, _⟩ => true
  | _ => false

namespace Session

/-! ## What was said -/

/-- The trustee `j` was asked to blind the ratios, and contributed for the one at position `i`. -/
def Contributed (es : List (Event G)) (ratios : List (Ciphertext G)) (j i : Nat)
    (c : Contribution G) : Prop :=
  ∃ request reply items, Event.blind request j reply ∈ es ∧ request.ciphertexts = ratios ∧
    reply.result = .ok items ∧ items[i]? = some c

/-- The trustee `j` was challenged, and responded to the challenge at position `i`. -/
def Responded (es : List (Event G)) (challenge : G.Scalar) (j i : Nat) (r : ChallengeResponse G) :
    Prop :=
  ∃ (request : ChallengeRequest G) (reply : Reply (ChallengeResponse G)) (items : _),
    (⟨.challenge j request, reply⟩ : Event G) ∈ es ∧
      request.challenges[i]?.map (·.challenge) = some challenge ∧
      reply.result = .ok items ∧ items[i]? = some r

/-- A ciphertext is proper and the sum of all trustees' blindings of the ratio at a position, and the
sum of their responses to its challenge is a proof that a verifier accepts. -/
structure ProvedAt (session : Session G) (es : List (Event G)) (ratios : List (Ciphertext G))
    (i : Nat) (ratio blinded : Ciphertext G) : Prop where
  proper : blinded.pad ≠ 0 ∧ blinded.data ≠ 0
  proved : ∃ (contributions : List (Contribution G)) (responses : List (ChallengeResponse G))
      (c : G.Scalar),
    contributions.length = session.trustees ∧ responses.length = session.trustees ∧
      (∀ j contribution, contributions[j]? = some contribution →
        Contributed es ratios j i contribution) ∧
      (∀ j r, responses[j]? = some r → Responded es c j i r) ∧
      blinded = (Aggregate.of ratio contributions).blinded ∧
      c = (Aggregate.of ratio contributions).challenge session.election ∧
      (⟨c, totalResponse responses⟩ : Blinding G).verify session.election ratio blinded = .ok ()

/-- What a round that succeeds has asked, and what it was answered. -/
theorem RoundCourse.exists_reply {α : Type} {session : Session G}
    {event : Nat → Reply α → Event G} {expected : Nat} {es : List (Event G)} {rows : List (List α)}
    (h : RoundCourse session event expected es (.ok rows)) :
    rows.length = session.trustees ∧ (∀ row ∈ rows, row.length = expected) ∧
      ∀ j row, rows[j]? = some row → ∃ reply, event j reply ∈ es ∧ reply.result = .ok row := by
  cases h with
  | @answered replies time _ asked settled =>
    have haccepted := Round.settle_eq_ok.1 (congrArg Prod.snd settled)
    refine ⟨haccepted.length_eq ▸ asked, Round.length_of_accepts haccepted, fun j row hrow => ?_⟩
    obtain ⟨reply, hreply, hr⟩ := Paired.exists_getElem? haccepted hrow
    refine ⟨reply, List.mem_append_left _ ?_, hr.result⟩
    rw [List.mem_iff_getElem?]
    exact ⟨j, by simp [hreply]⟩

/-- Each trustee is challenged for a selection with what it contributed for it itself. -/
theorem challengeRequest_getElem? {session : Session G} {run : RunId} {quotient : Quotient G}
    {rows : List (List (Contribution G))} {x : SelectionQuotient G × Nat} {j : Nat}
    {row : List (Contribution G)} (hx : x ∈ quotient.places) (hrow : rows[j]? = some row) :
    (session.challengeRequest run quotient rows j).challenges[x.2]? =
      row[x.2]?.map fun contribution => ⟨session.challengeAt rows x, contribution.nonces⟩ := by
  rw [challengeRequest, challengesOn, challenges_eq, List.getD_eq_getElem?_getD, hrow,
    Option.getD_some, List.getElem?_zipWith, List.getElem?_map, Quotient.getElem?_places hx]
  cases row[x.2]? <;> rfl

/-- **What the two rounds prove**: if the proofs of all selections are in order, each was contributed
and responded to by all trustees. -/
theorem provedAt_of_rounds {session : Session G} {run : RunId} {quotient : Quotient G}
    {es : List (Event G)} {rounds : Rounds G} {good : List (Blinding G)}
    (h : RoundsCourse session run quotient es (.ok rounds))
    (hproofs : proofs quotient rounds = .ok good) :
    ∃ rows answers, rounds = session.roundsOf quotient rows answers ∧
      ∀ x ∈ quotient.places,
        ProvedAt session es quotient.ratios x.2 x.1.ratio (aggregateAt rows x).blinded := by
  cases h with
  | @answered es es' rows answers first proper second =>
    refine ⟨rows, answers, rfl, fun x hx => ?_⟩
    obtain ⟨hrows, hrowlen, hasked⟩ := first.exists_reply
    obtain ⟨hanswers, hanswerlen, hchallenged⟩ := second.exists_reply
    have hi : x.2 < quotient.size := (List.getElem?_eq_some_iff.1 (Quotient.mem_places.1 hx)).1
    have hcolumn := forall₂_column hi hrowlen
    have hresponses := forall₂_column hi hanswerlen
    have hanswersAt := (proofs_eq_ok.1 hproofs).1 x hx
    refine ⟨Ciphertext.isDegenerate_eq_false.1 (degenerate_eq_nil.1 proper x hx),
      column x.2 rows, column x.2 answers, session.challengeAt rows x,
      hcolumn.length_eq ▸ hrows, hresponses.length_eq ▸ hanswers, ?_, ?_, rfl, rfl,
      verify_proofAt hanswersAt⟩
    · intro j contribution hc
      obtain ⟨row, hrow, hitem⟩ := Paired.exists_getElem? hcolumn hc
      obtain ⟨reply, hreply, hresult⟩ := hasked j row hrow
      exact ⟨_, reply, row, List.mem_append_left _ hreply, rfl, hresult, hitem⟩
    · intro j r hr
      obtain ⟨row, hrow, hitem⟩ := Paired.exists_getElem? hresponses hr
      obtain ⟨reply, hreply, hresult⟩ := hchallenged j row hrow
      have hj : j < rows.length := by
        rw [hrows, ← hanswers]
        exact (List.getElem?_eq_some_iff.1 hrow).1
      have hgiven := List.getElem?_eq_getElem hj
      have hcontribution : x.2 < rows[j].length := by
        rw [hrowlen _ (List.getElem_mem hj)]
        exact hi
      have hchallenge : (session.challengeRequest run quotient rows j).challenges[x.2]?.map
          (·.challenge) = some (session.challengeAt rows x) := by
        rw [challengeRequest_getElem? hx hgiven, List.getElem?_eq_getElem hcontribution]
        rfl
      refine ⟨session.challengeRequest run quotient rows j, reply, row, ?_, hchallenge, hresult, hitem⟩
      simp only [List.mem_append, List.mem_cons]
      exact .inr (.inr (.inr (.inr (.inl hreply))))

/-! ## When the guardians are asked -/

/-- The guardians are not asked. -/
def Quiet (es : List (Event G)) : Prop := ∀ e ∈ es, e.isDecrypt = false

@[simp] theorem quiet_nil : Quiet ([] : List (Event G)) := fun _ he => absurd he List.not_mem_nil

@[simp] theorem quiet_cons {e : Event G} {es : List (Event G)} :
    Quiet (e :: es) ↔ e.isDecrypt = false ∧ Quiet es := List.forall_mem_cons

@[simp] theorem quiet_append {es es' : List (Event G)} :
    Quiet (es ++ es') ↔ Quiet es ∧ Quiet es' := List.forall_mem_append

@[simp] theorem isDecrypt_number (n : UInt64) : Event.isDecrypt (⟨.number, n⟩ : Event G) = false :=
  rfl

@[simp] theorem isDecrypt_reached (milestone : Milestone) :
    (Event.reached milestone : Event G).isDecrypt = false := rfl

@[simp] theorem isDecrypt_passed (nanos : Nat) : (Event.passed nanos : Event G).isDecrypt = false :=
  rfl

@[simp] theorem isDecrypt_ended (outcome : Outcome) :
    (Event.ended outcome : Event G).isDecrypt = false := rfl

theorem Quiet.countP {es : List (Event G)} (h : Quiet es) : es.countP Event.isDecrypt = 0 := by
  rw [List.countP_eq_zero]
  intro e he
  simp [h e he]

theorem quiet_mapIdx {α : Type} {event : Nat → α → Event G}
    (hevent : ∀ j a, (event j a).isDecrypt = false) (items : List α) :
    Quiet (items.mapIdx event) := by
  intro e he
  obtain ⟨j, _, rfl⟩ := List.mem_mapIdx.1 he
  exact hevent _ _

theorem quiet_ended (outcome? : Option Outcome) :
    Quiet (outcome?.toList.map (Event.ended (G := G))) := by
  cases outcome? with
  | none => exact quiet_nil
  | some outcome => simp

/-- No guardian is asked in the two rounds. -/
theorem RoundsCourse.quiet {session : Session G} {run : RunId} {quotient : Quotient G}
    {es : List (Event G)} {result : Except RunError (Rounds G)}
    (h : RoundsCourse session run quotient es result) : Quiet es :=
  h.forall_mem (fun _ _ => rfl) (fun _ _ _ => rfl) (fun _ => rfl) fun _ => rfl

/-- If the guardians are asked after the rounds, they are asked once, after all proofs are found in
order. -/
theorem ConclusionCourse.decrypt {session : Session G} {quotient : Quotient G} {rounds : Rounds G}
    {es : List (Event G)} {result : Checked RunError (BallotCertificate G)}
    (h : ConclusionCourse session quotient rounds es result) :
    es = [] ∨ ∃ good answer after, proofs quotient rounds = .ok good ∧
      es = .reached .verify :: .decrypt (blinded rounds) answer :: after ∧ Quiet after := by
  cases h with
  | unproved => exact .inl rfl
  | faulted proved => exact .inr ⟨_, _, _, proved, rfl, by simp⟩
  | undecrypted proved => exact .inr ⟨_, _, _, proved, rfl, by simp⟩
  | miscounted proved => exact .inr ⟨_, _, _, proved, rfl, by simp⟩
  | unaudited proved => exact .inr ⟨_, _, _, proved, rfl, by simp⟩
  | rejected proved => exact .inr ⟨_, _, _, proved, rfl, by simp⟩
  | certified proved => exact .inr ⟨_, _, _, proved, rfl, by simp⟩

/-- What was proved stays proved when more is said. -/
theorem ProvedAt.mono {session : Session G} {es es' : List (Event G)}
    {ratios : List (Ciphertext G)} {i : Nat} {ratio blinded : Ciphertext G} (hsub : es ⊆ es')
    (h : ProvedAt session es ratios i ratio blinded) :
    ProvedAt session es' ratios i ratio blinded := by
  obtain ⟨proper, contributions, responses, c, hcl, hrl, hcs, hrs, hsum, hc, hverify⟩ := h
  refine ⟨proper, contributions, responses, c, hcl, hrl, ?_, ?_, hsum, hc, hverify⟩
  · intro j contribution hj
    obtain ⟨request, reply, items, hmem, h⟩ := hcs j contribution hj
    exact ⟨request, reply, items, hsub hmem, h⟩
  · intro j r hj
    obtain ⟨request, reply, items, hmem, h⟩ := hrs j r hj
    exact ⟨request, reply, items, hsub hmem, h⟩

/-- A run never asks the guardians, or asks them once, for what was proved before. -/
theorem RunCourse.decrypt {session : Session G} {first second : Ballot G} {es : List (Event G)}
    {result : Checked RunError (BallotCertificate G)}
    (h : RunCourse session first second es result) :
    Quiet es ∨ ∃ before quotient rows answer after,
      es = before ++ .decrypt (quotient.places.map fun x => (aggregateAt rows x).blinded) answer ::
        after ∧
      Quiet before ∧ Quiet after ∧ Quotient.ofBallots first second = .ok quotient ∧
      ∀ x ∈ quotient.places,
        ProvedAt session before quotient.ratios x.2 x.1.ratio (aggregateAt rows x).blinded := by
  cases h with
  | incomparable =>
    left
    simp
  | @released n quotient es e delays comparable failed asked =>
    left
    have hrelease : Quiet (delays.mapIdx (Event.release ⟨session.name, n⟩) : List (Event G)) :=
      quiet_mapIdx (fun _ _ => rfl) delays
    simp [failed.quiet, hrelease]
  | @concluded n quotient es es' rounds _ comparable answered conclusion =>
    have hended := quiet_ended (G := G) (outcome? result)
    rcases conclusion.decrypt with rfl | ⟨good, answer, after, hproofs, rfl, hafter⟩
    · left
      simp [answered.quiet, hended]
    · right
      obtain ⟨rows, answers, rfl, hproved⟩ := provedAt_of_rounds answered hproofs
      refine ⟨⟨.number, n⟩ :: .reached .ratio :: (es ++ [.reached .verify]), quotient, rows, answer,
        after ++ (outcome? result).toList.map .ended, ?_, ?_, ?_, comparable, ?_⟩
      · rw [blinded_roundsOf]
        simp
      · simp [answered.quiet]
      · exact quiet_append.2 ⟨hafter, hended⟩
      · refine fun x hx => (hproved x hx).mono fun e he => ?_
        simp [he]

/-! ## What the last audit finds -/

/-- If all blindings are proper and proved, the audit finds fault with decryptions only. -/
theorem findings_of_certificateOf {session : Session G} {q : Quotient G}
    {rows : List (List (Contribution G))} {answers : List (List (ChallengeResponse G))}
    {decryptions : List (G.Element × DecryptionProof G)} {ballotId : String}
    {groups : List (String × List (SelectionQuotient G))}
    (hq : q = Quotient.ofGroups ballotId groups) (counted : decryptions.length = q.size)
    (proper : ∀ x ∈ q.places, (aggregateAt rows x).blinded.isDegenerate = false)
    (proved : ∀ x ∈ q.places, session.answersAt rows answers x = true) {findings : List Finding}
    (h : (session.certificateOf q rows answers decryptions).verify session.election =
      .error (.error findings)) :
    ∀ f ∈ findings, ∃ path source, f = .decryptionProof path source := by
  intro f hf
  rcases BallotCertificate.mem_of_verify_eq_error h hf with ⟨s, hs, l, hl, hfl⟩ | hverdict
  · have hitem : s.2 ∈ session.certificates q rows answers decryptions := by
      rw [← certificate_items hq counted]
      exact List.mem_map_of_mem hs
    obtain ⟨x, d, hmem, hsel⟩ := mem_certificates hitem
    have hx := (List.of_mem_zip hmem).1
    have hproper : s.2.blinded.isDegenerate = false := by
      rw [hsel]
      exact proper x hx
    have hblinding : s.2.blinding.verify session.election s.2.ratio s.2.blinded = .ok () := by
      rw [hsel]
      exact verify_proofAt (proved x hx)
    obtain ⟨source, rfl⟩ :=
      SelectionCertificate.eq_decryptionProof_of_mem hproper hblinding hl hfl
    exact ⟨_, _, rfl⟩
  · exact absurd (computedVerdict_eq hq counted) hverdict

/-- In the two rounds a run fails because of a trustee or of degenerate blindings. -/
theorem RoundsCourse.error {session : Session G} {run : RunId} {quotient : Quotient G}
    {es : List (Event G)} {e : RunError} (h : RoundsCourse session run quotient es (.error e)) :
    (∃ j source, e = .transport j source) ∨ ∃ paths, e = .degenerateBlinding paths := by
  cases h with
  | unblinded first =>
    cases first
    exact .inl ⟨_, _, rfl⟩
  | degenerate => exact .inr ⟨_, rfl⟩
  | unanswered _ _ second =>
    cases second
    exact .inl ⟨_, _, rfl⟩

theorem RunCourse.finalVerification {session : Session G} {first second : Ballot G}
    {es : List (Event G)} {findings : List Finding}
    (h : RunCourse session first second es (.error (.error (.finalVerification findings)))) :
    ∀ f ∈ findings, ∃ path source, f = .decryptionProof path source := by
  generalize hresult : (.error (.error (.finalVerification findings)) :
    Checked RunError (BallotCertificate G)) = result at h
  cases h with
  | incomparable => cases hresult
  | released _ failed _ =>
    cases hresult
    rcases failed.error with ⟨_, _, h⟩ | ⟨_, h⟩
    · cases h
    · cases h
  | concluded comparable answered conclusion =>
    cases conclusion with
    | rejected proved counted audit =>
      cases hresult
      obtain ⟨groups, hq, _⟩ := Quotient.ofBallots_eq_ok comparable
      cases answered with
      | answered first proper second =>
        obtain ⟨hanswers, rfl⟩ := proofs_eq_ok.1 proved
        rw [blinded_roundsOf, List.length_map, Quotient.length_places] at counted
        exact findings_of_certificateOf hq counted (degenerate_eq_nil.1 proper) hanswers audit
    | _ => cases hresult

/-! ## Every run -/

/-- **Guardians decrypt what is proved.**  Whoever the trustees and the guardians are, a run asks the
guardians at most once, for one ciphertext for each selection of the quotient, in order, each of them
proved before; and if the last audit fails, it fails for decryptions only. -/
theorem decrypt_proved {σ : Type} (session : Session G)
    (world : World (Question G) Question.Answer σ) (s : σ) (first second : Ballot G) :
    ((session.run first second).exchanges world s).countP Event.isDecrypt ≤ 1 ∧
    (∀ before ciphertexts answer after,
      (session.run first second).exchanges world s =
          before ++ .decrypt ciphertexts answer :: after →
        ∃ quotient, Quotient.ofBallots first second = .ok quotient ∧
          ciphertexts.length = quotient.size ∧
          ∀ i r c, quotient.selections[i]? = some r → ciphertexts[i]? = some c →
            ProvedAt session before quotient.ratios i r.ratio c) ∧
    ∀ findings, ((session.run first second).hold world s).1 =
        .error (.error (.finalVerification findings)) →
      ∀ f ∈ findings, ∃ path source, f = .decryptionProof path source := by
  have hcourse := course_run (Dialogue.course_hold world (session.run first second) s)
  refine ⟨?_, ?_, fun findings h => ?_⟩
  · rcases hcourse.decrypt with h | ⟨before, quotient, rows, answer, after, h, hb, ha, -⟩
    · rw [h.countP]
      exact Nat.zero_le 1
    · rw [h, List.countP_append, List.countP_cons, hb.countP, ha.countP]
      simp [Event.decrypt, Event.isDecrypt]
  · intro before ciphertexts answer after hes
    rcases hcourse.decrypt with h | ⟨before', quotient, rows, answer', after', h, hb, ha, hq, hp⟩
    · have := h (.decrypt ciphertexts answer) (by simp [hes])
      cases this
    · rw [h] at hes
      obtain ⟨rfl, hevent⟩ := append_cons_unique (p := Event.isDecrypt) rfl rfl hes hb ha
      obtain rfl := Question.decrypt.inj (congrArg Sigma.fst hevent)
      refine ⟨quotient, hq, by rw [List.length_map, Quotient.length_places], ?_⟩
      intro i r c hr hc
      have hx : (r, i) ∈ quotient.places := Quotient.mem_places.2 hr
      rw [List.getElem?_map, Quotient.getElem?_places hx] at hc
      cases hc
      exact hp (r, i) hx
  · rw [h] at hcourse
    exact hcourse.finalVerification

end Session

end PlaintextEquivalence
