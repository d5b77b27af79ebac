import PlaintextEquivalence.Proofs.Certificate.Faultless
import PlaintextEquivalence.Proofs.Protocol.Attribution
import PlaintextEquivalence.Protocol.Schedule

/-!
# How far a run comes

A run reports the steps that it has done, and how it ended.  Whoever the trustees and the guardians are,
the steps are reported in order, each once, as far as the run came; and the error of a run that failed
says which step was the first not to be done.  If a trustee is named in it, then as the first one whose
reply was amiss in the round that failed, with what was wrong with its reply.

Principal results:
* `isBlamed_of_settle` — who is named if a round fails.
* `RoundsCourse.failsAfter`, `ConclusionCourse.endsAfter` — how far a run comes that fails.
* `RoundsCourse.exists_firstRound` — what comes before the second round.
* `RunCourse.faultless` — a run ends without an outcome only if the guardians meet a fault.
* `failures_staged` — all runs of a session, one after the other.
-/

set_option autoImplicit false

namespace PlaintextEquivalence

variable {G : PrimeGroup}

/-- The steps of a run, in order. -/
def Milestone.all : List Milestone :=
  [.ratio, .blind, .aggregate, .challenge, .respond, .verify, .decrypt, .selfVerify]

/-- What is reported of a run: that a step is done, or how it ended. -/
def Event.report? : Event G → Option (Milestone ⊕ Outcome)
  | ⟨.reached milestone, _⟩ => some (.inl milestone)
  | ⟨.ended outcome, _⟩ => some (.inr outcome)
  | _ => none

namespace Session

/-! ## Reports -/

/-- All that is reported of a run, in order. -/
def reports (es : List (Event G)) : List (Milestone ⊕ Outcome) := es.filterMap Event.report?

/-- The reports of a run that does so many steps, and ends if there is an outcome. -/
def reportsOf (n : Nat) (outcome? : Option Outcome) : List (Milestone ⊕ Outcome) :=
  (Milestone.all.take n).map .inl ++ outcome?.toList.map .inr

@[simp] theorem reports_nil : reports ([] : List (Event G)) = [] := rfl

@[simp] theorem reports_append (es es' : List (Event G)) :
    reports (es ++ es') = reports es ++ reports es' :=
  List.filterMap_append

@[simp] theorem reports_number (n : UInt64) (es : List (Event G)) :
    reports (⟨.number, n⟩ :: es) = reports es :=
  rfl

@[simp] theorem reports_reached (milestone : Milestone) (es : List (Event G)) :
    reports (.reached milestone :: es) = .inl milestone :: reports es :=
  rfl

@[simp] theorem reports_passed (nanos : Nat) (es : List (Event G)) :
    reports (.passed nanos :: es) = reports es :=
  rfl

@[simp] theorem reports_ended (outcome : Outcome) (es : List (Event G)) :
    reports (.ended outcome :: es) = .inr outcome :: reports es :=
  rfl

@[simp] theorem reports_decrypt (ciphertexts : List (Ciphertext G))
    (answer : Checked BoardError (List (G.Element × DecryptionProof G))) (es : List (Event G)) :
    reports (.decrypt ciphertexts answer :: es) = reports es :=
  rfl

theorem reports_releases (run : RunId) (delays : List Nat) :
    reports (delays.mapIdx (Event.release (G := G) run)) = [] := by
  refine List.filterMap_eq_nil_iff.2 fun e he => ?_
  obtain ⟨j, _, rfl⟩ := List.mem_mapIdx.1 he
  rfl

theorem reports_outcome (outcome? : Option Outcome) :
    reports (outcome?.toList.map (Event.ended (G := G))) = outcome?.toList.map .inr := by
  cases outcome? <;> rfl

/-- Nothing is reported within a round. -/
theorem RoundCourse.reports_eq {α : Type} {session : Session G} {event : Nat → Reply α → Event G}
    {expected : Nat} {es : List (Event G)} {result : Except RunError (List (List α))}
    (h : RoundCourse session event expected es result)
    (hevent : ∀ j reply, (event j reply).report? = none) : reports es = [] :=
  List.filterMap_eq_nil_iff.2 (h.forall_mem hevent fun _ => rfl)

/-! ## Who is named -/

/-- The trustee at a place is the first one whose reply is amiss, and what is wrong with it. -/
structure IsBlamed {α β : Type} (expected trustees : Nat) (calls : List (Call α β)) (j : Nat)
    (source : CallError) : Prop where
  asked : calls.map (·.trustee) = List.range trustees
  own : ∃ call, calls[j]? = some call ∧ Round.complaint? expected call.reply = some source
  first : ∀ i < j, ∀ call, calls[i]? = some call → Round.complaint? expected call.reply = none

/-- **Who is named if a round fails** in which nobody takes any time. -/
theorem isBlamed_of_settle {α β : Type} {request : Nat → α} {replies : List (Reply β)}
    {limit : Duration} {expected j : Nat} {source : CallError}
    (hprompt : ∀ call ∈ callsOf request replies, call.reply.delay = 0)
    (h : (Round.settle limit expected replies).2 = .error (j, source)) :
    IsBlamed expected replies.length (callsOf request replies) j source := by
  obtain ⟨reply, hreply, hcomplaint, hfirst⟩ := Round.complaint?_of_settle
    (forall_mem_of_callsOf hprompt) h
  constructor
  case asked => exact map_trustee_callsOf request replies
  case own => exact ⟨⟨j, request j, reply⟩, by rw [getElem?_callsOf, hreply, Option.map_some], hcomplaint⟩
  case first =>
    intro i hi call hcall
    rw [getElem?_callsOf] at hcall
    obtain ⟨reply', hreply', rfl⟩ := Option.map_eq_some_iff.1 hcall
    exact hfirst i hi reply' hreply'

/-- The trustees take no time to reply. -/
structure ArePrompt (said : List (Event G)) : Prop where
  blind : ∀ call ∈ blindCalls said, call.reply.delay = 0
  challenge : ∀ call ∈ challengeCalls said, call.reply.delay = 0

/-- **Which errors a run fails with, after how many steps.** -/
inductive FailsAfter (session : Session G) (first second : Ballot G) (said : List (Event G)) :
    Nat → RunError → Prop where
  | structuralMismatch {source : BallotMismatch}
      (mismatch : Quotient.ofBallots first second = .error source) :
      FailsAfter session first second said 0 (.structuralMismatch source)
  | unblinded {quotient : Quotient G} {j : Nat} {source : CallError}
      (comparable : Quotient.ofBallots first second = .ok quotient)
      (blamed : IsBlamed quotient.size session.trustees (blindCalls said) j source) :
      FailsAfter session first second said 1 (.transport j source)
  | degenerateBlinding {paths : List SelectionPath} :
      FailsAfter session first second said 2 (.degenerateBlinding paths)
  | unanswered {quotient : Quotient G} {j : Nat} {source : CallError}
      (comparable : Quotient.ofBallots first second = .ok quotient)
      (blamed : IsBlamed quotient.size session.trustees (challengeCalls said) j source) :
      FailsAfter session first second said 4 (.transport j source)
  | proofVerification {failures : List FaultyBlinding} :
      FailsAfter session first second said 5 (.proofVerification failures)
  | decryption {source : BoardError} : FailsAfter session first second said 6 (.decryption source)
  | finalVerification {findings : List Finding} :
      FailsAfter session first second said 7 (.finalVerification findings)

/-- How a run ends, after how many steps. -/
inductive EndsAfter (session : Session G) (first second : Ballot G) (said : List (Event G)) :
    Nat → Checked RunError (BallotCertificate G) → Prop where
  | failed {n : Nat} {e : RunError} (fails : FailsAfter session first second said n e) :
      EndsAfter session first second said n (.error (.error e))
  | undecrypted {f : Fault} : EndsAfter session first second said 6 (.error (.fault f))
  | unaudited {f : Fault} : EndsAfter session first second said 7 (.error (.fault f))
  | certified {certificate : BallotCertificate G} :
      EndsAfter session first second said 8 (.ok certificate)

theorem FailsAfter.lt {session : Session G} {first second : Ballot G} {said : List (Event G)} {n : Nat}
    {e : RunError} (h : FailsAfter session first second said n e) : n < 8 := by
  cases h <;> decide

/-! ## Stages -/

section Stages

variable {session : Session G} {run : RunId} {quotient : Quotient G} {es : List (Event G)}

theorem RoundsCourse.reports_eq {rounds : Rounds G}
    (h : RoundsCourse session run quotient es (.ok rounds)) :
    reports es = [.inl .blind, .inl .aggregate, .inl .challenge, .inl .respond] := by
  cases h with
  | answered first proper second =>
    simp [first.reports_eq fun _ _ => rfl, second.reports_eq fun _ _ => rfl]

/-- **How far the rounds come that fail**, and who is named if it is because of a trustee. -/
theorem RoundsCourse.failsAfter {first second : Ballot G} {said : List (Event G)} {e : RunError}
    (h : RoundsCourse session run quotient es (.error e))
    (hcomparable : Quotient.ofBallots first second = .ok quotient)
    (hblinds : blindCalls said = blindCalls es) (hchallenges : challengeCalls said = challengeCalls es)
    (hprompt : ArePrompt said) :
    ∃ n, FailsAfter session first second said n e ∧
      .inl .ratio :: reports es = (Milestone.all.take n).map .inl := by
  cases h with
  | unblinded round =>
    obtain ⟨-, replies, hasked, hcalls, hresult⟩ := round.blindCalls_eq
    rw [hcalls] at hblinds
    obtain ⟨⟨j, source⟩, hsettled, rfl⟩ := Round.mapError_eq_error.1 hresult.symm
    refine ⟨1, .unblinded hcomparable ?_, by rw [round.reports_eq fun _ _ => rfl]; rfl⟩
    rw [hblinds, ← hasked]
    exact isBlamed_of_settle (hblinds ▸ hprompt.blind) hsettled
  | degenerate round found =>
    exact ⟨2, .degenerateBlinding, by simp [round.reports_eq fun _ _ => rfl, Milestone.all]⟩
  | @unanswered es es' rows _ round proper round' =>
    obtain ⟨hnone, -⟩ := round.blindCalls_eq
    obtain ⟨-, replies, hasked, hcalls, hresult⟩ := round'.challengeCalls_eq
    have hchallenges : challengeCalls said =
        callsOf (session.challengeRequest run quotient rows) replies := by
      rw [hchallenges]
      simp [hnone, hcalls]
    obtain ⟨⟨j, source⟩, hsettled, rfl⟩ := Round.mapError_eq_error.1 hresult.symm
    refine ⟨4, .unanswered hcomparable ?_, by
      simp [round.reports_eq fun _ _ => rfl, round'.reports_eq fun _ _ => rfl, Milestone.all]⟩
    rw [hchallenges, ← hasked]
    exact isBlamed_of_settle (hchallenges ▸ hprompt.challenge) hsettled

/-- **How far a run comes after the rounds.** -/
theorem ConclusionCourse.endsAfter {first second : Ballot G} {said : List (Event G)} {rounds : Rounds G}
    {result : Checked RunError (BallotCertificate G)}
    (h : ConclusionCourse session quotient rounds es result) :
    ∃ n, EndsAfter session first second said n result ∧
      (Milestone.all.take 5).map .inl ++ reports es = (Milestone.all.take n).map .inl := by
  cases h with
  | unproved => exact ⟨5, .failed .proofVerification, rfl⟩
  | faulted => exact ⟨6, .undecrypted, rfl⟩
  | undecrypted => exact ⟨6, .failed .decryption, rfl⟩
  | miscounted => exact ⟨6, .failed .decryption, rfl⟩
  | unaudited => exact ⟨7, .unaudited, rfl⟩
  | rejected => exact ⟨7, .failed .finalVerification, rfl⟩
  | certified => exact ⟨8, .certified, rfl⟩

/-- **How far a run comes.** -/
theorem RunCourse.endsAfter {first second : Ballot G} {said : List (Event G)}
    {result : Checked RunError (BallotCertificate G)}
    (h : RunCourse session first second said result) (hprompt : ArePrompt said) :
    ∃ n, EndsAfter session first second said n result ∧
      reports said = reportsOf n (outcome? result) := by
  cases h with
  | incomparable mismatch => exact ⟨0, .failed (.structuralMismatch mismatch), rfl⟩
  | @released number quotient es e delays comparable failed asked =>
    obtain ⟨hblinds, hchallenges⟩ := calls_of_rounds number es (isAside_of_given_up
      ⟨session.name, number⟩ delays (Round.longest session.limits.patience delays) .failed)
    obtain ⟨n, hfails, hreports⟩ := failed.failsAfter comparable hblinds hchallenges hprompt
    refine ⟨n, .failed hfails, ?_⟩
    have hend : outcome? (Checked.refuse e : Checked RunError (BallotCertificate G)) = some .failed := rfl
    rw [hend, reportsOf, ← hreports]
    simp [reports_releases]
  | @concluded number quotient es es' rounds _ comparable answered conclusion =>
    obtain ⟨n, hends, hreports⟩ := conclusion.endsAfter
    refine ⟨n, hends, ?_⟩
    rw [reportsOf, ← hreports]
    simp [answered.reports_eq, reports_outcome, Milestone.all]

/-! ## The second round -/

/-- What is said before a second round: four steps are done, every trustee has contributed as expected,
and no sum is degenerate. -/
structure IsFirstRound (session : Session G) (quotient : Quotient G) (before : List (Event G)) : Prop where
  unchallenged : challengeCalls before = []
  reported : reports before = reportsOf 4 none
  asked : (blindCalls before).map (·.trustee) = List.range session.trustees
  answered : ∀ call ∈ blindCalls before, Round.complaint? quotient.size call.reply = none
  proper : ∀ x ∈ quotient.places, (session.sumIn before x).blinded.isDegenerate = false

theorem RoundCourse.isFirstRound (n : UInt64) {rows : List (List (Contribution G))}
    (h : RoundCourse session (.blind ⟨run, quotient.ratios⟩) quotient.size es (.ok rows))
    (proper : degenerate quotient (aggregates quotient rows) = []) :
    IsFirstRound session quotient (⟨.number, n⟩ :: .reached .ratio ::
      (es ++ [.reached .blind, .reached .aggregate, .reached .challenge])) := by
  obtain ⟨hnone, replies, hasked, hcalls, hresult⟩ := h.blindCalls_eq
  have haccepted := Round.mapError_settle_eq_ok.1 hresult.symm
  have hsteps : ∀ e ∈ [Event.reached (G := G) .blind, .reached .aggregate, .reached .challenge],
      e.IsAside := by simp
  obtain ⟨hblinds, hchallenges⟩ := calls_of_rounds n es hsteps
  rw [hcalls] at hblinds
  constructor
  case unchallenged => rw [hchallenges, hnone]
  case reported => simp [h.reports_eq fun _ _ => rfl, reportsOf, Milestone.all]
  case asked => rw [hblinds, map_trustee_callsOf, hasked]
  case answered =>
    rw [hblinds]
    intro call hcall
    obtain ⟨j, hj, rfl⟩ := List.mem_mapIdx.1 hcall
    obtain ⟨_, _, hitems⟩ := Paired.exists_right haccepted (List.getElem_mem hj)
    exact hitems.complaint?_eq_none
  case proper =>
    intro x hx
    rw [sumIn_eq (haccepted.length_eq ▸ hasked) (contributed?_eq hblinds haccepted)]
    exact degenerate_eq_nil.1 proper x hx

/-- **What comes before the second round.** -/
theorem RoundsCourse.exists_firstRound (n : UInt64) {result : Except RunError (Rounds G)}
    (h : RoundsCourse session run quotient es result) (hchallenged : challengeCalls es ≠ []) :
    ∃ before after, es = before ++ after ∧
      IsFirstRound session quotient (⟨.number, n⟩ :: .reached .ratio :: before) := by
  cases h with
  | unblinded round => exact absurd round.blindCalls_eq.1 hchallenged
  | degenerate round found => exact absurd (by simp [round.blindCalls_eq.1]) hchallenged
  | @unanswered es es' rows _ round proper =>
    exact ⟨es ++ [.reached .blind, .reached .aggregate, .reached .challenge], es', by simp,
      round.isFirstRound n proper⟩
  | @answered es es' rows _ round proper =>
    exact ⟨es ++ [.reached .blind, .reached .aggregate, .reached .challenge],
      es' ++ [.reached .respond], by simp, round.isFirstRound n proper⟩

end Stages

/-! ## Faults -/

/-- A run meets no fault unless the guardians do. -/
theorem RunCourse.faultless [PrimeGroup.Lawful G] {session : Session G} {first second : Ballot G}
    {said : List (Event G)} {result : Checked RunError (BallotCertificate G)}
    (h : RunCourse session first second said result)
    (hdecrypt : ∀ ciphertexts f, .decrypt ciphertexts (.error (.fault f)) ∉ said) : result.Faultless := by
  cases h with
  | incomparable => exact Checked.faultless_refuse _
  | released => exact Checked.faultless_refuse _
  | @concluded _ _ _ _ rounds _ comparable answered conclusion =>
    cases conclusion with
    | unproved => exact Checked.faultless_refuse _
    | @faulted _ f => exact absurd (by simp) (hdecrypt (blinded rounds) f)
    | undecrypted => exact Checked.faultless_refuse _
    | miscounted => exact Checked.faultless_refuse _
    | unaudited _ _ audit => exact absurd audit (BallotCertificate.faultless_verify _ _ _)
    | rejected => exact Checked.faultless_refuse _
    | certified => exact Checked.faultless_ok _

/-! ## Runs one after the other -/

/-- **What a run reports, and how it fails.**  It reports the steps that it has done, in order and each
once, and how it ended: all eight just if it succeeds, and otherwise those before the one that the error
tells. -/
structure IsStaged (session : Session G) (first second : Ballot G) (said : List (Event G))
    (result : Checked RunError (BallotCertificate G)) : Prop where
  certified : ∀ certificate, result = .ok certificate →
    reports said = reportsOf 8 (some (if certificate.isEqual then .equal else .notEqual))
  failed : ∀ e, result = .error (.error e) →
    ∃ n < 8, FailsAfter session first second said n e ∧ reports said = reportsOf n (some .failed)
  faulted : ∀ f, result = .error (.fault f) →
    reports said = reportsOf 6 none ∨ reports said = reportsOf 7 none
  challenged : challengeCalls said ≠ [] →
    ∃ quotient before after, Quotient.ofBallots first second = .ok quotient ∧ said = before ++ after ∧
      IsFirstRound session quotient before

theorem RunCourse.isStaged {session : Session G} {first second : Ballot G}
    {said : List (Event G)} {result : Checked RunError (BallotCertificate G)}
    (h : RunCourse session first second said result) (hprompt : ArePrompt said) :
    IsStaged session first second said result := by
  obtain ⟨n, hends, hreports⟩ := h.endsAfter hprompt
  constructor
  case certified =>
    rintro certificate rfl
    cases hends
    exact hreports
  case failed =>
    rintro e rfl
    cases hends with
    | failed fails => exact ⟨n, fails.lt, fails, hreports⟩
  case faulted =>
    rintro f rfl
    cases hends with
    | undecrypted => exact .inl hreports
    | unaudited => exact .inr hreports
  case challenged =>
    intro hchallenged
    obtain ⟨number, later, rfl⟩ := h.exists_number
    cases hballots : Quotient.ofBallots first second with
    | error mismatch =>
      cases h with
      | incomparable => exact absurd rfl hchallenged
      | released comparable => cases hballots.symm.trans comparable
      | concluded comparable => cases hballots.symm.trans comparable
    | ok quotient =>
      obtain ⟨es, after, outcome, rfl, hrounds, haside, -⟩ := h.exists_rounds hballots
      rw [(calls_of_rounds number es haside).2] at hchallenged
      obtain ⟨before, after', rfl, hfirst⟩ := hrounds.exists_firstRound number hchallenged
      exact ⟨quotient, _, after' ++ after, rfl, by simp, hfirst⟩

/-- Trustees that take no time to reply, whatever they do. -/
structure IsPrompt {σ : Type} (world : World (Question G) Question.Answer σ) : Prop where
  blind : ∀ j request s, Reply.delay (world (.blind j request) s).1 = 0
  challenge : ∀ j request s, Reply.delay (world (.challenge j request) s).1 = 0

section Sequences

variable {σ : Type} (session : Session G) (world : World (Question G) Question.Answer σ)

theorem IsPrompt.arePrompt {world : World (Question G) Question.Answer σ} (h : IsPrompt world) {α : Type}
    (d : Talk G α) (s : σ) : ArePrompt (d.exchanges world s) := by
  constructor
  case blind =>
    refine Dialogue.forall_mem_filterMap_exchanges (fun q s call hcall => ?_) d s
    cases q with
    | blind j request =>
      cases hcall
      exact h.blind j request s
    | _ => cases hcall
  case challenge =>
    refine Dialogue.forall_mem_filterMap_exchanges (fun q s call hcall => ?_) d s
    cases q with
    | challenge j request =>
      cases hcall
      exact h.challenge j request s
    | _ => cases hcall

/-- What is said in runs of pairs of ballots, each begun when the one before has ended, and what each of
them leads to. -/
def courses : List (Ballot G × Ballot G) → σ →
    List (List (Event G) × Checked RunError (BallotCertificate G))
  | [], _ => []
  | pair :: rest, s =>
    ((session.run pair.1 pair.2).exchanges world s, ((session.run pair.1 pair.2).hold world s).1) ::
      courses rest ((session.run pair.1 pair.2).hold world s).2

/-- What the runs lead to is what the session answers if it does them in turn. -/
theorem map_snd_courses (pairs : List (Ballot G × Ballot G)) (s : σ) :
    (session.courses world pairs s).map Prod.snd = (session.runInTurn world pairs s).1 := by
  induction pairs generalizing s with
  | nil => rfl
  | cons pair rest ih => exact congrArg (_ :: ·) (ih _)

/-- What holds of a run, whatever has been before, holds of all runs one after the other. -/
theorem forall₂_courses
    {P : Ballot G × Ballot G → List (Event G) × Checked RunError (BallotCertificate G) → Prop}
    (h : ∀ pair s, P pair ((session.run pair.1 pair.2).exchanges world s,
      ((session.run pair.1 pair.2).hold world s).1)) (pairs : List (Ballot G × Ballot G)) (s : σ) :
    List.Forall₂ P pairs (session.courses world pairs s) := by
  induction pairs generalizing s with
  | nil => exact .nil
  | cons pair rest ih => exact .cons (h pair s) (ih _)

/-- **Failures are staged.**  Whatever trustees that take no time to reply and the guardians do, in every
run of a sequence: the steps that are done are reported in order, each once, then how the run ended; the
error of a run that failed is that of the first step that was not done, and names the first trustee whose
reply was amiss if it is because of a trustee; and nobody is challenged before all have contributed and all
sums are proper.  In a lawful group no run ends without an outcome unless the guardians meet a fault. -/
theorem failures_staged (hprompt : IsPrompt world)
    (pairs : List (Ballot G × Ballot G)) (s : σ) :
    List.Forall₂ (fun pair course => IsStaged session pair.1 pair.2 course.1 course.2) pairs
        (session.courses world pairs s) ∧
      (session.courses world pairs s).map Prod.snd = (session.runInTurn world pairs s).1 ∧
      (∀ [PrimeGroup.Lawful G],
        (∀ ciphertexts s f, (world (.decrypt ciphertexts) s).1 ≠ .error (.fault f)) →
          ∀ result ∈ (session.runInTurn world pairs s).1, result.Faultless) := by
  have hcourse (pair : Ballot G × Ballot G) (s : σ) : RunCourse session pair.1 pair.2
      ((session.run pair.1 pair.2).exchanges world s) ((session.run pair.1 pair.2).hold world s).1 :=
    course_run (Dialogue.course_hold world (session.run pair.1 pair.2) s)
  refine ⟨?staged, session.map_snd_courses world pairs s, ?faultless⟩
  case staged =>
    exact session.forall₂_courses world
      (fun pair s => (hcourse pair s).isStaged (hprompt.arePrompt _ s)) pairs s
  case faultless =>
    intro _ hdecrypt result hresult
    have hfaultless : List.Forall₂ (fun _ course => course.2.Faultless) pairs
        (session.courses world pairs s) := by
      refine session.forall₂_courses world (fun pair s => ?_) pairs s
      refine (hcourse pair s).faultless fun ciphertexts f hasked => ?_
      have hanswer : ∀ e ∈ (session.run pair.1 pair.2).exchanges world s,
          e ≠ Event.decrypt ciphertexts (.error (.fault f)) := by
        refine Dialogue.forall_mem_exchanges (fun q s heq => ?_) _ s
        obtain ⟨rfl, hfault⟩ := Sigma.mk.inj heq
        exact hdecrypt ciphertexts s f (eq_of_heq hfault)
      exact hanswer _ hasked rfl
    rw [← session.map_snd_courses world pairs s] at hresult
    obtain ⟨course, hmem, rfl⟩ := List.mem_map.1 hresult
    obtain ⟨_, _, h⟩ := Paired.exists_left hfaultless hmem
    exact h

end Sequences

end Session

/-! ## Two small runs -/

namespace Small

/-- A run in which the second trustee does not respond, and one of ballots with different names. -/
theorem staged_halfway :
    let pairs := [(first, second), (first, { second with ballotId := "other" })]
    Session.IsPrompt halfway ∧
      List.Forall₂ (fun pair course => Session.IsStaged session pair.1 pair.2 course.1 course.2) pairs
        (session.courses halfway pairs ()) ∧
      (session.courses halfway pairs ()).map (fun course => Session.reports course.1) =
        [Session.reportsOf 4 (some .failed), Session.reportsOf 0 (some .failed)] ∧
      (session.runInTurn halfway pairs ()).1 =
        [.error (.error (.transport 1 (.responseLength 1 0))),
          .error (.error (.structuralMismatch (.ballotId "ballot" "other")))] ∧
      ∀ result ∈ (session.runInTurn halfway pairs ()).1, result.Faultless := by
  intro pairs
  have hprompt : Session.IsPrompt halfway := ⟨fun _ _ _ => rfl, fun _ _ _ => rfl⟩
  obtain ⟨hstaged, -, hfaultless⟩ := session.failures_staged halfway hprompt pairs ()
  exact ⟨hprompt, hstaged, rfl, rfl, hfaultless fun _ _ _ => nofun⟩

end Small

end PlaintextEquivalence
