import PlaintextEquivalence.Proofs.Protocol.Columns
import PlaintextEquivalence.Proofs.Protocol.Course
import PlaintextEquivalence.Proofs.Protocol.Round

/-!
# What a run can do

Every course of a run, stage by stage, for all that trustees and guardians may answer.  A run ends in
one of eight ways, and each says what was asked before, what was answered, and which checks had
passed.

Principal results:
* `course_rounds` — the four ways in which the two rounds with the trustees end.
* `course_conclude` — the five ways in which a run ends after them.
* `course_run` — the ways in which a run ends.
-/

set_option autoImplicit false

namespace PlaintextEquivalence

/-- A question of a run with its answer. -/
abbrev Event (G : PrimeGroup) := (q : Question G) × q.Answer

namespace Event

variable {G : PrimeGroup}

def reached (milestone : Milestone) : Event G := ⟨.reached milestone, ()⟩

def passed (nanos : Nat) : Event G := ⟨.pass nanos, ()⟩

def ended (outcome : Outcome) : Event G := ⟨.ended outcome, ()⟩

/-- A trustee is asked to blind. -/
def blind (request : BlindRequest G) (j : Nat) (reply : Reply (Contribution G)) : Event G :=
  ⟨.blind j request, reply⟩

/-- A trustee is challenged, each with a request of its own. -/
def challenge (request : Nat → ChallengeRequest G) (j : Nat) (reply : Reply (ChallengeResponse G)) :
    Event G :=
  ⟨.challenge j (request j), reply⟩

/-- A trustee is asked to drop what it keeps for a run. -/
def release (run : RunId) (j : Nat) (delay : Nat) : Event G := ⟨.release j run, delay⟩

/-- The guardians are asked to decrypt. -/
def decrypt (ciphertexts : List (Ciphertext G))
    (answer : Checked BoardError (List (G.Element × DecryptionProof G))) : Event G :=
  ⟨.decrypt ciphertexts, answer⟩

end Event

namespace Session

variable {G : PrimeGroup} {session : Session G}

open Dialogue

/-! ## Rounds with the trustees -/

/-- The courses of a round: what every trustee answers, and how the answers are settled. -/
inductive RoundCourse {α : Type} (session : Session G) (event : Nat → Reply α → Event G)
    (expected : Nat) : List (Event G) → Except RunError (List (List α)) → Prop where
  | answered {replies : List (Reply α)} {time : Nat} {items : List (List α)}
      (asked : replies.length = session.trustees)
      (settled : Round.settle session.limits.patience expected replies = (time, .ok items)) :
      RoundCourse session event expected (replies.mapIdx event ++ [.passed time]) (.ok items)
  | failed {replies : List (Reply α)} {time j : Nat} {e : CallError}
      (asked : replies.length = session.trustees)
      (settled : Round.settle session.limits.patience expected replies = (time, .error (j, e))) :
      RoundCourse session event expected (replies.mapIdx event ++ [.passed time])
        (.error (.transport j e))

/-- If each call is one question, asking each is one question after the other. -/
theorem course_askEach {α : Type} {call : Nat → Talk G α} (event : Nat → α → Event G)
    (hcall : ∀ {j es a}, Course (call j) es a → es = [event j a]) :
    ∀ {n first : Nat} {es : List (Event G)} {replies : List α},
      Course (askEach call first n) es replies →
        replies.length = n ∧ es = replies.mapIdx fun j reply => event (first + j) reply
  | 0, _, _, _, h => by
    obtain ⟨rfl, rfl⟩ := course_pure h
    exact ⟨rfl, rfl⟩
  | n + 1, first, _, _, h => by
    obtain ⟨_, _, reply, rfl, h1, h2⟩ := course_bind h
    obtain ⟨_, _, replies, rfl, h3, h4⟩ := course_bind h2
    obtain ⟨rfl, rfl⟩ := course_pure h4
    obtain ⟨hlen, rfl⟩ := course_askEach event hcall h3
    refine ⟨by simp [hlen], ?_⟩
    rw [hcall h1, List.mapIdx_cons]
    simp [Nat.add_comm, Nat.add_left_comm]

theorem course_round {α : Type} {call : Nat → Talk G (Reply α)} (event : Nat → Reply α → Event G)
    (hcall : ∀ {j es a}, Course (call j) es a → es = [event j a]) {expected : Nat}
    {es : List (Event G)} {result : Except RunError (List (List α))}
    (h : Course (session.round call expected) es result) :
    RoundCourse session event expected es result := by
  obtain ⟨_, _, replies, rfl, h1, h2⟩ := course_bind h
  obtain ⟨hlen, rfl⟩ := course_askEach event hcall h1
  cases hs : Round.settle session.limits.patience expected replies with
  | mk time outcome =>
    simp only [hs] at h2
    obtain ⟨_, _, _, rfl, h3, h4⟩ := course_bind h2
    obtain rfl := course_question h3
    cases outcome with
    | ok items =>
      obtain ⟨rfl, rfl⟩ := course_pure h4
      have hcourse : RoundCourse session event expected _ (.ok items) := .answered hlen hs
      simpa [Event.passed] using hcourse
    | error failure =>
      obtain ⟨rfl, rfl⟩ := course_pure h4
      have hcourse : RoundCourse session event expected _ (.error _) := .failed hlen hs
      simpa [Event.passed] using hcourse

/-- A round that succeeds gives as many items of each trustee as expected. -/
theorem RoundCourse.length_row {α : Type} {event : Nat → Reply α → Event G} {expected : Nat}
    {es : List (Event G)} {rows : List (List α)}
    (h : RoundCourse session event expected es (.ok rows)) : ∀ row ∈ rows, row.length = expected := by
  cases h with
  | answered _ settled =>
    exact Round.length_of_accepts (Round.settle_eq_ok.1 (congrArg Prod.snd settled))

/-- The sums of the contributions, selection by selection, from those of each trustee. -/
def aggregates (quotient : Quotient G) (rows : List (List (Contribution G))) : List (Aggregate G) :=
  List.zipWith Aggregate.of quotient.ratios (columns quotient.size rows)

/-- The selections whose summed blinding has an identity component. -/
def degenerate (quotient : Quotient G) (aggregates : List (Aggregate G)) : List SelectionPath :=
  (quotient.selections.zip aggregates).filterMap fun (s, a) =>
    if a.blinded.isDegenerate then some s.path else none

/-- The challenges for the summed contributions. -/
def challenges (session : Session G) (quotient : Quotient G) (rows : List (List (Contribution G))) :
    List G.Scalar :=
  (aggregates quotient rows).map (Aggregate.challenge session.election)

/-- What a trustee is asked in the second round, from what it contributed itself. -/
def challengeRequest (session : Session G) (run : RunId) (quotient : Quotient G)
    (rows : List (List (Contribution G))) (j : Nat) : ChallengeRequest G :=
  ⟨run, challengesOn (session.challenges quotient rows) (rows.getD j [])⟩

/-- What the columns of a full table give for a trustee is what it is asked. -/
theorem challengeRequest_eq (session : Session G) (run : RunId) (quotient : Quotient G)
    {rows : List (List (Contribution G))} (hlen : ∀ row ∈ rows, row.length = quotient.size) :
    (fun j => (⟨run, challengesFor (columns quotient.size rows) (session.challenges quotient rows) j⟩ :
        ChallengeRequest G)) = session.challengeRequest run quotient rows :=
  funext fun j => congrArg (ChallengeRequest.mk run) (challengesFor_columns hlen _ j)

/-- What both rounds lead to, from the items that each trustee answered. -/
def roundsOf (session : Session G) (quotient : Quotient G) (rows : List (List (Contribution G)))
    (answers : List (List (ChallengeResponse G))) : Rounds G :=
  ⟨columns quotient.size rows, aggregates quotient rows, session.challenges quotient rows,
    columns quotient.size answers⟩

/-- The courses of both rounds. -/
inductive RoundsCourse (session : Session G) (run : RunId) (quotient : Quotient G) :
    List (Event G) → Except RunError (Rounds G) → Prop where
  | unblinded {es : List (Event G)} {e : RunError}
      (first : RoundCourse session (.blind ⟨run, quotient.ratios⟩) quotient.size es (.error e)) :
      RoundsCourse session run quotient es (.error e)
  | degenerate {es : List (Event G)} {rows : List (List (Contribution G))}
      (first : RoundCourse session (.blind ⟨run, quotient.ratios⟩) quotient.size es (.ok rows))
      (found : degenerate quotient (aggregates quotient rows) ≠ []) :
      RoundsCourse session run quotient (es ++ [.reached .blind])
        (.error (.degenerateBlinding (degenerate quotient (aggregates quotient rows))))
  | unanswered {es es' : List (Event G)} {rows : List (List (Contribution G))} {e : RunError}
      (first : RoundCourse session (.blind ⟨run, quotient.ratios⟩) quotient.size es (.ok rows))
      (proper : degenerate quotient (aggregates quotient rows) = [])
      (second : RoundCourse session (.challenge (session.challengeRequest run quotient rows))
        quotient.size es' (.error e)) :
      RoundsCourse session run quotient
        (es ++ .reached .blind :: .reached .aggregate :: .reached .challenge :: es') (.error e)
  | answered {es es' : List (Event G)} {rows : List (List (Contribution G))}
      {answers : List (List (ChallengeResponse G))}
      (first : RoundCourse session (.blind ⟨run, quotient.ratios⟩) quotient.size es (.ok rows))
      (proper : degenerate quotient (aggregates quotient rows) = [])
      (second : RoundCourse session (.challenge (session.challengeRequest run quotient rows))
        quotient.size es' (.ok answers)) :
      RoundsCourse session run quotient
        (es ++ .reached .blind :: .reached .aggregate :: .reached .challenge ::
          (es' ++ [.reached .respond]))
        (.ok (session.roundsOf quotient rows answers))

theorem course_reached {β : Type} {m : Milestone} {f : Unit → Talk G β} {es : List (Event G)} {b : β}
    (h : Course (Talk.reached m >>= f) es b) :
    ∃ rest, es = .reached m :: rest ∧ Course (f ()) rest b := by
  obtain ⟨_, rest, _, rfl, h1, h2⟩ := course_bind h
  obtain rfl := course_question h1
  exact ⟨rest, rfl, h2⟩

theorem course_rounds {run : RunId} {quotient : Quotient G} {es : List (Event G)}
    {result : Except RunError (Rounds G)} (h : Course (session.rounds run quotient) es result) :
    RoundsCourse session run quotient es result := by
  obtain ⟨es₁, _, first, rfl, h1, h2⟩ := course_bind h
  have hfirst := course_round (Event.blind ⟨run, quotient.ratios⟩) course_question h1
  cases first with
  | error e =>
    obtain ⟨rfl, rfl⟩ := course_pure h2
    rw [List.append_nil]
    exact .unblinded hfirst
  | ok rows =>
    obtain ⟨_, rfl, h3⟩ := course_reached h2
    by_cases hdeg : degenerate quotient (aggregates quotient rows) = []
    · rw [if_neg (by simpa [degenerate, aggregates] using hdeg)] at h3
      obtain ⟨_, rfl, h4⟩ := course_reached h3
      obtain ⟨_, rfl, h5⟩ := course_reached h4
      obtain ⟨es₂, _, second, rfl, h6, h7⟩ := course_bind h5
      have hsecond := course_round
        (Event.challenge (session.challengeRequest run quotient rows)) course_question
        (session.challengeRequest_eq run quotient hfirst.length_row ▸ h6)
      cases second with
      | error e =>
        obtain ⟨rfl, rfl⟩ := course_pure h7
        rw [List.append_nil]
        exact .unanswered hfirst hdeg hsecond
      | ok answers =>
        obtain ⟨_, rfl, h8⟩ := course_reached h7
        obtain ⟨rfl, rfl⟩ := course_pure h8
        exact .answered hfirst hdeg hsecond
    · rw [if_pos (by simpa [degenerate, aggregates] using hdeg)] at h3
      obtain ⟨rfl, rfl⟩ := course_pure h3
      exact .degenerate hfirst hdeg

/-- What is said in a round: a reply of every trustee, and the time that passes. -/
theorem RoundCourse.exists_replies {α : Type} {event : Nat → Reply α → Event G} {expected : Nat}
    {es : List (Event G)} {result : Except RunError (List (List α))}
    (h : RoundCourse session event expected es result) :
    ∃ replies time, replies.length = session.trustees ∧
      es = replies.mapIdx event ++ [.passed time] ∧
      result = (Round.settle session.limits.patience expected replies).2.mapError
        fun failure => .transport failure.1 failure.2 := by
  cases h with
  | @answered replies time items asked settled => exact ⟨replies, time, asked, rfl, by rw [settled]; rfl⟩
  | @failed replies time j e asked settled => exact ⟨replies, time, asked, rfl, by rw [settled]; rfl⟩

/-- What holds of every call of a round and of the time it takes holds of all that is said in it. -/
theorem RoundCourse.forall_mem {α : Type} {event : Nat → Reply α → Event G} {expected : Nat}
    {es : List (Event G)} {result : Except RunError (List (List α))} {p : Event G → Prop}
    (h : RoundCourse session event expected es result) (hevent : ∀ j reply, p (event j reply))
    (hpassed : ∀ nanos, p (.passed nanos)) : ∀ e ∈ es, p e := by
  obtain ⟨replies, time, -, rfl, -⟩ := h.exists_replies
  intro e he
  rcases List.mem_append.1 he with he | he
  · obtain ⟨j, _, rfl⟩ := List.mem_mapIdx.1 he
    exact hevent j _
  · rw [List.mem_singleton.1 he]
    exact hpassed time

/-- What is said in the two rounds are calls to blind the ratios and to answer challenges, and the taking
note of time and steps. -/
theorem RoundsCourse.forall_mem {run : RunId} {quotient : Quotient G} {es : List (Event G)}
    {result : Except RunError (Rounds G)} {p : Event G → Prop}
    (h : RoundsCourse session run quotient es result)
    (hblind : ∀ j reply, p (.blind ⟨run, quotient.ratios⟩ j reply))
    (hchallenge : ∀ rows j reply, p (.challenge (session.challengeRequest run quotient rows) j reply))
    (hpassed : ∀ nanos, p (.passed nanos)) (hreached : ∀ milestone, p (.reached milestone)) :
    ∀ e ∈ es, p e := by
  cases h with
  | unblinded first => exact first.forall_mem hblind hpassed
  | degenerate first =>
    rw [List.forall_mem_append, List.forall_mem_singleton]
    exact ⟨first.forall_mem hblind hpassed, hreached _⟩
  | unanswered first _ second =>
    simp only [List.forall_mem_append, List.forall_mem_cons]
    exact ⟨first.forall_mem hblind hpassed, hreached _, hreached _, hreached _,
      second.forall_mem (hchallenge _) hpassed⟩
  | answered first _ second =>
    simp only [List.forall_mem_append, List.forall_mem_cons]
    exact ⟨first.forall_mem hblind hpassed, hreached _, hreached _, hreached _,
      second.forall_mem (hchallenge _) hpassed, hreached _, fun _ he => absurd he List.not_mem_nil⟩

/-! ## After the rounds -/

/-- The ciphertexts that the guardians are asked to decrypt. -/
def blinded (rounds : Rounds G) : List (Ciphertext G) := rounds.aggregates.map (·.blinded)

/-- The courses of a run after the rounds with the trustees. -/
inductive ConclusionCourse (session : Session G) (quotient : Quotient G) (rounds : Rounds G) :
    List (Event G) → Checked RunError (BallotCertificate G) → Prop where
  | unproved {failures : List FaultyBlinding} (unproved : proofs quotient rounds = .error failures) :
      ConclusionCourse session quotient rounds [] (Checked.refuse (.proofVerification failures))
  | faulted {good : List (Blinding G)} {f : Fault} (proved : proofs quotient rounds = .ok good) :
      ConclusionCourse session quotient rounds
        [.reached .verify, .decrypt (blinded rounds) (.error (.fault f))] (.error (.fault f))
  | undecrypted {good : List (Blinding G)} {e : BoardError}
      (proved : proofs quotient rounds = .ok good) :
      ConclusionCourse session quotient rounds
        [.reached .verify, .decrypt (blinded rounds) (.error (.error e))]
        (Checked.refuse (.decryption e))
  | miscounted {good : List (Blinding G)} {decryptions : List (G.Element × DecryptionProof G)}
      (proved : proofs quotient rounds = .ok good)
      (miscounted : decryptions.length ≠ (blinded rounds).length) :
      ConclusionCourse session quotient rounds
        [.reached .verify, .decrypt (blinded rounds) (.ok decryptions)]
        (Checked.refuse (.decryption (.responseLength (blinded rounds).length decryptions.length)))
  | unaudited {good : List (Blinding G)} {decryptions : List (G.Element × DecryptionProof G)}
      {f : Fault} (proved : proofs quotient rounds = .ok good)
      (counted : decryptions.length = (blinded rounds).length)
      (audit : (certificate quotient rounds.aggregates good decryptions).verify session.election =
        .error (.fault f)) :
      ConclusionCourse session quotient rounds
        [.reached .verify, .decrypt (blinded rounds) (.ok decryptions), .reached .decrypt]
        (.error (.fault f))
  | rejected {good : List (Blinding G)} {decryptions : List (G.Element × DecryptionProof G)}
      {findings : List Finding} (proved : proofs quotient rounds = .ok good)
      (counted : decryptions.length = (blinded rounds).length)
      (audit : (certificate quotient rounds.aggregates good decryptions).verify session.election =
        .error (.error findings)) :
      ConclusionCourse session quotient rounds
        [.reached .verify, .decrypt (blinded rounds) (.ok decryptions), .reached .decrypt]
        (Checked.refuse (.finalVerification findings))
  | certified {good : List (Blinding G)} {decryptions : List (G.Element × DecryptionProof G)}
      (proved : proofs quotient rounds = .ok good)
      (counted : decryptions.length = (blinded rounds).length)
      (audit : (certificate quotient rounds.aggregates good decryptions).verify session.election =
        .ok ()) :
      ConclusionCourse session quotient rounds
        [.reached .verify, .decrypt (blinded rounds) (.ok decryptions), .reached .decrypt,
          .reached .selfVerify]
        (.ok (certificate quotient rounds.aggregates good decryptions))

/-- What is said after the rounds are calls to decrypt and the taking note of steps. -/
theorem ConclusionCourse.forall_mem {quotient : Quotient G} {rounds : Rounds G} {es : List (Event G)}
    {result : Checked RunError (BallotCertificate G)} {p : Event G → Prop}
    (h : ConclusionCourse session quotient rounds es result)
    (hdecrypt : ∀ ciphertexts answer, p (.decrypt ciphertexts answer))
    (hreached : ∀ milestone, p (.reached milestone)) : ∀ e ∈ es, p e := by
  cases h <;> simp [hdecrypt, hreached]

theorem course_conclude {quotient : Quotient G} {rounds : Rounds G} {es : List (Event G)}
    {result : Checked RunError (BallotCertificate G)}
    (h : Course (session.conclude quotient rounds) es result) :
    ConclusionCourse session quotient rounds es result := by
  unfold conclude at h
  split at h
  · rename_i failures hproofs
    obtain ⟨rfl, rfl⟩ := course_pure h
    exact .unproved hproofs
  · rename_i good hproofs
    obtain ⟨_, rfl, h1⟩ := course_reached h
    obtain ⟨_, _, answer, rfl, h2, h3⟩ := course_bind h1
    obtain rfl := course_question h2
    split at h3
    · obtain ⟨rfl, rfl⟩ := course_pure h3
      exact .faulted hproofs
    · obtain ⟨rfl, rfl⟩ := course_pure h3
      exact .undecrypted hproofs
    · rename_i decryptions
      split at h3
      · rename_i hlen
        obtain ⟨rfl, rfl⟩ := course_pure h3
        exact .miscounted hproofs hlen
      · rename_i hlen
        obtain ⟨_, rfl, h4⟩ := course_reached h3
        have hlen := Decidable.not_not.1 hlen
        simp only at h4
        split at h4
        · rename_i haudit
          obtain ⟨rfl, rfl⟩ := course_pure h4
          exact .unaudited hproofs hlen haudit
        · rename_i haudit
          obtain ⟨rfl, rfl⟩ := course_pure h4
          exact .rejected hproofs hlen haudit
        · rename_i haudit
          obtain ⟨_, rfl, h5⟩ := course_reached h4
          obtain ⟨rfl, rfl⟩ := course_pure h5
          exact .certified hproofs hlen haudit

/-! ## Runs -/

/-- The courses of a run. -/
inductive RunCourse (session : Session G) (first second : Ballot G) :
    List (Event G) → Checked RunError (BallotCertificate G) → Prop where
  | incomparable {n : UInt64} {e : BallotMismatch}
      (mismatch : Quotient.ofBallots first second = .error e) :
      RunCourse session first second [⟨.number, n⟩, .ended .failed]
        (Checked.refuse (.structuralMismatch e))
  | released {n : UInt64} {quotient : Quotient G} {es : List (Event G)} {e : RunError}
      {delays : List Nat} (comparable : Quotient.ofBallots first second = .ok quotient)
      (failed : RoundsCourse session ⟨session.name, n⟩ quotient es (.error e))
      (asked : delays.length = session.trustees) :
      RunCourse session first second
        (⟨.number, n⟩ :: .reached .ratio :: (es ++ (delays.mapIdx (.release ⟨session.name, n⟩) ++
          [.passed (Round.longest session.limits.patience delays), .ended .failed])))
        (Checked.refuse e)
  | concluded {n : UInt64} {quotient : Quotient G} {es es' : List (Event G)} {rounds : Rounds G}
      {result : Checked RunError (BallotCertificate G)}
      (comparable : Quotient.ofBallots first second = .ok quotient)
      (answered : RoundsCourse session ⟨session.name, n⟩ quotient es (.ok rounds))
      (conclusion : ConclusionCourse session quotient rounds es' result) :
      RunCourse session first second
        (⟨.number, n⟩ :: .reached .ratio :: (es ++ (es' ++ (outcome? result).toList.map .ended)))
        result

/-- A run asks for its number first. -/
theorem RunCourse.exists_number {first second : Ballot G} {es : List (Event G)}
    {result : Checked RunError (BallotCertificate G)} (h : RunCourse session first second es result) :
    ∃ n later, es = ⟨.number, n⟩ :: later := by
  cases h <;> exact ⟨_, _, rfl⟩

/-- What is said after that are calls about the run of that number, the call to decrypt, and the taking
note of time, of steps and of the end. -/
theorem RunCourse.forall_mem {first second : Ballot G} {n : UInt64} {es : List (Event G)}
    {result : Checked RunError (BallotCertificate G)} {p : Event G → Prop}
    (h : RunCourse session first second (⟨.number, n⟩ :: es) result)
    (hblind : ∀ ratios j reply, p ⟨.blind j ⟨⟨session.name, n⟩, ratios⟩, reply⟩)
    (hchallenge : ∀ challenges j reply, p ⟨.challenge j ⟨⟨session.name, n⟩, challenges⟩, reply⟩)
    (hrelease : ∀ j delay, p ⟨.release j ⟨session.name, n⟩, delay⟩)
    (hdecrypt : ∀ ciphertexts answer, p (.decrypt ciphertexts answer))
    (hpassed : ∀ nanos, p (.passed nanos)) (hreached : ∀ milestone, p (.reached milestone))
    (hended : ∀ outcome, p (.ended outcome)) : ∀ e ∈ es, p e := by
  cases h with
  | incomparable => exact List.forall_mem_singleton.2 (hended _)
  | @released _ quotient es e delays comparable failed asked =>
    have hreleases : ∀ e ∈ delays.mapIdx (Event.release (G := G) ⟨session.name, n⟩), p e := by
      intro e he
      obtain ⟨j, _, rfl⟩ := List.mem_mapIdx.1 he
      exact hrelease j _
    simp only [List.forall_mem_append, List.forall_mem_cons]
    exact ⟨hreached _, failed.forall_mem (hblind _) (fun _ _ => hchallenge _ _) hpassed hreached, hreleases,
      hpassed _, hended _, fun _ he => absurd he List.not_mem_nil⟩
  | @concluded _ quotient es es' rounds _ comparable answered conclusion =>
    simp only [List.forall_mem_append, List.forall_mem_cons, List.forall_mem_map]
    exact ⟨hreached _, answered.forall_mem (hblind _) (fun _ _ => hchallenge _ _) hpassed hreached,
      conclusion.forall_mem hdecrypt hreached, fun outcome _ => hended outcome⟩

theorem course_releaseAll {run : RunId} {es : List (Event G)} {u : Unit}
    (h : Course (session.releaseAll run) es u) :
    ∃ delays : List Nat, delays.length = session.trustees ∧ es = delays.mapIdx (.release run) ++
      [.passed (Round.longest session.limits.patience delays)] := by
  obtain ⟨_, _, delays, rfl, h1, h2⟩ := course_bind h
  obtain ⟨hlen, rfl⟩ := course_askEach (Event.release run) course_question h1
  obtain rfl := course_question h2
  exact ⟨delays, hlen, by simp [Event.passed]⟩

/-- Whatever the steps lead to is passed on, and its outcome is noted if there is one. -/
theorem course_end {r result : Checked RunError (BallotCertificate G)} {es : List (Event G)}
    (h : Course (match outcome? r with
      | none => pure r
      | some outcome => do
        Talk.ended outcome
        pure r) es result) :
    es = (outcome? r).toList.map .ended ∧ result = r := by
  split at h
  · rename_i hr
    obtain ⟨rfl, rfl⟩ := course_pure h
    simp [hr]
  · rename_i outcome hr
    obtain ⟨_, _, _, rfl, h1, h2⟩ := course_bind h
    obtain rfl := course_question h1
    obtain ⟨rfl, rfl⟩ := course_pure h2
    simp [hr, Event.ended]

/-- **Every course of a run** is one of those listed. -/
theorem course_run {first second : Ballot G} {es : List (Event G)}
    {result : Checked RunError (BallotCertificate G)}
    (h : Course (session.run first second) es result) :
    RunCourse session first second es result := by
  obtain ⟨_, _, n, rfl, h1, h2⟩ := course_bind h
  obtain rfl := course_question h1
  obtain ⟨es₁, _, r, rfl, h3, h4⟩ := course_bind h2
  obtain ⟨rfl, rfl⟩ := course_end h4
  unfold steps at h3
  split at h3
  · rename_i e hq
    obtain ⟨rfl, rfl⟩ := course_pure h3
    exact .incomparable hq
  · rename_i quotient hq
    obtain ⟨_, rfl, h5⟩ := course_reached h3
    obtain ⟨es₂, es₃, rounds, rfl, h6, h7⟩ := course_bind h5
    have hrounds := course_rounds h6
    cases rounds with
    | error e =>
      obtain ⟨_, _, _, rfl, h8, h9⟩ := course_bind h7
      obtain ⟨delays, hlen, rfl⟩ := course_releaseAll h8
      obtain ⟨rfl, rfl⟩ := course_pure h9
      simpa [Checked.refuse, outcome?] using RunCourse.released hq hrounds hlen
    | ok rounds =>
      simpa using RunCourse.concluded hq hrounds (course_conclude h7)

end Session

end PlaintextEquivalence
