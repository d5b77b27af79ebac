import PlaintextEquivalence.Proofs.Protocol.Decryption
import PlaintextEquivalence.Proofs.Protocol.Honest

/-!
# Who is called, with what

The calls of the two rounds as they stand among all that is said in a run: each trustee is called once in
a round, in order, with the request that is made for it; and what the trustees contribute and respond can
be read off the replies.

Principal results:
* `RoundsCourse.areCallsOf` — the calls of the two rounds, and when there is a second round at all.
* `contributed?_eq`, `responded?_eq` — what each trustee answers, from the calls.
* `RoundsCourse.tabulates` — what two rounds that succeed were answered.
* `RunCourse.exists_rounds` — the two rounds within a run.
-/

set_option autoImplicit false

namespace PlaintextEquivalence

variable {G : PrimeGroup}

/-- A call to a trustee: what it is asked, and what it replies. -/
structure Call (α β : Type) where
  trustee : Nat
  request : α
  reply : Reply β

namespace Event

/-- A call of the first round. -/
def blindCall? : Event G → Option (Call (BlindRequest G) (Contribution G))
  | ⟨.blind j request, reply⟩ => some ⟨j, request, reply⟩
  | _ => none

/-- A call of the second round. -/
def challengeCall? : Event G → Option (Call (ChallengeRequest G) (ChallengeResponse G))
  | ⟨.challenge j request, reply⟩ => some ⟨j, request, reply⟩
  | _ => none

/-- Nobody is called in one of the two rounds. -/
def IsAside (e : Event G) : Prop := e.blindCall? = none ∧ e.challengeCall? = none

@[simp] theorem isAside_reached (milestone : Milestone) : (reached milestone : Event G).IsAside :=
  ⟨rfl, rfl⟩

@[simp] theorem isAside_passed (nanos : Nat) : (passed nanos : Event G).IsAside := ⟨rfl, rfl⟩

@[simp] theorem isAside_ended (outcome : Outcome) : (ended outcome : Event G).IsAside := ⟨rfl, rfl⟩

@[simp] theorem isAside_release (run : RunId) (j delay : Nat) : (release run j delay : Event G).IsAside :=
  ⟨rfl, rfl⟩

@[simp] theorem isAside_decrypt (ciphertexts : List (Ciphertext G))
    (answer : Checked BoardError (List (G.Element × DecryptionProof G))) :
    (decrypt ciphertexts answer).IsAside :=
  ⟨rfl, rfl⟩

end Event

namespace Session

/-- The calls of the first round, in order. -/
def blindCalls (es : List (Event G)) : List (Call (BlindRequest G) (Contribution G)) :=
  es.filterMap Event.blindCall?

/-- The calls of the second round, in order. -/
def challengeCalls (es : List (Event G)) : List (Call (ChallengeRequest G) (ChallengeResponse G)) :=
  es.filterMap Event.challengeCall?

@[simp] theorem blindCalls_nil : blindCalls ([] : List (Event G)) = [] := rfl

@[simp] theorem challengeCalls_nil : challengeCalls ([] : List (Event G)) = [] := rfl

@[simp] theorem blindCalls_reached (milestone : Milestone) (es : List (Event G)) :
    blindCalls (.reached milestone :: es) = blindCalls es :=
  rfl

@[simp] theorem challengeCalls_reached (milestone : Milestone) (es : List (Event G)) :
    challengeCalls (.reached milestone :: es) = challengeCalls es :=
  rfl

@[simp] theorem blindCalls_append (es es' : List (Event G)) :
    blindCalls (es ++ es') = blindCalls es ++ blindCalls es' :=
  List.filterMap_append

@[simp] theorem challengeCalls_append (es es' : List (Event G)) :
    challengeCalls (es ++ es') = challengeCalls es ++ challengeCalls es' :=
  List.filterMap_append

theorem calls_of_aside {es : List (Event G)} (h : ∀ e ∈ es, e.IsAside) :
    blindCalls es = [] ∧ challengeCalls es = [] :=
  ⟨List.filterMap_eq_nil_iff.2 fun e he => (h e he).1,
    List.filterMap_eq_nil_iff.2 fun e he => (h e he).2⟩

/-- The calls of a run are those of its two rounds. -/
theorem calls_of_rounds (n : UInt64) (es : List (Event G)) {later : List (Event G)}
    (h : ∀ e ∈ later, e.IsAside) :
    blindCalls (⟨.number, n⟩ :: .reached .ratio :: (es ++ later)) = blindCalls es ∧
      challengeCalls (⟨.number, n⟩ :: .reached .ratio :: (es ++ later)) = challengeCalls es := by
  obtain ⟨hblinds, hchallenges⟩ := calls_of_aside h
  constructor
  · show blindCalls (es ++ later) = _
    rw [blindCalls_append, hblinds, List.append_nil]
  · show challengeCalls (es ++ later) = _
    rw [challengeCalls_append, hchallenges, List.append_nil]

/-- Nobody is called in the two rounds once a run is given up. -/
theorem isAside_of_given_up (run : RunId) (delays : List Nat) (nanos : Nat) (outcome : Outcome) :
    ∀ e ∈ delays.mapIdx (Event.release (G := G) run) ++ [.passed nanos, .ended outcome], e.IsAside := by
  have hreleases : ∀ e ∈ delays.mapIdx (Event.release (G := G) run), e.IsAside := by
    intro e he
    obtain ⟨j, _, rfl⟩ := List.mem_mapIdx.1 he
    exact Event.isAside_release run j _
  rw [List.forall_mem_append]
  exact ⟨hreleases, by simp⟩

/-! ## Rounds -/

/-- The calls of a round, from the replies of the trustees in order. -/
def callsOf {α β : Type} (request : Nat → α) (replies : List (Reply β)) : List (Call α β) :=
  replies.mapIdx fun j reply => ⟨j, request j, reply⟩

theorem map_callsOf {α β γ : Type} (g : Nat → α → γ) (request : Nat → α) (replies : List (Reply β)) :
    (callsOf request replies).map (fun call => g call.trustee call.request) =
      (List.range replies.length).map fun j => g j (request j) := by
  have hcall : (fun call : Call α β => g call.trustee call.request) ∘
      (fun x : Reply β × Nat => ⟨x.2, request x.2, x.1⟩) = (fun j => g j (request j)) ∘ Prod.snd := rfl
  rw [callsOf, List.mapIdx_eq_zipIdx_map, List.map_map, hcall, ← List.map_map, List.zipIdx_map_snd,
    List.range_eq_range']

theorem map_trustee_callsOf {α β : Type} (request : Nat → α) (replies : List (Reply β)) :
    (callsOf request replies).map (·.trustee) = List.range replies.length :=
  (map_callsOf (fun j _ => j) request replies).trans (List.map_id' _)

theorem forall₂_callsOf {α β : Type} {R : Nat → Call α β → Prop} {request : Nat → α}
    {replies : List (Reply β)} (h : ∀ j < replies.length, ∀ reply, R j ⟨j, request j, reply⟩) :
    List.Forall₂ R (List.range replies.length) (callsOf request replies) := by
  rw [List.forall₂_iff_get]
  refine ⟨by rw [callsOf, List.length_range, List.length_mapIdx], fun j hj hj' => ?_⟩
  simp only [List.get_eq_getElem, List.getElem_range, callsOf, List.getElem_mapIdx]
  exact h j (by simpa using hj) _

theorem getElem?_callsOf {α β : Type} (request : Nat → α) (replies : List (Reply β)) (j : Nat) :
    (callsOf request replies)[j]? = replies[j]?.map fun reply => ⟨j, request j, reply⟩ :=
  List.getElem?_mapIdx

/-- What holds of the replies of all calls holds of all replies. -/
theorem forall_mem_of_callsOf {α β : Type} {p : Reply β → Prop} {request : Nat → α}
    {replies : List (Reply β)} (h : ∀ call ∈ callsOf request replies, p call.reply) :
    ∀ reply ∈ replies, p reply := by
  intro reply hreply
  obtain ⟨j, hj⟩ := List.getElem?_of_mem hreply
  refine h ⟨j, request j, reply⟩ (List.mem_of_getElem? (i := j) ?_)
  rw [getElem?_callsOf, hj, Option.map_some]

/-- If every call is answered as a round accepts it, the items make a table. -/
theorem exists_accepted {α β : Type} {request : Nat → α} {replies : List (Reply β)} {limit : Duration}
    {expected : Nat}
    (h : ∀ call ∈ callsOf request replies, ∃ items, Round.Accepts limit expected call.reply items) :
    ∃ rows, List.Forall₂ (Round.Accepts limit expected) replies rows := by
  have hreplies : ∀ reply ∈ replies, ∃ items, Round.Accepts limit expected reply items :=
    forall_mem_of_callsOf h
  choose! items hitems using hreplies
  refine ⟨replies.map items, ?_⟩
  rw [List.forall₂_map_right_iff, List.forall₂_same]
  exact hitems

/-- The item at a position of a reply, if there is one. -/
def item? {α : Type} (i : Nat) (reply : Reply α) : Option α := reply.result.toOption.bind (·[i]?)

/-- The item of trustee `j` at position `i` is in the reply of that trustee. -/
theorem head?_filterMap_callsOf {α β : Type} (request : Nat → α) (replies : List (Reply β)) (j i : Nat) :
    ((callsOf request replies).filterMap fun call =>
        if call.trustee = j then item? i call.reply else none).head? =
      replies[j]?.bind (item? i) := by
  rw [callsOf, filterMap_mapIdx fun _ _ => rfl, Option.head?_toList]

section Rounds

variable {session : Session G} {expected : Nat} {es : List (Event G)}

/-- What is said in a round is a call to every trustee. -/
theorem RoundCourse.filterMap_eq {α β : Type} {event : Nat → Reply α → Event G}
    {result : Except RunError (List (List α))} {f : Event G → Option (Call β α)} {request : Nat → β}
    (h : RoundCourse session event expected es result)
    (hf : ∀ j reply, f (event j reply) = some ⟨j, request j, reply⟩)
    (hpassed : ∀ nanos, f (.passed nanos) = none) :
    ∃ replies, replies.length = session.trustees ∧ es.filterMap f = callsOf request replies ∧
      result = (Round.settle session.limits.patience expected replies).2.mapError
        fun failure => .transport failure.1 failure.2 := by
  obtain ⟨replies, time, hasked, rfl, hresult⟩ := h.exists_replies
  refine ⟨replies, hasked, ?_, hresult⟩
  have htime : [Event.passed time].filterMap f = [] := by
    rw [List.filterMap_cons, hpassed, List.filterMap_nil]
  rw [List.filterMap_append, filterMap_mapIdx_some hf, htime, List.append_nil, callsOf]

theorem RoundCourse.blindCalls_eq {request : BlindRequest G}
    {result : Except RunError (List (List (Contribution G)))}
    (h : RoundCourse session (.blind request) expected es result) :
    challengeCalls es = [] ∧ ∃ replies, replies.length = session.trustees ∧
      blindCalls es = callsOf (fun _ => request) replies ∧
      result = (Round.settle session.limits.patience expected replies).2.mapError
        fun failure => .transport failure.1 failure.2 :=
  ⟨List.filterMap_eq_nil_iff.2 (h.forall_mem (fun _ _ => rfl) fun _ => rfl),
    h.filterMap_eq (fun _ _ => rfl) fun _ => rfl⟩

theorem RoundCourse.challengeCalls_eq {request : Nat → ChallengeRequest G}
    {result : Except RunError (List (List (ChallengeResponse G)))}
    (h : RoundCourse session (.challenge request) expected es result) :
    blindCalls es = [] ∧ ∃ replies, replies.length = session.trustees ∧
      challengeCalls es = callsOf request replies ∧
      result = (Round.settle session.limits.patience expected replies).2.mapError
        fun failure => .transport failure.1 failure.2 :=
  ⟨List.filterMap_eq_nil_iff.2 (h.forall_mem (fun _ _ => rfl) fun _ => rfl),
    h.filterMap_eq (fun _ _ => rfl) fun _ => rfl⟩

end Rounds

/-- **The calls of the two rounds.**  There is no second round unless the replies of the first are
accepted and all summed blindings are proper. -/
inductive AreCallsOf (session : Session G) (run : RunId) (quotient : Quotient G) :
    List (Call (BlindRequest G) (Contribution G)) →
      List (Call (ChallengeRequest G) (ChallengeResponse G)) → Prop where
  | stopped {replies : List (Reply (Contribution G))} (asked : replies.length = session.trustees)
      (stopped : ∀ rows,
        List.Forall₂ (Round.Accepts session.limits.patience quotient.size) replies rows →
          degenerate quotient (aggregates quotient rows) ≠ []) :
      AreCallsOf session run quotient (callsOf (fun _ => ⟨run, quotient.ratios⟩) replies) []
  | challenged {replies : List (Reply (Contribution G))} {rows : List (List (Contribution G))}
      {replies' : List (Reply (ChallengeResponse G))} (asked : replies.length = session.trustees)
      (accepted : List.Forall₂ (Round.Accepts session.limits.patience quotient.size) replies rows)
      (proper : degenerate quotient (aggregates quotient rows) = [])
      (asked' : replies'.length = session.trustees) :
      AreCallsOf session run quotient (callsOf (fun _ => ⟨run, quotient.ratios⟩) replies)
        (callsOf (session.challengeRequest run quotient rows) replies')

theorem RoundsCourse.areCallsOf {session : Session G} {run : RunId} {quotient : Quotient G}
    {es : List (Event G)} {result : Except RunError (Rounds G)}
    (h : RoundsCourse session run quotient es result) :
    AreCallsOf session run quotient (blindCalls es) (challengeCalls es) := by
  have hchallenged {es es' : List (Event G)} {rows : List (List (Contribution G))}
      {answers : Except RunError (List (List (ChallengeResponse G)))}
      (first : RoundCourse session (.blind ⟨run, quotient.ratios⟩) quotient.size es (.ok rows))
      (proper : Session.degenerate quotient (aggregates quotient rows) = [])
      (second : RoundCourse session (.challenge (session.challengeRequest run quotient rows))
        quotient.size es' answers) :
      AreCallsOf session run quotient (blindCalls es ++ blindCalls es')
        (challengeCalls es ++ challengeCalls es') := by
    obtain ⟨hnone, replies, hasked, hcalls, hresult⟩ := first.blindCalls_eq
    obtain ⟨hnone', replies', hasked', hcalls', -⟩ := second.challengeCalls_eq
    rw [hnone, hcalls, hnone', hcalls', List.append_nil, List.nil_append]
    exact .challenged hasked (Round.mapError_settle_eq_ok.1 hresult.symm) proper hasked'
  cases h with
  | unblinded first =>
    obtain ⟨hnone, replies, hasked, hcalls, hresult⟩ := first.blindCalls_eq
    rw [hnone, hcalls]
    refine .stopped hasked fun rows hrows => ?_
    rw [Round.mapError_settle_eq_ok.2 hrows] at hresult
    cases hresult
  | degenerate first found =>
    obtain ⟨hnone, replies, hasked, hcalls, hresult⟩ := first.blindCalls_eq
    simp only [blindCalls_append, challengeCalls_append, blindCalls_reached, challengeCalls_reached,
      blindCalls_nil, challengeCalls_nil, List.append_nil, hnone, hcalls]
    refine .stopped hasked fun rows hrows => ?_
    rw [Round.mapError_settle_eq_ok.2 hrows] at hresult
    cases hresult
    exact found
  | unanswered first proper second =>
    simpa using hchallenged first proper second
  | answered first proper second =>
    simpa using hchallenged first proper second

/-- Every trustee is asked to blind the ratios, in order. -/
theorem AreCallsOf.map_blinds {session : Session G} {run : RunId} {quotient : Quotient G}
    {blinds : List (Call (BlindRequest G) (Contribution G))}
    {challenges : List (Call (ChallengeRequest G) (ChallengeResponse G))}
    (h : AreCallsOf session run quotient blinds challenges) :
    (blinds.map fun call => (call.trustee, call.request)) =
      (List.range session.trustees).map fun j => (j, ⟨run, quotient.ratios⟩) := by
  cases h with
  | stopped asked =>
    rw [← asked]
    exact map_callsOf Prod.mk _ _
  | challenged asked =>
    rw [← asked]
    exact map_callsOf Prod.mk _ _

/-! ## What the trustees answer -/

/-- What trustee `j` contributes for the ratio at position `i`, if that is what is said. -/
def contribution? (j i : Nat) : Event G → Option (Contribution G)
  | ⟨.blind k _, reply⟩ => if k = j then item? i reply else none
  | _ => none

/-- What trustee `j` responds to the challenge at position `i`, if that is what is said. -/
def response? (j i : Nat) : Event G → Option (ChallengeResponse G)
  | ⟨.challenge k _, reply⟩ => if k = j then item? i reply else none
  | _ => none

/-- What trustee `j` contributed for the ratio at position `i`. -/
def contributed? (es : List (Event G)) (j i : Nat) : Option (Contribution G) :=
  es.findSome? (contribution? j i)

/-- What trustee `j` responded to the challenge at position `i`. -/
def responded? (es : List (Event G)) (j i : Nat) : Option (ChallengeResponse G) :=
  es.findSome? (response? j i)

theorem contributed?_eq_head? (es : List (Event G)) (j i : Nat) :
    contributed? es j i = ((blindCalls es).filterMap fun call =>
      if call.trustee = j then item? i call.reply else none).head? := by
  have hcall : contribution? j i = fun e : Event G => e.blindCall?.bind fun call =>
      if call.trustee = j then item? i call.reply else none := by
    funext ⟨q, answer⟩
    cases q <;> rfl
  rw [contributed?, hcall, ← List.head?_filterMap, blindCalls, List.filterMap_filterMap]

theorem responded?_eq_head? (es : List (Event G)) (j i : Nat) :
    responded? es j i = ((challengeCalls es).filterMap fun call =>
      if call.trustee = j then item? i call.reply else none).head? := by
  have hcall : response? j i = fun e : Event G => e.challengeCall?.bind fun call =>
      if call.trustee = j then item? i call.reply else none := by
    funext ⟨q, answer⟩
    cases q <;> rfl
  rw [responded?, hcall, ← List.head?_filterMap, challengeCalls, List.filterMap_filterMap]

/-- What a reply that is accepted gives at a position. -/
theorem bind_item?_of_accepts {α : Type} {limit : Duration} {expected : Nat} {replies : List (Reply α)}
    {rows : List (List α)} (h : List.Forall₂ (Round.Accepts limit expected) replies rows) (j i : Nat) :
    replies[j]?.bind (item? i) = rows[j]?.bind (·[i]?) := by
  refine Paired.bind_getElem? (h.imp fun reply row hr => ?_) j
  rw [item?, hr.result]
  rfl

/-- **What each trustee contributes**, from the calls of the first round. -/
theorem contributed?_eq {es : List (Event G)} {request : Nat → BlindRequest G} {limit : Duration}
    {expected : Nat} {replies : List (Reply (Contribution G))} {rows : List (List (Contribution G))}
    (hcalls : blindCalls es = callsOf request replies)
    (haccepted : List.Forall₂ (Round.Accepts limit expected) replies rows) (j i : Nat) :
    contributed? es j i = rows[j]?.bind (·[i]?) := by
  rw [contributed?_eq_head?, hcalls, head?_filterMap_callsOf, bind_item?_of_accepts haccepted]

/-- **What each trustee responds**, from the calls of the second round. -/
theorem responded?_eq {es : List (Event G)} {request : Nat → ChallengeRequest G} {limit : Duration}
    {expected : Nat} {replies : List (Reply (ChallengeResponse G))}
    {rows : List (List (ChallengeResponse G))} (hcalls : challengeCalls es = callsOf request replies)
    (haccepted : List.Forall₂ (Round.Accepts limit expected) replies rows) (j i : Nat) :
    responded? es j i = rows[j]?.bind (·[i]?) := by
  rw [responded?_eq_head?, hcalls, head?_filterMap_callsOf, bind_item?_of_accepts haccepted]

/-- What the trustees contributed and responded, trustee by trustee, as the rows of two tables. -/
structure Tabulates (session : Session G) (es : List (Event G)) (size : Nat)
    (rows : List (List (Contribution G))) (answers : List (List (ChallengeResponse G))) : Prop where
  rows_length : rows.length = session.trustees
  row_length : ∀ row ∈ rows, row.length = size
  answers_length : answers.length = session.trustees
  answer_length : ∀ row ∈ answers, row.length = size
  contributed : ∀ j i, contributed? es j i = rows[j]?.bind (·[i]?)
  responded : ∀ j i, responded? es j i = answers[j]?.bind (·[i]?)

/-- What two rounds that succeed were answered. -/
theorem RoundsCourse.tabulates {session : Session G} {run : RunId} {quotient : Quotient G}
    {es said : List (Event G)} {rounds : Rounds G}
    (h : RoundsCourse session run quotient es (.ok rounds)) (hblinds : blindCalls said = blindCalls es)
    (hchallenges : challengeCalls said = challengeCalls es) :
    ∃ rows answers, rounds = session.roundsOf quotient rows answers ∧
      Tabulates session said quotient.size rows answers := by
  cases h with
  | @answered es es' rows answers first proper second =>
    obtain ⟨hnone, replies, hasked, hcalls, hresult⟩ := first.blindCalls_eq
    obtain ⟨hnone', replies', hasked', hcalls', hresult'⟩ := second.challengeCalls_eq
    have haccepted := Round.mapError_settle_eq_ok.1 hresult.symm
    have haccepted' := Round.mapError_settle_eq_ok.1 hresult'.symm
    have hfirst : blindCalls said = callsOf (fun _ => ⟨run, quotient.ratios⟩) replies := by
      rw [hblinds]
      simp [hcalls, hnone']
    have hsecond : challengeCalls said =
        callsOf (session.challengeRequest run quotient rows) replies' := by
      rw [hchallenges]
      simp [hcalls', hnone]
    exact ⟨rows, answers, rfl,
      { rows_length := haccepted.length_eq ▸ hasked
        row_length := Round.length_of_accepts haccepted
        answers_length := haccepted'.length_eq ▸ hasked'
        answer_length := Round.length_of_accepts haccepted'
        contributed := contributed?_eq hfirst haccepted
        responded := responded?_eq hsecond haccepted' }⟩

/-! ## Runs -/

/-- Nobody is called in the two rounds once they are done. -/
theorem ConclusionCourse.isAside {session : Session G} {quotient : Quotient G} {rounds : Rounds G}
    {es : List (Event G)} {result : Checked RunError (BallotCertificate G)}
    (h : ConclusionCourse session quotient rounds es result) (outcome? : Option Outcome) :
    ∀ e ∈ es ++ outcome?.toList.map .ended, e.IsAside := by
  simp only [List.forall_mem_append, List.forall_mem_map]
  exact ⟨h.forall_mem Event.isAside_decrypt Event.isAside_reached,
    fun outcome _ => Event.isAside_ended outcome⟩

/-- **The two rounds within a run**, and what a run does with what they lead to. -/
theorem RunCourse.exists_rounds {session : Session G} {first second : Ballot G} {n : UInt64}
    {said : List (Event G)} {result : Checked RunError (BallotCertificate G)} {quotient : Quotient G}
    (h : RunCourse session first second (⟨.number, n⟩ :: said) result)
    (hcomparable : Quotient.ofBallots first second = .ok quotient) :
    ∃ es later outcome, said = .reached .ratio :: (es ++ later) ∧
      RoundsCourse session ⟨session.name, n⟩ quotient es outcome ∧ (∀ e ∈ later, e.IsAside) ∧
      (∀ e, outcome = .error e → result = Checked.refuse e) ∧
      ∀ rounds, outcome = .ok rounds → ∃ es', ConclusionCourse session quotient rounds es' result := by
  cases h with
  | incomparable mismatch => cases hcomparable.symm.trans mismatch
  | @released _ quotient' es e delays comparable failed asked =>
    cases hcomparable.symm.trans comparable
    exact ⟨es, _, _, rfl, failed, isAside_of_given_up _ _ _ _, fun e he => by cases he; rfl, nofun⟩
  | @concluded _ quotient' es es' rounds _ comparable answered conclusion =>
    cases hcomparable.symm.trans comparable
    exact ⟨es, _, _, rfl, answered, conclusion.isAside _, nofun,
      fun rounds h => ⟨es', by cases h; exact conclusion⟩⟩

end Session

/-! ## Small calls -/

namespace Small

/-- A world in which both trustees contribute, each with nonces of its own, but only the first one
responds. -/
def halfway : World (Question Group) Question.Answer Unit
  | .number, _ => (0, ())
  | .blind j request, _ =>
    (⟨0, .ok (request.ciphertexts.map fun ratio =>
      ⟨ratio, 0, if j = 0 then .retained else .echoed ⟨1, 0⟩⟩)⟩, ())
  | .challenge j request, _ =>
    (⟨0, .ok (if j = 0 then request.challenges.map fun _ => ⟨0⟩ else [])⟩, ())
  | .release _ _, _ => (0, ())
  | .decrypt _, _ => (.ok [], ())
  | .pass _, _ => ((), ())
  | .reached _, _ => ((), ())
  | .ended _, _ => ((), ())

/-- What the two trustees contribute. -/
def halfwayReplies : List (Reply (Contribution Group)) :=
  [⟨0, .ok (quotient.ratios.map fun ratio => ⟨ratio, 0, .retained⟩)⟩,
    ⟨0, .ok (quotient.ratios.map fun ratio => ⟨ratio, 0, .echoed ⟨1, 0⟩⟩)⟩]

theorem blindCalls_halfway :
    Session.blindCalls ((session.run first second).exchanges halfway ()) =
      Session.callsOf (fun _ => ⟨⟨session.name, 0⟩, quotient.ratios⟩) halfwayReplies :=
  rfl

end Small

end PlaintextEquivalence
