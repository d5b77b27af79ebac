import PlaintextEquivalence.Proofs.Protocol.Interplay

/-!
# Where a run stands

Whatever was said in a run so far, and in whatever order the trustees were reached, it is the beginning of
a whole run for each of them.  First comes the number, and all calls are about the run of that number.  A
trustee is asked to blind, and then it is challenged, or asked to release the run, or both.

Principal results:
* `RunCourse.allCalls` — all calls of a run to a trustee.
* `Follows.calls` — those made so far are the first of them.
* `Follows.length_le`, `Follows.countP_le` — how much is said in a run, and how often it waits.
-/

set_option autoImplicit false

namespace PlaintextEquivalence

variable {G : PrimeGroup}

/-- The number that an event gives to a run. -/
def Event.number? : Event G → Option UInt64
  | ⟨.number, n⟩ => some n
  | _ => none

/-- Whether an event lets time pass. -/
def Event.isPass : Event G → Bool
  | ⟨.pass _, _⟩ => true
  | _ => false

/-- The numbers that were given. -/
def numbers (es : List (Event G)) : List UInt64 := es.filterMap Event.number?

/-- The calls to trustee `j`, with their answers. -/
def callsAt (j : Nat) (es : List (Event G)) : List (Event G) := es.filter fun e => e.seat? = some j

theorem numbers_append (es es' : List (Event G)) : numbers (es ++ es') = numbers es ++ numbers es' :=
  List.filterMap_append

theorem numbers_of_ne {e : Event G} (h : e.1 ≠ .number) : numbers [e] = [] := by
  obtain ⟨q, answer⟩ := e
  cases q with
  | number => exact absurd rfl h
  | _ => rfl

/-- A call gives no number. -/
theorem numbers_of_seat {e : Event G} {j : Nat} (h : e.seat? = some j) : numbers [e] = [] := by
  refine numbers_of_ne fun hnumber => ?_
  rw [Event.seat?, hnumber] at h
  cases h

theorem callsAt_append (j : Nat) (es es' : List (Event G)) :
    callsAt j (es ++ es') = callsAt j es ++ callsAt j es' :=
  List.filter_append es es'

theorem callsAt_of_seat {e : Event G} {j : Nat} (h : e.seat? = some j) : callsAt j [e] = [e] :=
  List.filter_cons_of_pos (decide_eq_true h)

theorem callsAt_of_seat_ne {e : Event G} {j : Nat} (h : e.seat? ≠ some j) : callsAt j [e] = [] :=
  List.filter_cons_of_neg (by rwa [decide_eq_true_eq])

theorem callsAt_view (j : Nat) (es : List (Event G)) : callsAt j (view j es) = callsAt j es := by
  unfold callsAt view
  rw [List.filter_filter]
  refine List.filter_congr fun e _ => ?_
  by_cases h : e.seat? = some j <;> simp [h]

theorem callsAt_of_silent {j : Nat} {es : List (Event G)} (h : ∀ e ∈ es, e.seat? = none) :
    callsAt j es = [] := by
  refine List.filter_eq_nil_iff.2 fun e he => ?_
  simp [h e he]

/-- One event for each trustee is one call to each. -/
theorem callsAt_mapIdx {α : Type} {event : Nat → α → Event G} {j : Nat}
    (hseat : ∀ k a, (event k a).seat? = some k) (items : List α) :
    callsAt j (items.mapIdx event) = (items[j]?.map (event j)).toList := by
  have hat : ∀ k a, Option.guard (fun e : Event G => e.seat? = some j) (event k a) =
      if k = j then some (event j a) else none := by
    intro k a
    by_cases h : k = j
    · simp [Option.guard, hseat, h]
    · simp [Option.guard, hseat, h]
  unfold callsAt
  rw [← List.filterMap_eq_filter, filterMap_mapIdx (g := fun a => some (event j a)) hat]
  cases items[j]? <;> rfl

/-! ## The calls of a run -/

/-- All calls of a run to a trustee.  It is asked to blind; then it is challenged to answer for what it
contributed, or the run is released, or the one comes after the other. -/
inductive AllCalls (run : RunId) (j : Nat) : List (Event G) → Prop where
  | challenged {ratios : List (Ciphertext G)} {row : List (Contribution G)} {cs : List G.Scalar}
      {reply : Reply (Contribution G)} {reply' : Reply (ChallengeResponse G)}
      (contributed : reply.result = .ok row) (count : cs.length = ratios.length) :
      AllCalls run j [⟨.blind j ⟨run, ratios⟩, reply⟩,
        ⟨.challenge j ⟨run, Session.challengesOn cs row⟩, reply'⟩]
  | released {ratios : List (Ciphertext G)} {reply : Reply (Contribution G)} {delay : Nat} :
      AllCalls run j [⟨.blind j ⟨run, ratios⟩, reply⟩, ⟨.release j run, delay⟩]
  | abandoned {ratios : List (Ciphertext G)} {row : List (Contribution G)} {cs : List G.Scalar}
      {reply : Reply (Contribution G)} {reply' : Reply (ChallengeResponse G)} {delay : Nat}
      (contributed : reply.result = .ok row) (count : cs.length = ratios.length) :
      AllCalls run j [⟨.blind j ⟨run, ratios⟩, reply⟩,
        ⟨.challenge j ⟨run, Session.challengesOn cs row⟩, reply'⟩, ⟨.release j run, delay⟩]

/-- A call is the first one, to blind, or a challenge after it, or the last one, to release. -/
theorem AllCalls.cases_mid {run : RunId} {j : Nat} {all past : List (Event G)} {e : Event G}
    (h : AllCalls run j all) (hpast : past ++ [e] <+: all) :
    (past = [] ∧ ∃ ratios reply, e = ⟨.blind j ⟨run, ratios⟩, reply⟩) ∨
    (∃ ratios row cs reply reply', reply.result = .ok row ∧ cs.length = ratios.length ∧
      past = [⟨.blind j ⟨run, ratios⟩, reply⟩] ∧
      e = ⟨.challenge j ⟨run, Session.challengesOn cs row⟩, reply'⟩) ∨
    (past ≠ [] ∧ ∃ delay, e = ⟨.release j run, delay⟩) := by
  obtain ⟨future, hall⟩ := hpast
  rw [List.append_assoc, List.singleton_append] at hall
  cases h with
  | challenged contributed count =>
    rcases past with _ | ⟨x, _ | ⟨y, past⟩⟩
    · cases hall
      exact .inl ⟨rfl, _, _, rfl⟩
    · cases hall
      exact .inr (.inl ⟨_, _, _, _, _, contributed, count, rfl, rfl⟩)
    · simp at hall
  | released =>
    rcases past with _ | ⟨x, _ | ⟨y, past⟩⟩
    · cases hall
      exact .inl ⟨rfl, _, _, rfl⟩
    · cases hall
      exact .inr (.inr ⟨List.cons_ne_nil _ _, _, rfl⟩)
    · simp at hall
  | abandoned contributed count =>
    rcases past with _ | ⟨x, _ | ⟨y, _ | ⟨z, past⟩⟩⟩
    · cases hall
      exact .inl ⟨rfl, _, _, rfl⟩
    · cases hall
      exact .inr (.inl ⟨_, _, _, _, _, contributed, count, rfl, rfl⟩)
    · cases hall
      exact .inr (.inr ⟨List.cons_ne_nil _ _, _, rfl⟩)
    · simp at hall

theorem AllCalls.two_le_length {run : RunId} {j : Nat} {all : List (Event G)} (h : AllCalls run j all) :
    2 ≤ all.length := by
  cases h with
  | challenged | released => exact Nat.le_refl 2
  | abandoned => exact Nat.le_succ 2

namespace Session

variable {session : Session G}

/-- The call to a trustee in a round, with the reply that the round takes from it if it succeeds. -/
theorem RoundCourse.callsAt_eq {α : Type} {event : Nat → Reply α → Event G} {expected j : Nat}
    {es : List (Event G)} {result : Except RunError (List (List α))}
    (h : RoundCourse session event expected es result) (hj : j < session.trustees)
    (hseat : ∀ k reply, (event k reply).seat? = some k) :
    ∃ reply, callsAt j es = [event j reply] ∧
      ∀ rows, result = .ok rows → ∃ row, rows[j]? = some row ∧ reply.result = .ok row := by
  obtain ⟨replies, time, hasked, rfl, rfl⟩ := h.exists_replies
  obtain ⟨reply, hreply⟩ : ∃ reply, replies[j]? = some reply :=
    ⟨_, List.getElem?_eq_getElem (hasked ▸ hj)⟩
  refine ⟨reply, ?_, fun rows hrows => ?_⟩
  · rw [callsAt_append, callsAt_mapIdx hseat, hreply]
    rfl
  · obtain ⟨row, hrow, haccepted⟩ :=
      Paired.exists_getElem? (Round.mapError_settle_eq_ok.1 hrows).flip hreply
    exact ⟨row, hrow, haccepted.result⟩

/-- The calls to a trustee in the two rounds: to blind, and a challenge if it comes to that. -/
theorem RoundsCourse.callsAt_cases {run : RunId} {quotient : Quotient G} {j : Nat}
    {es : List (Event G)} {result : Except RunError (Rounds G)}
    (h : RoundsCourse session run quotient es result) (hj : j < session.trustees) :
    ∃ reply, (callsAt j es = [⟨.blind j ⟨run, quotient.ratios⟩, reply⟩] ∧ result.isOk = false) ∨
      ∃ row cs reply', reply.result = .ok row ∧ cs.length = quotient.ratios.length ∧
        callsAt j es = [⟨.blind j ⟨run, quotient.ratios⟩, reply⟩,
          ⟨.challenge j ⟨run, Session.challengesOn cs row⟩, reply'⟩] := by
  -- the second round asks the trustee for what it contributed in the first
  have hboth : ∀ {es es' : List (Event G)} {rows : List (List (Contribution G))}
      {result : Except RunError (List (List (ChallengeResponse G)))},
      RoundCourse session (.blind ⟨run, quotient.ratios⟩) quotient.size es (.ok rows) →
      RoundCourse session (.challenge (session.challengeRequest run quotient rows))
        quotient.size es' result → ∀ later, callsAt j later = callsAt j es' →
      ∃ reply row cs reply', reply.result = .ok row ∧ cs.length = quotient.ratios.length ∧
        callsAt j (es ++ later) = [⟨.blind j ⟨run, quotient.ratios⟩, reply⟩,
          ⟨.challenge j ⟨run, Session.challengesOn cs row⟩, reply'⟩] := by
    intro es es' rows result first second later hlater
    obtain ⟨reply, hfirst, hrows⟩ := first.callsAt_eq hj fun _ _ => rfl
    obtain ⟨reply', hsecond, -⟩ := second.callsAt_eq hj fun _ _ => rfl
    obtain ⟨row, hrow, hreply⟩ := hrows rows rfl
    refine ⟨reply, row, _, reply', hreply, session.length_challenges quotient rows, ?_⟩
    rw [callsAt_append, hfirst, hlater, hsecond, Event.challenge, Session.challengeRequest,
      List.getD_eq_getElem?_getD, hrow]
    rfl
  cases h with
  | unblinded first =>
    obtain ⟨reply, hfirst, -⟩ := first.callsAt_eq hj fun _ _ => rfl
    exact ⟨reply, .inl ⟨hfirst, rfl⟩⟩
  | degenerate first =>
    obtain ⟨reply, hfirst, -⟩ := first.callsAt_eq hj fun _ _ => rfl
    exact ⟨reply, .inl ⟨by rw [callsAt_append, hfirst]; rfl, rfl⟩⟩
  | unanswered first proper second =>
    obtain ⟨reply, hcalls⟩ := hboth first second (.reached .blind :: .reached .aggregate ::
      .reached .challenge :: _) rfl
    exact ⟨reply, .inr hcalls⟩
  | @answered es es' rows answers first proper second =>
    obtain ⟨reply, hcalls⟩ := hboth first second (.reached .blind :: .reached .aggregate ::
      .reached .challenge :: (es' ++ [.reached .respond])) (by
        rw [show callsAt j (.reached .blind :: .reached .aggregate :: .reached .challenge ::
          (es' ++ [.reached .respond])) = callsAt j (es' ++ [.reached .respond]) from rfl,
          callsAt_append]
        exact List.append_nil _)
    exact ⟨reply, .inr hcalls⟩

/-- **All calls of a run to a trustee**, if the ballots are comparable. -/
theorem RunCourse.allCalls {first second : Ballot G} {n : UInt64} {j : Nat} {es : List (Event G)}
    {result : Checked RunError (BallotCertificate G)}
    (h : RunCourse session first second (⟨.number, n⟩ :: es) result)
    (hcomparable : ∃ quotient, Quotient.ofBallots first second = .ok quotient)
    (hj : j < session.trustees) : AllCalls ⟨session.name, n⟩ j (callsAt j es) := by
  obtain ⟨quotient, hcomparable⟩ := hcomparable
  cases h with
  | incomparable mismatch => cases hcomparable.symm.trans mismatch
  | @released _ quotient es e delays comparable failed asked =>
    obtain ⟨delay, hdelay⟩ : ∃ delay, delays[j]? = some delay :=
      ⟨_, List.getElem?_eq_getElem (asked ▸ hj)⟩
    have hrelease : callsAt j (delays.mapIdx (Event.release (G := G) ⟨session.name, n⟩) ++
        [.passed (Round.longest session.limits.patience delays), .ended .failed]) =
          [⟨.release j ⟨session.name, n⟩, delay⟩] := by
      rw [callsAt_append, callsAt_mapIdx (fun _ _ => rfl : ∀ k delay,
        (Event.release (G := G) ⟨session.name, n⟩ k delay).seat? = some k), hdelay]
      rfl
    have hall : callsAt j (.reached .ratio :: (es ++ (delays.mapIdx (Event.release ⟨session.name, n⟩) ++
        [.passed (Round.longest session.limits.patience delays), .ended .failed]))) =
          callsAt j es ++ [⟨.release j ⟨session.name, n⟩, delay⟩] := by
      rw [← hrelease, ← callsAt_append]
      rfl
    rw [hall]
    obtain ⟨reply, ⟨hcalls, -⟩ | ⟨row, cs, reply', contributed, count, hcalls⟩⟩ :=
      failed.callsAt_cases hj
    · rw [hcalls]
      exact .released
    · rw [hcalls]
      exact .abandoned contributed count
  | @concluded _ quotient es es' rounds _ comparable answered conclusion =>
    have hlater : callsAt j (es' ++ (outcome? result).toList.map .ended) = [] := by
      refine callsAt_of_silent (List.forall_mem_append.2 ⟨?_, List.forall_mem_map.2 fun _ _ => rfl⟩)
      exact conclusion.forall_mem (fun _ _ => rfl) fun _ => rfl
    have hall : callsAt j (.reached .ratio :: (es ++ (es' ++ (outcome? result).toList.map .ended))) =
        callsAt j es := by
      rw [← List.append_nil (callsAt j es), ← hlater, ← callsAt_append]
      rfl
    rw [hall]
    obtain ⟨reply, ⟨-, hfailed⟩ | ⟨row, cs, reply', contributed, count, hcalls⟩⟩ :=
      answered.callsAt_cases hj
    · cases hfailed
    · rw [hcalls]
      exact .challenged contributed count

theorem RunCourse.numbers_eq {first second : Ballot G} {n : UInt64} {es : List (Event G)}
    {result : Checked RunError (BallotCertificate G)}
    (h : RunCourse session first second (⟨.number, n⟩ :: es) result) :
    numbers (⟨.number, n⟩ :: es) = [n] := by
  have hlater : numbers es = [] := by
    refine List.filterMap_eq_nil_iff.2 ?_
    exact h.forall_mem (fun _ _ _ => rfl) (fun _ _ _ => rfl) (fun _ _ => rfl) (fun _ _ => rfl)
      (fun _ => rfl) (fun _ => rfl) fun _ => rfl
  exact congrArg (n :: ·) hlater

/-- Whatever is asked of a trustee is about the run of the number. -/
theorem RunCourse.run_of_request {first second : Ballot G} {n : UInt64} {es : List (Event G)}
    {result : Checked RunError (BallotCertificate G)}
    (h : RunCourse session first second (⟨.number, n⟩ :: es) result) :
    ∀ e ∈ es, ∀ j request, e.1.request? = some (j, request) → request.run = ⟨session.name, n⟩ := by
  have hcall : ∀ {q : Question G} {k : Nat} {asked : Request G}, asked.run = ⟨session.name, n⟩ →
      q.request? = some (k, asked) → ∀ j request, q.request? = some (j, request) →
        request.run = ⟨session.name, n⟩ := by
    intro q k asked hrun hq j request hrequest
    cases hq.symm.trans hrequest
    exact hrun
  exact h.forall_mem (fun _ _ _ => hcall rfl rfl) (fun _ _ _ => hcall rfl rfl) (fun _ _ => hcall rfl rfl)
    (fun _ _ _ _ => nofun) (fun _ _ _ => nofun) (fun _ _ _ => nofun) fun _ _ _ => nofun

/-! ## The extent of a run -/

/-- No more is said in a run than this. -/
def longest (session : Session G) : Nat := 3 * session.trustees + 13

/-- No run waits more often than this. -/
def waits : Nat := 3

theorem RoundCourse.length_eq {α : Type} {event : Nat → Reply α → Event G} {expected : Nat}
    {es : List (Event G)} {result : Except RunError (List (List α))}
    (h : RoundCourse session event expected es result) : es.length = session.trustees + 1 := by
  obtain ⟨replies, time, hasked, rfl, -⟩ := h.exists_replies
  rw [List.length_append, List.length_mapIdx, hasked]
  rfl

theorem RoundsCourse.length_le {run : RunId} {quotient : Quotient G} {es : List (Event G)}
    {result : Except RunError (Rounds G)} (h : RoundsCourse session run quotient es result) :
    es.length ≤ 2 * session.trustees + 6 := by
  cases h with
  | unblinded first => simp only [first.length_eq]; omega
  | degenerate first => simp only [List.length_append, first.length_eq, List.length_singleton]; omega
  | unanswered first _ second =>
    simp only [List.length_append, List.length_cons, first.length_eq, second.length_eq]
    omega
  | answered first _ second =>
    simp only [List.length_append, List.length_cons, List.length_nil, first.length_eq, second.length_eq]
    omega

theorem RunCourse.length_le {first second : Ballot G} {es : List (Event G)}
    {result : Checked RunError (BallotCertificate G)} (h : RunCourse session first second es result) :
    es.length ≤ session.longest := by
  unfold longest
  cases h with
  | incomparable => simp only [List.length_cons, List.length_nil]; omega
  | released _ failed asked =>
    have := failed.length_le
    simp only [List.length_append, List.length_cons, List.length_nil, List.length_mapIdx, asked]
    omega
  | @concluded n quotient es es' rounds _ _ answered conclusion =>
    have hrounds := answered.length_le
    have hlast : es'.length ≤ 4 := by cases conclusion <;> simp
    have hended : (outcome? result).toList.length ≤ 1 := by cases outcome? result <;> simp
    simp only [List.length_append, List.length_cons, List.length_map]
    omega

theorem countP_isPass_mapIdx {α : Type} {event : Nat → α → Event G}
    (hevent : ∀ j a, (event j a).isPass = false) (items : List α) :
    (items.mapIdx event).countP Event.isPass = 0 := by
  refine List.countP_eq_zero.2 fun e he => ?_
  obtain ⟨j, _, rfl⟩ := List.mem_mapIdx.1 he
  rw [hevent]
  exact Bool.false_ne_true

theorem RoundCourse.countP_eq {α : Type} {event : Nat → Reply α → Event G} {expected : Nat}
    {es : List (Event G)} {result : Except RunError (List (List α))}
    (h : RoundCourse session event expected es result)
    (hevent : ∀ j reply, (event j reply).isPass = false) : es.countP Event.isPass = 1 := by
  obtain ⟨replies, time, -, rfl, -⟩ := h.exists_replies
  rw [List.countP_append, countP_isPass_mapIdx hevent]
  rfl

theorem RoundsCourse.countP_le {run : RunId} {quotient : Quotient G} {es : List (Event G)}
    {result : Except RunError (Rounds G)} (h : RoundsCourse session run quotient es result) :
    es.countP Event.isPass ≤ 2 := by
  have hreached : ∀ milestone, Event.isPass (.reached milestone : Event G) = false := fun _ => rfl
  cases h with
  | unblinded first => simp [first.countP_eq fun _ _ => rfl]
  | degenerate first => simp [first.countP_eq fun _ _ => rfl, hreached]
  | unanswered first _ second =>
    simp [first.countP_eq fun _ _ => rfl, second.countP_eq fun _ _ => rfl, hreached]
  | answered first _ second =>
    simp [first.countP_eq fun _ _ => rfl, second.countP_eq fun _ _ => rfl, hreached]

theorem RunCourse.countP_le {first second : Ballot G} {es : List (Event G)}
    {result : Checked RunError (BallotCertificate G)} (h : RunCourse session first second es result) :
    es.countP Event.isPass ≤ waits := by
  unfold waits
  cases h with
  | incomparable => exact Nat.zero_le _
  | @released n quotient es e delays comparable failed asked =>
    have hrounds := failed.countP_le
    have hreleases : (delays.mapIdx (Event.release (G := G) ⟨session.name, n⟩)).countP Event.isPass = 0 :=
      countP_isPass_mapIdx (fun _ _ => rfl) delays
    calc _ = es.countP Event.isPass + (0 + 1) := by
          rw [← hreleases]
          simp only [List.countP_cons, List.countP_append, List.countP_nil]
          rfl
      _ ≤ 3 := by omega
  | @concluded n quotient es es' rounds _ comparable answered conclusion =>
    have hrounds := answered.countP_le
    have hlast : es'.countP Event.isPass = 0 := by
      refine List.countP_eq_zero.2 ?_
      exact conclusion.forall_mem (fun _ _ => Bool.false_ne_true) fun _ => Bool.false_ne_true
    have hended : ((outcome? result).toList.map (Event.ended (G := G))).countP Event.isPass = 0 := by
      refine List.countP_eq_zero.2 ?_
      exact List.forall_mem_map.2 fun _ _ => Bool.false_ne_true
    calc _ = es.countP Event.isPass := by
          simp only [List.countP_cons, List.countP_append, hlast, hended]
          rfl
      _ ≤ 3 := by omega

end Session

/-! ## Runs under way -/

namespace Talk

open Dialogue

variable {session : Session G} {first second : Ballot G} {said : List (Event G)}
  {rest : Talk G (Checked RunError (BallotCertificate G))}

/-- What was said and the rest of it, however it goes on, are a whole run. -/
theorem Follows.exists_run (h : Follows (session.run first second) said rest) {es : List (Event G)}
    {result : Checked RunError (BallotCertificate G)} (hes : Course rest es result) :
    ∃ n later, Session.RunCourse session first second (⟨.number, n⟩ :: later) result ∧
      (⟨.number, n⟩ :: later).Perm (said ++ es) ∧
      (∀ j, view j (⟨.number, n⟩ :: later) = view j (said ++ es)) ∧
      numbers said ++ numbers es = [n] := by
  obtain ⟨all, hall, hperm, hview⟩ := h es result hes
  have hrun := Session.course_run hall
  obtain ⟨n, later, rfl⟩ := hrun.exists_number
  have hnumbers : (numbers (said ++ es)).Perm [n] := by
    rw [← hrun.numbers_eq]
    exact hperm.symm.filterMap _
  rw [← numbers_append]
  exact ⟨n, later, hrun, hperm, hview, List.perm_singleton.1 hnumbers⟩

/-- **A run gets its number first.** -/
theorem Follows.exists_numbers (h : Follows (session.run first second) said rest) (hsaid : said ≠ []) :
    ∃ n, numbers said = [n] := by
  obtain ⟨es, result, hes⟩ := exists_course rest
  obtain ⟨n, later, -, -, hview, hnumbers⟩ := h.exists_run hes
  cases said with
  | nil => exact absurd rfl hsaid
  | cons e said =>
    -- whoever hears the first event hears the number first
    have hheard : e.seat? = none ∨ e.seat? = some (e.seat?.getD 0) := by
      cases e.seat? with
      | none => exact .inl rfl
      | some j => exact .inr rfl
    have hfirst : e = ⟨.number, n⟩ := by
      have hj := hview (e.seat?.getD 0)
      rw [List.cons_append, view_cons_of_heard (.inl rfl), view_cons_of_heard hheard] at hj
      exact (List.cons.inj hj).1.symm
    subst hfirst
    have hrest : numbers said ++ numbers es = [] := (List.cons.inj hnumbers).2
    exact ⟨n, congrArg (n :: ·) (List.append_eq_nil_iff.1 hrest).1⟩

theorem Follows.length_numbers_le (h : Follows (session.run first second) said rest) :
    (numbers said).length ≤ 1 := by
  by_cases hsaid : said = []
  · subst hsaid
    exact Nat.zero_le _
  · obtain ⟨n, hn⟩ := h.exists_numbers hsaid
    rw [hn]
    exact Nat.le_refl _

/-- A run with a number goes on under that number. -/
theorem Follows.exists_run_of_mem (h : Follows (session.run first second) said rest) {n : UInt64}
    (hn : n ∈ numbers said) {es : List (Event G)} {result : Checked RunError (BallotCertificate G)}
    (hes : Course rest es result) :
    ∃ later, Session.RunCourse session first second (⟨.number, n⟩ :: later) result ∧
      (⟨.number, n⟩ :: later).Perm (said ++ es) ∧
      ∀ j, view j (⟨.number, n⟩ :: later) = view j (said ++ es) := by
  obtain ⟨m, later, hrun, hperm, hview, hnumbers⟩ := h.exists_run hes
  have hm : n ∈ [m] := hnumbers ▸ List.mem_append_left _ hn
  cases List.mem_singleton.1 hm
  exact ⟨later, hrun, hperm, hview⟩

/-- Whatever was asked of a trustee is about the run of the number. -/
theorem Follows.run_of_request (h : Follows (session.run first second) said rest) {n : UInt64}
    (hn : n ∈ numbers said) {e : Event G} (he : e ∈ said) {j : Nat} {request : Request G}
    (hrequest : e.1.request? = some (j, request)) : request.run = ⟨session.name, n⟩ := by
  obtain ⟨es, result, hes⟩ := exists_course rest
  obtain ⟨later, hrun, hperm, -⟩ := h.exists_run_of_mem hn hes
  rcases List.mem_cons.1 (hperm.symm.subset (List.mem_append_left es he)) with rfl | hlater
  · cases hrequest
  · exact hrun.run_of_request e hlater j request hrequest

/-- **The calls made so far** to a trustee are the first of all the calls of the run to it, and all of
them when the run is over. -/
theorem Follows.calls (h : Follows (session.run first second) said rest)
    (hcomparable : ∃ quotient, Quotient.ofBallots first second = .ok quotient) {n : UInt64}
    (hn : n ∈ numbers said) {j : Nat} (hj : j < session.trustees) :
    ∃ all, AllCalls ⟨session.name, n⟩ j all ∧ callsAt j said <+: all ∧
      ((∃ result, rest = .done result) → callsAt j said = all) := by
  obtain ⟨es, result, hes⟩ := exists_course rest
  obtain ⟨later, hrun, -, hview⟩ := h.exists_run_of_mem hn hes
  have hcalls : callsAt j later = callsAt j said ++ callsAt j es := by
    calc callsAt j later = callsAt j (⟨.number, n⟩ :: later) := rfl
      _ = callsAt j said ++ callsAt j es := by
        rw [← callsAt_view, hview, callsAt_view, callsAt_append]
  refine ⟨_, hrun.allCalls hcomparable hj, ⟨callsAt j es, hcalls.symm⟩, ?_⟩
  rintro ⟨_, rfl⟩
  cases hes
  rw [hcalls]
  exact (List.append_nil _).symm

/-- **The next call** to a trustee: it is asked to blind if it was asked nothing before, it is challenged
for what it contributed if it was asked to blind and nothing else, or it is asked to release the run. -/
theorem Follows.next_call (h : Follows (session.run first second) said rest)
    (hcomparable : ∃ quotient, Quotient.ofBallots first second = .ok quotient) {e : Event G}
    {rest' : Talk G (Checked RunError (BallotCertificate G))} (hasked : Answered rest e rest') {j : Nat}
    (hj : j < session.trustees) (hseat : e.seat? = some j) :
    ∃ n, numbers said = [n] ∧
      ((callsAt j said = [] ∧ ∃ ratios reply, e = ⟨.blind j ⟨⟨session.name, n⟩, ratios⟩, reply⟩) ∨
      (∃ ratios row cs reply reply', reply.result = .ok row ∧ cs.length = ratios.length ∧
        callsAt j said = [⟨.blind j ⟨⟨session.name, n⟩, ratios⟩, reply⟩] ∧
        e = ⟨.challenge j ⟨⟨session.name, n⟩, Session.challengesOn cs row⟩, reply'⟩) ∨
      (callsAt j said ≠ [] ∧ ∃ delay, e = ⟨.release j ⟨session.name, n⟩, delay⟩)) := by
  have hnext := h.step hasked
  obtain ⟨n, hn⟩ := hnext.exists_numbers (List.append_ne_nil_of_right_ne_nil _ (List.cons_ne_nil _ _))
  obtain ⟨all, hall, hprefix, -⟩ := hnext.calls hcomparable (hn ▸ List.mem_singleton_self n) hj
  rw [callsAt_append, callsAt_of_seat hseat] at hprefix
  refine ⟨n, ?_, hall.cases_mid hprefix⟩
  rw [← hn, numbers_append, numbers_of_seat hseat, List.append_nil]

/-- **A run says only so much.** -/
theorem Follows.length_le (h : Follows (session.run first second) said rest) :
    said.length ≤ session.longest := by
  obtain ⟨es, result, hes⟩ := exists_course rest
  obtain ⟨n, later, hrun, hperm, -⟩ := h.exists_run hes
  have hall := hperm.length_eq ▸ hrun.length_le
  rw [List.length_append] at hall
  exact Nat.le_trans (Nat.le_add_right _ _) hall

/-- **A run waits only so often.** -/
theorem Follows.countP_le (h : Follows (session.run first second) said rest) :
    said.countP Event.isPass ≤ Session.waits := by
  obtain ⟨es, result, hes⟩ := exists_course rest
  obtain ⟨n, later, hrun, hperm, -⟩ := h.exists_run hes
  have hall := hperm.countP_eq Event.isPass ▸ hrun.countP_le
  rw [List.countP_append] at hall
  exact Nat.le_trans (Nat.le_add_right _ _) hall

/-- What was said in a run that is over is a whole run but for the order. -/
theorem Follows.exists_perm {result : Checked RunError (BallotCertificate G)}
    (h : Follows (session.run first second) said (.done result)) :
    ∃ all, Session.RunCourse session first second all result ∧ all.Perm said := by
  obtain ⟨n, later, hrun, hperm, -⟩ := h.exists_run (.done result)
  rw [List.append_nil] at hperm
  exact ⟨_, hrun, hperm⟩

end Talk

end PlaintextEquivalence
