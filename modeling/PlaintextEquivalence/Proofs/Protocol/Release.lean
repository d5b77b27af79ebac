import PlaintextEquivalence.Proofs.Blinding.History
import PlaintextEquivalence.Proofs.Protocol.Decryption
import PlaintextEquivalence.Proofs.Protocol.Honest

/-!
# Runs leave nothing behind

A trustee of a run may stand in front of another that keeps the secret numbers: it passes on what it is
asked, and answers as it likes.  However a run ends, the trustees behind keep nothing for it that they
did not keep before, because the last request that reaches each of them is a challenge or a release.

Principal results:
* `Intermediaries.exists_delivered` — the trustees behind are as the requests that reached them leave
  them.
* `RunCourse.closes` — the last request to each trustee ends the run for it.
* `nothing_kept` — what is kept after a run, and who is asked to release it.
-/

set_option autoImplicit false

namespace PlaintextEquivalence

variable {G : PrimeGroup} {σ : Type}

namespace BlindingTrustee

variable {trustee : BlindingTrustee G} {h : History G} {run : RunId}

/-! ## Histories of one run -/

/-- What is added in a history of one run is kept for that run. -/
theorem mem_retained_after (hrun : ∀ q ∈ h, q.1.run = run) {r : RetainedRun G}
    (hr : r ∈ (trustee.after h).retained) :
    r ∈ trustee.retained ∨ trustee.mode = .retained ∧ r.run = run := by
  induction h generalizing trustee with
  | nil => exact .inl hr
  | cons q h ih =>
    obtain ⟨hq, hrun⟩ := List.forall_mem_cons.1 hrun
    rcases ih hrun hr with hheed | ⟨hmode, hr⟩
    · rcases mem_retained_heed hheed with ⟨hbefore, -⟩ | ⟨request, hblind, hmode, -, rfl⟩
      · exact .inl hbefore
      · refine .inr ⟨hmode, ?_⟩
        rw [← hq, hblind]
        rfl
    · exact .inr ⟨(mode_heed trustee q.2 q.1).symm.trans hmode, hr⟩

/-- Nothing is kept for a run that was ended last. -/
theorem retains_after_of_ends (hmode : trustee.mode = .retained) (h : History G) {q : Request G}
    (hends : q.ends = true) (now : Nat) :
    (trustee.after (h ++ [(q, now)])).retains q.run = false := by
  have hlast : trustee.after (h ++ [(q, now)]) = (trustee.after h).heed now q := by
    unfold after
    rw [List.foldl_append]
    rfl
  rw [hlast]
  exact retains_heed_of_ends ((mode_after trustee h).trans hmode) now hends

/-- **Nothing is left of a run that was ended last**, and nothing new is kept for another. -/
theorem kept_after (hrun : ∀ q ∈ h, q.1.run = run)
    (hlast : ∃ past q now, h = past ++ [(q, now)] ∧ q.ends = true) :
    (∀ r ∈ (trustee.after h).retained, r ∈ trustee.retained) ∧
      (trustee.mode = .retained → (trustee.after h).retains run = false) := by
  obtain ⟨past, q, now, rfl, hends⟩ := hlast
  have hq : q.run = run := hrun (q, now) (List.mem_append_right _ List.mem_cons_self)
  have hended (hmode : trustee.mode = .retained) :
      (trustee.after (past ++ [(q, now)])).retains run = false :=
    hq ▸ retains_after_of_ends hmode past hends now
  refine ⟨fun r hr => ?_, hended⟩
  rcases mem_retained_after hrun hr with hbefore | ⟨hmode, hr'⟩
  · exact hbefore
  · exact absurd hr' (retains_eq_false.1 (hended hmode) r hr)

end BlindingTrustee

/-! ## Trustees behind others -/

/-- The trustee that a question is for, and what it is asked. -/
def Question.request? : Question G → Option (Nat × Request G)
  | .blind j request => some (j, .blind request)
  | .challenge j request => some (j, .challenge request)
  | .release j run => some (j, .release run)
  | _ => none

/-- Whether a call has reached the trustee behind for certain: an answered challenge, or a release. -/
def Event.isCertain : Event G → Bool
  | ⟨.challenge _ _, reply⟩ => reply.result.isOk
  | ⟨.release _ _, _⟩ => true
  | _ => false

/-- Trustees, each in front of one of its own, and guardians.  They answer as they like, with a state of
their own.  What a trustee is asked reaches the one behind at some time, except that a call that is given
up may never get that far. -/
structure Intermediaries (G : PrimeGroup) (σ : Type) where
  answer : (q : Question G) → (Nat → BlindingTrustee G) → σ → q.Answer × σ
  delivery? : Question G → (Nat → BlindingTrustee G) → σ → Option Nat
  delivered : ∀ q behind s, Event.isCertain ⟨q, (answer q behind s).1⟩ = true →
    (delivery? q behind s).isSome

namespace Intermediaries

/-- Trustees that pass on every call at once, whatever they answer. -/
def forwarding (answer : (q : Question G) → (Nat → BlindingTrustee G) → σ → q.Answer × σ)
    (clock : Question G → σ → Nat) : Intermediaries G σ where
  answer := answer
  delivery? q _ s := some (clock q s)
  delivered _ _ _ _ := rfl

/-- The trustees behind after a question. -/
def deliver (m : Intermediaries G σ) (q : Question G) (behind : Nat → BlindingTrustee G) (s : σ) :
    Nat → BlindingTrustee G :=
  match q.request?, m.delivery? q behind s with
  | some (j, request), some now => Function.update behind j ((behind j).heed now request)
  | _, _ => behind

/-- The world that a run is held with. -/
def world (m : Intermediaries G σ) :
    World (Question G) Question.Answer ((Nat → BlindingTrustee G) × σ) :=
  fun q state => ((m.answer q state.1 state.2).1,
    m.deliver q state.1 state.2, (m.answer q state.1 state.2).2)

end Intermediaries

/-! ## Calls and what comes of them -/

/-- A request to trustee `j`, and whether it has reached the trustee behind for certain. -/
def Event.callTo? (j : Nat) (e : Event G) : Option (Request G × Bool) :=
  match e.1.request? with
  | some (k, request) => if k = j then some (request, e.isCertain) else none
  | none => none

/-- The requests to trustee `j`, in order. -/
def callsTo (j : Nat) (es : List (Event G)) : List (Request G × Bool) := es.filterMap (Event.callTo? j)

theorem callsTo_cons (j : Nat) (e : Event G) (es : List (Event G)) :
    callsTo j (e :: es) = (e.callTo? j).toList ++ callsTo j es := by
  unfold callsTo
  rw [List.filterMap_cons]
  cases e.callTo? j with
  | none => rfl
  | some call => rfl

theorem callsTo_of_silent {es : List (Event G)} (h : ∀ e ∈ es, e.1.request? = none) (j : Nat) :
    callsTo j es = [] := by
  unfold callsTo
  rw [List.filterMap_eq_nil_iff]
  intro e he
  unfold Event.callTo?
  rw [h e he]

theorem callsTo_append (j : Nat) (es es' : List (Event G)) :
    callsTo j (es ++ es') = callsTo j es ++ callsTo j es' :=
  List.filterMap_append

/-- One event for each trustee is one call to each. -/
theorem callsTo_mapIdx {α : Type} {event : Nat → α → Event G} {call : α → Request G × Bool} {j : Nat}
    (hcall : ∀ k a, (event k a).callTo? j = if k = j then some (call a) else none) (items : List α) :
    callsTo j (items.mapIdx event) = (items[j]?.map call).toList := by
  unfold callsTo
  rw [filterMap_mapIdx (g := fun a => some (call a)) hcall]
  cases items[j]? <;> rfl

/-- Of some calls, those in the history got through. -/
inductive Delivered : List (Request G × Bool) → History G → Prop where
  | nil : Delivered [] []
  | reached {q : Request G} {certain : Bool} {now : Nat} {calls : List (Request G × Bool)}
      {h : History G} (rest : Delivered calls h) : Delivered ((q, certain) :: calls) ((q, now) :: h)
  | missed {q : Request G} {calls : List (Request G × Bool)} {h : History G}
      (rest : Delivered calls h) : Delivered ((q, false) :: calls) h

namespace Delivered

variable {calls : List (Request G × Bool)} {h : History G}

theorem forall_run {run : RunId} (hd : Delivered calls h) (hrun : ∀ c ∈ calls, c.1.run = run) :
    ∀ q ∈ h, q.1.run = run := by
  induction hd with
  | nil => exact fun q hq => absurd hq List.not_mem_nil
  | reached rest ih =>
    rw [List.forall_mem_cons] at hrun ⊢
    exact ⟨hrun.1, ih hrun.2⟩
  | missed rest ih => exact ih fun c hc => hrun c (List.mem_cons_of_mem _ hc)

/-- A call that is certain to get through comes last in the history if it is the last call. -/
theorem exists_last {q : Request G} (hd : Delivered (calls ++ [(q, true)]) h) :
    ∃ past now, h = past ++ [(q, now)] := by
  generalize hall : calls ++ [(q, true)] = all at hd
  induction hd generalizing calls with
  | nil => simp at hall
  | @reached q' certain now rest h hrest ih =>
    cases calls with
    | nil =>
      cases hall
      cases hrest
      exact ⟨[], now, rfl⟩
    | cons c calls =>
      obtain ⟨-, hrest⟩ := List.cons.inj hall
      obtain ⟨past, now', rfl⟩ := ih hrest
      exact ⟨(q', now) :: past, now', rfl⟩
  | @missed q' rest h hrest ih =>
    cases calls with
    | nil => cases hall
    | cons c calls =>
      obtain ⟨-, hrest⟩ := List.cons.inj hall
      exact ih hrest

end Delivered

namespace Intermediaries

variable (m : Intermediaries G σ) (behind : Nat → BlindingTrustee G) (s : σ)

/-- **What a question does** to the trustee behind trustee `j`: nothing, unless it is a request to it
that gets through. -/
theorem deliver_cases (q : Question G) (j : Nat) :
    (Event.callTo? j ⟨q, (m.answer q behind s).1⟩ = none ∧ m.deliver q behind s j = behind j) ∨
      ∃ request certain,
        Event.callTo? j ⟨q, (m.answer q behind s).1⟩ = some (request, certain) ∧
          ((∃ now, m.deliver q behind s j = (behind j).heed now request) ∨
            certain = false ∧ m.deliver q behind s j = behind j) := by
  have hcertain := m.delivered q behind s
  unfold deliver Event.callTo?
  cases hrequest : q.request? with
  | none => exact .inl ⟨rfl, rfl⟩
  | some call =>
    obtain ⟨k, request⟩ := call
    by_cases hk : k = j
    · subst hk
      refine .inr ⟨request, _, if_pos rfl, ?_⟩
      cases hdelivery : m.delivery? q behind s with
      | none =>
        rw [hdelivery] at hcertain
        refine .inr ⟨Bool.eq_false_iff.2 fun h => ?_, rfl⟩
        cases hcertain h
      | some now => exact .inl ⟨now, Function.update_self k _ behind⟩
    · refine .inl ⟨if_neg hk, ?_⟩
      cases hdelivery : m.delivery? q behind s with
      | none => rfl
      | some now => exact Function.update_of_ne (Ne.symm hk) _ behind

/-- **The trustees behind are as the requests that reached them leave them.** -/
theorem exists_delivered {α : Type} (d : Talk G α) (j : Nat) :
    ∃ h, Delivered (callsTo j (d.exchanges m.world (behind, s))) h ∧
      (d.hold m.world (behind, s)).2.1 j = (behind j).after h := by
  induction d generalizing behind s with
  | done a => exact ⟨[], .nil, rfl⟩
  | ask q next ih =>
    -- the first question may reach trustee `j`; the rest of the dialogue goes on from there
    obtain ⟨h, hd, hleft⟩ := ih (m.answer q behind s).1 (m.deliver q behind s) (m.answer q behind s).2
    rw [Dialogue.exchanges, callsTo_cons]
    show ∃ h, Delivered ((Event.callTo? j ⟨q, (m.answer q behind s).1⟩).toList ++ _) h ∧ _
    rcases m.deliver_cases behind s q j with ⟨hnone, hsame⟩ | ⟨request, certain, hcall, hdone⟩
    · rw [hnone]
      exact ⟨h, hd, hleft.trans (congrArg (BlindingTrustee.after · h) hsame)⟩
    · rw [hcall]
      rcases hdone with ⟨now, hheed⟩ | ⟨rfl, hsame⟩
      · exact ⟨(request, now) :: h, .reached hd,
          hleft.trans (congrArg (BlindingTrustee.after · h) hheed)⟩
      · exact ⟨h, .missed hd, hleft.trans (congrArg (BlindingTrustee.after · h) hsame)⟩

end Intermediaries

/-! ## The calls of a run -/

namespace Session

/-- The call to trustee `j` in a round, which is answered if the round succeeds. -/
theorem RoundCourse.callsTo_eq {α : Type} {session : Session G} {event : Nat → Reply α → Event G}
    {expected : Nat} {es : List (Event G)} {result : Except RunError (List (List α))}
    {call : Reply α → Request G × Bool} {j : Nat}
    (h : RoundCourse session event expected es result) (hj : j < session.trustees)
    (hcall : ∀ k reply, (event k reply).callTo? j = if k = j then some (call reply) else none) :
    ∃ reply, callsTo j es = [call reply] ∧ (result.isOk = true → reply.result.isOk = true) := by
  obtain ⟨replies, time, hasked, rfl, hresult⟩ := h.exists_replies
  have hlen : j < replies.length := hasked ▸ hj
  refine ⟨replies[j], ?_, fun hok => ?_⟩
  · rw [callsTo_append, callsTo_mapIdx hcall, List.getElem?_eq_getElem hlen]
    rfl
  · cases result with
    | error e => cases hok
    | ok rows =>
      have haccepted := Round.mapError_settle_eq_ok.1 hresult.symm
      obtain ⟨row, _, hrow⟩ := Paired.exists_right haccepted (List.getElem_mem hlen)
      rw [hrow.result]
      rfl

/-- Calls that are about a run, the last of which has ended it for certain. -/
structure Closes (run : RunId) (calls : List (Request G × Bool)) : Prop where
  forall_run : ∀ c ∈ calls, c.1.run = run
  exists_last : ∃ past q, calls = past ++ [(q, true)] ∧ q.ends = true

/-- The calls to a trustee in the two rounds are about the run, and if the rounds succeed, the last of
them is a challenge that is answered. -/
theorem RoundsCourse.calls {session : Session G} {run : RunId} {quotient : Quotient G}
    {es : List (Event G)} {result : Except RunError (Rounds G)} {j : Nat}
    (h : RoundsCourse session run quotient es result) (hj : j < session.trustees) :
    (∀ c ∈ callsTo j es, c.1.run = run) ∧ (result.isOk = true → Closes run (callsTo j es)) := by
  have hblind (k : Nat) (reply : Reply (Contribution G)) :
      (Event.blind ⟨run, quotient.ratios⟩ k reply).callTo? j =
        if k = j then some (.blind ⟨run, quotient.ratios⟩, false) else none := rfl
  have hchallenge (rows : List (List (Contribution G))) (k : Nat)
      (reply : Reply (ChallengeResponse G)) :
      (Event.challenge (session.challengeRequest run quotient rows) k reply).callTo? j =
        if k = j then some (.challenge (session.challengeRequest run quotient rows j),
          reply.result.isOk) else none := by
    show (if k = j then some _ else none) = _
    split
    · rename_i hk
      rw [hk]
      rfl
    · rfl
  -- a call to blind comes first, and a challenge second if it comes to that
  cases h with
  | unblinded first =>
    obtain ⟨reply, hcalls, -⟩ := first.callsTo_eq hj hblind
    rw [hcalls]
    exact ⟨List.forall_mem_singleton.2 rfl, fun hok => by cases hok⟩
  | degenerate first found =>
    obtain ⟨reply, hcalls, -⟩ := first.callsTo_eq hj hblind
    rw [callsTo_append, hcalls]
    exact ⟨List.forall_mem_singleton.2 rfl, fun hok => by cases hok⟩
  | @unanswered es es' rows e first proper second =>
    obtain ⟨reply, hfirst, -⟩ := first.callsTo_eq hj hblind
    obtain ⟨reply', hsecond, -⟩ := second.callsTo_eq hj (hchallenge rows)
    have hlater : callsTo j (.reached .blind :: .reached .aggregate :: .reached .challenge :: es') =
        callsTo j es' := rfl
    rw [callsTo_append, hfirst, hlater, hsecond]
    exact ⟨List.forall_mem_cons.2 ⟨rfl, List.forall_mem_singleton.2 rfl⟩, fun hok => by cases hok⟩
  | @answered es es' rows answers first proper second =>
    obtain ⟨reply, hfirst, -⟩ := first.callsTo_eq hj hblind
    obtain ⟨reply', hsecond, hok⟩ := second.callsTo_eq hj (hchallenge rows)
    have hlater : callsTo j (.reached .blind :: .reached .aggregate :: .reached .challenge ::
        (es' ++ [.reached .respond])) = callsTo j es' ++ [] := callsTo_append j es' [.reached .respond]
    rw [callsTo_append, hfirst, hlater, hsecond, hok rfl]
    have hrun : ∀ c ∈ [(Request.blind ⟨run, quotient.ratios⟩, false),
        (Request.challenge (session.challengeRequest run quotient rows j), true)], c.1.run = run :=
      List.forall_mem_cons.2 ⟨rfl, List.forall_mem_singleton.2 rfl⟩
    exact ⟨hrun, fun _ => ⟨hrun, [_], _, rfl, rfl⟩⟩

/-- No trustee is called after the rounds. -/
theorem ConclusionCourse.calls {session : Session G} {quotient : Quotient G} {rounds : Rounds G}
    {es : List (Event G)} {result : Checked RunError (BallotCertificate G)}
    (h : ConclusionCourse session quotient rounds es result) (j : Nat) :
    callsTo j es = [] := by
  cases h <;> rfl

theorem callsTo_ended (j : Nat) (outcome? : Option Outcome) :
    callsTo j (outcome?.toList.map (Event.ended (G := G))) = [] := by
  cases outcome? with
  | none => rfl
  | some outcome => rfl

/-- **The last request to each trustee ends the run for it**, if the ballots are comparable. -/
theorem RunCourse.closes {session : Session G} {first second : Ballot G} {es : List (Event G)}
    {result : Checked RunError (BallotCertificate G)} {n : UInt64} {quotient : Quotient G} {j : Nat}
    (h : RunCourse session first second (⟨.number, n⟩ :: es) result)
    (hcomparable : Quotient.ofBallots first second = .ok quotient) (hj : j < session.trustees) :
    Closes ⟨session.name, n⟩ (callsTo j es) := by
  cases h with
  | incomparable mismatch => cases hcomparable.symm.trans mismatch
  | @released _ quotient es e delays comparable failed asked =>
    obtain ⟨hrun, -⟩ := failed.calls hj
    have hdelay : delays[j]? = some delays[j] := List.getElem?_eq_getElem (asked ▸ hj)
    have hrelease : callsTo j (delays.mapIdx (Event.release ⟨session.name, n⟩) : List (Event G)) =
        [(.release ⟨session.name, n⟩, true)] := by
      have hcall (k delay : Nat) : (Event.release ⟨session.name, n⟩ k delay : Event G).callTo? j =
          if k = j then some (.release ⟨session.name, n⟩, true) else none := rfl
      rw [callsTo_mapIdx hcall, hdelay]
      rfl
    have hcalls : callsTo j (.reached .ratio :: (es ++ (delays.mapIdx (Event.release ⟨session.name, n⟩) ++
        [.passed (Round.longest session.limits.patience delays), .ended .failed]))) =
        callsTo j es ++ [(.release ⟨session.name, n⟩, true)] := by
      rw [callsTo_cons, callsTo_append, callsTo_append, hrelease]
      rfl
    rw [hcalls]
    refine ⟨List.forall_mem_append.2 ⟨hrun, List.forall_mem_singleton.2 rfl⟩, _, _, rfl, rfl⟩
  | @concluded _ quotient es es' rounds _ comparable answered conclusion =>
    have hcalls : callsTo j (.reached .ratio :: (es ++ (es' ++ (outcome? result).toList.map .ended))) =
        callsTo j es := by
      rw [callsTo_cons, callsTo_append, callsTo_append, conclusion.calls, callsTo_ended]
      exact List.append_nil _
    rw [hcalls]
    exact (answered.calls hj).2 rfl

/-- Nobody is asked anything if the ballots are not comparable. -/
theorem RunCourse.silent {session : Session G} {first second : Ballot G} {es : List (Event G)}
    {result : Checked RunError (BallotCertificate G)} {mismatch : BallotMismatch}
    (h : RunCourse session first second es result)
    (hmismatch : Quotient.ofBallots first second = .error mismatch) :
    ∀ e ∈ es, e.1.request? = none ∧ e.isDecrypt = false := by
  cases h with
  | incomparable => exact List.forall_mem_cons.2 ⟨⟨rfl, rfl⟩, List.forall_mem_singleton.2 ⟨rfl, rfl⟩⟩
  | released comparable => cases hmismatch.symm.trans comparable
  | concluded comparable => cases hmismatch.symm.trans comparable

/-! ## Releases -/

/-- A request to release a run. -/
def release? : Event G → Option (Nat × RunId)
  | ⟨.release j run, _⟩ => some (j, run)
  | _ => none

/-- The requests to release runs, in order. -/
def releases (es : List (Event G)) : List (Nat × RunId) := es.filterMap release?

/-- Whether a run failed in the two rounds: because of a trustee, or of degenerate blindings. -/
def isAborted : Checked RunError (BallotCertificate G) → Bool
  | .error (.error (.transport _ _)) => true
  | .error (.error (.degenerateBlinding _)) => true
  | _ => false

theorem releases_append (es es' : List (Event G)) :
    releases (es ++ es') = releases es ++ releases es' :=
  List.filterMap_append

/-- Nobody is asked to release anything in the two rounds. -/
theorem RoundsCourse.releases_eq {session : Session G} {run : RunId} {quotient : Quotient G}
    {es : List (Event G)} {result : Except RunError (Rounds G)}
    (h : RoundsCourse session run quotient es result) : releases es = [] := by
  unfold releases
  rw [List.filterMap_eq_nil_iff]
  exact h.forall_mem (fun _ _ => rfl) (fun _ _ _ => rfl) (fun _ => rfl) fun _ => rfl

/-- After the rounds nobody is asked to release anything, and a run that comes that far is not
aborted. -/
theorem ConclusionCourse.releases_eq {session : Session G} {quotient : Quotient G} {rounds : Rounds G}
    {es : List (Event G)} {result : Checked RunError (BallotCertificate G)}
    (h : ConclusionCourse session quotient rounds es result) :
    releases es = [] ∧ isAborted result = false := by
  cases h <;> exact ⟨rfl, rfl⟩

theorem RoundsCourse.isAborted {session : Session G} {run : RunId} {quotient : Quotient G}
    {es : List (Event G)} {e : RunError} (h : RoundsCourse session run quotient es (.error e)) :
    Session.isAborted (Checked.refuse e : Checked RunError (BallotCertificate G)) = true := by
  rcases h.error with ⟨j, source, rfl⟩ | ⟨paths, rfl⟩
  · rfl
  · rfl

/-- **Who is asked to release a run**: every trustee once if the run is aborted, and nobody otherwise. -/
theorem RunCourse.releases_eq {session : Session G} {first second : Ballot G} {es : List (Event G)}
    {result : Checked RunError (BallotCertificate G)} {n : UInt64}
    (h : RunCourse session first second (⟨.number, n⟩ :: es) result) :
    releases es = if Session.isAborted result then
      (List.range session.trustees).map fun j => (j, ⟨session.name, n⟩) else [] := by
  cases h with
  | incomparable => rfl
  | @released _ quotient es e delays comparable failed asked =>
    have hasked : releases (delays.mapIdx (Event.release ⟨session.name, n⟩) : List (Event G)) =
        (List.range session.trustees).map fun j => (j, ⟨session.name, n⟩) := by
      have hsome : (release? ∘ fun x : Nat × Nat =>
          (Event.release ⟨session.name, n⟩ x.2 x.1 : Event G)) =
          some ∘ ((fun j => (j, ⟨session.name, n⟩)) ∘ Prod.snd) := rfl
      unfold releases
      rw [List.mapIdx_eq_zipIdx_map, List.filterMap_map, hsome, List.filterMap_eq_map,
        ← List.map_map, List.zipIdx_map_snd, ← List.range_eq_range', asked]
    have hrest : releases [(Event.passed (Round.longest session.limits.patience delays) : Event G),
        .ended .failed] = [] := rfl
    rw [if_pos failed.isAborted, ← hasked]
    calc releases (.reached .ratio :: (es ++ (delays.mapIdx (Event.release ⟨session.name, n⟩) ++
            [.passed (Round.longest session.limits.patience delays), .ended .failed])))
        = releases (es ++ (delays.mapIdx (Event.release ⟨session.name, n⟩) ++
            [.passed (Round.longest session.limits.patience delays), .ended .failed])) := rfl
      _ = releases (delays.mapIdx (Event.release ⟨session.name, n⟩)) := by
        rw [releases_append, releases_append, failed.releases_eq, hrest, List.nil_append,
          List.append_nil]
  | @concluded _ quotient es es' rounds _ comparable answered conclusion =>
    obtain ⟨hnone, hdone⟩ := conclusion.releases_eq
    have hended : releases ((outcome? result).toList.map (Event.ended (G := G))) = [] := by
      cases outcome? result with
      | none => rfl
      | some outcome => rfl
    rw [if_neg (by simp [hdone])]
    calc releases (.reached .ratio :: (es ++ (es' ++ (outcome? result).toList.map .ended)))
        = releases (es ++ (es' ++ (outcome? result).toList.map .ended)) := rfl
      _ = [] := by
        rw [releases_append, releases_append, answered.releases_eq, hnone, hended]
        rfl

/-! ## What is left -/

/-- What the requests that got through leave with a trustee behind. -/
theorem RunCourse.kept {session : Session G} {first second : Ballot G} {es : List (Event G)}
    {result : Checked RunError (BallotCertificate G)} {n : UInt64} {j : Nat} {h : History G}
    (hcourse : RunCourse session first second (⟨.number, n⟩ :: es) result)
    (trustee : BlindingTrustee G) (hj : j < session.trustees) (hd : Delivered (callsTo j es) h) :
    (∀ r ∈ (trustee.after h).retained, r ∈ trustee.retained) ∧
      ((∃ quotient, Quotient.ofBallots first second = .ok quotient) → trustee.mode = .retained →
        (trustee.after h).retains ⟨session.name, n⟩ = false) := by
  cases hballots : Quotient.ofBallots first second with
  | error mismatch =>
    have hsilent := hcourse.silent hballots
    rw [callsTo_of_silent fun e he => (hsilent e (List.mem_cons_of_mem _ he)).1] at hd
    cases hd
    exact ⟨fun _ hr => hr, fun ⟨_, hcomparable⟩ => by cases hcomparable⟩
  | ok quotient =>
    obtain ⟨hrun, past, q, hcalls, hends⟩ := hcourse.closes hballots hj
    have hforall := hd.forall_run hrun
    rw [hcalls] at hd
    obtain ⟨past', now, hh⟩ := hd.exists_last
    obtain ⟨hbefore, hended⟩ := BlindingTrustee.kept_after hforall ⟨past', q, now, hh, hends⟩
    exact ⟨hbefore, fun _ => hended⟩

/-- **Nothing is kept of a run.**  Whoever the trustees in front and the guardians are, and however a run
ends, each trustee behind keeps only what it kept before, so nothing for a run with a new name; and once
the ballots are found comparable, it keeps nothing under the name of the run at all.  Every trustee is
asked to release the run once if it failed in the two rounds, and none is otherwise; and if the ballots
are not comparable, nobody is asked anything. -/
theorem nothing_kept (session : Session G) (m : Intermediaries G σ)
    (behind : Nat → BlindingTrustee G) (s : σ) (first second : Ballot G) :
    let run : RunId := ⟨session.name, (m.world .number (behind, s)).1⟩
    let said := (session.run first second).exchanges m.world (behind, s)
    let result := ((session.run first second).hold m.world (behind, s)).1
    let left := ((session.run first second).hold m.world (behind, s)).2.1
    (∀ j < session.trustees,
      (∀ r ∈ (left j).retained, r ∈ (behind j).retained) ∧
      ((behind j).retains run = false → (left j).retains run = false) ∧
      ((∃ quotient, Quotient.ofBallots first second = .ok quotient) → (behind j).mode = .retained →
        (left j).retains run = false)) ∧
    releases said = (if isAborted result then (List.range session.trustees).map fun j => (j, run)
      else []) ∧
    ((∃ mismatch, Quotient.ofBallots first second = .error mismatch) →
      ∀ e ∈ said, e.1.request? = none ∧ Event.isDecrypt e = false) := by
  intro run said result left
  have hcourse : RunCourse session first second said result :=
    course_run (Dialogue.course_hold m.world (session.run first second) (behind, s))
  obtain ⟨later, hsaid⟩ : ∃ later, said = ⟨.number, (m.world .number (behind, s)).1⟩ :: later :=
    ⟨_, rfl⟩
  rw [hsaid] at hcourse
  refine ⟨fun j hj => ?_, ?_, fun ⟨mismatch, hmismatch⟩ => ?_⟩
  · obtain ⟨h, hdelivered, hleft⟩ := m.exists_delivered behind s (session.run first second) j
    have hcalls : callsTo j said = callsTo j later := by
      rw [hsaid]
      rfl
    have hleft : left j = (behind j).after h := hleft
    have hdelivered : Delivered (callsTo j later) h := hcalls ▸ hdelivered
    obtain ⟨hbefore, hended⟩ := hcourse.kept (behind j) hj hdelivered
    rw [hleft]
    refine ⟨hbefore, fun hnew => ?_, hended⟩
    rw [BlindingTrustee.retains_eq_false] at hnew ⊢
    exact fun r hr => hnew r (hbefore r hr)
  · rw [hsaid]
    exact hcourse.releases_eq
  · rw [hsaid]
    exact hcourse.silent hmismatch

end Session

/-! ## A small run -/

namespace Small

/-- Trustees that pass everything on, and of which the second one answers with nothing. -/
def withholding : Intermediaries Group Unit :=
  .forwarding
    (fun q behind _ => match q with
      | .number => (0, ())
      | .blind j request =>
        (⟨0, .ok (if j = 0 then (behind j).contributions request.ciphertexts else [])⟩, ())
      | .challenge _ _ => (⟨0, .ok []⟩, ())
      | .release _ _ => (0, ())
      | .decrypt _ => (.ok [], ())
      | .pass _ => ((), ())
      | .reached _ => ((), ())
      | .ended _ => ((), ()))
    fun _ _ => 0

/-- Both trustees behind have drawn numbers for a run that is aborted; both are asked to release it, once,
and neither keeps anything. -/
theorem kept_withholding :
    let behind : Nat → BlindingTrustee Group := fun _ => .ofTape "behind" tape
    let run : RunId := ⟨session.name, 0⟩
    let said := (session.run first second).exchanges withholding.world (behind, ())
    let held := (session.run first second).hold withholding.world (behind, ())
    Session.isAborted held.1 = true ∧ Session.releases said = [(0, run), (1, run)] ∧
      ∀ j < 2, tape.used < (held.2.1 j).tape.used ∧ (held.2.1 j).retained = [] := by
  intro behind run said held
  have haborted : Session.isAborted held.1 = true := by decide +kernel
  have hdrawn : ∀ j < 2, tape.used < (held.2.1 j).tape.used := by decide +kernel
  obtain ⟨hkept, hreleases, -⟩ := session.nothing_kept withholding behind () first second
  -- the run in place of its name, so that nothing is evaluated to see that they are the same
  subst held
  rw [if_pos haborted] at hreleases
  refine ⟨haborted, hreleases, fun j hj => ⟨hdrawn j hj, ?_⟩⟩
  rw [List.eq_nil_iff_forall_not_mem]
  intro r hr
  obtain ⟨hbefore, -⟩ := hkept j hj
  exact List.not_mem_nil (hbefore r hr)

end Small

end PlaintextEquivalence
