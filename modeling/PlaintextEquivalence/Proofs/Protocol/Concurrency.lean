import PlaintextEquivalence.Proofs.Election.Quorum
import PlaintextEquivalence.Proofs.Protocol.Schedule

/-!
# Runs of many pairs are faithful

Runs of pairs of ballots that are under way at once, no more of them than trustees have room for, can
always go on until all are over, which they are after so many steps.  Then each has the result that the
votes of its pair call for, whatever was asked in between for the others; each had a number of its own,
under which alone it asked trustees for anything; and no trustee keeps anything.

Principal results:
* `Inv.count_le`, `Interplay.exists_step` — runs come to an end.
* `Inv.areFaithful`, `Inv.retained_eq_nil` — what has come of them then.
* `runMany_faithful` — so it is whatever follows each other, and so it is for a schedule.
-/

set_option autoImplicit false

namespace PlaintextEquivalence

open Polynomial

variable {G : PrimeGroup} {α : Type}

/-- Results for pairs of ballots, one for each in order, that are faithful to the votes on them and to the
tapes of trustees. -/
structure AreFaithful (election : Election G) (trustees : List (BlindingTrustee G))
    (pairs : List (Ballot G × Ballot G)) (votes votes' : Nat → SelectionPath → UInt64)
    (results : List (Checked RunError (BallotCertificate G))) : Prop where
  count : results.length = pairs.length
  faithful : ∀ i pair result, pairs[i]? = some pair → results[i]? = some result →
    IsFaithful election trustees pair.1 pair.2 (votes i) (votes' i) result

namespace Interplay

variable {session : Session G} {s : Interplay G α}

/-- Each step begins a run or adds to what was said in one. -/
theorem Reached.count_eq {runs : List (Talk G α)} {a : Assembly G} {n : Nat}
    (h : Reached session runs a n s) :
    n = s.begun.length + (s.begun.map fun c => c.said.length).sum := by
  induction h with
  | start => rfl
  | step _ step ih =>
    cases step with
    | start room =>
      simp only [List.length_append, List.map_append, List.sum_append, List.length_singleton,
        List.map_singleton, List.sum_singleton, List.length_nil] at ih ⊢
      omega
    | answer asked given =>
      simp only [List.length_append, List.map_append, List.sum_append, List.length_cons, List.map_cons,
        List.sum_cons, List.length_nil] at ih ⊢
      omega

/-- **Something can happen** as long as not all is over: a question is answered at once, or the next run is
begun if no other goes on. -/
theorem exists_step (htime : ∃ clock, s.parties.InTime clock) (hover : ¬ s.IsOver) :
    ∃ s', Step session s s' := by
  obtain ⟨clock, hclock⟩ := htime
  obtain ⟨unbegun, begun, parties⟩ := s
  by_cases hgoing : ∃ c ∈ begun, c.goesOn = true
  · obtain ⟨⟨said, rest⟩, hc, hgoesOn⟩ := hgoing
    obtain ⟨before, after, rfl⟩ := List.append_of_mem hc
    cases rest with
    | done result => cases hgoesOn
    | ask q next => exact ⟨_, .answer (.next _) (.intro q hclock (Nat.zero_le _))⟩
  · have hidle : ∀ c ∈ begun, ¬ c.goesOn = true := fun c hc hgoesOn => hgoing ⟨c, hc, hgoesOn⟩
    cases unbegun with
    | nil => exact absurd ⟨rfl, fun c hc => Bool.eq_false_iff.2 (hidle c hc)⟩ hover
    | cons run unbegun =>
      refine ⟨_, .start ?_⟩
      rw [List.countP_eq_zero.2 hidle]
      exact Session.width_pos session.limits

/-- When all is over, all results are known. -/
theorem IsOver.exists_results {s : Interplay G α} (h : s.IsOver) :
    ∃ results : List α, s.results = results.map some := by
  refine ⟨s.begun.filterMap (·.result?), ?_⟩
  rw [results, List.map_filterMap, eq_comm, List.filterMap_eq_map_iff_forall_eq_some]
  intro c hc
  cases hresult : c.result? with
  | none => exact absurd (h.2 c hc) (by simp [Conversation.goesOn, hresult])
  | some result => rfl

end Interplay

namespace Interplay.Inv

variable {session : Session G} {secret : G.Scalar} {pairs : List (Ballot G × Ballot G)} {a : Assembly G}
  {s : Interplay G (Checked RunError (BallotCertificate G))}

/-- **Runs take only so many steps.** -/
theorem count_le (h : s.Inv session secret pairs a) {n : Nat}
    (hreached : Reached session (runsOf session pairs) a n s) :
    n ≤ pairs.length * (session.longest + 1) := by
  have hsaid : (s.begun.map fun c => c.said.length).sum ≤ s.begun.length * session.longest := by
    refine sum_map_le fun c hc => ?_
    obtain ⟨pair, -, hfollows⟩ := h.follows hc
    exact hfollows.length_le
  calc n = s.begun.length + (s.begun.map fun c => c.said.length).sum := hreached.count_eq
    _ ≤ s.begun.length + s.begun.length * session.longest := Nat.add_le_add_left hsaid _
    _ = s.begun.length * (session.longest + 1) := by rw [Nat.mul_succ, Nat.add_comm]
    _ ≤ pairs.length * (session.longest + 1) := Nat.mul_le_mul_right _ h.length_begun_le

/-- At the beginning of time nothing has been kept for too long. -/
theorem inTime (h : s.Inv session secret pairs a)
    (hlasting : ∀ trustee ∈ a.trustees, 0 < trustee.retention.nanos) :
    s.parties.InTime fun _ => 0 := by
  intro j trustee hj r _
  obtain ⟨initial, hinitial, hsettings⟩ := h.exists_settings hj
  have hretention : trustee.retention = initial.retention := congrArg (fun x => x.2.1) hsettings
  rw [Nat.zero_sub, hretention]
  exact hlasting initial hinitial

/-- Each run asks trustees under its own number only. -/
theorem exists_number_of_request (h : s.Inv session secret pairs a)
    {c : Conversation G (Checked RunError (BallotCertificate G))} (hc : c ∈ s.begun) {e : Event G}
    (he : e ∈ c.said) {j : Nat} {request : Request G} (hrequest : e.1.request? = some (j, request)) :
    ∃ n, numbers c.said = [n] ∧ request.run = ⟨session.name, n⟩ := by
  obtain ⟨pair, -, hfollows⟩ := h.follows hc
  obtain ⟨n, hn⟩ := hfollows.exists_numbers (List.ne_nil_of_mem he)
  exact ⟨n, hn, hfollows.run_of_request (hn ▸ List.mem_singleton_self n) he hrequest⟩

/-- **When all is over**, no trustee keeps anything. -/
theorem retained_eq_nil (hgiven : Given session pairs a) (h : s.Inv session secret pairs a)
    (hover : s.IsOver) : ∀ trustee ∈ s.parties.trustees, trustee.retained = [] := by
  intro trustee htrustee
  obtain ⟨j, hj⟩ := List.mem_iff_getElem?.1 htrustee
  refine List.eq_nil_iff_forall_not_mem.2 fun r hr => ?_
  obtain ⟨owner, howner, hblinded, -⟩ := (h.kept j trustee hj).owned r hr
  have hgoesOn := h.goesOn_of_isBlindedAt hgiven howner (h.lt_trustees hgiven hj) hblinded
  exact Bool.false_ne_true ((hover.2 owner howner).symm.trans hgoesOn)

variable [hG : PrimeGroup.Lawful G] {P : G.Scalar[X]}

/-- **A run that is over** has a faithful result. -/
theorem isFaithful (hgiven : Given session pairs a) (h : s.Inv session (P.eval 0) pairs a)
    (hkeys : session.election.keys.LiesOn P)
    {c : Conversation G (Checked RunError (BallotCertificate G))} (hc : c ∈ s.begun)
    {pair : Ballot G × Ballot G} (hpair : pair ∈ pairs)
    (hfollows : Talk.Follows (session.run pair.1 pair.2) c.said c.rest)
    {result : Checked RunError (BallotCertificate G)} (hresult : c.rest = .done result)
    {votes votes' : SelectionPath → UInt64}
    (hfirst : pair.1.Encrypts session.election.jointKey votes)
    (hsecond : pair.2.Encrypts session.election.jointKey votes') :
    IsFaithful session.election a.trustees pair.1 pair.2 votes votes' result := by
  rw [hresult] at hfollows
  obtain ⟨all, hrun, hperm⟩ := hfollows.exists_perm
  obtain ⟨drew, hserved⟩ := h.served c hc
  have hcount : session.trustees = drew.length := by
    have hsettings := congrArg List.length h.settings
    rw [List.length_map, List.length_map] at hsettings
    rw [hgiven.count, hserved.length_eq, hsettings]
  exact Session.RunCourse.isFaithful (a := { s.parties with trustees := drew }) hrun hkeys hcount
    (hserved.settings.trans h.settings) (hserved.answered.mono hperm.subset)
    (hgiven.comparable pair hpair) hfirst hsecond

/-- **When all is over**, the results are faithful. -/
theorem areFaithful (hgiven : Given session pairs a) (h : s.Inv session (P.eval 0) pairs a)
    (hkeys : session.election.keys.LiesOn P) (hover : s.IsOver)
    {votes votes' : Nat → SelectionPath → UInt64}
    (hfirst : ∀ i (pair : Ballot G × Ballot G), pairs[i]? = some pair →
      pair.1.Encrypts session.election.jointKey (votes i))
    (hsecond : ∀ i (pair : Ballot G × Ballot G), pairs[i]? = some pair →
      pair.2.Encrypts session.election.jointKey (votes' i))
    {results : List (Checked RunError (BallotCertificate G))} (hresults : s.results = results.map some) :
    AreFaithful session.election a.trustees pairs votes votes' results := by
  have hplaces := h.forall₂_of_isOver hover
  constructor
  case count =>
    have hlength := congrArg List.length hresults
    rw [Interplay.results, List.length_map, List.length_map] at hlength
    rw [← hlength, hplaces.length_eq]
  case faithful =>
    intro i pair result hpair hresult
    obtain ⟨c, hc, hfollows⟩ := Paired.exists_getElem? hplaces.flip hpair
    have hat := congrArg (·[i]?) hresults
    simp only [Interplay.results, List.getElem?_map, hc, hresult, Option.map_some] at hat
    obtain ⟨said, rest⟩ := c
    have hrest : rest = .done result := by
      cases rest with
      | done a => exact congrArg Dialogue.done (Option.some.inj (Option.some.inj hat))
      | ask q next => cases Option.some.inj hat
    exact h.isFaithful hgiven hkeys (List.mem_of_getElem? hc) (List.mem_of_getElem? hpair) hfollows hrest
      (hfirst i pair hpair) (hsecond i pair hpair)

end Interplay.Inv

namespace Session

/-- **Runs of many pairs are faithful.**  Guardians that were accepted for a key set are at least as many as
its threshold, and trustees keep nothing at first and have room for as many runs as go on at once.  Then
runs of fewer than `2 ^ 64` pairs of comparable ballots, whatever is asked and answered in between for
others, can go on until all are over, and are so after so many steps.  Their numbers are different, and each
asks trustees under its own number only.  In the end there is a faithful result for each pair, which gives
up only for the selections that the numbers of the trustees make degenerate, and no trustee keeps anything.
A schedule, whatever the clocks show and however long the answers take as long as nothing kept is too old
and no answer too late, comes to such an end. -/
theorem runMany_faithful [hG : PrimeGroup.Lawful G] {session : Session G} {params : ThresholdParams}
    {guardians : List (Guardian G)} {tape : Tape} {a : Assembly G} {pairs : List (Ballot G × Ballot G)}
    {votes votes' : Nat → SelectionPath → UInt64}
    (hmade : session.election.keys.IsMade params) (hpos : 0 < params.threshold)
    (hle : params.threshold ≤ params.shares)
    (haccepted : ∀ g ∈ guardians, g.IsAccepted session.election.keys)
    (henough : params.threshold.toNat ≤ (guardians.map (·.index)).toFinset.card)
    (hboard : a.board = GuardianBoard.ofGuardians guardians tape)
    (hcount : session.trustees = a.trustees.length)
    (hempty : ∀ trustee ∈ a.trustees, trustee.retained = [])
    (hlasting : ∀ trustee ∈ a.trustees, 0 < trustee.retention.nanos)
    (hroom : ∀ trustee ∈ a.trustees, session.limits.width.toNat ≤ trustee.capacity)
    (hfew : pairs.length < 2 ^ 64)
    (hcomparable : ∀ pair ∈ pairs, ∃ quotient, Quotient.ofBallots pair.1 pair.2 = .ok quotient)
    (hfirst : ∀ i (pair : Ballot G × Ballot G), pairs[i]? = some pair →
      pair.1.Encrypts session.election.jointKey (votes i))
    (hsecond : ∀ i (pair : Ballot G × Ballot G), pairs[i]? = some pair →
      pair.2.Encrypts session.election.jointKey (votes' i)) :
    (∀ n s, Interplay.Reached session (Interplay.runsOf session pairs) a n s →
      n ≤ pairs.length * (session.longest + 1) ∧
      (¬ s.IsOver → ∃ s', Interplay.Step session s s') ∧
      (s.begun.flatMap fun c => numbers c.said).Nodup ∧
      (∀ c ∈ s.begun, ∀ e ∈ c.said, ∀ j request, e.1.request? = some (j, request) →
        ∃ m, numbers c.said = [m] ∧ request.run = ⟨session.name, m⟩) ∧
      (s.IsOver → (∀ trustee ∈ s.parties.trustees, trustee.retained = []) ∧
        ∃ results, s.results = results.map some ∧
          AreFaithful session.election a.trustees pairs votes votes' results)) ∧
    ∀ clock delay,
      (∀ j trustee, a.trustees[j]? = some trustee →
        ∀ k k', clock k j - clock k' j < trustee.retention.nanos) →
      (∀ k, delay k ≤ session.limits.patience.nanos) →
      let done := session.runMany (Assembly.timed session.election clock delay) pairs (a, 0)
      AreFaithful session.election a.trustees pairs votes votes' done.1 ∧
      (∀ trustee ∈ done.2.1.trustees, trustee.retained = []) ∧
      ∃ n s, Interplay.Reached session (Interplay.runsOf session pairs) a n s ∧ s.IsOver ∧
        s.results = done.1.map some ∧ s.parties = done.2.1 := by
  obtain ⟨rfl, P, hkeys⟩ := hmade.exists_liesOn hpos hle
  have hgiven : Interplay.Given session pairs a :=
    { comparable := hcomparable
      few := hfew
      count := hcount
      empty := hempty
      room := hroom
      decrypt := Assembly.canDecrypt_of_holds hboard (fun g hg => (haccepted g hg).holds) henough }
  refine ⟨fun n s hreached => ?_, fun clock delay hshort hpatient => ?_⟩
  · have hinv := Interplay.inv_reached hgiven hkeys hreached
    refine ⟨hinv.count_le hreached, Interplay.exists_step ⟨_, hinv.inTime hlasting⟩,
      hinv.nodup_numbers hgiven, fun c hc e he j request => hinv.exists_number_of_request hc he,
      fun hover => ⟨hinv.retained_eq_nil hgiven hover, ?_⟩⟩
    obtain ⟨results, hresults⟩ := hover.exists_results
    exact ⟨results, hresults, hinv.areFaithful hgiven hkeys hover hfirst hsecond hresults⟩
  · have htime : a.KeepsTime clock := by
      refine ⟨hshort, fun j trustee hj r hr => ?_⟩
      rw [hempty trustee (List.mem_of_getElem? hj)] at hr
      cases hr
    obtain ⟨n, s, hreached, hover, hresults, hparties⟩ := runMany_reached hgiven hkeys htime hpatient
    have hinv := Interplay.inv_reached hgiven hkeys hreached
    refine ⟨hinv.areFaithful hgiven hkeys hover hfirst hsecond hresults, ?_,
      n, s, hreached, hover, hresults, hparties⟩
    rw [← hparties]
    exact hinv.retained_eq_nil hgiven hover

end Session

/-! ## Two small runs -/

namespace Small

/-- The two ballots, and the two the other way round. -/
def pairs : List (Ballot Group × Ballot Group) := [(first, second), (second, first)]

/-- Two small runs at once, with clocks that go back and forth and answers that take their time. -/
theorem runMany_small :
    election.keys.IsMade dealer.params ∧ (∀ g ∈ guardians, g.IsAccepted election.keys) ∧
    (∀ pair ∈ pairs, ∃ quotient, Quotient.ofBallots pair.1 pair.2 = .ok quotient) ∧
    (∀ trustee ∈ assembly.trustees, trustee.retained = [] ∧ 7 ≤ trustee.retention.nanos ∧
      session.limits.width.toNat ≤ trustee.capacity) ∧
    let done := session.runMany
      (Assembly.timed session.election (fun k j => (k + j) % 7) fun k => k % 5) pairs (assembly, 0)
    AreFaithful session.election assembly.trustees pairs (fun i _ => if i = 0 then 1 else 0)
      (fun i _ => if i = 0 then 0 else 1) done.1 ∧
    ∀ trustee ∈ done.2.1.trustees, trustee.retained = [] := by
  have hcomparable : ∀ pair ∈ pairs, ∃ quotient, Quotient.ofBallots pair.1 pair.2 = .ok quotient :=
    List.forall_mem_cons.2 ⟨⟨_, rfl⟩, List.forall_mem_singleton.2 ⟨_, rfl⟩⟩
  have htrustees : ∀ trustee ∈ assembly.trustees, trustee.retained = [] ∧
      7 ≤ trustee.retention.nanos ∧ session.limits.width.toNat ≤ trustee.capacity := by
    decide
  have hfirst : ∀ i (pair : Ballot Group × Ballot Group), pairs[i]? = some pair →
      pair.1.Encrypts election.jointKey fun _ => if i = 0 then 1 else 0 := by
    rintro (_ | _ | i) pair hpair
    · cases hpair
      exact encrypts_first
    · cases hpair
      exact encrypts_second
    · cases hpair
  have hsecond : ∀ i (pair : Ballot Group × Ballot Group), pairs[i]? = some pair →
      pair.2.Encrypts election.jointKey fun _ => if i = 0 then 0 else 1 := by
    rintro (_ | _ | i) pair hpair
    · cases hpair
      exact encrypts_second
    · cases hpair
      exact encrypts_first
    · cases hpair
  have hshort : ∀ j trustee, assembly.trustees[j]? = some trustee →
      ∀ k k', (k + j) % 7 - (k' + j) % 7 < trustee.retention.nanos := by
    intro j trustee hj k k'
    have hlt := Nat.mod_lt (k + j) (Nat.zero_lt_succ 6)
    have hlong := (htrustees trustee (List.mem_of_getElem? hj)).2.1
    omega
  have hpatience : 5 ≤ session.limits.patience.nanos := by decide
  have hpatient : ∀ k, k % 5 ≤ session.limits.patience.nanos := fun k =>
    Nat.le_trans (Nat.le_of_lt (Nat.mod_lt k (Nat.zero_lt_succ 4))) hpatience
  obtain ⟨-, hschedule⟩ := Session.runMany_faithful isMade_keys (by decide) (by decide)
    isAccepted_guardians (by decide) rfl rfl (fun t ht => (htrustees t ht).1)
    (fun t ht => Nat.lt_of_lt_of_le (Nat.zero_lt_succ 6) (htrustees t ht).2.1)
    (fun t ht => (htrustees t ht).2.2) (by decide) hcomparable hfirst hsecond
  obtain ⟨hfaithful, hempty, -⟩ := hschedule (fun k j => (k + j) % 7) (fun k => k % 5) hshort hpatient
  exact ⟨isMade_keys, isAccepted_guardians, hcomparable, htrustees, hfaithful, hempty⟩

end Small

end PlaintextEquivalence
