import PlaintextEquivalence.Proofs.Protocol.Service
import PlaintextEquivalence.Protocol.Schedule

/-!
# Schedules

A schedule lets one run go on until it waits for time to pass, and then another.  So whatever the clocks
show and however long the answers take, what comes of it is one of the ways in which runs that are under
way at once can go.  Each run waits only so often, and so the schedule comes to its end.

Principal results:
* `Interplay.advance_reached` — a run that goes on is answered one question after the other.
* `Pool.begin_reached`, `Pool.wake_spec` — runs are begun in order, and those that wait are woken.
* `Pool.Progress.step` — so a step of a schedule is some steps of runs that are under way at once.
* `Session.runMany_reached` — and what a schedule comes to is what these come to.
-/

set_option autoImplicit false

namespace PlaintextEquivalence

variable {G : PrimeGroup} {α : Type}

namespace Assembly

/-- The world of honest trustees and guardians that are asked one question after the other, each at the
time that the clocks show then, and after a delay. -/
def timed (election : Election G) (clock : Nat → Nat → Nat) (delay : Nat → Nat) :
    World (Question G) Question.Answer (Assembly G × Nat) :=
  fun q s => (q.late (delay s.2) (world election (clock s.2) q s.1).1,
    (world election (clock s.2) q s.1).2, s.2 + 1)

/-- The trustees keep nothing for too long: what they keep they got at a time that the clocks showed, and
no time between is too long. -/
structure KeepsTime (clock : Nat → Nat → Nat) (a : Assembly G) : Prop where
  short : ∀ j trustee, a.trustees[j]? = some trustee →
    ∀ k k', clock k j - clock k' j < trustee.retention.nanos
  shown : ∀ j trustee, a.trustees[j]? = some trustee →
    ∀ r ∈ trustee.retained, ∃ k, r.since = clock k j

variable {clock : Nat → Nat → Nat} {a : Assembly G}

theorem KeepsTime.inTime (h : a.KeepsTime clock) (k : Nat) : a.InTime (clock k) := by
  intro j trustee hj r hr
  obtain ⟨k', hk'⟩ := h.shown j trustee hj r hr
  rw [hk']
  exact h.short j trustee hj k k'

theorem KeepsTime.world (h : a.KeepsTime clock) (election : Election G) (k : Nat) (q : Question G) :
    (world election (clock k) q a).2.KeepsTime clock := by
  constructor
  case short =>
    intro j trustee' hj
    rw [getElem?_trustees_world] at hj
    obtain ⟨trustee, htrustee, rfl⟩ := Option.map_eq_some_iff.1 hj
    have hretention : (trustee.hear j (clock k j) q).retention = trustee.retention :=
      congrArg (fun x => x.2.1) (trustee.settings_hear j (clock k j) q)
    rw [hretention]
    exact h.short j trustee htrustee
  case shown =>
    intro j trustee' hj r hr
    rw [getElem?_trustees_world] at hj
    obtain ⟨trustee, htrustee, rfl⟩ := Option.map_eq_some_iff.1 hj
    cases hrequest : q.requestTo? j with
    | none =>
      rw [BlindingTrustee.hear_of_none hrequest] at hr
      exact h.shown j trustee htrustee r hr
    | some request =>
      rw [BlindingTrustee.hear_of_some hrequest] at hr
      rcases BlindingTrustee.mem_retained_heed hr with ⟨hold, -⟩ | ⟨_, -, -, -, rfl⟩
      · exact h.shown j trustee htrustee r hold
      · exact ⟨k, rfl⟩

end Assembly

/-! ## One run -/

namespace Talk

/-- What remains of a run that has ended or waits. -/
def remaining : α ⊕ Nat × Talk G α → Talk G α
  | .inl a => .done a
  | .inr (_, rest) => rest

/-- How often a run has waited when it has ended or waits. -/
def waited : α ⊕ Nat × Talk G α → Nat
  | .inl _ => 0
  | .inr _ => 1

/-- A question that is not to wait is put to the world. -/
theorem advance_ask {σ : Type} (world : World (Question G) Question.Answer σ) {q : Question G}
    (hq : ∀ nanos, q ≠ .pass nanos) (next : q.Answer → Talk G α) (s : σ) :
    advance world (.ask q next) s = advance world (next (world q s).1) (world q s).2 := by
  cases q with
  | pass nanos => exact absurd rfl (hq nanos)
  | _ => rfl

end Talk

namespace Interplay

variable {session : Session G} {runs : List (Talk G α)} {a : Assembly G} {clock : Nat → Nat → Nat}
  {delay : Nat → Nat}

/-- **A run that goes on** until it ends or waits is answered one question after the other. -/
theorem advance_reached (hpatient : ∀ k, delay k ≤ session.limits.patience.nanos)
    {unbegun : List (Talk G α)} {i : Nat} (d : Talk G α) :
    ∀ {begun : List (Conversation G α)} {parties : Assembly G} {said : List (Event G)} {k n : Nat},
      Reached session runs a n ⟨unbegun, begun, parties⟩ → begun[i]? = some ⟨said, d⟩ →
        parties.KeepsTime clock →
        let after := d.advance (Assembly.timed session.election clock delay) (parties, k)
        ∃ n' said', Reached session runs a n'
            ⟨unbegun, begun.set i ⟨said', Talk.remaining after.1⟩, after.2.1⟩ ∧
          after.2.1.KeepsTime clock ∧
          said.countP Event.isPass + Talk.waited after.1 ≤ said'.countP Event.isPass := by
  induction d with
  | done result =>
    intro begun parties said k n hreached hi htime
    have hsame : begun.set i ⟨said, .done result⟩ = begun := by
      obtain ⟨hlt, hget⟩ := List.getElem?_eq_some_iff.1 hi
      rw [← hget, List.set_getElem_self]
    exact ⟨n, said, hsame.symm ▸ hreached, htime, Nat.le_refl _⟩
  | ask q next ih =>
    intro begun parties said k n hreached hi htime
    have hlt := (List.getElem?_eq_some_iff.1 hi).1
    -- the question is answered, and the run goes on with the rest
    have hrest : ∀ {answer : q.Answer} {parties' : Assembly G} {k' : Nat},
        parties.Answers session ⟨q, answer⟩ parties' → parties'.KeepsTime clock →
        let after := Talk.advance (Assembly.timed session.election clock delay) (next answer) (parties', k')
        ∃ n' said', Reached session runs a n'
            ⟨unbegun, begun.set i ⟨said', Talk.remaining after.1⟩, after.2.1⟩ ∧
          after.2.1.KeepsTime clock ∧
          said.countP Event.isPass + Talk.waited after.1 ≤ said'.countP Event.isPass := by
      intro answer parties' k' hanswers htime' after
      have hnext := hreached.step (.answer_at hi (.next answer) hanswers)
      obtain ⟨n', said', hreached', hkeeps, hpasses⟩ :=
        ih answer (k := k') hnext (List.getElem?_set_self hlt) htime'
      rw [List.set_set] at hreached'
      rw [List.countP_append] at hpasses
      exact ⟨n', said', hreached', hkeeps,
        Nat.le_trans (Nat.add_le_add_right (Nat.le_add_right _ _) _) hpasses⟩
    by_cases hpass : ∃ nanos, q = .pass nanos
    · obtain ⟨nanos, rfl⟩ := hpass
      have hanswers : parties.Answers session ⟨.pass nanos, ()⟩ parties :=
        .intro (.pass nanos) (htime.inTime k) (hpatient k)
      by_cases hzero : nanos = 0
      · simp only [Talk.advance, hzero, if_true]
        exact hrest hanswers htime
      · simp only [Talk.advance, hzero, if_false]
        have hnext := hreached.step (.answer_at hi (.next ()) hanswers)
        refine ⟨n + 1, said ++ [⟨.pass nanos, ()⟩], hnext, htime, ?_⟩
        rw [List.countP_append]
        exact Nat.le_refl _
    · rw [Talk.advance_ask _ fun nanos hq => hpass ⟨nanos, hq⟩]
      exact hrest (.intro q (htime.inTime k) (hpatient k)) (htime.world session.election k q)

end Interplay

/-- How often runs have waited. -/
def Interplay.passes (s : Interplay G α) : Nat := (s.begun.map fun c => c.said.countP Event.isPass).sum

theorem Interplay.passes_set {s : Interplay G α} {i k : Nat} {c : Conversation G α}
    (hi : s.begun[i]? = some c) (c' : Conversation G α)
    (hle : c.said.countP Event.isPass + k ≤ c'.said.countP Event.isPass) (parties : Assembly G) :
    s.passes + k ≤ passes ⟨s.unbegun, s.begun.set i c', parties⟩ := by
  obtain ⟨before, after, hbegun, rfl⟩ := exists_append_of_getElem? hi
  unfold passes
  rw [hbegun, List.set_append, if_neg (Nat.lt_irrefl _), Nat.sub_self]
  simp only [List.set_cons_zero, List.map_append, List.map_cons, List.sum_append, List.sum_cons]
  omega

/-! ## Pools -/

namespace Pool

/-- The runs under way: those that can go on and those that wait. -/
def running (pool : Pool G α) : List (Running G α) := pool.ready ++ pool.waiting.map (·.running)

/-- A pool holds runs at their places: each run that was begun is under way or has ended. -/
structure Tracks (pool : Pool G α) (s : Interplay G α) : Prop where
  unbegun : s.unbegun = pool.unbegun
  count : s.begun.length = pool.begun
  places : (pool.running.map (·.place) ++ pool.results.map Prod.fst).Perm (List.range pool.begun)
  running : ∀ r ∈ pool.running, ∃ said, s.begun[r.place]? = some ⟨said, r.rest⟩
  results : ∀ x ∈ pool.results, ∃ said, s.begun[x.1]? = some ⟨said, .done x.2⟩

/-- No other run may begin: all have begun, or as many go on as may. -/
def IsFull (width : Nat) (pool : Pool G α) : Prop :=
  pool.unbegun = [] ∨ pool.settled pool.begun 0 + width ≤ pool.begun

section Results

variable {pool : Pool G α} {s : Interplay G α} {i : Nat}

theorem mem_results {result : α} (h : pool.result? i = some result) : (i, result) ∈ pool.results := by
  obtain ⟨before, after, hresults, -⟩ := List.lookup_eq_some_iff.1 h
  rw [hresults]
  exact List.mem_append_right _ List.mem_cons_self

theorem isSome_result? (h : i ∈ pool.results.map Prod.fst) : (pool.result? i).isSome = true := by
  obtain ⟨x, hx, rfl⟩ := List.mem_map.1 h
  rw [← Option.ne_none_iff_isSome, result?, ne_eq, List.lookup_eq_none_iff]
  intro hnone
  simpa using hnone x hx

/-- The places before the first one whose result is not known. -/
theorem settled_spec (pool : Pool G α) :
    ∀ n place, place ≤ pool.settled n place ∧ pool.settled n place ≤ place + n ∧
      ∀ i, place ≤ i → i < pool.settled n place → (pool.result? i).isSome = true
  | 0, place => ⟨Nat.le_refl _, Nat.le_refl _, fun i hle hlt => absurd hle (Nat.not_le.2 hlt)⟩
  | n + 1, place => by
    unfold settled
    split
    · rename_i hknown
      obtain ⟨hle, hge, hall⟩ := settled_spec pool n (place + 1)
      refine ⟨by omega, by omega, fun i hi hlt => ?_⟩
      rcases Nat.eq_or_lt_of_le hi with rfl | hi
      · exact hknown
      · exact hall i hi hlt
    · exact ⟨Nat.le_refl _, by omega, fun i hle hlt => absurd hle (Nat.not_le.2 hlt)⟩

theorem settled_eq (h : ∀ j < i, (pool.result? j).isSome = true) :
    ∀ n place, place + n ≤ i → pool.settled n place = place + n
  | 0, _, _ => rfl
  | n + 1, place, hle => by
    rw [settled, if_pos (h place (by omega)), settled_eq h n (place + 1) (by omega)]
    omega

theorem settled_congr {pool' : Pool G α} (h : pool'.results = pool.results) :
    ∀ n place, pool'.settled n place = pool.settled n place
  | 0, _ => rfl
  | n + 1, place => by
    rw [settled, settled, settled_congr h n (place + 1), result?, result?, h]

theorem IsFull.congr {width : Nat} {pool' : Pool G α} (h : pool.IsFull width)
    (hunbegun : pool'.unbegun = pool.unbegun) (hbegun : pool'.begun = pool.begun)
    (hresults : pool'.results = pool.results) : pool'.IsFull width := by
  unfold IsFull
  rwa [hunbegun, hbegun, settled_congr hresults]

/-- Fewer runs go on than have begun beyond those whose results are known. -/
theorem Tracks.countP_goesOn_le (h : pool.Tracks s) :
    s.begun.countP Conversation.goesOn + pool.settled pool.begun 0 ≤ pool.begun := by
  obtain ⟨-, hle, hknown⟩ := pool.settled_spec pool.begun 0
  rw [Nat.zero_add] at hle
  have hsettled : (s.begun.take (pool.settled pool.begun 0)).countP Conversation.goesOn = 0 := by
    refine List.countP_eq_zero.2 fun c hc => ?_
    obtain ⟨i, hi, rfl⟩ := List.getElem_of_mem hc
    rw [List.length_take] at hi
    obtain ⟨result, hresult⟩ := Option.isSome_iff_exists.1 (hknown i (Nat.zero_le i) (by omega))
    obtain ⟨said, hsaid⟩ := h.results _ (mem_results hresult)
    rw [List.getElem_take, (List.getElem?_eq_some_iff.1 hsaid).2]
    exact Bool.false_ne_true
  have hrest := (s.begun.drop (pool.settled pool.begun 0)).countP_le_length (p := Conversation.goesOn)
  have hsplit := congrArg (List.countP Conversation.goesOn)
    (List.take_append_drop (pool.settled pool.begun 0) s.begun)
  rw [List.countP_append, hsettled] at hsplit
  rw [List.length_drop, h.count] at hrest
  omega

/-- The next run gets the next place. -/
theorem Tracks.start {run : Talk G α} {unbegun : List (Talk G α)} {begun : List (Conversation G α)}
    {parties : Assembly G} (h : pool.Tracks ⟨run :: unbegun, begun, parties⟩) :
    Tracks { pool with
        unbegun := unbegun
        begun := pool.begun + 1
        ready := pool.ready ++ [⟨pool.begun, run⟩] }
      ⟨unbegun, begun ++ [⟨[], run⟩], parties⟩ := by
  have hcount : begun.length = pool.begun := h.count
  have hrunning : ∀ (new : Running G α) (waiting : List (Running G α)),
      (pool.ready ++ [new] ++ waiting).Perm (new :: (pool.ready ++ waiting)) := by
    intro new waiting
    rw [List.append_assoc]
    exact List.perm_middle
  have hold : ∀ {i : Nat} {c : Conversation G α}, begun[i]? = some c →
      (begun ++ [⟨[], run⟩])[i]? = some c := by
    intro i c hi
    rwa [List.getElem?_append_left (List.getElem?_eq_some_iff.1 hi).1]
  constructor
  case unbegun => rfl
  case count => rw [List.length_append, hcount]; rfl
  case places =>
    rw [List.range_succ]
    refine (((hrunning _ _).map _).append_right _).trans ?_
    rw [List.map_cons, List.cons_append]
    exact (h.places.cons _).trans (List.perm_append_singleton _ _).symm
  case running =>
    intro r hr
    rcases List.mem_cons.1 ((hrunning _ _).subset hr) with rfl | hr
    · exact ⟨[], by rw [← hcount, List.getElem?_concat_length]⟩
    · obtain ⟨said, hsaid⟩ := h.running r hr
      exact ⟨said, hold hsaid⟩
  case results =>
    intro x hx
    obtain ⟨said, hsaid⟩ := h.results x hx
    exact ⟨said, hold hsaid⟩

/-- The order of the runs under way does not matter. -/
theorem Tracks.of_perm {pool' : Pool G α} (h : pool.Tracks s) (hrunning : pool'.running.Perm pool.running)
    (hunbegun : pool'.unbegun = pool.unbegun) (hbegun : pool'.begun = pool.begun)
    (hresults : pool'.results = pool.results) : pool'.Tracks s where
  unbegun := h.unbegun.trans hunbegun.symm
  count := h.count.trans hbegun.symm
  places := by
    rw [hresults, hbegun]
    exact ((hrunning.map _).append_right _).trans h.places
  running := fun r hr => h.running r (hrunning.subset hr)
  results := by
    rw [hresults]
    exact h.results

/-- When a run goes on, the others stay at their places. -/
theorem Tracks.stay (h : pool.Tracks s) {r : Running G α} {others : List (Running G α)}
    (hrunning : pool.running.Perm (r :: others)) (c : Conversation G α) :
    (∀ r' ∈ others, ∃ said, (s.begun.set r.place c)[r'.place]? = some ⟨said, r'.rest⟩) ∧
    ∀ x ∈ pool.results, ∃ said, (s.begun.set r.place c)[x.1]? = some ⟨said, .done x.2⟩ := by
  have hplaces := (((hrunning.map (·.place)).append_right (pool.results.map Prod.fst)).symm.trans
    h.places).nodup_iff.2 List.nodup_range
  rw [List.map_cons, List.cons_append, List.nodup_cons, List.mem_append, not_or] at hplaces
  obtain ⟨⟨hothers, hresults⟩, -⟩ := hplaces
  constructor
  · intro r' hr'
    have hne : r.place ≠ r'.place := fun heq => hothers (heq ▸ List.mem_map_of_mem hr')
    rw [List.getElem?_set_ne hne]
    exact h.running r' (hrunning.symm.subset (List.mem_cons_of_mem _ hr'))
  · intro x hx
    have hne : r.place ≠ x.1 := fun heq => hresults (heq ▸ List.mem_map_of_mem hx)
    rw [List.getElem?_set_ne hne]
    exact h.results x hx

/-- A run ends. -/
theorem Tracks.finish (h : pool.Tracks s) {r : Running G α} {others : List (Running G α)}
    (hrunning : pool.running.Perm (r :: others)) (said : List (Event G)) (result : α)
    (parties : Assembly G) (pool' : Pool G α) (hothers : pool'.running.Perm others)
    (hunbegun : pool'.unbegun = pool.unbegun)
    (hbegun : pool'.begun = pool.begun)
    (hresults : pool'.results = (r.place, result) :: pool.results) :
    pool'.Tracks ⟨s.unbegun, s.begun.set r.place ⟨said, .done result⟩, parties⟩ := by
  obtain ⟨hstay, hknown⟩ := h.stay hrunning ⟨said, .done result⟩
  obtain ⟨_, hr⟩ := h.running r (hrunning.symm.subset List.mem_cons_self)
  constructor
  case unbegun => exact h.unbegun.trans hunbegun.symm
  case count => rw [List.length_set, h.count, hbegun]
  case places =>
    rw [hresults, hbegun, List.map_cons]
    refine .trans ?_ h.places
    refine List.perm_middle.trans ?_
    exact (((hothers.cons r).trans hrunning.symm).map (·.place)).append_right (pool.results.map Prod.fst)
  case running => exact fun r' hr' => hstay r' (hothers.subset hr')
  case results =>
    rw [hresults]
    refine List.forall_mem_cons.2 ⟨⟨said, ?_⟩, hknown⟩
    exact List.getElem?_set_self (List.getElem?_eq_some_iff.1 hr).1

/-- A run goes on until it waits. -/
theorem Tracks.wait (h : pool.Tracks s) {r : Running G α} {others : List (Running G α)}
    (hrunning : pool.running.Perm (r :: others)) (said : List (Event G)) (rest : Talk G α)
    (parties : Assembly G) (pool' : Pool G α)
    (hothers : pool'.running.Perm (⟨r.place, rest⟩ :: others))
    (hunbegun : pool'.unbegun = pool.unbegun) (hbegun : pool'.begun = pool.begun)
    (hresults : pool'.results = pool.results) :
    pool'.Tracks ⟨s.unbegun, s.begun.set r.place ⟨said, rest⟩, parties⟩ := by
  obtain ⟨hstay, hknown⟩ := h.stay hrunning ⟨said, rest⟩
  obtain ⟨_, hr⟩ := h.running r (hrunning.symm.subset List.mem_cons_self)
  constructor
  case unbegun => exact h.unbegun.trans hunbegun.symm
  case count => rw [List.length_set, h.count, hbegun]
  case places =>
    rw [hresults, hbegun]
    refine .trans ?_ h.places
    exact ((hothers.map (·.place)).trans (hrunning.symm.map (·.place))).append_right _
  case running =>
    intro r' hr'
    rcases List.mem_cons.1 (hothers.subset hr') with rfl | hr'
    · exact ⟨said, List.getElem?_set_self (List.getElem?_eq_some_iff.1 hr).1⟩
    · exact hstay r' hr'
  case results =>
    rw [hresults]
    exact hknown

end Results

/-! ## Steps of a schedule -/

section Steps

variable {session : Session G} {runs : List (Talk G α)} {a : Assembly G} {clock : Nat → Nat → Nat}
  {delay : Nat → Nat} {pool : Pool G α} {s : Interplay G α} {n : Nat}

/-- Runs are begun as long as there is room. -/
theorem begin_reached : ∀ (m : Nat) {pool : Pool G α} {s : Interplay G α} {n : Nat},
    Interplay.Reached session runs a n s → pool.Tracks s →
      ∃ n' s', Interplay.Reached session runs a n' s' ∧
        (pool.begin session.limits.width.toNat m).Tracks s' ∧ s'.parties = s.parties ∧
        s'.passes = s.passes ∧
        (pool.begin session.limits.width.toNat m).waiting = pool.waiting ∧
        (pool.begin session.limits.width.toNat m).results = pool.results ∧
        (pool.unbegun.length ≤ m →
          (pool.begin session.limits.width.toNat m).IsFull session.limits.width.toNat)
  | 0, pool, s, n, hreached, htracks =>
    ⟨n, s, hreached, htracks, rfl, rfl, rfl, rfl,
      fun hle => .inl (List.length_eq_zero_iff.1 (Nat.le_zero.1 hle))⟩
  | m + 1, pool, s, n, hreached, htracks => by
    unfold begin
    split
    · rename_i hunbegun
      exact ⟨n, s, hreached, htracks, rfl, rfl, rfl, rfl, fun _ => .inl hunbegun⟩
    · rename_i run rest hunbegun
      split
      · rename_i hroom
        obtain ⟨unbegun, begun, parties⟩ := s
        obtain rfl : unbegun = run :: rest := htracks.unbegun.trans hunbegun
        have hfew : begun.countP Conversation.goesOn < session.limits.width.toNat := by
          have hle := htracks.countP_goesOn_le
          simp only at hle
          omega
        obtain ⟨n', s', hreached', htracks', hparties, hpasses, hwaiting, hresults, hfull⟩ :=
          begin_reached m (hreached.step (.start hfew)) htracks.start
        refine ⟨n', s', hreached', htracks', hparties, hpasses.trans ?_, hwaiting, hresults,
          fun hle => hfull ?_⟩
        · simp [Interplay.passes]
        · rw [hunbegun] at hle
          exact Nat.le_of_succ_le_succ hle
      · rename_i hroom
        exact ⟨n, s, hreached, htracks, rfl, rfl, rfl, rfl, fun _ => .inr (Nat.le_of_not_lt hroom)⟩

/-- When all runs wait, the first of them is woken. -/
theorem wake_spec (hready : pool.ready = []) :
    pool.wake.running.Perm pool.running ∧ pool.wake.unbegun = pool.unbegun ∧
      pool.wake.begun = pool.begun ∧ pool.wake.results = pool.results ∧
      (pool.waiting ≠ [] → pool.wake.waiting.length < pool.waiting.length) := by
  unfold wake
  cases hmin : (pool.waiting.map (·.wake)).min? with
  | none =>
    rw [List.min?_eq_none_iff, List.map_eq_nil_iff] at hmin
    exact ⟨.refl _, rfl, rfl, rfl, fun h => absurd hmin h⟩
  | some time =>
    simp only [List.partition_eq_filter_filter]
    refine ⟨?_, trivial, trivial, trivial, fun _ => ?_⟩
    · unfold running
      rw [hready, List.nil_append, ← List.map_append]
      exact (List.filter_append_perm _ _).map _
    · obtain ⟨w, hw, rfl⟩ := List.mem_map.1 (List.min?_mem hmin)
      rw [List.length_filter_lt_length_iff_exists]
      exact ⟨w, hw, by simp⟩

/-- How far a schedule has come: its runs are those of an interplay that can be reached, as many go on as
may, and it takes no more steps than runs end or wait and are woken, until none is under way. -/
structure Progress (session : Session G) (runs : List (Talk G α)) (a : Assembly G)
    (clock : Nat → Nat → Nat) (count : Nat) (pool : Pool G α) (parties : Assembly G)
    (s : Interplay G α) : Prop where
  reached : ∃ n, Interplay.Reached session runs a n s
  tracks : pool.Tracks s
  current : s.parties = parties
  keepsTime : parties.KeepsTime clock
  full : pool.IsFull session.limits.width.toNat
  counted : pool.running = [] ∨ count + pool.waiting.length ≤ pool.results.length + 2 * s.passes

/-- When all runs wait, a step of a schedule lets time pass. -/
theorem Progress.wake {count : Nat} {parties : Assembly G}
    (h : Progress session runs a clock count pool parties s) (hready : pool.ready = []) :
    Progress session runs a clock (count + 1) pool.wake parties s := by
  obtain ⟨hrunning, hunbegun, hbegun, hresults, hfewer⟩ := wake_spec hready
  refine ⟨h.reached, h.tracks.of_perm hrunning hunbegun hbegun hresults, h.current, h.keepsTime,
    h.full.congr hunbegun hbegun hresults, ?_⟩
  by_cases hwaiting : pool.waiting = []
  · left
    rw [← List.perm_nil]
    exact hrunning.trans (by rw [running, hready, hwaiting]; exact .refl _)
  · right
    have hfewer := hfewer hwaiting
    have hcounted := h.counted.resolve_left fun hnone => by
      rw [running, hready, List.nil_append, List.map_eq_nil_iff] at hnone
      exact hwaiting hnone
    rw [hresults]
    omega

/-- When a run can go on, a step of a schedule lets the first do so. -/
theorem Progress.goOn (hpatient : ∀ k, delay k ≤ session.limits.patience.nanos) {count k : Nat}
    {parties : Assembly G} (h : Progress session runs a clock count pool parties s) {r : Running G α}
    {others : List (Running G α)} (hready : pool.ready = r :: others) :
    let next := pool.step (Assembly.timed session.election clock delay) session.limits.width.toNat
      (parties, k)
    ∃ s', Progress session runs a clock (count + 1) next.1 next.2.1 s' := by
  intro next
  obtain ⟨⟨n, hreached⟩, htracks, rfl, htime, hfull, hcounted⟩ := h
  have hrunning : pool.running = r :: (others ++ pool.waiting.map (·.running)) := by
    rw [running, hready]
    rfl
  obtain ⟨said, hsaid⟩ := htracks.running r (hrunning ▸ List.mem_cons_self)
  obtain ⟨n', said', hreached', htime', hpasses⟩ := Interplay.advance_reached hpatient r.rest
    (k := k) hreached hsaid htime
  have hcounted := hcounted.resolve_left (by rw [hrunning]; exact List.cons_ne_nil _ _)
  have hnext : next = pool.step (Assembly.timed session.election clock delay)
    session.limits.width.toNat (s.parties, k) := rfl
  simp only [Pool.step, hready] at hnext
  generalize r.rest.advance (Assembly.timed session.election clock delay) (s.parties, k) = after at *
  obtain ⟨result | ⟨nanos, rest⟩, parties', k'⟩ := after
  · have hsum := Interplay.passes_set hsaid ⟨said', .done result⟩ hpasses parties'
    have htracks' := htracks.finish (.of_eq hrunning) said' result parties'
      { pool with ready := others, results := (r.place, result) :: pool.results }
      (.refl _) rfl rfl rfl
    obtain ⟨m, s', hbegun, htracks'', hparties, hpassed, hwaiting, hresults, hfull'⟩ :=
      begin_reached pool.unbegun.length hreached' htracks'
    rw [hnext]
    refine ⟨s', ⟨m, hbegun⟩, htracks'', hparties, htime', hfull' (Nat.le_refl _), .inr ?_⟩
    simp only [hwaiting, hresults, List.length_cons, hpassed]
    simp only [Talk.waited, Talk.remaining] at hsum ⊢
    omega
  · have hsum := Interplay.passes_set hsaid ⟨said', rest⟩ hpasses parties'
    have htracks' := htracks.wait (.of_eq hrunning) said' rest parties'
      { pool with
        ready := others
        waiting := pool.waiting ++ [⟨pool.now + nanos, ⟨r.place, rest⟩⟩] } (by
        rw [running, List.map_append, ← List.append_assoc]
        exact List.perm_append_singleton _ _) rfl rfl rfl
    rw [hnext]
    refine ⟨_, ⟨n', hreached'⟩, htracks', rfl, htime', hfull.congr rfl rfl rfl, .inr ?_⟩
    simp only [List.length_append, List.length_singleton]
    simp only [Talk.waited, Talk.remaining] at hsum ⊢
    omega

/-- **A step of a schedule** is some steps of an interplay. -/
theorem Progress.step (hpatient : ∀ k, delay k ≤ session.limits.patience.nanos) {count k : Nat}
    {parties : Assembly G} (h : Progress session runs a clock count pool parties s) :
    let next := pool.step (Assembly.timed session.election clock delay) session.limits.width.toNat
      (parties, k)
    ∃ s', Progress session runs a clock (count + 1) next.1 next.2.1 s' := by
  cases hready : pool.ready with
  | nil =>
    simp only [Pool.step, hready]
    exact ⟨s, h.wake hready⟩
  | cons r others => exact h.goOn hpatient hready

theorem Progress.steps (hpatient : ∀ k, delay k ≤ session.limits.patience.nanos) :
    ∀ (m : Nat) {count k : Nat} {pool : Pool G α} {parties : Assembly G} {s : Interplay G α},
      Progress session runs a clock count pool parties s →
        let last := pool.steps (Assembly.timed session.election clock delay)
          session.limits.width.toNat m (parties, k)
        ∃ s', Progress session runs a clock (count + m) last.1 last.2.1 s'
  | 0, _, _, _, _, s, h => ⟨s, h⟩
  | m + 1, count, k, pool, parties, s, h => by
    intro last
    obtain ⟨s', h'⟩ := h.step hpatient (k := k)
    rw [← Nat.add_assoc, Nat.add_right_comm]
    exact Progress.steps hpatient m h'

/-- A schedule starts with none of the runs begun. -/
theorem exists_progress_start (session : Session G) (runs : List (Talk G α)) {a : Assembly G}
    (htime : a.KeepsTime clock) :
    ∃ s, Progress session runs a clock 0 ((ofRuns runs).begin session.limits.width.toNat runs.length) a
      s := by
  have htracks : (ofRuns runs).Tracks ⟨runs, [], a⟩ :=
    ⟨rfl, rfl, .refl _, fun _ hr => absurd hr List.not_mem_nil, fun _ hx => absurd hx List.not_mem_nil⟩
  have hreached : Interplay.Reached session runs a 0 ⟨runs, [], a⟩ := .start
  obtain ⟨n, s, hreached, htracks', hparties, -, hwaiting, -, hfull⟩ :=
    begin_reached runs.length hreached htracks
  refine ⟨s, ⟨n, hreached⟩, htracks', hparties, htime, hfull (Nat.le_refl _), .inr ?_⟩
  rw [hwaiting]
  exact Nat.zero_le _

/-- **When no run is under way**, all have begun and their results are known. -/
theorem Tracks.isOver (h : pool.Tracks s) {width : Nat} (hwidth : 0 < width) (hfull : pool.IsFull width)
    (hrunning : pool.running = []) (absent : α) :
    s.IsOver ∧
      s.results = (List.range pool.begun).map fun place => some ((pool.result? place).getD absent) := by
  have hplaces := h.places
  rw [hrunning, List.map_nil, List.nil_append] at hplaces
  have hknown : ∀ i < pool.begun, (pool.result? i).isSome = true := fun i hi =>
    isSome_result? (hplaces.symm.subset (List.mem_range.2 hi))
  have hresult : ∀ i < pool.begun, ∃ said result, s.begun[i]? = some ⟨said, .done result⟩ ∧
      pool.result? i = some result := by
    intro i hi
    obtain ⟨result, hresult⟩ := Option.isSome_iff_exists.1 (hknown i hi)
    obtain ⟨said, hsaid⟩ := h.results _ (mem_results hresult)
    exact ⟨said, result, hsaid, hresult⟩
  refine ⟨⟨?_, fun c hc => ?_⟩, List.ext_getElem? fun i => ?_⟩
  · rw [h.unbegun]
    refine hfull.resolve_right fun hle => ?_
    rw [settled_eq hknown pool.begun 0 (by omega)] at hle
    omega
  · obtain ⟨i, hi⟩ := List.mem_iff_getElem?.1 hc
    have hlt := (List.getElem?_eq_some_iff.1 hi).1
    obtain ⟨said, result, hsaid, -⟩ := hresult i (h.count ▸ hlt)
    cases hi.symm.trans hsaid
    rfl
  · rw [Interplay.results, List.getElem?_map, List.getElem?_map]
    by_cases hi : i < pool.begun
    · obtain ⟨said, result, hsaid, hknown⟩ := hresult i hi
      rw [hsaid, List.getElem?_range hi, Option.map_some, Option.map_some, hknown]
      rfl
    · rw [List.getElem?_eq_none (by rw [h.count]; omega),
        List.getElem?_eq_none (by rw [List.length_range]; omega)]
      rfl

end Steps

end Pool

/-! ## Runs of pairs of ballots -/

namespace Session

open Polynomial

variable {session : Session G} {pairs : List (Ballot G × Ballot G)} {a : Assembly G}

theorem width_pos (limits : Limits) : 0 < limits.width.toNat := by
  have hmax : limits.width = if limits.concurrency ≤ 1 then 1 else limits.concurrency := rfl
  rw [hmax]
  split
  · exact Nat.zero_lt_one
  · rename_i hle
    rw [UInt64.le_iff_toNat_le] at hle
    exact Nat.lt_of_lt_of_le Nat.zero_lt_one (Nat.le_of_not_le hle)

/-- Runs have not waited more often than they can. -/
theorem passes_le {secret : G.Scalar} {s : Interplay G (Checked RunError (BallotCertificate G))}
    (h : s.Inv session secret pairs a) : s.passes ≤ s.begun.length * waits := by
  refine sum_map_le fun c hc => ?_
  obtain ⟨pair, -, hfollows⟩ := h.follows hc
  exact hfollows.countP_le

variable [hG : PrimeGroup.Lawful G] {P : G.Scalar[X]} {clock : Nat → Nat → Nat} {delay : Nat → Nat}

/-- **Runs of all pairs**, whatever the clocks show and however long the answers take, come to an end that
runs under way at once can come to. -/
theorem runMany_reached (hgiven : Interplay.Given session pairs a)
    (hkeys : session.election.keys.LiesOn P) (htime : a.KeepsTime clock)
    (hpatient : ∀ k, delay k ≤ session.limits.patience.nanos) :
    let done := session.runMany (Assembly.timed session.election clock delay) pairs (a, 0)
    ∃ n s, Interplay.Reached session (Interplay.runsOf session pairs) a n s ∧ s.IsOver ∧
      s.results = done.1.map some ∧ s.parties = done.2.1 := by
  intro done
  obtain ⟨s₀, hstart⟩ := Pool.exists_progress_start session
    (Interplay.runsOf session pairs) htime
  obtain ⟨s, hlast⟩ := hstart.steps hpatient (2 * turns * pairs.length) (k := 0)
  obtain ⟨n, hreached⟩ := hlast.reached
  have hinv := Interplay.inv_reached hgiven hkeys hreached
  have hrunning := hlast.counted
  generalize hpool : Pool.steps _ _ _ _ _ = last at *
  have hdone : done = ((List.range pairs.length).map fun place =>
      (last.1.result? place).getD (.error (.fault .unfinished)), last.2) := by
    rw [← hpool, Interplay.runsOf, List.length_map]
    rfl
  -- there are more steps than runs can end, wait and be woken
  have hidle : last.1.running = [] := by
    refine hlast.counted.elim id fun hcounted => ?_
    have hcount := hlast.tracks.places.length_eq
    have hpasses := passes_le hinv
    have hbegun := hinv.length_begun_le
    simp only [List.length_append, List.length_map, List.length_range] at hcount
    rw [hlast.tracks.count] at hpasses hbegun
    unfold waits at hpasses
    unfold turns at hcounted
    rw [← List.length_eq_zero_iff]
    omega
  obtain ⟨hover, hresults⟩ := hlast.tracks.isOver (width_pos _) hlast.full hidle
    (.error (.fault .unfinished))
  have hall : last.1.begun = pairs.length := by
    rw [← hlast.tracks.count, (hinv.forall₂_of_isOver hover).length_eq]
  refine ⟨n, s, hreached, hover, ?_, ?_⟩
  · rw [hresults, hdone, hall, List.map_map]
    rfl
  · rw [hlast.current, hdone]

end Session

end PlaintextEquivalence
