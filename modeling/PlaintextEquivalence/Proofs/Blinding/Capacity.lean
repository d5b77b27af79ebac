import PlaintextEquivalence.Proofs.Blinding.Retention

/-!
# How much a trustee keeps

The runs that a trustee keeps numbers for stand in the order in which they were blinded, and there are
never more of them than it has room for.  A run that is neither challenged nor released, and not kept for
too long either, makes way only for the blinding of another, if there is no room for both, and then it is
the one blinded first.

Principal results:
* `isBounded_before` — there is room for what is kept.
* `pairwise_retained` — what is kept stands in the order of the blindings.
* `KeptSince.since_le` — and of their times, if the clock does not run back.
* `retention_bounded` — which runs are kept, at every place of every history.
-/

set_option autoImplicit false

namespace PlaintextEquivalence.BlindingTrustee

variable {G : PrimeGroup} {trustee : BlindingTrustee G} {now : Nat}

/-! ## Making room -/

theorem length_evict_lt (hcapacity : 0 < trustee.capacity) (now : Nat) :
    (trustee.evict now).retained.length < trustee.capacity := by
  unfold evict
  simp only [List.length_drop]
  omega

/-- Without a retention period nothing is kept from before. -/
theorem retained_evict_of_zero (h : trustee.retention.nanos = 0) (now : Nat) :
    (trustee.evict now).retained = [] := by
  unfold evict
  simp [h]

/-! ## One request -/

/-- A blinding that is not rejected keeps its numbers, after it has made room. -/
theorem retained_blind_of_accepts (hmode : trustee.mode = .retained) {request : BlindRequest G}
    (h : trustee.accepts now (.blind request) = true) :
    trustee.retains request.run = false ∧
      (trustee.blind now request).2.retained = (trustee.evict now).retained ++
        [⟨request.run, trustee.nonces request.ciphertexts.length, now⟩] := by
  rcases blind_cases trustee now request with ⟨hfresh, -⟩ | ⟨-, -, hblind⟩
  · exact ⟨hfresh hmode, retained_blind_of_new hmode now (hfresh hmode)⟩
  · rw [accepts, hblind] at h
    cases h

theorem capacity_heed (trustee : BlindingTrustee G) (now : Nat) (q : Request G) :
    (trustee.heed now q).capacity = trustee.capacity :=
  congrArg (·.2.2.1) (settings_heed trustee now q)

/-! ## Room for what is kept -/

/-- What is kept are the numbers of different runs, as many as there is room for, and none if they
travel. -/
structure IsBounded (trustee : BlindingTrustee G) : Prop where
  size : trustee.retained.length ≤ trustee.capacity
  single : (trustee.retained.map (·.run)).Nodup
  travelling : trustee.mode = .echoed → trustee.retained = []

theorem isBounded_of_none (h : trustee.retained = []) : trustee.IsBounded := by
  constructor
  case size => simp [h]
  case single => simp [h]
  case travelling => exact fun _ => h

theorem IsBounded.heed (h : trustee.IsBounded) (hcapacity : 0 < trustee.capacity) (now : Nat)
    (q : Request G) : (trustee.heed now q).IsBounded := by
  constructor
  case size =>
    rw [capacity_heed]
    rcases retained_heed trustee now q with hpart | ⟨request, -, -, -, hadded⟩
    · exact hpart.length_le.trans h.size
    · rw [hadded, List.length_append]
      exact length_evict_lt hcapacity now
  case single => exact nodup_retained_heed h.single now q
  case travelling =>
    intro hmode
    rw [mode_heed] at hmode
    rcases retained_heed trustee now q with hpart | ⟨_, -, hretained, -⟩
    · rw [h.travelling hmode] at hpart
      exact List.sublist_nil.1 hpart
    · rw [hmode] at hretained
      cases hretained

section History

variable {h : History G} {i j : Nat}

theorem settings_before (trustee : BlindingTrustee G) (h : History G) (j : Nat) :
    (trustee.before h j).settings = trustee.settings :=
  before_induction (P := fun t => t.settings = trustee.settings) rfl
    (fun t now q ih => (settings_heed t now q).trans ih) h j

theorem capacity_before (trustee : BlindingTrustee G) (h : History G) (j : Nat) :
    (trustee.before h j).capacity = trustee.capacity :=
  congrArg (·.2.2.1) (settings_before trustee h j)

theorem retention_before (trustee : BlindingTrustee G) (h : History G) (j : Nat) :
    (trustee.before h j).retention = trustee.retention :=
  congrArg (·.2.1) (settings_before trustee h j)

/-- **There is room for what is kept**, at every place of a history. -/
theorem isBounded_before (hbounded : trustee.IsBounded) (hcapacity : 0 < trustee.capacity)
    (h : History G) (j : Nat) : (trustee.before h j).IsBounded := by
  have hboth : (trustee.before h j).IsBounded ∧ 0 < (trustee.before h j).capacity := by
    refine before_induction (P := fun t => t.IsBounded ∧ 0 < t.capacity) ⟨hbounded, hcapacity⟩ ?_ h j
    intro t now q ⟨hbounded, hcapacity⟩
    exact ⟨hbounded.heed hcapacity now q, by rwa [capacity_heed]⟩
  exact hboth.1

/-! ## The order of the blindings -/

/-- What is kept after a place, and not at it, was drawn there. -/
theorem KeptSince.eq_of_new {blinding : BlindRequest G} {r : RetainedRun G}
    (hs : KeptSince trustee h i (j + 1) blinding r)
    (hnew : (trustee.before h j).retains r.run = false) : i = j := by
  rcases Nat.lt_succ_iff_lt_or_eq.1 hs.order with hlt | heq
  · have hkept := hs.kept j hlt (Nat.le_succ j)
    exact absurd rfl (retains_eq_false.1 hnew r hkept)
  · exact heq

theorem KeptSince.of_succ {blinding : BlindRequest G} {r : RetainedRun G}
    (hs : KeptSince trustee h i (j + 1) blinding r) (hr : r ∈ (trustee.before h j).retained) :
    KeptSince trustee h i j blinding r := by
  have hlt : i < j := by
    rcases Nat.lt_succ_iff_lt_or_eq.1 hs.order with hlt | rfl
    · exact hlt
    · exact absurd hs.run (retains_eq_false.1 hs.new r hr)
  exact ⟨hlt, hs.blinded, hs.new, hs.run, hs.nonces, fun m him hmj => hs.kept m him (Nat.le_succ_of_le hmj),
    fun m q now him hmj => hs.unended m q now him (Nat.lt_succ_of_lt hmj)⟩

/-- **What is kept stands in the order of the blindings.** -/
theorem pairwise_retained (trustee : BlindingTrustee G) (h : History G) (j : Nat) :
    (trustee.before h j).retained.Pairwise fun r r' => ∀ i i' blinding blinding',
      KeptSince trustee h i j blinding r → KeptSince trustee h i' j blinding' r' → i < i' := by
  induction j with
  | zero =>
    refine List.pairwise_of_forall fun r r' i i' blinding blinding' hs => ?_
    exact absurd hs.order (Nat.not_lt_zero i)
  | succ j ih =>
    cases hq : h[j]? with
    | none =>
      rw [before_succ_of_none hq]
      refine ih.imp_of_mem fun hr hr' hlt i i' blinding blinding' hs hs' => ?_
      exact hlt i i' blinding blinding' (hs.of_succ hr) (hs'.of_succ hr')
    | some q =>
      -- the order of what was kept before is not touched by the request
      have hold {kept : List (RetainedRun G)} (hpart : kept.Sublist (trustee.before h j).retained) :
          kept.Pairwise fun r r' => ∀ i i' blinding blinding',
            KeptSince trustee h i (j + 1) blinding r → KeptSince trustee h i' (j + 1) blinding' r' →
              i < i' := by
        refine (ih.sublist hpart).imp_of_mem fun hr hr' hlt i i' blinding blinding' hs hs' => ?_
        exact hlt i i' blinding blinding' (hs.of_succ (hpart.subset hr)) (hs'.of_succ (hpart.subset hr'))
      rw [before_succ hq]
      rcases retained_heed (trustee.before h j) q.2 q.1 with hpart | ⟨request, -, -, hnew, hadded⟩
      · exact hold hpart
      · rw [hadded, List.pairwise_append]
        refine ⟨hold (evict_sublist _ _), List.pairwise_singleton _ _, ?_⟩
        intro r hr r' hr' i i' blinding blinding' hs hs'
        rw [List.mem_singleton] at hr'
        subst hr'
        rw [hs'.eq_of_new hnew]
        exact (hs.of_succ (mem_of_mem_evict hr)).order

/-- If the clock does not run back, what was blinded first is kept for longest. -/
theorem KeptSince.since_le {i' : Nat} {blinding blinding' : BlindRequest G} {r r' : RetainedRun G}
    (hclock : h.Pairwise fun q q' => q.2 ≤ q'.2) (hs : KeptSince trustee h i j blinding r)
    (hs' : KeptSince trustee h i' j blinding' r') (hlt : i < i') : r.since ≤ r'.since := by
  obtain ⟨hi, hget⟩ := List.getElem?_eq_some_iff.1 hs.blinded
  obtain ⟨hi', hget'⟩ := List.getElem?_eq_some_iff.1 hs'.blinded
  have hle := List.pairwise_iff_getElem.1 hclock i i' hi hi' hlt
  rwa [hget, hget'] at hle

/-- The numbers that are kept for a run at place `j` were drawn at place `i`. -/
def RunKeptSince (trustee : BlindingTrustee G) (h : History G) (i j : Nat) (run : RunId) : Prop :=
  ∃ blinding r, KeptSince trustee h i j blinding r ∧ r.run = run

/-- A run that was kept gives way, and it alone, to the blinding of another at place `j`: there is no room
for both, and it was blinded first of all that are kept. -/
structure GivesWay (trustee : BlindingTrustee G) (h : History G) (j : Nat) (run : RunId)
    (blinding : BlindRequest G) : Prop where
  asked : ∃ now, h[j]? = some (.blind blinding, now) ∧
    (trustee.before h j).accepts now (.blind blinding) = true
  other : run ≠ blinding.run
  full : (trustee.before h j).retained.length = trustee.capacity
  first : ∃ i, trustee.RunKeptSince h i j run ∧
    ∀ run', (trustee.before h j).retains run' = true → run' ≠ run →
      ∃ i', i < i' ∧ trustee.RunKeptSince h i' j run'
  kept : (trustee.before h j).retains run = true
  dropped : (trustee.before h (j + 1)).retains run = false
  others : ∀ run', (trustee.before h j).retains run' = true → run' ≠ run →
    (trustee.before h (j + 1)).retains run' = true

/-- What a trustee keeps that had nothing to start with, it has kept since a blinding. -/
theorem exists_runKeptSince (hmode : trustee.mode = .retained) (hnone : trustee.retained = [])
    {r : RetainedRun G} (hr : r ∈ (trustee.before h j).retained) :
    ∃ i blinding, KeptSince trustee h i j blinding r := by
  rcases exists_keptSince hmode hr with h0 | hsince
  · rw [hnone] at h0
    cases h0
  · exact hsince

/-- The head of what is kept was blinded first. -/
theorem head_first (hmode : trustee.mode = .retained) (hnone : trustee.retained = [])
    {r : RetainedRun G} {rest : List (RetainedRun G)}
    (hkept : (trustee.before h j).retained = r :: rest) :
    ∃ i, trustee.RunKeptSince h i j r.run ∧
      ∀ run', (trustee.before h j).retains run' = true → run' ≠ r.run →
        ∃ i', i < i' ∧ trustee.RunKeptSince h i' j run' := by
  have horder := pairwise_retained trustee h j
  rw [hkept, List.pairwise_cons] at horder
  have hr : r ∈ (trustee.before h j).retained := by
    rw [hkept]
    exact List.mem_cons_self
  obtain ⟨i, blinding, hs⟩ := exists_runKeptSince hmode hnone hr
  refine ⟨i, ⟨blinding, r, hs, rfl⟩, fun run' hretains hne => ?_⟩
  obtain ⟨r', hr', rfl⟩ := retains_eq_true.1 hretains
  obtain ⟨i', blinding', hs'⟩ := exists_runKeptSince hmode hnone hr'
  rw [hkept] at hr'
  rcases List.mem_cons.1 hr' with rfl | hr'
  · exact absurd rfl hne
  · exact ⟨i', horder.1 r' hr' i i' blinding blinding' hs hs', blinding', r', hs', rfl⟩

/-- **Without room, the run blinded first gives way** to one that is blinded. -/
theorem exists_givesWay (hmode : trustee.mode = .retained) (hnone : trustee.retained = [])
    (hcapacity : 0 < trustee.capacity) {blinding : BlindRequest G}
    (hq : h[j]? = some (.blind blinding, now))
    (haccepts : (trustee.before h j).accepts now (.blind blinding) = true)
    (hcurrent : (trustee.before h j).IsCurrent now)
    (hfull : (trustee.before h j).retained.length = trustee.capacity) :
    ∃ run, trustee.GivesWay h j run blinding := by
  have hbounded := isBounded_before (isBounded_of_none hnone) hcapacity h j
  obtain ⟨hnew, hadded⟩ := retained_blind_of_accepts ((mode_before trustee h j).trans hmode) haccepts
  obtain ⟨r, rest, hkept⟩ := List.exists_cons_of_length_pos (hfull ▸ hcapacity)
  have hevict : ((trustee.before h j).evict now).retained = rest := by
    rw [retained_evict_of_isCurrent hcurrent, capacity_before, hfull, Nat.add_sub_cancel_left, hkept]
    rfl
  have hafter : (trustee.before h (j + 1)).retained =
      rest ++ [⟨blinding.run, (trustee.before h j).nonces blinding.ciphertexts.length, now⟩] := by
    rw [before_succ hq, ← hevict]
    exact hadded
  have hsingle := hbounded.single
  rw [hkept, List.map_cons, List.nodup_cons] at hsingle
  have hne : r.run ≠ blinding.run := retains_eq_false.1 hnew r (hkept ▸ List.mem_cons_self)
  refine ⟨r.run, ?_⟩
  constructor
  case asked => exact ⟨now, hq, haccepts⟩
  case other => exact hne
  case full => exact hfull
  case first => exact head_first hmode hnone hkept
  case kept => exact retains_eq_true.2 ⟨r, hkept ▸ List.mem_cons_self, rfl⟩
  case dropped =>
    rw [retains_eq_false, hafter]
    intro r' hr' hrun
    rcases List.mem_append.1 hr' with hr' | hr'
    · exact hsingle.1 (hrun ▸ List.mem_map_of_mem hr')
    · rw [List.mem_singleton] at hr'
      subst hr'
      exact hne hrun.symm
  case others =>
    intro run' hretains hrun
    obtain ⟨r', hr', rfl⟩ := retains_eq_true.1 hretains
    rw [hkept] at hr'
    rcases List.mem_cons.1 hr' with rfl | hr'
    · exact absurd rfl hrun
    · exact retains_eq_true.2 ⟨r', hafter ▸ List.mem_append_left _ hr', rfl⟩

/-- **A run that is dropped** although it is not kept for too long was ended, or it gave way. -/
theorem ended_or_givesWay (hmode : trustee.mode = .retained) (hnone : trustee.retained = [])
    (hcapacity : 0 < trustee.capacity) {q : Request G} (hq : h[j]? = some (q, now))
    (hcurrent : ∀ blinding, q = .blind blinding → (trustee.before h j).IsCurrent now) {run : RunId}
    (hkept : (trustee.before h j).retains run = true)
    (hdropped : (trustee.before h (j + 1)).retains run = false) :
    (q.ends = true ∧ q.run = run) ∨
      ∃ blinding, q = .blind blinding ∧ trustee.GivesWay h j run blinding := by
  have hmodej : (trustee.before h j).mode = .retained := (mode_before trustee h j).trans hmode
  -- with room for a blinding, only the run of the request is decided anew
  have hown (hroom : ∀ blinding, q = .blind blinding → (trustee.before h j).HasRoom now) :
      q.ends = true ∧ q.run = run := by
    have hdecided := retains_heed hmodej hroom run
    rw [← before_succ hq, hdropped] at hdecided
    split at hdecided
    · rename_i hrun
      exact ⟨by simpa using hdecided.symm, hrun⟩
    · rw [hkept] at hdecided
      cases hdecided
  cases q with
  | challenge request => exact .inl (hown fun _ hblind => by cases hblind)
  | release ended => exact .inl (hown fun _ hblind => by cases hblind)
  | blind request =>
    by_cases hroom : (trustee.before h j).retained.length < (trustee.before h j).capacity
    · exact .inl (hown fun _ _ => ⟨hcurrent request rfl, hroom⟩)
    have hbounded := isBounded_before (isBounded_of_none hnone) hcapacity h j
    have hfull : (trustee.before h j).retained.length = trustee.capacity := by
      rw [← capacity_before trustee h j]
      exact Nat.le_antisymm hbounded.size (Nat.not_lt.1 hroom)
    have haccepts : (trustee.before h j).accepts now (.blind request) = true := by
      by_contra hrejected
      rw [before_succ hq, heed_of_rejected (Bool.eq_false_iff.2 hrejected), hkept] at hdropped
      cases hdropped
    obtain ⟨first, hgives⟩ :=
      exists_givesWay hmode hnone hcapacity hq haccepts (hcurrent request rfl) hfull
    obtain rfl : run = first := by
      by_contra hne
      rw [hgives.others run hkept hne] at hdropped
      cases hdropped
    exact .inr ⟨request, rfl, hgives⟩

/-- A run is kept right after its blinding, whatever has to make way for it. -/
theorem retains_of_accepts (hmode : trustee.mode = .retained) {blinding : BlindRequest G}
    (hq : h[j]? = some (.blind blinding, now))
    (haccepts : (trustee.before h j).accepts now (.blind blinding) = true) :
    (trustee.before h (j + 1)).retains blinding.run = true := by
  obtain ⟨-, hadded⟩ := retained_blind_of_accepts ((mode_before trustee h j).trans hmode) haccepts
  rw [before_succ hq, heed, retains_eq_true, hadded]
  exact ⟨_, List.mem_append_right _ (List.mem_singleton.2 rfl), rfl⟩

/-- Without a retention period, only the run blinded last is kept. -/
theorem retained_of_zero (hmode : trustee.mode = .retained) (hzero : trustee.retention.nanos = 0)
    {blinding : BlindRequest G} (hq : h[j]? = some (.blind blinding, now))
    (haccepts : (trustee.before h j).accepts now (.blind blinding) = true) :
    (trustee.before h (j + 1)).retained.map (·.run) = [blinding.run] := by
  obtain ⟨-, hadded⟩ := retained_blind_of_accepts ((mode_before trustee h j).trans hmode) haccepts
  rw [← retention_before trustee h j] at hzero
  rw [before_succ hq, heed, hadded, retained_evict_of_zero hzero]
  rfl

end History

/-- **Retention is bounded, and the run blinded first goes first.**  Whatever a trustee is asked from the
start, it keeps numbers for as many runs as it has room for at most, for each once, and for none if they
travel.  A run that is not kept for too long is dropped only when it is ended, or when it gives way to
another; this happens whenever there is no room for both.  A run is kept right after its blinding, and
without a retention period no other is. -/
theorem retention_bounded (id : String) (mode : NonceMode) (retention : Duration) (runs : Nat)
    (tape : Tape) (h : History G) :
    let trustee := ({ ofTape id tape with mode, retention } : BlindingTrustee G).withCapacity runs
    (∀ j, (trustee.before h j).retained.length ≤ max 1 runs ∧
      (mode = .echoed → (trustee.before h j).retained = []) ∧
      ((trustee.before h j).retained.map (·.run)).Nodup) ∧
    (mode = .retained →
      (∀ j q now run, h[j]? = some (q, now) →
        (∀ blinding, q = .blind blinding → (trustee.before h j).IsCurrent now) →
        (trustee.before h j).retains run = true → (trustee.before h (j + 1)).retains run = false →
          (q.ends = true ∧ q.run = run) ∨
            ∃ blinding, q = .blind blinding ∧ trustee.GivesWay h j run blinding) ∧
      ∀ j blinding now, h[j]? = some (.blind blinding, now) →
        (trustee.before h j).accepts now (.blind blinding) = true →
          ((trustee.before h j).IsCurrent now → (trustee.before h j).retained.length = max 1 runs →
            ∃ run, trustee.GivesWay h j run blinding) ∧
          (trustee.before h (j + 1)).retains blinding.run = true ∧
          (retention.nanos = 0 →
            (trustee.before h (j + 1)).retained.map (·.run) = [blinding.run])) := by
  intro trustee
  have hcapacity : trustee.capacity = max 1 runs := Nat.max_comm runs 1
  have hpos : 0 < trustee.capacity := hcapacity ▸ Nat.lt_of_lt_of_le Nat.one_pos (Nat.le_max_left 1 runs)
  refine ⟨fun j => ?_, fun hmode => ⟨fun j q now run hq hcurrent hkept hdropped => ?_,
    fun j blinding now hq haccepts => ⟨fun hcurrent hfull => ?_, ?_, fun hzero => ?_⟩⟩⟩
  · obtain ⟨hsize, hsingle, htravelling⟩ := isBounded_before (isBounded_of_none rfl) hpos h j
    rw [capacity_before, hcapacity] at hsize
    rw [mode_before] at htravelling
    exact ⟨hsize, htravelling, hsingle⟩
  · exact ended_or_givesWay hmode rfl hpos hq hcurrent hkept hdropped
  · exact exists_givesWay hmode rfl hpos hq haccepts hcurrent (hfull.trans hcapacity.symm)
  · exact retains_of_accepts hmode hq haccepts
  · exact retained_of_zero hmode hzero hq haccepts

-- with room for two runs, the third one makes the first one give way
example : ((Small.trustee.after [(.blind ⟨Small.runId 0, []⟩, 0), (.blind ⟨Small.runId 1, []⟩, 1),
    (.blind ⟨Small.runId 2, []⟩, 2)]).retained.map (·.run)) = [Small.runId 1, Small.runId 2] := by
  decide +kernel

end PlaintextEquivalence.BlindingTrustee
