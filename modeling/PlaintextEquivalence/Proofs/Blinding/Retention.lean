import PlaintextEquivalence.Proofs.Blinding.Interleaving

/-!
# What a trustee keeps while runs take turns

A request changes nothing that is kept for other runs as long as there is room, so that each run finds its
own numbers, once, and only those.

Principal results:
* `heed_of_rejected` — a rejected blinding changes nothing.
* `retained_heed` — what a request does to what is kept.
* `mem_retained_heed_of_ne` — what is kept for another run stays.
* `nodup_retained_heed` — there is one entry for a run at most.
* `settings_heed` — the settings of a trustee do not change.
-/

set_option autoImplicit false

namespace PlaintextEquivalence.BlindingTrustee

variable {G : PrimeGroup} {trustee : BlindingTrustee G} {now : Nat}

/-! ## Settings -/

/-- How a trustee is set up: its mode, how long it keeps numbers, for how many runs, and the tape that it
draws them from, from wherever on. -/
def settings (trustee : BlindingTrustee G) : NonceMode × Duration × Nat × (Nat → Bytes) :=
  (trustee.mode, trustee.retention, trustee.capacity, trustee.tape.block)

theorem settings_heed (trustee : BlindingTrustee G) (now : Nat) (q : Request G) :
    (trustee.heed now q).settings = trustee.settings := by
  cases q with
  | blind request =>
    rw [heed]
    rcases blind_cases trustee now request with ⟨-, hblind⟩ | ⟨-, -, hblind⟩
    · rw [hblind]
      simp only [settings, afterBlinding, block_drawNonces]
    · rw [hblind]
  | challenge request =>
    rw [heed]
    cases hmode : trustee.mode with
    | retained =>
      rw [challenge_snd hmode]
      rfl
    | echoed => rw [challenge_snd_of_echoed hmode]
  | release run => rfl

/-! ## What is kept -/

/-- **A rejected blinding changes nothing**: no room is made for it, and no numbers are drawn. -/
theorem heed_of_rejected {request : BlindRequest G}
    (h : trustee.accepts now (.blind request) = false) :
    trustee.heed now (.blind request) = trustee := by
  rw [accepts] at h
  rw [heed]
  rcases blind_cases trustee now request with ⟨-, hblind⟩ | ⟨-, -, hblind⟩
  · rw [hblind] at h
    cases h
  · rw [hblind]

/-- A blinding adds an entry for its run to what is kept when it has made room. -/
theorem retained_blind_of_new (hmode : trustee.mode = .retained) (now : Nat) {request : BlindRequest G}
    (hnew : trustee.retains request.run = false) :
    (trustee.blind now request).2.retained = (trustee.evict now).retained ++
      [⟨request.run, trustee.nonces request.ciphertexts.length, now⟩] := by
  rw [blind_of_isFreshFor fun _ => hnew]
  exact keeping_of_retained hmode

/-- With room, a blinding adds an entry for its run to what is kept. -/
theorem retained_blind (hmode : trustee.mode = .retained) {request : BlindRequest G}
    (hnew : trustee.retains request.run = false) (hroom : trustee.HasRoom now) :
    (trustee.blind now request).2.retained = trustee.retained ++
      [⟨request.run, trustee.nonces request.ciphertexts.length, now⟩] := by
  rw [retained_blind_of_new hmode now hnew, retained_evict hroom]

theorem evict_sublist (trustee : BlindingTrustee G) (now : Nat) :
    (trustee.evict now).retained.Sublist trustee.retained :=
  (List.drop_sublist _ _).trans List.filter_sublist

/-- **What a request does to what is kept**: it leaves a part of it, in the same order.  A blinding that
is not rejected keeps its own numbers at the end. -/
theorem retained_heed (trustee : BlindingTrustee G) (now : Nat) (q : Request G) :
    (trustee.heed now q).retained.Sublist trustee.retained ∨
      ∃ request, q = .blind request ∧ trustee.mode = .retained ∧
        trustee.retains request.run = false ∧
        (trustee.heed now q).retained = (trustee.evict now).retained ++
          [⟨request.run, trustee.nonces request.ciphertexts.length, now⟩] := by
  have hpart (hends : q.ends = true) : (trustee.heed now q).retained.Sublist trustee.retained := by
    rcases heed_of_ends hends with hsame | hforgot
    · rw [hsame]
    · rw [hforgot]
      exact List.filter_sublist
  cases q with
  | challenge request => exact .inl (hpart rfl)
  | release run => exact .inl (hpart rfl)
  | blind request =>
    rw [heed]
    rcases blind_cases trustee now request with ⟨hfresh, hblind⟩ | ⟨-, -, hblind⟩
    · rw [hblind]
      cases hmode : trustee.mode with
      | echoed => exact .inl (keeping_of_echoed hmode ▸ .refl _)
      | retained => exact .inr ⟨request, rfl, rfl, hfresh hmode, keeping_of_retained hmode⟩
    · rw [hblind]
      exact .inl (.refl _)

/-- **What is kept for another run stays**, if there is room. -/
theorem mem_retained_heed_of_ne {q : Request G} {r : RetainedRun G} (hr : r ∈ trustee.retained)
    (hne : r.run ≠ q.run) (hroom : ∀ blinding, q = .blind blinding → trustee.HasRoom now) :
    r ∈ (trustee.heed now q).retained := by
  have hstays (hends : q.ends = true) : r ∈ (trustee.heed now q).retained := by
    rcases heed_of_ends hends with hsame | hforgot
    · rwa [hsame]
    · rw [hforgot]
      exact mem_retained_forget.2 ⟨hr, hne⟩
  cases q with
  | challenge request => exact hstays rfl
  | release run => exact hstays rfl
  | blind request =>
    rw [heed]
    rcases blind_cases trustee now request with ⟨-, hblind⟩ | ⟨-, -, hblind⟩
    · rw [hblind, afterBlinding]
      cases hmode : trustee.mode with
      | echoed => rwa [keeping_of_echoed hmode]
      | retained =>
        rw [keeping_of_retained hmode, retained_evict (hroom request rfl)]
        exact List.mem_append_left _ hr
    · rwa [hblind]

/-- **There is one entry for a run at most.** -/
theorem nodup_retained_heed (h : (trustee.retained.map (·.run)).Nodup) (now : Nat) (q : Request G) :
    ((trustee.heed now q).retained.map (·.run)).Nodup := by
  rcases retained_heed trustee now q with hpart | ⟨request, -, -, hnew, hadded⟩
  · exact h.sublist (hpart.map _)
  · have hkept : ((trustee.evict now).retained.map (·.run)).Nodup :=
      h.sublist ((evict_sublist trustee now).map _)
    rw [hadded, List.map_append, List.map_cons, List.map_nil]
    refine hkept.append (List.nodup_singleton _) ?_
    rw [List.disjoint_singleton]
    intro hmem
    obtain ⟨r, hr, hrun⟩ := List.mem_map.1 hmem
    exact retains_eq_false.1 hnew r (mem_of_mem_evict hr) hrun

/-- The entry for a run is the one that is found. -/
theorem find?_retained (h : (trustee.retained.map (·.run)).Nodup) {r : RetainedRun G}
    (hr : r ∈ trustee.retained) : trustee.retained.find? (·.run == r.run) = some r := by
  have hsome : (trustee.retained.find? (·.run == r.run)).isSome :=
    List.find?_isSome.2 ⟨r, hr, beq_self_eq_true _⟩
  obtain ⟨r', hfind⟩ := Option.isSome_iff_exists.1 hsome
  have hrun : r'.run = r.run := by simpa using List.find?_some hfind
  rw [hfind, List.inj_on_of_nodup_map h (List.mem_of_find?_eq_some hfind) hr hrun]

end PlaintextEquivalence.BlindingTrustee
