import PlaintextEquivalence.Proofs.Protocol.Faithful
import PlaintextEquivalence.Proofs.Protocol.Parties
import PlaintextEquivalence.Proofs.Protocol.Standing

/-!
# What holds of runs under way at once

However far runs have come, each has a number of its own, and each trustee keeps numbers for those runs in
which it was asked to blind and nothing else yet.  These go on, and so there are never more of them than
runs may go on at once: there is always room for the numbers of the next.

Principal results:
* `Interplay.Inv` — what holds however far runs have come.
* `Inv.nodup_numbers` — no number is given twice.
* `Inv.hasRoom` — no numbers have to give way when a trustee is asked to blind.
-/

set_option autoImplicit false

namespace PlaintextEquivalence

variable {G : PrimeGroup} {α : Type}

/-! ## Conversations -/

namespace Conversation

variable {c : Conversation G α}

theorem goesOn_eq_false : c.goesOn = false ↔ ∃ a, c.rest = .done a := by
  obtain ⟨said, rest⟩ := c
  cases rest with
  | done a => exact ⟨fun _ => ⟨a, rfl⟩, fun _ => rfl⟩
  | ask q next => exact ⟨nofun, fun ⟨a, ha⟩ => by cases ha⟩

theorem goesOn_of_answered {rest : Talk G α} {e : Event G} (h : c.rest.Answered e rest) :
    c.goesOn = true := by
  rw [← Bool.not_eq_false, goesOn_eq_false]
  rintro ⟨a, ha⟩
  rw [ha] at h
  cases h

/-- A trustee was asked to blind in the conversation, and nothing else yet. -/
def IsBlindedAt (j : Nat) (c : Conversation G α) : Prop := ∃ e, callsAt j c.said = [e]

theorem not_isBlindedAt {j : Nat} (h : callsAt j c.said = []) : ¬ c.IsBlindedAt j := by
  rintro ⟨e, he⟩
  rw [h] at he
  cases he

/-- The answers in a conversation are made with numbers that trustees drew, and the numbers that they may
still be asked for are kept. -/
structure ServedBy (session : Session G) (secret : G.Scalar) (trustees drew : List (BlindingTrustee G))
    (c : Conversation G α) : Prop where
  answered : AnsweredBy session secret drew c.said
  settings : drew.map (·.settings) = trustees.map (·.settings)
  kept : ∀ j trustee drawer run ratios reply, trustees[j]? = some trustee → drew[j]? = some drawer →
    trustee.mode = .retained → callsAt j c.said = [⟨.blind j ⟨run, ratios⟩, reply⟩] →
      ∃ since, ⟨run, drawer.nonces ratios.length, since⟩ ∈ trustee.retained

theorem ServedBy.length_eq {session : Session G} {secret : G.Scalar}
    {trustees drew : List (BlindingTrustee G)} (h : c.ServedBy session secret trustees drew) : drew.length = trustees.length := by
  have hlength := congrArg List.length h.settings
  rwa [List.length_map, List.length_map] at hlength

/-- What is said next in a conversation is served with the same numbers, unless a trustee is asked for the
first time. -/
theorem ServedBy.next {session : Session G} {secret : G.Scalar} {parties : Assembly G}
    {drew : List (BlindingTrustee G)} (h : c.ServedBy session secret parties.trustees drew) {e : Event G}
    (hanswered : AnsweredBy session secret drew [e])
    (hcalled : ∀ j trustee, parties.trustees[j]? = some trustee → e.seat? = some j →
      callsAt j c.said ≠ []) (clock : Nat → Nat) (rest : Talk G α) :
    (⟨c.said ++ [e], rest⟩ : Conversation G α).ServedBy session secret
      (Assembly.world session.election clock e.1 parties).2.trustees drew := by
  refine ⟨h.answered.append hanswered, ?_, ?_⟩
  · rw [Assembly.settings_world]
    exact h.settings
  · intro k trustee' drawer run ratios reply hk hdrew hmode hcalls
    rw [Assembly.getElem?_trustees_world] at hk
    obtain ⟨trustee, htrustee, rfl⟩ := Option.map_eq_some_iff.1 hk
    rw [BlindingTrustee.mode_hear] at hmode
    by_cases hseat : e.seat? = some k
    · rw [callsAt_append, callsAt_of_seat hseat] at hcalls
      exact absurd (List.append_eq_singleton_iff.1 hcalls) (by simp [hcalled k trustee htrustee hseat])
    · rw [callsAt_append, callsAt_of_seat_ne hseat, List.append_nil] at hcalls
      rw [BlindingTrustee.hear_of_none (Question.requestTo?_eq_none hseat)]
      exact h.kept k trustee drawer run ratios reply htrustee hdrew hmode hcalls

end Conversation

/-- Answers that a trustee had no part in may be those of another one in its place. -/
theorem AnsweredBy.set {session : Session G} {secret : G.Scalar} {drew : List (BlindingTrustee G)}
    {es : List (Event G)} (h : AnsweredBy session secret drew es) {j : Nat} (hcalls : callsAt j es = [])
    (trustee : BlindingTrustee G) : AnsweredBy session secret (drew.set j trustee) es := by
  have hother : ∀ {k : Nat} {e : Event G} {drawer : BlindingTrustee G}, e ∈ es → e.seat? = some k →
      (drew.set j trustee)[k]? = some drawer → drew[k]? = some drawer := by
    intro k e drawer hmem hseat hk
    have hne : j ≠ k := by
      rintro rfl
      have hcall : e ∈ callsAt j es := List.mem_filter.2 ⟨hmem, decide_eq_true hseat⟩
      rw [hcalls] at hcall
      cases hcall
    rwa [List.getElem?_set_ne hne] at hk
  exact ⟨fun k drawer request reply hk hmem => h.blind k drawer request reply (hother hmem rfl hk) hmem,
    fun k drawer request reply hk hmem => h.challenge k drawer request reply (hother hmem rfl hk) hmem,
    h.decrypt⟩

/-- What a trustee keeps is for runs in which it was asked to blind, and nothing else yet, once for each. -/
structure KeepsFor (session : Session G) (begun : List (Conversation G α)) (j : Nat)
    (trustee : BlindingTrustee G) : Prop where
  nodup : (trustee.retained.map (·.run)).Nodup
  mode : ∀ r ∈ trustee.retained, trustee.mode = .retained
  owned : ∀ r ∈ trustee.retained, ∃ c ∈ begun, c.IsBlindedAt j ∧
    ∃ n ∈ numbers c.said, r.run = ⟨session.name, n⟩

namespace Interplay

/-- What is given when runs of pairs of ballots begin: the ballots of each pair are comparable, the
trustees of the session have room for as many runs as go on at once and keep nothing, and the guardians can
decrypt. -/
structure Given (session : Session G) (pairs : List (Ballot G × Ballot G)) (a : Assembly G) : Prop where
  comparable : ∀ pair ∈ pairs, ∃ quotient, Quotient.ofBallots pair.1 pair.2 = .ok quotient
  few : pairs.length < 2 ^ 64
  count : session.trustees = a.trustees.length
  empty : ∀ trustee ∈ a.trustees, trustee.retained = []
  room : ∀ trustee ∈ a.trustees, session.limits.width.toNat ≤ trustee.capacity
  decrypt : Assembly.CanDecrypt session.election a

/-- What holds however far runs of pairs of ballots have come: they have been begun in order, each with a
number of its own, and each is served with numbers of its own, which are kept as long as they are needed. -/
structure Inv (session : Session G) (secret : G.Scalar) (pairs : List (Ballot G × Ballot G))
    (a : Assembly G) (s : Interplay G (Checked RunError (BallotCertificate G))) : Prop where
  places : ∃ taken left, pairs = taken ++ left ∧
    s.unbegun = left.map (fun pair => session.run pair.1 pair.2) ∧
    List.Forall₂ (fun pair c => Talk.Follows (session.run pair.1 pair.2) c.said c.rest) taken s.begun
  width : s.begun.countP Conversation.goesOn ≤ session.limits.width.toNat
  numbered : ∃ m, s.parties.nextRun = a.nextRun + UInt64.ofNat m ∧
    (s.begun.flatMap fun c => numbers c.said).Perm
      ((List.range m).map fun i => a.nextRun + UInt64.ofNat i)
  settings : s.parties.trustees.map (·.settings) = a.trustees.map (·.settings)
  decrypt : Assembly.CanDecrypt session.election s.parties
  served : ∀ c ∈ s.begun, ∃ drew, c.ServedBy session secret s.parties.trustees drew
  kept : ∀ j trustee, s.parties.trustees[j]? = some trustee → KeepsFor session s.begun j trustee

section Facts

variable {session : Session G} {secret : G.Scalar} {pairs : List (Ballot G × Ballot G)} {a : Assembly G}
  {s : Interplay G (Checked RunError (BallotCertificate G))}

theorem Inv.follows (h : s.Inv session secret pairs a)
    {c : Conversation G (Checked RunError (BallotCertificate G))} (hc : c ∈ s.begun) :
    ∃ pair ∈ pairs, Talk.Follows (session.run pair.1 pair.2) c.said c.rest := by
  obtain ⟨taken, left, rfl, -, hplaces⟩ := h.places
  obtain ⟨pair, hpair, hfollows⟩ := Paired.exists_left hplaces hc
  exact ⟨pair, List.mem_append_left _ hpair, hfollows⟩

theorem Inv.length_begun_le (h : s.Inv session secret pairs a) : s.begun.length ≤ pairs.length := by
  obtain ⟨taken, left, rfl, -, hplaces⟩ := h.places
  rw [← hplaces.length_eq, List.length_append]
  exact Nat.le_add_right _ _

/-- When all is over, there is a conversation for each pair. -/
theorem Inv.forall₂_of_isOver (h : s.Inv session secret pairs a) (hover : s.IsOver) :
    List.Forall₂ (fun pair c => Talk.Follows (session.run pair.1 pair.2) c.said c.rest) pairs s.begun := by
  obtain ⟨taken, left, rfl, hunbegun, hplaces⟩ := h.places
  rw [hover.1, eq_comm, List.map_eq_nil_iff] at hunbegun
  rwa [hunbegun, List.append_nil]

/-- No number is given twice. -/
theorem Inv.nodup_numbers (hgiven : Given session pairs a) (h : s.Inv session secret pairs a) :
    (s.begun.flatMap fun c => numbers c.said).Nodup := by
  obtain ⟨m, -, hnumbered⟩ := h.numbered
  have hcount : m ≤ s.begun.length := by
    have hlength := hnumbered.length_eq
    rw [List.length_map, List.length_range] at hlength
    rw [← hlength]
    refine length_flatMap_le fun c hc => ?_
    obtain ⟨pair, -, hfollows⟩ := h.follows hc
    exact hfollows.length_numbers_le
  have hfew : m < 2 ^ 64 := Nat.lt_of_le_of_lt (hcount.trans h.length_begun_le) hgiven.few
  refine hnumbered.nodup_iff.2 (List.Nodup.map_on (fun i hi j hj hij => ?_) List.nodup_range)
  rw [List.mem_range] at hi hj
  have hsame := congrArg UInt64.toNat (add_left_cancel hij)
  rwa [UInt64.toNat_ofNat_of_lt' (hi.trans hfew), UInt64.toNat_ofNat_of_lt' (hj.trans hfew)] at hsame

/-- The number of a conversation is not that of another. -/
theorem Inv.number_not_mem (hgiven : Given session pairs a) (h : s.Inv session secret pairs a)
    {before after : List (Conversation G (Checked RunError (BallotCertificate G)))}
    {c other : Conversation G (Checked RunError (BallotCertificate G))}
    (hbegun : s.begun = before ++ c :: after) (hother : other ∈ before ++ after) {n : UInt64}
    (hn : n ∈ numbers c.said) : n ∉ numbers other.said := by
  have hnodup := h.nodup_numbers hgiven
  rw [hbegun, (List.perm_middle.flatMap_right _).nodup_iff, List.flatMap_cons] at hnodup
  exact fun hn' => List.disjoint_of_nodup_append hnodup hn (List.mem_flatMap.2 ⟨other, hother, hn'⟩)

theorem Inv.exists_settings (h : s.Inv session secret pairs a) {j : Nat} {trustee : BlindingTrustee G}
    (hj : s.parties.trustees[j]? = some trustee) :
    ∃ initial ∈ a.trustees, trustee.settings = initial.settings := by
  have hsame := congrArg (·[j]?) h.settings
  simp only [List.getElem?_map, hj, Option.map_some] at hsame
  obtain ⟨initial, hinitial, hsettings⟩ := Option.map_eq_some_iff.1 hsame.symm
  exact ⟨initial, List.mem_of_getElem? hinitial, hsettings.symm⟩

theorem Inv.lt_trustees (hgiven : Given session pairs a) (h : s.Inv session secret pairs a) {j : Nat}
    {trustee : BlindingTrustee G} (hj : s.parties.trustees[j]? = some trustee) :
    j < session.trustees := by
  have hlength := congrArg List.length h.settings
  rw [List.length_map, List.length_map] at hlength
  rw [hgiven.count, ← hlength]
  exact (List.getElem?_eq_some_iff.1 hj).1

/-- A conversation goes on if a trustee was asked to blind in it, and nothing else yet. -/
theorem Inv.goesOn_of_isBlindedAt (hgiven : Given session pairs a) (h : s.Inv session secret pairs a)
    {c : Conversation G (Checked RunError (BallotCertificate G))} (hc : c ∈ s.begun) {j : Nat}
    (hj : j < session.trustees) (hblinded : c.IsBlindedAt j) : c.goesOn = true := by
  obtain ⟨pair, hpair, hfollows⟩ := h.follows hc
  obtain ⟨e, he⟩ := hblinded
  have hsaid : c.said ≠ [] := by
    rintro hnil
    rw [hnil] at he
    cases he
  obtain ⟨n, hn⟩ := hfollows.exists_numbers hsaid
  obtain ⟨all, hall, -, hover⟩ :=
    hfollows.calls (hgiven.comparable pair hpair) (hn ▸ List.mem_singleton_self n) hj
  rw [← Bool.not_eq_false, Conversation.goesOn_eq_false]
  intro hdone
  have hlength := hall.two_le_length
  rw [← hover hdone, he] at hlength
  exact absurd hlength (Nat.not_succ_le_self 1)

section Conversation

variable {before after : List (Conversation G (Checked RunError (BallotCertificate G)))}
  {c : Conversation G (Checked RunError (BallotCertificate G))} {j : Nat} {trustee : BlindingTrustee G}

/-- A trustee keeps nothing for a conversation in which it was not asked to blind, or has been asked
more. -/
theorem Inv.retains_eq_false (hgiven : Given session pairs a) (h : s.Inv session secret pairs a)
    (hbegun : s.begun = before ++ c :: after) (hj : s.parties.trustees[j]? = some trustee)
    (hunblinded : ¬ c.IsBlindedAt j) {n : UInt64} (hn : n ∈ numbers c.said) :
    trustee.retains ⟨session.name, n⟩ = false := by
  rw [BlindingTrustee.retains_eq_false]
  intro r hr hrun
  obtain ⟨owner, howner, hblinded, m, hm, hownerRun⟩ := (h.kept j trustee hj).owned r hr
  cases hownerRun.symm.trans hrun
  rw [hbegun] at howner
  rcases List.mem_cons.1 (List.perm_middle.subset howner) with rfl | hother
  · exact hunblinded hblinded
  · exact h.number_not_mem hgiven hbegun hother hn hm

/-- **There is room** for one that goes on and in which a trustee was not asked to blind yet. -/
theorem Inv.hasRoom (hgiven : Given session pairs a) (h : s.Inv session secret pairs a)
    (hbegun : s.begun = before ++ c :: after) (hgoesOn : c.goesOn = true)
    (hj : s.parties.trustees[j]? = some trustee) (hunblinded : ¬ c.IsBlindedAt j) {clock : Nat → Nat}
    (hclock : s.parties.InTime clock) : trustee.HasRoom (clock j) := by
  refine ⟨hclock j trustee hj, ?_⟩
  obtain ⟨initial, hinitial, hsettings⟩ := h.exists_settings hj
  have hcapacity : trustee.capacity = initial.capacity := congrArg (fun x => x.2.2.1) hsettings
  have hkept := h.kept j trustee hj
  let isBlinded := fun c' : Conversation G (Checked RunError (BallotCertificate G)) =>
    decide ((callsAt j c'.said).length = 1)
  have hmem : ∀ c' ∈ before ++ after, c' ∈ s.begun := fun c' hc' =>
    hbegun ▸ List.perm_middle.symm.subset (List.mem_cons_of_mem _ hc')
  -- each entry belongs to another conversation that goes on
  have hsub : trustee.retained.map (·.run) ⊆ ((before ++ after).filter isBlinded).flatMap fun c' =>
      (numbers c'.said).map fun n => ⟨session.name, n⟩ := by
    intro run hrun
    obtain ⟨r, hr, rfl⟩ := List.mem_map.1 hrun
    obtain ⟨owner, howner, ⟨e, he⟩, n, hn, hownerRun⟩ := hkept.owned r hr
    rw [hbegun] at howner
    refine List.mem_flatMap.2 ⟨owner, List.mem_filter.2 ⟨?_, decide_eq_true (by rw [he]; rfl)⟩,
      hownerRun ▸ List.mem_map_of_mem hn⟩
    rcases List.mem_cons.1 (List.perm_middle.subset howner) with rfl | hother
    · exact absurd ⟨e, he⟩ hunblinded
    · exact hother
  have hlength : trustee.retained.length ≤ (before ++ after).countP Conversation.goesOn := by
    calc trustee.retained.length = (trustee.retained.map (·.run)).length := (List.length_map _).symm
      _ ≤ _ := (hkept.nodup.subperm hsub).length_le
      _ ≤ ((before ++ after).filter isBlinded).length := by
        refine length_flatMap_le fun c' hc' => ?_
        obtain ⟨pair, -, hfollows⟩ := h.follows (hmem c' (List.mem_filter.1 hc').1)
        rw [List.length_map]
        exact hfollows.length_numbers_le
      _ = (before ++ after).countP isBlinded := List.countP_eq_length_filter.symm
      _ ≤ (before ++ after).countP Conversation.goesOn := by
        refine List.countP_mono_left fun c' hc' hblinded => ?_
        exact h.goesOn_of_isBlindedAt hgiven (hmem c' hc') (h.lt_trustees hgiven hj)
          (List.length_eq_one_iff.1 (of_decide_eq_true hblinded))
  have hwidth := h.width
  rw [hbegun, List.perm_middle.countP_eq, List.countP_cons_of_pos hgoesOn] at hwidth
  have hroom := hgiven.room initial hinitial
  omega

end Conversation

end Facts

end Interplay

end PlaintextEquivalence
