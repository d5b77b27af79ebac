import PlaintextEquivalence.Proofs.Protocol.Coexistence

/-!
# Runs do not disturb each other

Whichever run has a question answered next, it is served with numbers of its own, which are drawn when it
asks to blind, are there when it comes back with challenges, and are gone after that; and the numbers of the
other runs stay.

Principal results:
* `Inv.served_blind`, `Inv.answered_challenge` — a run is answered with numbers of its own.
* `Inv.served_other`, `Inv.keepsFor` — those of the others stay, and nothing else is kept.
* `inv_step`, `inv_reached` — so what holds of runs holds however their questions follow each other.
-/

set_option autoImplicit false

namespace PlaintextEquivalence

open Polynomial

variable {G : PrimeGroup}

namespace Interplay

/-! ## One answer -/

section Answer

variable {session : Session G} {secret : G.Scalar} {pairs : List (Ballot G × Ballot G)} {a : Assembly G}
  {s : Interplay G (Checked RunError (BallotCertificate G))}
  {before after : List (Conversation G (Checked RunError (BallotCertificate G)))}
  {c : Conversation G (Checked RunError (BallotCertificate G))}
  {rest : Talk G (Checked RunError (BallotCertificate G))} {e : Event G} {j : Nat}
  {trustee : BlindingTrustee G} {request : Request G}

/-- What is asked of a trustee is about the run of the conversation, and it is asked to blind first, and
only then. -/
theorem Inv.next_request (hgiven : Given session pairs a) (h : s.Inv session secret pairs a)
    (hbegun : s.begun = before ++ c :: after) (hasked : c.rest.Answered e rest)
    (hj : s.parties.trustees[j]? = some trustee) (hrequest : e.1.requestTo? j = some request) :
    ∃ n, numbers c.said = [n] ∧ request.run = ⟨session.name, n⟩ ∧
      (request.ends = false ↔ callsAt j c.said = []) := by
  have hc : c ∈ s.begun := hbegun ▸ List.mem_append_right _ List.mem_cons_self
  obtain ⟨pair, hpair, hfollows⟩ := h.follows hc
  obtain ⟨n, hn, hcall⟩ := hfollows.next_call (hgiven.comparable pair hpair) hasked
    (h.lt_trustees hgiven hj) (Event.seat?_eq_some.2 ⟨request, hrequest⟩)
  refine ⟨n, hn, ?_⟩
  rw [Question.requestTo?_eq_some] at hrequest
  rcases hcall with ⟨hnone, ratios, reply, rfl⟩ | ⟨ratios, row, cs, reply, reply', -, -, hone, rfl⟩ |
    ⟨hsome, delay, rfl⟩
  · cases hrequest
    exact ⟨rfl, fun _ => hnone, fun _ => rfl⟩
  · cases hrequest
    exact ⟨rfl, nofun, fun hnone => by rw [hone] at hnone; cases hnone⟩
  · cases hrequest
    exact ⟨rfl, nofun, fun hnone => absurd hnone hsome⟩

/-- What is kept for another conversation stays. -/
theorem Inv.stays (hgiven : Given session pairs a) (h : s.Inv session secret pairs a)
    (hbegun : s.begun = before ++ c :: after) (hasked : c.rest.Answered e rest)
    {clock : Nat → Nat} (hclock : s.parties.InTime clock) (hj : s.parties.trustees[j]? = some trustee)
    {other : Conversation G (Checked RunError (BallotCertificate G))} (hother : other ∈ before ++ after)
    {n : UInt64} (hn : n ∈ numbers other.said) {r : RetainedRun G} (hr : r ∈ trustee.retained)
    (hrun : r.run = ⟨session.name, n⟩) :
    r ∈ (trustee.hear j (clock j) e.1).retained := by
  cases hrequest : e.1.requestTo? j with
  | none => rwa [BlindingTrustee.hear_of_none hrequest]
  | some request =>
    rw [BlindingTrustee.hear_of_some hrequest]
    obtain ⟨m, hm, hrequestRun, hfirst⟩ := h.next_request hgiven hbegun hasked hj hrequest
    refine BlindingTrustee.mem_retained_heed_of_ne hr (fun hsame => ?_) fun blinding hblinding => ?_
    · rw [hrun, hrequestRun] at hsame
      cases hsame
      exact h.number_not_mem hgiven hbegun hother (hm ▸ List.mem_singleton_self _) hn
    · subst hblinding
      exact h.hasRoom hgiven hbegun (Conversation.goesOn_of_answered hasked) hj
        (Conversation.not_isBlindedAt (hfirst.1 rfl)) hclock

/-- **Another conversation** is served as before. -/
theorem Inv.served_other (hgiven : Given session pairs a) (h : s.Inv session secret pairs a)
    (hbegun : s.begun = before ++ c :: after) (hasked : c.rest.Answered e rest)
    {clock : Nat → Nat} (hclock : s.parties.InTime clock)
    {other : Conversation G (Checked RunError (BallotCertificate G))} (hother : other ∈ before ++ after)
    {drew : List (BlindingTrustee G)}
    (hserved : other.ServedBy session secret s.parties.trustees drew) :
    other.ServedBy session secret
      (Assembly.world session.election clock e.1 s.parties).2.trustees drew := by
  refine ⟨hserved.answered, ?_, fun k trustee' drawer run ratios reply hk hdrew hmode hcalls => ?_⟩
  · rw [Assembly.settings_world]
    exact hserved.settings
  · rw [Assembly.getElem?_trustees_world] at hk
    obtain ⟨trustee, htrustee, rfl⟩ := Option.map_eq_some_iff.1 hk
    rw [BlindingTrustee.mode_hear] at hmode
    obtain ⟨since, hkept⟩ := hserved.kept k trustee drawer run ratios reply htrustee hdrew hmode hcalls
    have hsaid : (⟨.blind k ⟨run, ratios⟩, reply⟩ : Event G) ∈ other.said :=
      (List.mem_filter.1 (hcalls ▸ List.mem_singleton_self _ :
        _ ∈ callsAt k other.said)).1
    obtain ⟨pair, -, hfollows⟩ := h.follows
      (hbegun ▸ List.perm_middle.symm.subset (List.mem_cons_of_mem _ hother))
    obtain ⟨n, hn⟩ := hfollows.exists_numbers (List.ne_nil_of_mem hsaid)
    have hmem : n ∈ numbers other.said := hn ▸ List.mem_singleton_self n
    have hrun : run = ⟨session.name, n⟩ := hfollows.run_of_request hmem hsaid rfl
    exact ⟨since, h.stays hgiven hbegun hasked hclock htrustee hother hmem hkept hrun⟩

/-- **A call to blind** is answered with numbers that the trustee draws now, and it keeps them. -/
theorem Inv.served_blind (hgiven : Given session pairs a) (h : s.Inv session secret pairs a)
    (hbegun : s.begun = before ++ c :: after) {drew : List (BlindingTrustee G)}
    (hserved : c.ServedBy session secret s.parties.trustees drew) (hgoesOn : c.goesOn = true)
    (hj : s.parties.trustees[j]? = some trustee) {n : UInt64} (hn : n ∈ numbers c.said)
    (hcalls : callsAt j c.said = []) {ratios : List (Ciphertext G)} {clock : Nat → Nat} {delay : Nat}
    (hclock : s.parties.InTime clock) (hpatient : delay ≤ session.limits.patience.nanos) :
    (⟨c.said ++ [⟨.blind j ⟨⟨session.name, n⟩, ratios⟩, ⟨delay, .ok (trustee.contributions ratios)⟩⟩],
        rest⟩ : Conversation G (Checked RunError (BallotCertificate G))).ServedBy session secret
      (Assembly.world session.election clock (.blind j ⟨⟨session.name, n⟩, ratios⟩) s.parties).2.trustees
        (drew.set j trustee) := by
  have hunblinded := Conversation.not_isBlindedAt hcalls
  have hset : (drew.set j trustee)[j]? = some trustee :=
    List.getElem?_set_self (hserved.length_eq ▸ (List.getElem?_eq_some_iff.1 hj).1)
  refine ⟨(hserved.answered.set hcalls trustee).append (answeredBy_blind hset secret _ hpatient), ?_, ?_⟩
  · rw [Assembly.settings_world, List.map_set, hserved.settings]
    obtain ⟨hlt, rfl⟩ := List.getElem?_eq_some_iff.1 hj
    rw [← List.map_set, List.set_getElem_self]
  · intro k trustee' drawer run ratios' reply hk hdrew hmode hcalls'
    rw [Assembly.getElem?_trustees_world] at hk
    obtain ⟨old, hold, rfl⟩ := Option.map_eq_some_iff.1 hk
    rw [BlindingTrustee.mode_hear] at hmode
    by_cases hkj : j = k
    · subst hkj
      cases hj.symm.trans hold
      cases hset.symm.trans hdrew
      rw [callsAt_append, callsAt_of_seat rfl, hcalls] at hcalls'
      cases hcalls'
      have hnew := h.retains_eq_false hgiven hbegun hj hunblinded hn
      have hroom := h.hasRoom hgiven hbegun hgoesOn hj hunblinded hclock
      rw [BlindingTrustee.hear_of_some (Question.requestTo?_eq_some.2 rfl), BlindingTrustee.heed,
        BlindingTrustee.retained_blind hmode hnew hroom]
      exact ⟨clock j, List.mem_append_right _ (List.mem_singleton_self _)⟩
    · have hother : Event.seat? ⟨.blind j ⟨⟨session.name, n⟩, ratios⟩,
          ⟨delay, .ok (trustee.contributions ratios)⟩⟩ ≠ some k :=
        fun hseat => hkj (Option.some.inj hseat)
      rw [callsAt_append, callsAt_of_seat_ne hother, List.append_nil] at hcalls'
      rw [List.getElem?_set_ne hkj] at hdrew
      rw [BlindingTrustee.hear_of_none (Question.requestTo?_eq_none hother)]
      exact hserved.kept k old drawer run ratios' reply hold hdrew hmode hcalls'

/-- **A challenge** for what a trustee contributed is answered with the numbers that it drew then. -/
theorem Inv.answered_challenge (h : s.Inv session secret pairs a) {drew : List (BlindingTrustee G)}
    (hserved : c.ServedBy session secret s.parties.trustees drew)
    (hj : s.parties.trustees[j]? = some trustee) {run : RunId} {ratios : List (Ciphertext G)}
    {row : List (Contribution G)} {cs : List G.Scalar} {reply : Reply (Contribution G)}
    (hcalls : callsAt j c.said = [⟨.blind j ⟨run, ratios⟩, reply⟩]) (hreply : reply.result = .ok row)
    (hcs : cs.length = ratios.length) {delay : Nat} (hpatient : delay ≤ session.limits.patience.nanos) :
    AnsweredBy session secret drew [⟨.challenge j ⟨run, Session.challengesOn cs row⟩,
      { Assembly.promptly (trustee.challenge ⟨run, Session.challengesOn cs row⟩).1 with
        delay := delay }⟩] := by
  refine ⟨?_, ?_, ?_⟩
  · intro k drawer request reply hk hmem
    cases List.mem_singleton.1 hmem
  · intro k drawer request reply' hk hmem ratios' cs' hcs' hchallenges
    cases List.mem_singleton.1 hmem
    have hsaid : (⟨.blind j ⟨run, ratios⟩, reply⟩ : Event G) ∈ c.said :=
      (List.mem_filter.1 (hcalls ▸ List.mem_singleton_self _ : _ ∈ callsAt j c.said)).1
    have hrow : row = drawer.contributions ratios :=
      Except.ok.inj (hreply.symm.trans (hserved.answered.blind j drawer _ reply hk hsaid).2)
    have hmode : drawer.mode = trustee.mode := by
      have hsame := congrArg (·[j]?) hserved.settings
      simp only [List.getElem?_map, hk, hj, Option.map_some] at hsame
      exact congrArg Prod.fst (Option.some.inj hsame)
    -- as many numbers are asked for as are kept
    have hcount : ratios.length = ratios'.length := by
      have hlength := congrArg List.length hchallenges
      rw [hrow] at hlength
      simp only [Session.challengesOn, List.length_zipWith, BlindingTrustee.length_contributions, hcs,
        hcs', Nat.min_self] at hlength
      exact hlength
    have hkept : trustee.mode = .retained → ∃ since, trustee.retained.find? (·.run == run) =
        some ⟨run, drawer.nonces ratios'.length, since⟩ := by
      intro hretained
      obtain ⟨since, hmem⟩ := hserved.kept j trustee drawer run ratios reply hj hk hretained hcalls
      rw [← hcount]
      exact ⟨since, BlindingTrustee.find?_retained (h.kept j trustee hj).nodup hmem⟩
    have hanswer := BlindingTrustee.challenge_fst hmode hkept hcs'
    simp only at hchallenges
    rw [hchallenges, Assembly.challengesOn_contributions, hanswer]
    exact ⟨hpatient, rfl⟩
  · intro ciphertexts answer hmem
    cases List.mem_singleton.1 hmem

/-- The owner of what a trustee keeps stays its owner, unless it asks the trustee for more. -/
theorem Inv.exists_owner (h : s.Inv session secret pairs a) (hbegun : s.begun = before ++ c :: after)
    (hj : s.parties.trustees[j]? = some trustee) {r : RetainedRun G} (hr : r ∈ trustee.retained)
    (hother : e.seat? = some j → ∀ n ∈ numbers c.said, r.run ≠ ⟨session.name, n⟩)
    (rest : Talk G (Checked RunError (BallotCertificate G))) :
    ∃ c' ∈ before ++ ⟨c.said ++ [e], rest⟩ :: after, c'.IsBlindedAt j ∧
      ∃ n ∈ numbers c'.said, r.run = ⟨session.name, n⟩ := by
  obtain ⟨owner, howner, hblinded, n, hn, hrun⟩ := (h.kept j trustee hj).owned r hr
  rw [hbegun] at howner
  rcases List.mem_cons.1 (List.perm_middle.subset howner) with rfl | hmem
  · have hseat : e.seat? ≠ some j := fun hseat => hother hseat n hn hrun
    obtain ⟨e', he'⟩ := hblinded
    refine ⟨_, List.mem_append_right _ List.mem_cons_self, ⟨e', ?_⟩, n, ?_, hrun⟩
    · rw [callsAt_append, callsAt_of_seat_ne hseat, he']
      rfl
    · rw [numbers_append]
      exact List.mem_append_left _ hn
  · exact ⟨owner, List.perm_middle.symm.subset (List.mem_cons_of_mem _ hmem), hblinded, n, hn, hrun⟩

/-- **What a trustee keeps after an answer** is for runs in which it was asked to blind, and nothing else
yet. -/
theorem Inv.keepsFor (hgiven : Given session pairs a) (h : s.Inv session secret pairs a)
    (hbegun : s.begun = before ++ c :: after) (hasked : c.rest.Answered e rest)
    (hj : s.parties.trustees[j]? = some trustee) (now : Nat) :
    KeepsFor session (before ++ ⟨c.said ++ [e], rest⟩ :: after) j (trustee.hear j now e.1) := by
  have hkept := h.kept j trustee hj
  cases hrequest : e.1.requestTo? j with
  | none =>
    rw [BlindingTrustee.hear_of_none hrequest]
    refine ⟨hkept.nodup, hkept.mode, fun r hr => h.exists_owner hbegun hj hr (fun hseat => ?_) rest⟩
    obtain ⟨request, hsome⟩ := Event.seat?_eq_some.1 hseat
    cases hrequest.symm.trans hsome
  | some request =>
    obtain ⟨n, hn, hrun, hfirst⟩ := h.next_request hgiven hbegun hasked hj hrequest
    rw [BlindingTrustee.hear_of_some hrequest]
    refine ⟨BlindingTrustee.nodup_retained_heed hkept.nodup now request, fun r hr => ?_, fun r hr => ?_⟩
    · rw [BlindingTrustee.mode_heed]
      rcases BlindingTrustee.mem_retained_heed hr with ⟨hold, -⟩ | ⟨blinding, -, hmode, -⟩
      · exact hkept.mode r hold
      · exact hmode
    · rcases BlindingTrustee.mem_retained_heed hr with ⟨hold, hends⟩ | ⟨blinding, rfl, -, -, rfl⟩
      · refine h.exists_owner hbegun hj hold (fun _ m hm hsame => ?_) rest
        have hmn : m = n := List.mem_singleton.1 (hn ▸ hm)
        subst hmn
        -- the conversation has an entry only if it asks for more now, and then the entry is gone
        cases hmore : request.ends with
        | true => exact hends (hkept.mode r hold) hmore (hrun.trans hsame.symm)
        | false =>
          have hnone : trustee.retains ⟨session.name, m⟩ = false := by
            refine h.retains_eq_false hgiven hbegun hj ?_ hm
            exact Conversation.not_isBlindedAt (hfirst.1 hmore)
          exact BlindingTrustee.retains_eq_false.1 hnone r hold hsame
      · have hseat := Event.seat?_eq_some.2 ⟨_, hrequest⟩
        refine ⟨_, List.mem_append_right _ List.mem_cons_self, ⟨e, ?_⟩, n, ?_, hrun⟩
        · rw [callsAt_append, callsAt_of_seat hseat, hfirst.1 rfl]
          rfl
        · rw [numbers_append, hn]
          exact List.mem_append_left _ (List.mem_singleton_self n)

/-- The numbers after an answer are those given in order. -/
theorem Inv.numbered_answer (h : s.Inv session secret pairs a) (hbegun : s.begun = before ++ c :: after)
    (q : Question G) (clock : Nat → Nat) (delay : Nat)
    (rest : Talk G (Checked RunError (BallotCertificate G))) :
    ∃ m, (Assembly.world session.election clock q s.parties).2.nextRun = a.nextRun + UInt64.ofNat m ∧
      ((before ++ ⟨c.said ++ [⟨q, q.late delay (Assembly.world session.election clock q s.parties).1⟩],
        rest⟩ :: after).flatMap fun c => numbers c.said).Perm
          ((List.range m).map fun i => a.nextRun + UInt64.ofNat i) := by
  obtain ⟨m, hnext, hnumbered⟩ := h.numbered
  rw [hbegun] at hnumbered
  have hadded : ∀ e : Event G,
      ((before ++ ⟨c.said ++ [e], rest⟩ :: after).flatMap fun c => numbers c.said).Perm
        (numbers [e] ++ (List.range m).map fun i => a.nextRun + UInt64.ofNat i) := by
    intro e
    refine (List.perm_middle.flatMap_right _).trans (.trans ?_
      (((List.perm_middle.flatMap_right _).symm.trans hnumbered).append_left (numbers [e])))
    rw [List.flatMap_cons, List.flatMap_cons, numbers_append, ← List.append_assoc]
    exact List.perm_append_comm.append_right _
  by_cases hq : q = .number
  · subst hq
    refine ⟨m + 1, ?_, (hadded _).trans ?_⟩
    · change s.parties.nextRun + 1 = _
      rw [hnext, UInt64.ofNat_add, add_assoc]
      rfl
    · rw [List.range_succ, List.map_append, List.map_singleton, ← hnext]
      exact List.perm_append_comm
  · refine ⟨m, (Assembly.nextRun_world _ _ _ hq).trans hnext, (hadded _).trans ?_⟩
    rw [numbers_of_ne hq]
    exact .refl _

variable [hG : PrimeGroup.Lawful G] {P : G.Scalar[X]}

/-- An answer that no trustee has a part in is right. -/
theorem Inv.answered_of_silent (h : s.Inv session (P.eval 0) pairs a)
    (hkeys : session.election.keys.LiesOn P)
    {drew : List (BlindingTrustee G)}
    (hsettings : drew.map (·.settings) = s.parties.trustees.map (·.settings)) {q : Question G}
    {clock : Nat → Nat} {delay : Nat} (hsilent : ∀ j trustee, s.parties.trustees[j]? = some trustee →
      q.request?.map Prod.fst ≠ some j) :
    AnsweredBy session (P.eval 0) drew
      [⟨q, q.late delay (Assembly.world session.election clock q s.parties).1⟩] := by
  have hnone : ∀ {j : Nat} {drawer : BlindingTrustee G}, drew[j]? = some drawer →
      q.request?.map Prod.fst ≠ some j := by
    intro j drawer hj
    have hsame := congrArg (·[j]?) hsettings
    simp only [List.getElem?_map, hj, Option.map_some] at hsame
    obtain ⟨trustee, htrustee, -⟩ := Option.map_eq_some_iff.1 hsame.symm
    exact hsilent j trustee htrustee
  constructor
  case blind =>
    intro j drawer request reply hj hmem
    cases List.mem_singleton.1 hmem
    exact absurd rfl (hnone hj)
  case challenge =>
    intro j drawer request reply hj hmem
    cases List.mem_singleton.1 hmem
    exact absurd rfl (hnone hj)
  case decrypt =>
    intro ciphertexts answer hmem
    cases List.mem_singleton.1 hmem
    exact GuardianBoard.decrypt_of_holds hkeys h.decrypt.seated h.decrypt.nodup h.decrypt.enough
      ciphertexts

/-- **The conversation in which an answer is given** is served with numbers of its own. -/
theorem Inv.exists_served (hgiven : Given session pairs a) (h : s.Inv session (P.eval 0) pairs a)
    (hkeys : session.election.keys.LiesOn P)
    (hbegun : s.begun = before ++ c :: after) {q : Question G} {clock : Nat → Nat} {delay : Nat}
    (hasked : c.rest.Answered
      ⟨q, q.late delay (Assembly.world session.election clock q s.parties).1⟩ rest)
    (hclock : s.parties.InTime clock) (hpatient : delay ≤ session.limits.patience.nanos) :
    ∃ drew, (⟨c.said ++ [⟨q, q.late delay (Assembly.world session.election clock q s.parties).1⟩], rest⟩ :
      Conversation G (Checked RunError (BallotCertificate G))).ServedBy session (P.eval 0)
        (Assembly.world session.election clock q s.parties).2.trustees drew := by
  have hc : c ∈ s.begun := hbegun ▸ List.mem_append_right _ List.mem_cons_self
  obtain ⟨drew, hserved⟩ := h.served c hc
  by_cases hcall : ∃ j trustee, s.parties.trustees[j]? = some trustee ∧ q.request?.map Prod.fst = some j
  · obtain ⟨j, trustee, hj, hseat⟩ := hcall
    obtain ⟨pair, hpair, hfollows⟩ := h.follows hc
    obtain ⟨n, hn, hnext⟩ := hfollows.next_call (hgiven.comparable pair hpair) hasked
      (h.lt_trustees hgiven hj) hseat
    have hmem : n ∈ numbers c.said := hn ▸ List.mem_singleton_self n
    rcases hnext with ⟨hnone, ratios, reply, hevent⟩ |
      ⟨ratios, row, cs, reply, reply', hreply, hcs, hone, hevent⟩ | ⟨hsome, delay', hevent⟩
    · obtain rfl : q = .blind j ⟨⟨session.name, n⟩, ratios⟩ := congrArg Sigma.fst hevent
      have hnew : trustee.retains ⟨session.name, n⟩ = false :=
        h.retains_eq_false hgiven hbegun hj (Conversation.not_isBlindedAt hnone) hmem
      have hanswer : Question.late delay (.blind j ⟨⟨session.name, n⟩, ratios⟩)
          (Assembly.world session.election clock (.blind j ⟨⟨session.name, n⟩, ratios⟩) s.parties).1 =
            ⟨delay, .ok (trustee.contributions ratios)⟩ := by
        rw [Assembly.blind_world _ _ hj, BlindingTrustee.blind_fst fun _ => hnew]
        rfl
      rw [hanswer]
      exact ⟨_, h.served_blind hgiven hbegun hserved (Conversation.goesOn_of_answered hasked) hj hmem
        hnone hclock hpatient⟩
    · obtain rfl : q = .challenge j ⟨⟨session.name, n⟩, Session.challengesOn cs row⟩ :=
        congrArg Sigma.fst hevent
      have hanswered := h.answered_challenge hserved hj hone hreply hcs hpatient
      rw [Assembly.challenge_world _ _ hj]
      refine ⟨drew, hserved.next hanswered (fun k _ _ hk => ?_) clock rest⟩
      cases hk
      rw [hone]
      exact List.cons_ne_nil _ _
    · obtain rfl : q = .release j ⟨session.name, n⟩ := congrArg Sigma.fst hevent
      have hanswered := answeredBy_release session (P.eval 0) drew j ⟨session.name, n⟩ delay
      refine ⟨drew, hserved.next hanswered (fun k _ _ hk => ?_) clock rest⟩
      cases hk
      exact hsome
  · refine ⟨drew, hserved.next (h.answered_of_silent hkeys hserved.settings ?_) ?_ clock rest⟩
    · exact fun j trustee hj hseat => hcall ⟨j, trustee, hj, hseat⟩
    · exact fun j trustee hj hseat => absurd ⟨j, trustee, hj, hseat⟩ hcall

end Answer

/-! ## All that can come -/

section Reached

variable {session : Session G} {secret : G.Scalar} {pairs : List (Ballot G × Ballot G)} {a : Assembly G}
  {unbegun : List (Talk G (Checked RunError (BallotCertificate G)))}
  {begun before after : List (Conversation G (Checked RunError (BallotCertificate G)))}
  {parties : Assembly G}

/-- The runs of pairs of ballots. -/
def runsOf (session : Session G) (pairs : List (Ballot G × Ballot G)) :
    List (Talk G (Checked RunError (BallotCertificate G))) :=
  pairs.map fun pair => session.run pair.1 pair.2

theorem inv_start (secret : G.Scalar) (hgiven : Given session pairs a) :
    Inv session secret pairs a ⟨runsOf session pairs, [], a⟩ where
  places := ⟨[], pairs, rfl, rfl, .nil⟩
  width := Nat.zero_le _
  numbered := ⟨0, (add_zero _).symm, .refl _⟩
  settings := rfl
  decrypt := hgiven.decrypt
  served := fun _ hc => absurd hc List.not_mem_nil
  kept := by
    intro j trustee hj
    have hempty := hgiven.empty trustee (List.mem_of_getElem? hj)
    constructor
    all_goals simp [hempty]

/-- A run that is begun has asked nothing yet. -/
theorem Inv.start {run : Talk G (Checked RunError (BallotCertificate G))}
    (h : Inv session secret pairs a ⟨run :: unbegun, begun, parties⟩)
    (room : begun.countP Conversation.goesOn < session.limits.width.toNat) :
    Inv session secret pairs a ⟨unbegun, begun ++ [⟨[], run⟩], parties⟩ where
  places := by
    obtain ⟨taken, left, hpairs, hunbegun, hplaces⟩ := h.places
    cases left with
    | nil => cases hunbegun
    | cons pair left =>
      obtain ⟨rfl, rfl⟩ := List.cons.inj hunbegun
      refine ⟨taken ++ [pair], left, by rw [hpairs, List.append_assoc]; rfl, rfl, ?_⟩
      exact List.rel_append hplaces (.cons (Talk.follows_refl _) .nil)
  width := by
    have hone : [(⟨[], run⟩ : Conversation G _)].countP Conversation.goesOn ≤ 1 := List.countP_le_length
    rw [List.countP_append]
    omega
  numbered := by
    obtain ⟨m, hnext, hnumbered⟩ := h.numbered
    rw [List.flatMap_append]
    exact ⟨m, hnext, (List.append_nil _).symm ▸ hnumbered⟩
  settings := h.settings
  decrypt := h.decrypt
  served := by
    refine List.forall_mem_append.2 ⟨h.served, List.forall_mem_singleton.2 ⟨parties.trustees, ?_⟩⟩
    exact ⟨⟨fun _ _ _ _ _ => nofun, fun _ _ _ _ _ => nofun, fun _ _ => nofun⟩, rfl,
      fun _ _ _ _ _ _ _ _ _ => nofun⟩
  kept := by
    intro j trustee hj
    obtain ⟨hnodup, hmode, howned⟩ := h.kept j trustee hj
    refine ⟨hnodup, hmode, fun r hr => ?_⟩
    obtain ⟨c, hc, howner⟩ := howned r hr
    exact ⟨c, List.mem_append_left _ hc, howner⟩

variable [hG : PrimeGroup.Lawful G] {P : G.Scalar[X]}

/-- An answer is one of those that a run can be given. -/
theorem Inv.answer (hgiven : Given session pairs a)
    (hkeys : session.election.keys.LiesOn P)
    {c : Conversation G (Checked RunError (BallotCertificate G))}
    {rest : Talk G (Checked RunError (BallotCertificate G))} {e : Event G} {parties' : Assembly G}
    (h : Inv session (P.eval 0) pairs a ⟨unbegun, before ++ c :: after, parties⟩)
    (asked : c.rest.Answered e rest) (given : parties.Answers session e parties') :
    Inv session (P.eval 0) pairs a ⟨unbegun, before ++ ⟨c.said ++ [e], rest⟩ :: after, parties'⟩ := by
  obtain @⟨q, clock, delay, inTime, patient⟩ := given
  constructor
  case places =>
    obtain ⟨taken, left, hpairs, hunbegun, hplaces⟩ := h.places
    exact ⟨taken, left, hpairs, hunbegun, Paired.replace (fun _ hfollows => hfollows.step asked) hplaces⟩
  case width =>
    have hwidth := h.width
    rw [List.perm_middle.countP_eq,
      List.countP_cons_of_pos (Conversation.goesOn_of_answered asked)] at hwidth
    rw [List.perm_middle.countP_eq, List.countP_cons]
    split <;> omega
  case numbered => exact h.numbered_answer rfl q clock delay rest
  case settings => exact (Assembly.settings_world _ _ _ _).trans h.settings
  case decrypt =>
    have hsame := Assembly.guardians_world session.election clock q parties
    exact ⟨hsame ▸ h.decrypt.seated, hsame ▸ h.decrypt.nodup, hsame ▸ h.decrypt.enough⟩
  case served =>
    intro c' hc'
    rcases List.mem_cons.1 (List.perm_middle.subset hc') with rfl | hother
    · exact h.exists_served hgiven hkeys rfl asked inTime patient
    · obtain ⟨drew, hserved⟩ := h.served c' (List.perm_middle.symm.subset (List.mem_cons_of_mem _ hother))
      exact ⟨drew, h.served_other hgiven rfl asked inTime hother hserved⟩
  case kept =>
    intro j trustee' hj
    rw [Assembly.getElem?_trustees_world] at hj
    obtain ⟨trustee, htrustee, rfl⟩ := Option.map_eq_some_iff.1 hj
    exact h.keepsFor hgiven rfl asked htrustee (clock j)

/-- **What holds of runs stays so**, whichever is begun or answered next. -/
theorem inv_step (hgiven : Given session pairs a)
    (hkeys : session.election.keys.LiesOn P)
    {s s' : Interplay G (Checked RunError (BallotCertificate G))} (h : Inv session (P.eval 0) pairs a s)
    (hstep : Step session s s') : Inv session (P.eval 0) pairs a s' := by
  cases hstep with
  | start room => exact h.start room
  | answer asked given => exact h.answer hgiven hkeys asked given

theorem inv_reached (hgiven : Given session pairs a)
    (hkeys : session.election.keys.LiesOn P)
    {n : Nat} {s : Interplay G (Checked RunError (BallotCertificate G))}
    (hreached : Reached session (runsOf session pairs) a n s) : Inv session (P.eval 0) pairs a s := by
  induction hreached with
  | start => exact inv_start _ hgiven
  | step _ step ih => exact inv_step hgiven hkeys ih step

end Reached

end Interplay

end PlaintextEquivalence
