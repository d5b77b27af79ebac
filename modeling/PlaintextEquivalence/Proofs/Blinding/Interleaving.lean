import PlaintextEquivalence.Proofs.Blinding.History
import PlaintextEquivalence.Proofs.Election.Board
import PlaintextEquivalence.Proofs.Sigma.Completeness

/-!
# Runs that take turns at a trustee

Requests of many runs reach a trustee in any order.  As long as there is room for all of them, what is
kept for a run depends on the requests of that run alone, so that each run finds its own numbers,
whatever the others do in between.

Principal results:
* `retains_heed` — whether numbers are kept for a run is decided by the requests of that run alone.
* `retains_before` — so it is the last of them that decides.
* `accepts_of_interleaved` — runs that keep to the protocol are never rejected, and the answers they get
  fit the contributions they got.
-/

set_option autoImplicit false

namespace PlaintextEquivalence

variable {G : PrimeGroup}

/-! ## The requests of a run -/

namespace History

/-- The requests of a run, in order. -/
def requestsOf (h : History G) (run : RunId) : List (Request G) :=
  (h.map Prod.fst).filter (·.run = run)

theorem requestsOf_take_succ {h : History G} {j now : Nat} {q : Request G}
    (hq : h[j]? = some (q, now)) (run : RunId) :
    requestsOf (h.take (j + 1)) run =
      requestsOf (h.take j) run ++ if q.run = run then [q] else [] := by
  unfold requestsOf
  rw [List.take_add_one, hq]
  by_cases hrun : q.run = run
  · simp [hrun]
  · simp [hrun]

/-- The requests of a run, around the one at a place. -/
theorem requestsOf_eq {h : History G} {j now : Nat} {q : Request G} (hq : h[j]? = some (q, now)) :
    requestsOf h q.run =
      requestsOf (h.take j) q.run ++ q :: requestsOf (h.drop (j + 1)) q.run := by
  have hsplit : h = h.take (j + 1) ++ h.drop (j + 1) := (List.take_append_drop (j + 1) h).symm
  calc requestsOf h q.run
      = requestsOf (h.take (j + 1)) q.run ++ requestsOf (h.drop (j + 1)) q.run := by
        conv_lhs => rw [hsplit]
        unfold requestsOf
        rw [List.map_append, List.filter_append]
    _ = _ := by
        rw [requestsOf_take_succ hq, if_pos rfl, List.append_assoc]
        rfl

theorem mem_requestsOf_take {h : History G} {i j now : Nat} {q : Request G}
    (hq : h[i]? = some (q, now)) (hij : i < j) : q ∈ requestsOf (h.take j) q.run := by
  unfold requestsOf
  rw [List.mem_filter, List.mem_map]
  refine ⟨⟨(q, now), ?_, rfl⟩, decide_eq_true rfl⟩
  rw [List.mem_iff_getElem?]
  exact ⟨i, by rw [List.getElem?_take_of_lt hij, hq]⟩

end History

/-- What a run asks of a trustee, as far as it has come: to blind, and then to answer as many challenges
with the numbers kept, or to drop them. -/
inductive Lifetime : List (Request G) → Prop where
  | unborn : Lifetime []
  | blinded (blinding : BlindRequest G) : Lifetime [.blind blinding]
  | challenged {blinding : BlindRequest G} {request : ChallengeRequest G}
      (count : request.challenges.length = blinding.ciphertexts.length)
      (markers : ∀ c ∈ request.challenges, c.nonces = .retained) :
      Lifetime [.blind blinding, .challenge request]
  | released (blinding : BlindRequest G) (run : RunId) : Lifetime [.blind blinding, .release run]

/-- A request comes first in the life of its run, or after the blinding. -/
theorem Lifetime.cases_mid {past future : List (Request G)} {q : Request G}
    (h : Lifetime (past ++ q :: future)) :
    (past = [] ∧ ∃ blinding, q = .blind blinding) ∨
      ∃ blinding, past = [.blind blinding] ∧ q.ends = true ∧
        ∀ request, q = .challenge request →
          request.challenges.length = blinding.ciphertexts.length ∧
            ∀ c ∈ request.challenges, c.nonces = .retained := by
  generalize hall : past ++ q :: future = requests at h
  have hfirst {r : Request G} {later : List (Request G)} (hall : past ++ q :: future = r :: later) :
      (past = [] ∧ q = r) ∨ ∃ past', past = r :: past' ∧ past' ++ q :: future = later := by
    rcases List.append_eq_cons_iff.1 hall with ⟨hpast, hq⟩ | ⟨past', hpast, hlater⟩
    · exact .inl ⟨hpast, (List.cons.inj hq).1⟩
    · exact .inr ⟨past', hpast, hlater.symm⟩
  have hlast {past' : List (Request G)} {r : Request G} (hall : past' ++ q :: future = [r]) :
      past' = [] ∧ q = r := by
    obtain ⟨hpast, hq, -⟩ : past' = [] ∧ q = r ∧ future = [] := by
      simpa [List.append_eq_cons_iff] using hall
    exact ⟨hpast, hq⟩
  cases h with
  | unborn => simp at hall
  | blinded blinding =>
    obtain ⟨hpast, hq⟩ := hlast hall
    exact .inl ⟨hpast, blinding, hq⟩
  | @challenged blinding request count markers =>
    rcases hfirst hall with ⟨hpast, hq⟩ | ⟨past', hpast, hall'⟩
    · exact .inl ⟨hpast, blinding, hq⟩
    · obtain ⟨rfl, rfl⟩ := hlast hall'
      refine .inr ⟨blinding, hpast, rfl, fun request' hq => ?_⟩
      cases hq
      exact ⟨count, markers⟩
  | released blinding run =>
    rcases hfirst hall with ⟨hpast, hq⟩ | ⟨past', hpast, hall'⟩
    · exact .inl ⟨hpast, blinding, hq⟩
    · obtain ⟨rfl, rfl⟩ := hlast hall'
      exact .inr ⟨blinding, hpast, rfl, fun _ hq => by cases hq⟩

namespace BlindingTrustee

/-! ## Room -/

/-- No run is kept for too long yet. -/
def IsCurrent (trustee : BlindingTrustee G) (now : Nat) : Prop :=
  ∀ r ∈ trustee.retained, now - r.since < trustee.retention.nanos

/-- Unless a run is kept for too long, those blinded first are dropped. -/
theorem retained_evict_of_isCurrent {trustee : BlindingTrustee G} {now : Nat}
    (h : trustee.IsCurrent now) :
    (trustee.evict now).retained =
      trustee.retained.drop (trustee.retained.length + 1 - trustee.capacity) := by
  have hfresh : (trustee.retained.filter fun r => now - r.since < trustee.retention.nanos) =
      trustee.retained := List.filter_eq_self.2 fun r hr => decide_eq_true (h r hr)
  unfold evict
  simp only [hfresh]

/-- No run has to give way when another is blinded: none is kept for too long, and there is room for one
more. -/
structure HasRoom (trustee : BlindingTrustee G) (now : Nat) : Prop where
  current : ∀ r ∈ trustee.retained, now - r.since < trustee.retention.nanos
  room : trustee.retained.length < trustee.capacity

theorem retained_evict {trustee : BlindingTrustee G} {now : Nat} (h : trustee.HasRoom now) :
    (trustee.evict now).retained = trustee.retained := by
  rw [retained_evict_of_isCurrent h.current, Nat.sub_eq_zero_of_le h.room, List.drop_zero]

/-- With room, a blinding adds its run to those kept, and changes nothing for another. -/
theorem retains_blind {trustee : BlindingTrustee G} (hmode : trustee.mode = .retained) {now : Nat}
    (hroom : trustee.HasRoom now) (request : BlindRequest G) (run : RunId) :
    (trustee.blind now request).2.retains run =
      if request.run = run then true else trustee.retains run := by
  rcases blind_cases trustee now request with ⟨-, hblind⟩ | ⟨-, hkept, hblind⟩
  · rw [hblind, afterBlinding, keeping_of_retained hmode, retained_evict hroom]
    simp only [retains, List.any_append, List.any_cons, List.any_nil, Bool.or_false]
    split
    · rename_i hrun
      simp [hrun]
    · rename_i hrun
      simp [hrun]
  · rw [hblind]
    split
    · rename_i hrun
      exact hrun ▸ hkept
    · rfl

theorem retains_forget (trustee : BlindingTrustee G) (ended run : RunId) :
    (trustee.forget ended).retains run = if ended = run then false else trustee.retains run := by
  split
  · rename_i hrun
    rw [retains_eq_false]
    intro r hr
    exact hrun ▸ (mem_retained_forget.1 hr).2
  · rename_i hrun
    rw [Bool.eq_iff_iff, retains_eq_true, retains_eq_true]
    constructor
    · rintro ⟨r, hr, hkept⟩
      exact ⟨r, (mem_retained_forget.1 hr).1, hkept⟩
    · rintro ⟨r, hr, rfl⟩
      exact ⟨r, mem_retained_forget.2 ⟨hr, fun h => hrun h.symm⟩, rfl⟩

/-- **A request decides for its own run** whether numbers are kept, and for no other. -/
theorem retains_heed {trustee : BlindingTrustee G} (hmode : trustee.mode = .retained) {now : Nat}
    {q : Request G} (hroom : ∀ blinding, q = .blind blinding → trustee.HasRoom now) (run : RunId) :
    (trustee.heed now q).retains run = if q.run = run then !q.ends else trustee.retains run := by
  cases q with
  | blind request => exact retains_blind hmode (hroom request rfl) request run
  | challenge request =>
    show (trustee.challenge request).2.retains run = _
    rw [challenge_snd hmode]
    exact retains_forget trustee request.run run
  | release ended => exact retains_forget trustee ended run

/-! ## Runs in any order -/

section Interleaving

variable {trustee : BlindingTrustee G} {h : History G}

/-- There is room at every blinding of a history. -/
def HasRoomThroughout (trustee : BlindingTrustee G) (h : History G) : Prop :=
  ∀ i blinding now, h[i]? = some (.blind blinding, now) → (trustee.before h i).HasRoom now

/-- Whether numbers are kept for a run is decided by its last request. -/
theorem retains_before (hmode : trustee.mode = .retained) (hroom : trustee.HasRoomThroughout h)
    (run : RunId) (j : Nat) :
    (trustee.before h j).retains run =
      ((History.requestsOf (h.take j) run).getLast?.map (!·.ends)).getD (trustee.retains run) := by
  induction j with
  | zero => rfl
  | succ j ih =>
    cases hq : h[j]? with
    | none =>
      rw [before_succ_of_none hq, ih, List.take_add_one, hq, Option.toList_none, List.append_nil]
    | some q =>
      obtain ⟨q, now⟩ := q
      have hroomy : ∀ blinding, q = .blind blinding → (trustee.before h j).HasRoom now := by
        rintro blinding rfl
        exact hroom j blinding now hq
      rw [before_succ hq, retains_heed ((mode_before trustee h j).trans hmode) hroomy, ih,
        History.requestsOf_take_succ hq]
      split
      · simp
      · simp

/-- Whether a request is not rejected. -/
def accepts (trustee : BlindingTrustee G) (now : Nat) : Request G → Bool
  | .blind request => (trustee.blind now request).1.isOk
  | .challenge request => (trustee.challenge request).1.isOk
  | .release _ => true

/-- The answers to a challenge request restore the commitments that were made when the run was
blinded. -/
structure Fits (trustee : BlindingTrustee G) (h : History G) (i j : Nat) (blinding : BlindRequest G)
    (contributions : List (Contribution G)) (request : ChallengeRequest G)
    (responses : List (ChallengeResponse G)) : Prop where
  order : i < j
  blinded : ∃ now, h[i]? = some (.blind blinding, now) ∧
    ((trustee.before h i).blind now blinding).1 = .ok contributions
  run : request.run = blinding.run
  answered : ((trustee.before h j).challenge request).1 = .ok responses
  contributed : contributions.length = blinding.ciphertexts.length
  responded : responses.length = blinding.ciphertexts.length
  restored : ∀ (k : Nat) ratio contribution c response, blinding.ciphertexts[k]? = some ratio →
    contributions[k]? = some contribution → request.challenges[k]? = some c →
      responses[k]? = some response →
        Blinding.expectedCommitments ratio contribution.blinded c.challenge response.response =
          contribution.commitments

/-- What a challenge request is answered with fits what was blinded. -/
theorem Spends.fits [PrimeGroup.Lawful G] {i j : Nat} {blinding : BlindRequest G}
    {request : ChallengeRequest G} {responses : List (ChallengeResponse G)}
    (hs : trustee.Spends h i j blinding request responses)
    (hanswered : ((trustee.before h j).challenge request).1 = .ok responses) :
    trustee.Fits h i j blinding ((trustee.before h i).contributions blinding.ciphertexts) request
      responses := by
  constructor
  case order => exact hs.order
  case blinded => exact hs.blinded
  case run => exact hs.run
  case answered => exact hanswered
  case contributed => exact length_contributions _ _
  case responded => exact hs.answered.trans hs.count
  case restored =>
    intro k ratio contribution c response hratio hcontribution hc hresponse
    rw [contributions, List.getElem?_zipWith, hratio] at hcontribution
    cases hpair : ((trustee.before h i).nonces blinding.ciphertexts.length)[k]? with
    | none =>
      rw [hpair] at hcontribution
      cases hcontribution
    | some pair =>
      rw [hpair] at hcontribution
      cases hcontribution
      cases (hs.response k c pair hc hpair).symm.trans hresponse
      exact Blinding.expectedCommitments_honest ratio pair.exponent pair.mask c.challenge

/-- What is kept for a run that has only been blinded so far are the numbers of its blinding. -/
theorem find?_before (hmode : trustee.mode = .retained) (hroom : trustee.HasRoomThroughout h) {j : Nat}
    {run : RunId} {blinding : BlindRequest G} (hnew : trustee.retains run = false)
    (hpast : History.requestsOf (h.take j) run = [.blind blinding]) :
    ∃ kept, (trustee.before h j).retained.find? (·.run == run) = some kept ∧
      kept.nonces.length = blinding.ciphertexts.length := by
  have hretains : (trustee.before h j).retains run = true := by
    rw [retains_before hmode hroom, hpast]
    rfl
  obtain ⟨kept, hfind⟩ := Option.isSome_iff_exists.1 (List.find?_isSome.2 (List.any_eq_true.1 hretains))
  have hrun : kept.run = run := by simpa using List.find?_some hfind
  refine ⟨kept, hfind, ?_⟩
  rcases exists_keptSince hmode (List.mem_of_find?_eq_some hfind) with h0 | ⟨i, blinding', hsince⟩
  · exact absurd hrun (retains_eq_false.1 hnew kept h0)
  · have hmem := History.mem_requestsOf_take hsince.blinded hsince.order
    have hsame : (Request.blind blinding').run = run := hsince.run.symm.trans hrun
    rw [hsame, hpast, List.mem_singleton] at hmem
    cases hmem
    rw [hsince.nonces, length_nonces]

/-- A run that keeps to the protocol is not rejected, whatever other runs do. -/
theorem accepts_before (hmode : trustee.mode = .retained) (hroom : trustee.HasRoomThroughout h)
    {j now : Nat} {q : Request G} (hq : h[j]? = some (q, now))
    (hlife : Lifetime (History.requestsOf h q.run)) (hnew : trustee.retains q.run = false) :
    (trustee.before h j).accepts now q = true := by
  have hmodej : (trustee.before h j).mode = .retained := (mode_before trustee h j).trans hmode
  rw [History.requestsOf_eq hq] at hlife
  rcases hlife.cases_mid with ⟨hpast, blinding, rfl⟩ | ⟨blinding, hpast, hends, hproper⟩
  · have hretains := retains_before hmode hroom blinding.run j
    rw [show History.requestsOf (h.take j) blinding.run = [] from hpast] at hretains
    have hblind : ((trustee.before h j).blind now blinding).1 =
        .ok ((trustee.before h j).contributions blinding.ciphertexts) :=
      (blind_eq_ok hmodej).2 ⟨hretains.trans hnew, rfl⟩
    unfold accepts
    simp only [hblind, Except.isOk, Except.toBool]
  · cases q with
    | blind request => cases hends
    | challenge request =>
      obtain ⟨kept, hfind, hlength⟩ := find?_before hmode hroom hnew hpast
      obtain ⟨hcount, hmarkers⟩ := hproper request rfl
      have hanswer := (challenge_eq_ok hmodej).2
        ⟨kept, hfind, hlength.trans hcount.symm, hmarkers, rfl⟩
      unfold accepts
      simp only [hanswer, Except.isOk, Except.toBool]
    | release run => rfl

end Interleaving

/-- **Runs do not disturb each other.**  If all runs keep to the protocol and there is room for them,
then in whatever order their requests come, none is rejected, and the answers to each challenge request
restore the commitments that its own run was given. -/
theorem accepts_of_interleaved [PrimeGroup.Lawful G] {trustee : BlindingTrustee G} {h : History G}
    (hmode : trustee.mode = .retained) (hnew : ∀ q ∈ h, trustee.retains q.1.run = false)
    (hlives : ∀ run, Lifetime (History.requestsOf h run)) (hroom : trustee.HasRoomThroughout h) :
    (∀ j q now, h[j]? = some (q, now) → (trustee.before h j).accepts now q = true) ∧
    ∀ j request now, h[j]? = some (.challenge request, now) →
      ∃ i blinding contributions responses,
        trustee.Fits h i j blinding contributions request responses := by
  have haccepts : ∀ j q now, h[j]? = some (q, now) → (trustee.before h j).accepts now q = true := by
    intro j q now hq
    exact accepts_before hmode hroom hq (hlives q.run) (hnew _ (List.mem_of_getElem? hq))
  refine ⟨haccepts, fun j request now hq => ?_⟩
  have haccepted : ((trustee.before h j).challenge request).1.isOk = true := haccepts j _ now hq
  cases hanswered : ((trustee.before h j).challenge request).1 with
  | error rejection =>
    rw [hanswered] at haccepted
    cases haccepted
  | ok responses =>
    have hfresh : trustee.retains request.run = false := hnew _ (List.mem_of_getElem? hq)
    obtain ⟨i, blinding, hs⟩ := exists_spends hmode hfresh hq hanswered
    exact ⟨i, blinding, _, responses, hs.fits hanswered⟩

end BlindingTrustee

/-! ## A small history -/

namespace Small

/-- A trustee with room for two runs. -/
def trustee : BlindingTrustee Group := (BlindingTrustee.ofTape "first" tape).withCapacity 2

def runId (n : UInt64) : RunId := ⟨Vector.replicate 16 0, n⟩

/-- Two runs that take turns, with a third one blinded when there is room again. -/
def history : History Group :=
  [(.blind ⟨runId 0, [⟨Group.ofWord 2, Group.ofWord 11⟩]⟩, 0),
   (.blind ⟨runId 1, [⟨Group.ofWord 3, Group.ofWord 5⟩, ⟨Group.ofWord 7, Group.ofWord 0⟩]⟩, 1),
   (.challenge ⟨runId 0, [⟨Group.ofWord 9, .retained⟩]⟩, 2),
   (.blind ⟨runId 2, []⟩, 3),
   (.challenge ⟨runId 1, [⟨Group.ofWord 4, .retained⟩, ⟨Group.ofWord 0, .retained⟩]⟩, 4),
   (.release (runId 2), 5)]

theorem lifetime_history (run : RunId) : Lifetime (history.requestsOf run) := by
  by_cases h0 : runId 0 = run
  · subst h0
    exact .challenged rfl (by simp)
  by_cases h1 : runId 1 = run
  · subst h1
    exact .challenged rfl (by simp)
  by_cases h2 : runId 2 = run
  · subst h2
    exact .released _ _
  have hnone : history.requestsOf run = [] := by
    simp [History.requestsOf, history, Request.run, h0, h1, h2]
  rw [hnone]
  exact .unborn

theorem hasRoom_history : trustee.HasRoomThroughout history := by
  intro i blinding now hi
  match i with
  | 0 =>
    cases hi
    exact ⟨by decide +kernel, by decide +kernel⟩
  | 1 =>
    cases hi
    exact ⟨by decide +kernel, by decide +kernel⟩
  | 2 => cases hi
  | 3 =>
    cases hi
    exact ⟨by decide +kernel, by decide +kernel⟩
  | 4 => cases hi
  | 5 => cases hi
  | i + 6 => cases hi

/-- Two runs that take turns are both answered with what was drawn for them. -/
theorem fits_history :
    (∀ j q now, history[j]? = some (q, now) → (trustee.before history j).accepts now q = true) ∧
    ∀ j request now, history[j]? = some (.challenge request, now) →
      ∃ i blinding contributions responses,
        trustee.Fits history i j blinding contributions request responses :=
  BlindingTrustee.accepts_of_interleaved rfl (by decide +kernel) lifetime_history hasRoom_history

end Small

end PlaintextEquivalence
