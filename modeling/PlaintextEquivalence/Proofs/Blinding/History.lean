import Mathlib.Logic.ExistsUnique
import Mathlib.Order.Monotone.Basic
import PlaintextEquivalence.Proofs.Blinding.Drawing

/-!
# Histories of a trustee

A trustee is asked one thing after the other, for runs in any order.  What it keeps for a run was drawn
when the run was blinded, and it is given up at the first challenge after that, whatever comes of it.
So the numbers behind a blinding are used for the answers to one challenge request at most; and since the
tape never runs back, no two blindings have numbers from one part of it.

Principal results:
* `mem_retained_heed` — where what is kept after a request comes from.
* `exists_keptSince` — the same after any number of requests.
* `exists_drawsApart` — where on the tape the numbers of each blinding stand.
* `numbers_spent_once` — which numbers the answers to a challenge are made with, and that they are
  never used again.
-/

set_option autoImplicit false

namespace PlaintextEquivalence

variable {G : PrimeGroup}

/-- A request to a trustee. -/
inductive Request (G : PrimeGroup) where
  | blind (request : BlindRequest G)
  | challenge (request : ChallengeRequest G)
  | release (run : RunId)

namespace Request

/-- The run that a request is about. -/
def run : Request G → RunId
  | .blind request => request.run
  | .challenge request => request.run
  | .release run => run

/-- Whether nothing more is to come for the run. -/
def ends : Request G → Bool
  | .blind _ => false
  | .challenge _ => true
  | .release _ => true

end Request

/-- Requests in order, each with the time at which it comes. -/
abbrev History (G : PrimeGroup) := List (Request G × Nat)

namespace BlindingTrustee

/-! ## One request -/

/-- The trustee after a request. -/
def heed (trustee : BlindingTrustee G) (now : Nat) : Request G → BlindingTrustee G
  | .blind request => (trustee.blind now request).2
  | .challenge request => (trustee.challenge request).2
  | .release run => trustee.release run

theorem retains_eq_true {trustee : BlindingTrustee G} {run : RunId} :
    trustee.retains run = true ↔ ∃ r ∈ trustee.retained, r.run = run := by
  simp [retains]

theorem retains_eq_false {trustee : BlindingTrustee G} {run : RunId} :
    trustee.retains run = false ↔ ∀ r ∈ trustee.retained, r.run ≠ run := by
  simp [retains]

theorem mem_retained_forget {trustee : BlindingTrustee G} {run : RunId} {r : RetainedRun G} :
    r ∈ (trustee.forget run).retained ↔ r ∈ trustee.retained ∧ r.run ≠ run := by
  simp [forget]

/-- A trustee that keeps its numbers blinds for a run iff it keeps none for it yet. -/
theorem blind_eq_ok {trustee : BlindingTrustee G} (hmode : trustee.mode = .retained) {now : Nat}
    {request : BlindRequest G} {contributions : List (Contribution G)} :
    (trustee.blind now request).1 = .ok contributions ↔
      trustee.retains request.run = false ∧
        contributions = trustee.contributions request.ciphertexts := by
  rcases blind_cases trustee now request with ⟨hfresh, hblind⟩ | ⟨-, hkept, hblind⟩
  · rw [hblind, hfresh hmode]
    simp [eq_comm]
  · rw [hblind, hkept]
    simp

theorem mem_retained_blind {trustee : BlindingTrustee G} {now : Nat} {request : BlindRequest G}
    {r : RetainedRun G} (h : r ∈ (trustee.blind now request).2.retained) :
    r ∈ trustee.retained ∨ trustee.mode = .retained ∧ trustee.retains request.run = false ∧
      r = ⟨request.run, trustee.nonces request.ciphertexts.length, now⟩ := by
  rcases blind_cases trustee now request with ⟨hfresh, hblind⟩ | ⟨-, -, hblind⟩
  · rw [hblind] at h
    cases hmode : trustee.mode with
    | echoed =>
      rw [afterBlinding, keeping_of_echoed hmode] at h
      exact .inl h
    | retained =>
      rw [afterBlinding, keeping_of_retained hmode] at h
      rcases List.mem_append.1 h with hr | hr
      · exact .inl (mem_of_mem_evict hr)
      · exact .inr ⟨rfl, hfresh hmode, List.mem_singleton.1 hr⟩
  · rw [hblind] at h
    exact .inl h

theorem forget_of_not_retains {trustee : BlindingTrustee G} {run : RunId}
    (h : trustee.retains run = false) : trustee.forget run = trustee := by
  have hall : trustee.retained.filter (·.run != run) = trustee.retained := by
    rw [List.filter_eq_self]
    intro r hr
    exact bne_iff_ne.2 (retains_eq_false.1 h r hr)
  unfold forget
  rw [hall]

/-- **A challenge ends a run**, whatever comes of it. -/
theorem challenge_snd {trustee : BlindingTrustee G} (hmode : trustee.mode = .retained)
    (request : ChallengeRequest G) :
    (trustee.challenge request).2 = trustee.forget request.run := by
  unfold challenge
  simp only [hmode]
  split
  · rename_i hnone
    have hunknown : trustee.retains request.run = false := by
      rw [retains_eq_false]
      intro r hr
      simpa using List.find?_eq_none.1 hnone r hr
    exact (forget_of_not_retains hunknown).symm
  · split
    · rfl
    · rfl

/-- A trustee that gets its numbers back keeps none, and forgets none. -/
theorem challenge_snd_of_echoed {trustee : BlindingTrustee G} (hmode : trustee.mode = .echoed)
    (request : ChallengeRequest G) : (trustee.challenge request).2 = trustee := by
  unfold challenge
  simp only [hmode]

theorem mem_retained_challenge {trustee : BlindingTrustee G} {request : ChallengeRequest G}
    {r : RetainedRun G} (h : r ∈ (trustee.challenge request).2.retained) :
    r ∈ trustee.retained ∧ (trustee.mode = .retained → r.run ≠ request.run) := by
  cases hmode : trustee.mode with
  | retained =>
    rw [challenge_snd hmode] at h
    obtain ⟨hr, hne⟩ := mem_retained_forget.1 h
    exact ⟨hr, fun _ => hne⟩
  | echoed =>
    rw [challenge_snd_of_echoed hmode] at h
    exact ⟨h, fun hretained => by cases hretained⟩

/-- **What is kept after a request** was kept before, and not for a run that the request ends; or it was
drawn now, for a run for which nothing was kept. -/
theorem mem_retained_heed {trustee : BlindingTrustee G} {now : Nat} {q : Request G}
    {r : RetainedRun G} (h : r ∈ (trustee.heed now q).retained) :
    r ∈ trustee.retained ∧ (trustee.mode = .retained → q.ends = true → q.run ≠ r.run) ∨
      ∃ request, q = .blind request ∧ trustee.mode = .retained ∧
        trustee.retains request.run = false ∧
        r = ⟨request.run, trustee.nonces request.ciphertexts.length, now⟩ := by
  cases q with
  | blind request =>
    rcases mem_retained_blind h with hr | ⟨hmode, hnew, hr⟩
    · exact .inl ⟨hr, fun _ hends => by cases hends⟩
    · exact .inr ⟨request, rfl, hmode, hnew, hr⟩
  | challenge request =>
    obtain ⟨hr, hne⟩ := mem_retained_challenge h
    exact .inl ⟨hr, fun hmode _ => (hne hmode).symm⟩
  | release run =>
    obtain ⟨hr, hne⟩ := mem_retained_forget.1 h
    exact .inl ⟨hr, fun _ _ => hne.symm⟩

/-- Nothing is kept for a run that a request ends. -/
theorem retains_heed_of_ends {trustee : BlindingTrustee G} (hmode : trustee.mode = .retained)
    (now : Nat) {q : Request G} (h : q.ends = true) :
    (trustee.heed now q).retains q.run = false := by
  rw [retains_eq_false]
  intro r hr
  rcases mem_retained_heed hr with ⟨_, hne⟩ | ⟨request, rfl, _⟩
  · exact (hne hmode h).symm
  · cases h

/-- The end of a run does nothing, or it forgets the run. -/
theorem heed_of_ends {trustee : BlindingTrustee G} {now : Nat} {q : Request G} (h : q.ends = true) :
    trustee.heed now q = trustee ∨ trustee.heed now q = trustee.forget q.run := by
  cases q with
  | blind request => cases h
  | challenge request =>
    cases hmode : trustee.mode with
    | retained => exact .inr (challenge_snd hmode request)
    | echoed => exact .inl (challenge_snd_of_echoed hmode request)
  | release run => exact .inr rfl

/-- Nothing is drawn when a run ends. -/
theorem tape_heed_of_ends {trustee : BlindingTrustee G} {now : Nat} {q : Request G}
    (h : q.ends = true) : (trustee.heed now q).tape = trustee.tape := by
  rcases heed_of_ends h with hsame | hforgot
  · rw [hsame]
  · rw [hforgot]
    rfl

theorem mode_challenge (trustee : BlindingTrustee G) (request : ChallengeRequest G) :
    (trustee.challenge request).2.mode = trustee.mode := by
  cases hmode : trustee.mode with
  | retained => rw [challenge_snd hmode]; exact hmode
  | echoed => rw [challenge_snd_of_echoed hmode]; exact hmode

theorem mode_heed (trustee : BlindingTrustee G) (now : Nat) (q : Request G) :
    (trustee.heed now q).mode = trustee.mode := by
  cases q with
  | blind request => exact mode_blind trustee now request
  | challenge request => exact mode_challenge trustee request
  | release run => rfl

/-! ## Answers to challenges -/

theorem answerRetained_eq_ok :
    ∀ {position : Nat} {cs : List (Challenge G)} {pairs : List (NoncePair G)}
      {responses : List (ChallengeResponse G)}, pairs.length = cs.length →
        (answerRetained position cs pairs = .ok responses ↔
          (∀ c ∈ cs, c.nonces = .retained) ∧
            responses = List.zipWith (fun c pair => respond c.challenge pair) cs pairs)
  | _, [], [], _, _ => by simp [answerRetained, eq_comm]
  | position, c :: cs, pair :: pairs, responses, h => by
    have hrest {rest : List (ChallengeResponse G)} :
        answerRetained (position + 1) cs pairs = .ok rest ↔ (∀ c ∈ cs, c.nonces = .retained) ∧
          rest = List.zipWith (fun c pair => respond c.challenge pair) cs pairs :=
      answerRetained_eq_ok (Nat.succ.inj h)
    cases hc : c.nonces with
    | echoed given => simp [answerRetained, hc]
    | retained =>
      cases hanswer : answerRetained (position + 1) cs pairs with
      | error rejection =>
        have hmarkers : ¬ ∀ c ∈ cs, c.nonces = .retained := by
          intro hall
          have := hrest.2 ⟨hall, rfl⟩
          rw [hanswer] at this
          cases this
        simp [answerRetained, hc, hanswer, bind, Except.bind, hmarkers]
      | ok rest =>
        obtain ⟨hall, rfl⟩ := hrest.1 hanswer
        have hmarkers : ∀ c' ∈ c :: cs, c'.nonces = .retained := List.forall_mem_cons.2 ⟨hc, hall⟩
        rw [and_iff_right hmarkers]
        simp [answerRetained, hc, hanswer, bind, Except.bind, pure, Except.pure, eq_comm]

/-- A trustee that keeps its numbers answers a challenge request iff it keeps as many for the run, and
is told so for each. -/
theorem challenge_eq_ok {trustee : BlindingTrustee G} (hmode : trustee.mode = .retained)
    {request : ChallengeRequest G} {responses : List (ChallengeResponse G)} :
    (trustee.challenge request).1 = .ok responses ↔
      ∃ kept, trustee.retained.find? (·.run == request.run) = some kept ∧
        kept.nonces.length = request.challenges.length ∧
        (∀ c ∈ request.challenges, c.nonces = .retained) ∧
        responses = List.zipWith (fun c pair => respond c.challenge pair) request.challenges
          kept.nonces := by
  unfold challenge
  simp only [hmode]
  cases hkept : trustee.retained.find? (·.run == request.run) with
  | none => simp
  | some kept =>
    by_cases hlength : kept.nonces.length = request.challenges.length
    · simp [hlength, answerRetained_eq_ok hlength]
    · simp [hlength]

/-! ## Histories -/

/-- The trustee after all requests of a history. -/
def after (trustee : BlindingTrustee G) (h : History G) : BlindingTrustee G :=
  h.foldl (fun t q => t.heed q.2 q.1) trustee

/-- The trustee as the request at a place of a history finds it. -/
def before (trustee : BlindingTrustee G) (h : History G) (i : Nat) : BlindingTrustee G :=
  trustee.after (h.take i)

section History

variable {trustee : BlindingTrustee G} {h : History G}

theorem mode_after (trustee : BlindingTrustee G) (h : History G) :
    (trustee.after h).mode = trustee.mode := by
  induction h generalizing trustee with
  | nil => rfl
  | cons q h ih => exact (ih _).trans (mode_heed trustee q.2 q.1)

theorem mode_before (trustee : BlindingTrustee G) (h : History G) (i : Nat) :
    (trustee.before h i).mode = trustee.mode :=
  mode_after trustee _

theorem before_succ {i now : Nat} {q : Request G} (hq : h[i]? = some (q, now)) :
    trustee.before h (i + 1) = (trustee.before h i).heed now q := by
  unfold before after
  rw [List.take_add_one, hq, List.foldl_append]
  rfl

theorem before_succ_of_none {i : Nat} (hnone : h[i]? = none) :
    trustee.before h (i + 1) = trustee.before h i := by
  unfold before
  rw [List.take_add_one, hnone]
  simp

/-- What holds at the start and is preserved by every request holds at every place. -/
theorem before_induction {P : BlindingTrustee G → Prop} (hstart : P trustee)
    (hstep : ∀ t now q, P t → P (heed t now q)) (h : History G) (i : Nat) :
    P (trustee.before h i) := by
  induction i with
  | zero => exact hstart
  | succ i ih =>
    cases hq : h[i]? with
    | none => rwa [before_succ_of_none hq]
    | some q =>
      rw [before_succ hq]
      exact hstep _ q.2 q.1 ih

/-- What the request at place `j` finds kept was drawn when the run was blinded at place `i`, and kept
ever since. -/
structure KeptSince (trustee : BlindingTrustee G) (h : History G) (i j : Nat)
    (blinding : BlindRequest G) (r : RetainedRun G) : Prop where
  order : i < j
  blinded : h[i]? = some (.blind blinding, r.since)
  new : (trustee.before h i).retains blinding.run = false
  run : r.run = blinding.run
  nonces : r.nonces = (trustee.before h i).nonces blinding.ciphertexts.length
  kept : ∀ m, i < m → m ≤ j → r ∈ (trustee.before h m).retained
  unended : ∀ m q now, i < m → m < j → h[m]? = some (q, now) → q.ends = true → q.run ≠ blinding.run

/-- **What a trustee keeps** it had from the start, or it has kept it since a blinding. -/
theorem exists_keptSince (hmode : trustee.mode = .retained) :
    ∀ {j : Nat} {r : RetainedRun G}, r ∈ (trustee.before h j).retained →
      r ∈ trustee.retained ∨ ∃ i blinding, KeptSince trustee h i j blinding r
  | 0, _, hr => .inl hr
  | j + 1, r, hr => by
    -- what was kept already at place `j` stays so if the request there does not end its run
    have hkeep (hbefore : r ∈ (trustee.before h j).retained)
        (hends : ∀ q now, h[j]? = some (q, now) → q.ends = true → q.run ≠ r.run) :
        r ∈ trustee.retained ∨ ∃ i blinding, KeptSince trustee h i (j + 1) blinding r := by
      rcases exists_keptSince hmode hbefore with h0 | ⟨i, blinding, hsince⟩
      · exact .inl h0
      refine .inr ⟨i, blinding, ⟨Nat.lt_succ_of_lt hsince.order, hsince.blinded, hsince.new, hsince.run,
        hsince.nonces, fun m him hmj => ?_, fun m q now him hmj hq hqe => ?_⟩⟩
      · rcases Nat.le_succ_iff.1 hmj with hmj | rfl
        · exact hsince.kept m him hmj
        · exact hr
      · rcases Nat.lt_succ_iff_lt_or_eq.1 hmj with hmj | rfl
        · exact hsince.unended m q now him hmj hq hqe
        · rw [← hsince.run]
          exact hends q now hq hqe
    cases hq : h[j]? with
    | none =>
      rw [before_succ_of_none hq] at hr
      exact hkeep hr (by simp [hq])
    | some q =>
      obtain ⟨q, now⟩ := q
      rw [before_succ hq] at hr
      rcases mem_retained_heed hr with ⟨hbefore, hne⟩ | ⟨request, rfl, -, hnew, rfl⟩
      · refine hkeep hbefore fun q' now' hq' => ?_
        cases hq.symm.trans hq'
        exact hne ((mode_before trustee h j).trans hmode)
      · refine .inr ⟨j, request, ⟨Nat.lt_succ_self j, hq, hnew, rfl, rfl, fun m hjm hmj => ?_,
          fun m _ _ hjm hmj => absurd hmj (Nat.not_lt.2 hjm)⟩⟩
        obtain rfl : m = j + 1 := Nat.le_antisymm hmj hjm
        rw [before_succ hq]
        exact hr

/-! ## Places on the tape -/

/-- A pair of numbers is drawn at place `i` of a history, for the ratio at position `k` of a blinding that
is answered. -/
def Samples (trustee : BlindingTrustee G) (h : History G) (i k : Nat) (pair : NoncePair G) : Prop :=
  ∃ blinding now, h[i]? = some (.blind blinding, now) ∧
    ((trustee.before h i).blind now blinding).1 =
      .ok ((trustee.before h i).contributions blinding.ciphertexts) ∧
    ((trustee.before h i).nonces blinding.ciphertexts.length)[k]? = some pair

/-- Each pair drawn in a history has two places of its own on the tape: they lie in the part that the tape
moves over at the blinding, and behind those of all pairs drawn earlier. -/
structure DrawsApart (trustee : BlindingTrustee G) (h : History G) (place : Nat → Nat → Nat × Nat) :
    Prop where
  read : ∀ i k pair, trustee.Samples h i k pair → pair = .readAt trustee.tape (place i k)
  between : ∀ i k pair, trustee.Samples h i k pair →
    (trustee.before h i).tape.used ≤ (place i k).1 ∧ (place i k).1 + 64 ≤ (place i k).2 ∧
      (place i k).2 + 64 ≤ (trustee.before h (i + 1)).tape.used
  apart : ∀ i k pair i' k' pair', trustee.Samples h i k pair → trustee.Samples h i' k' pair' →
    (i < i' ∨ i = i' ∧ k < k') → (place i k).2 + 64 ≤ (place i' k').1

/-- A blinding that is answered draws as many pairs as it has ratios. -/
theorem tape_blind_of_ok {trustee : BlindingTrustee G} {now : Nat} {request : BlindRequest G}
    {contributions : List (Contribution G)}
    (hanswered : (trustee.blind now request).1 = .ok contributions) :
    (trustee.blind now request).2.tape =
      (drawNonces (G := G) request.ciphertexts.length trustee.tape).2 := by
  rcases blind_cases trustee now request with ⟨-, hblind⟩ | ⟨-, -, hblind⟩
  · rw [hblind]
    rfl
  · rw [hblind] at hanswered
    cases hanswered

/-- A request leaves the tape where it is, or moves it over some pairs. -/
theorem exists_tape_heed (trustee : BlindingTrustee G) (now : Nat) (q : Request G) :
    ∃ n, (trustee.heed now q).tape = (drawNonces (G := G) n trustee.tape).2 := by
  cases q with
  | blind request =>
    rw [heed]
    rcases blind_cases trustee now request with ⟨-, hblind⟩ | ⟨-, -, hblind⟩
    · exact ⟨request.ciphertexts.length, by rw [hblind]; rfl⟩
    · exact ⟨0, by rw [hblind]; rfl⟩
  | challenge request => exact ⟨0, tape_heed_of_ends rfl⟩
  | release run => exact ⟨0, tape_heed_of_ends rfl⟩

/-- The tape is the same all along, used up to some place. -/
theorem tape_before (trustee : BlindingTrustee G) (h : History G) (i : Nat) :
    (trustee.before h i).tape = trustee.tape.movedTo (trustee.before h i).tape.used := by
  refine before_induction (P := fun t => t.tape = trustee.tape.movedTo t.tape.used) rfl ?_ h i
  intro t now q ht
  obtain ⟨n, hn⟩ := exists_tape_heed t now q
  rw [hn, ht, drawNonces_movedTo]
  rfl

theorem monotone_used_before (trustee : BlindingTrustee G) (h : History G) :
    Monotone fun i => (trustee.before h i).tape.used := by
  refine monotone_nat_of_le_succ fun i => ?_
  cases hq : h[i]? with
  | none => rw [before_succ_of_none hq]
  | some q =>
    obtain ⟨n, hn⟩ := exists_tape_heed (trustee.before h i) q.2 q.1
    rw [before_succ hq, hn, tape_before, drawNonces_movedTo]
    exact le_placeAfter G _ n _

/-- The number of ratios that are to be blinded at a place of a history. -/
def ratiosAt (h : History G) (i : Nat) : Nat :=
  match h[i]? with
  | some (.blind blinding, _) => blinding.ciphertexts.length
  | _ => 0

/-- The places of the numbers for these ratios. -/
def placesAt (trustee : BlindingTrustee G) (h : History G) (i : Nat) : List (Nat × Nat) :=
  noncePlaces G trustee.tape (ratiosAt h i) (trustee.before h i).tape.used

/-- A pair drawn in a history stands at one of these places, and the tape moves over them. -/
theorem Samples.exists_places {i k : Nat} {pair : NoncePair G} (hs : trustee.Samples h i k pair) :
    (trustee.before h (i + 1)).tape.used =
        placeAfter G trustee.tape (ratiosAt h i) (trustee.before h i).tape.used ∧
      ∃ p, (trustee.placesAt h i)[k]? = some p ∧ pair = .readAt trustee.tape p := by
  obtain ⟨blinding, now, hblinding, hanswered, hpair⟩ := hs
  have hratios : ratiosAt h i = blinding.ciphertexts.length := by
    rw [ratiosAt, hblinding]
  constructor
  · rw [before_succ hblinding, heed, tape_blind_of_ok hanswered, tape_before, drawNonces_movedTo,
      hratios]
    rfl
  · rw [nonces, tape_before, drawNonces_movedTo, List.getElem?_map, Option.map_eq_some_iff] at hpair
    obtain ⟨p, hp, rfl⟩ := hpair
    exact ⟨p, by rw [placesAt, hratios, hp], rfl⟩

/-- **Every pair drawn has places of its own** on the tape. -/
theorem exists_drawsApart (trustee : BlindingTrustee G) (h : History G) :
    ∃ place, trustee.DrawsApart h place := by
  refine ⟨fun i k => ((trustee.placesAt h i)[k]?).getD (0, 0), ?_⟩
  constructor
  case read =>
    intro i k pair hs
    obtain ⟨-, p, hp, hpair⟩ := hs.exists_places
    rw [hp]
    exact hpair
  case between =>
    intro i k pair hs
    obtain ⟨hend, p, hp, -⟩ := hs.exists_places
    rw [hp, hend]
    exact noncePlaces_between G _ _ _ p (List.mem_of_getElem? hp)
  case apart =>
    intro i k pair i' k' pair' hs hs' hlater
    obtain ⟨hend, p, hp, -⟩ := hs.exists_places
    obtain ⟨-, p', hp', -⟩ := hs'.exists_places
    simp only [hp, hp', Option.getD_some]
    rcases hlater with hlt | ⟨rfl, hlt⟩
    · -- the part of the tape that the one blinding moves over ends before that of the other begins
      obtain ⟨-, -, hbefore⟩ := noncePlaces_between G _ _ _ p (List.mem_of_getElem? hp)
      obtain ⟨hafter, -⟩ := noncePlaces_between G _ _ _ p' (List.mem_of_getElem? hp')
      have hmoved := monotone_used_before trustee h (Nat.succ_le_of_lt hlt)
      simp only [hend] at hmoved
      omega
    · obtain ⟨hk, rfl⟩ := List.getElem?_eq_some_iff.1 hp
      obtain ⟨hk', rfl⟩ := List.getElem?_eq_some_iff.1 hp'
      exact List.pairwise_iff_getElem.1 (pairwise_noncePlaces G _ _ _) k k' hk hk' hlt

/-! ## Single use -/

/-- The challenge request at place `j` of a history is answered with the numbers drawn for the blinding
at place `i`, pair by pair, and nothing else was asked or done about the run in between. -/
structure Spends (trustee : BlindingTrustee G) (h : History G) (i j : Nat) (blinding : BlindRequest G)
    (request : ChallengeRequest G) (responses : List (ChallengeResponse G)) : Prop where
  order : i < j
  blinded : ∃ now, h[i]? = some (.blind blinding, now) ∧
    ((trustee.before h i).blind now blinding).1 =
      .ok ((trustee.before h i).contributions blinding.ciphertexts)
  asked : ∃ now, h[j]? = some (.challenge request, now)
  run : request.run = blinding.run
  first : ∀ m q now, i < m → m < j → h[m]? = some (q, now) → q.ends = true → q.run ≠ blinding.run
  kept : ∀ m, i < m → m ≤ j → (trustee.before h m).retains blinding.run = true
  count : request.challenges.length = blinding.ciphertexts.length
  answered : responses.length = request.challenges.length
  response : ∀ (k : Nat) c pair, request.challenges[k]? = some c →
    ((trustee.before h i).nonces blinding.ciphertexts.length)[k]? = some pair →
      responses[k]? = some ⟨pair.mask - c.challenge * pair.exponent⟩

/-- A challenge request that is answered is answered with what was drawn for a blinding. -/
theorem exists_spends (hmode : trustee.mode = .retained) {j now : Nat}
    {request : ChallengeRequest G} {responses : List (ChallengeResponse G)}
    (hnew : trustee.retains request.run = false) (hasked : h[j]? = some (.challenge request, now))
    (hanswered : ((trustee.before h j).challenge request).1 = .ok responses) :
    ∃ i blinding, trustee.Spends h i j blinding request responses := by
  have hmodes (i : Nat) : (trustee.before h i).mode = .retained :=
    (mode_before trustee h i).trans hmode
  obtain ⟨kept, hfind, hlength, -, rfl⟩ := (challenge_eq_ok (hmodes j)).1 hanswered
  have hrun : kept.run = request.run := by simpa using List.find?_some hfind
  rcases exists_keptSince hmode (List.mem_of_find?_eq_some hfind) with h0 | ⟨i, blinding, hsince⟩
  · exact absurd hrun (retains_eq_false.1 hnew kept h0)
  rw [hsince.nonces] at hlength ⊢
  refine ⟨i, blinding, ?_⟩
  constructor
  case order => exact hsince.order
  case blinded => exact ⟨kept.since, hsince.blinded, (blind_eq_ok (hmodes i)).2 ⟨hsince.new, rfl⟩⟩
  case asked => exact ⟨now, hasked⟩
  case run => exact hrun.symm.trans hsince.run
  case first => exact hsince.unended
  case kept =>
    exact fun m him hmj => retains_eq_true.2 ⟨kept, hsince.kept m him hmj, hsince.run⟩
  case count => rw [← hlength, length_nonces]
  case answered => rw [List.length_zipWith, hlength, Nat.min_self]
  case response =>
    intro k c pair hc hpair
    rw [List.getElem?_zipWith, hc, hpair]
    rfl

/-- The blinding whose numbers are spent is the last one for the run. -/
theorem Spends.not_lt_left {i i' j : Nat} {blinding blinding' : BlindRequest G}
    {request : ChallengeRequest G} {responses : List (ChallengeResponse G)}
    (hmode : trustee.mode = .retained) (hs : trustee.Spends h i j blinding request responses)
    (hs' : trustee.Spends h i' j blinding' request responses) : ¬ i < i' := by
  intro hlt
  obtain ⟨now, -, hblind⟩ := hs'.blinded
  have hnew := ((blind_eq_ok ((mode_before trustee h i').trans hmode)).1 hblind).1
  have hkept := hs.kept i' hlt (Nat.le_of_lt hs'.order)
  rw [← hs.run, hs'.run, hnew] at hkept
  cases hkept

/-- The challenge request that spends the numbers of a blinding is the first one for the run. -/
theorem Spends.not_lt_right {i j j' : Nat} {blinding blinding' : BlindRequest G}
    {request request' : ChallengeRequest G} {responses responses' : List (ChallengeResponse G)}
    (hs : trustee.Spends h i j blinding request responses)
    (hs' : trustee.Spends h i j' blinding' request' responses') : ¬ j < j' := by
  intro hlt
  obtain ⟨_, hblinding, -⟩ := hs.blinded
  obtain ⟨_, hblinding', -⟩ := hs'.blinded
  obtain ⟨now, hasked⟩ := hs.asked
  cases hblinding.symm.trans hblinding'
  exact hs'.first j _ now hs.order hlt hasked rfl hs.run

/-- The numbers that are spent are those drawn at the blinding. -/
theorem Spends.exists_samples {i j k : Nat} {blinding : BlindRequest G} {request : ChallengeRequest G}
    {responses : List (ChallengeResponse G)} (hs : trustee.Spends h i j blinding request responses)
    (hk : k < request.challenges.length) : ∃ pair, trustee.Samples h i k pair := by
  obtain ⟨now, hblinding, hanswered⟩ := hs.blinded
  have hdrawn : k < ((trustee.before h i).nonces blinding.ciphertexts.length).length := by
    rw [length_nonces, ← hs.count]
    exact hk
  exact ⟨_, blinding, now, hblinding, hanswered, List.getElem?_eq_getElem hdrawn⟩

end History

/-- **Numbers are used once.**  Whatever a trustee that keeps its numbers is asked from the start, each
challenge request that it answers spends the numbers drawn for exactly one blinding, no two spend those
of the same, and after a challenge, answered or rejected, nothing is kept for its run.  All pairs that it
ever draws have places of their own on its tape, in the order in which they are drawn, so that two answered
challenge requests have no part of the tape in common; and if the blocks of the tape are full, the number
at a place is that of the 64 bytes from there on. -/
theorem numbers_spent_once (id : String) (retention : Duration) (capacity : Nat) (tape : Tape)
    (h : History G) :
    let trustee : BlindingTrustee G := ⟨id, .retained, retention, capacity, tape, []⟩
    (∀ j request now responses, h[j]? = some (.challenge request, now) →
      ((trustee.before h j).challenge request).1 = .ok responses →
        ∃! i, ∃ blinding, trustee.Spends h i j blinding request responses) ∧
    (∀ i j j' blinding blinding' request request' responses responses',
      trustee.Spends h i j blinding request responses →
        trustee.Spends h i j' blinding' request' responses' → j = j') ∧
    (∀ j request now, h[j]? = some (.challenge request, now) →
      (trustee.before h (j + 1)).retains request.run = false) ∧
    ∃ place : Nat → Nat → Nat × Nat, trustee.DrawsApart h place ∧
      (∀ i i' j j' blinding blinding' request request' responses responses',
        trustee.Spends h i j blinding request responses →
          trustee.Spends h i' j' blinding' request' responses' → j ≠ j' →
            ∀ k < request.challenges.length, ∀ k' < request'.challenges.length,
              (place i k).2 + 64 ≤ (place i' k').1 ∨ (place i' k').2 + 64 ≤ (place i k).1) ∧
      (tape.IsFull → ∀ p,
        G.numberAt tape p = G.ofWide ((List.range' p 64).map tape.byteAt)) := by
  intro trustee
  have hsame : ∀ i j j' blinding blinding' request request' responses responses',
      trustee.Spends h i j blinding request responses →
        trustee.Spends h i j' blinding' request' responses' → j = j' := by
    intro i j j' blinding blinding' request request' responses responses' hs hs'
    exact Nat.le_antisymm (Nat.not_lt.1 (hs'.not_lt_right hs)) (Nat.not_lt.1 (hs.not_lt_right hs'))
  refine ⟨?once, hsame, ?gone, ?places⟩
  case once =>
    intro j request now responses hasked hanswered
    have hspends : ∃ i blinding, trustee.Spends h i j blinding request responses :=
      exists_spends rfl rfl hasked hanswered
    obtain ⟨i, blinding, hs⟩ := hspends
    refine ⟨i, ⟨blinding, hs⟩, fun i' ⟨blinding', hs'⟩ => ?_⟩
    exact Nat.le_antisymm (Nat.not_lt.1 (hs.not_lt_left rfl hs')) (Nat.not_lt.1 (hs'.not_lt_left rfl hs))
  case gone =>
    intro j request now hasked
    rw [before_succ hasked]
    exact retains_heed_of_ends (mode_before trustee h j) now rfl
  case places =>
    obtain ⟨place, hplace⟩ := exists_drawsApart trustee h
    refine ⟨place, hplace, ?_, fun hfull => G.numberAt_eq hfull⟩
    intro i i' j j' blinding blinding' request request' responses responses' hs hs' hne k hk k' hk'
    obtain ⟨pair, hpair⟩ := hs.exists_samples hk
    obtain ⟨pair', hpair'⟩ := hs'.exists_samples hk'
    rcases Nat.lt_trichotomy i i' with hlt | rfl | hlt
    · exact .inl (hplace.apart _ _ _ _ _ _ hpair hpair' (.inl hlt))
    · exact absurd (hsame _ _ _ _ _ _ _ _ _ hs hs') hne
    · exact .inr (hplace.apart _ _ _ _ _ _ hpair' hpair (.inl hlt))

end BlindingTrustee

end PlaintextEquivalence
