import PlaintextEquivalence.Proofs.Blinding.Retention

/-!
# What a request does to a trustee

Each request has its own effect only.  A rejected blinding has none; a challenge to a trustee that keeps
its numbers does what a release of the run does, whatever comes of it, and a challenge to one that does
not keep them does nothing.  So the log of a history can be abridged, by leaving out rejected blindings and
by having runs released rather than challenged: what is left is answered as before, and so is all that
comes later.

Principal results:
* `filter_heed_of_ends` — what the end of a run leaves alone.
* `log_of_abridges` — the abridged log of a history is the log of what is left.
* `requests_confined` — the effect of each request, and that it does not matter otherwise.
-/

set_option autoImplicit false

namespace PlaintextEquivalence

variable {G : PrimeGroup}

/-! ## Logs -/

/-- What a trustee answers. -/
inductive Answer (G : PrimeGroup) where
  | blinded (outcome : Except Rejection (List (Contribution G)))
  | challenged (outcome : Except Rejection (List (ChallengeResponse G)))
  | released

/-- Requests in order, each with the time at which it comes and the answer to it. -/
abbrev Log (G : PrimeGroup) := List ((Request G × Nat) × Answer G)

namespace Log

/-- What is asked. -/
def requests (l : Log G) : History G := l.map Prod.fst

/-- A log is abridged by leaving out rejected blindings, and if the trustee keeps its numbers, by releasing
runs in place of challenges. -/
inductive Abridges (mode : NonceMode) : Log G → Log G → Prop
  | nil : Abridges mode [] []
  | keep (entry : (Request G × Nat) × Answer G) {l kept : Log G} :
      Abridges mode l kept → Abridges mode (entry :: l) (entry :: kept)
  | drop (request : BlindRequest G) (now : Nat) (rejection : Rejection) {l kept : Log G} :
      Abridges mode l kept →
        Abridges mode (((.blind request, now), .blinded (.error rejection)) :: l) kept
  | replace (request : ChallengeRequest G) (now : Nat) (answer : Answer G) {l kept : Log G} :
      mode = .retained → Abridges mode l kept →
        Abridges mode (((.challenge request, now), answer) :: l)
          (((.release request.run, now), .released) :: kept)

/-- The shortest log: no rejected blinding is left, and if the trustee keeps its numbers, no challenge. -/
def essential (mode : NonceMode) : Log G → Log G
  | [] => []
  | ((.blind _, _), .blinded (.error _)) :: l => essential mode l
  | ((.challenge request, now), answer) :: l =>
    match mode with
    | .retained => ((.release request.run, now), .released) :: essential mode l
    | .echoed => ((.challenge request, now), answer) :: essential mode l
  | entry :: l => entry :: essential mode l

theorem abridges_essential (mode : NonceMode) (l : Log G) : Abridges mode l (l.essential mode) := by
  fun_induction essential mode l with
  | case1 => exact .nil
  | case2 request now rejection l ih => exact .drop request now rejection ih
  | case3 request now answer l hretained ih =>
    subst hretained
    exact .replace request now answer rfl ih
  | case4 request now answer l hechoed ih =>
    subst hechoed
    exact .keep _ ih
  | case5 entry l _ _ ih => exact .keep entry ih

end Log

namespace BlindingTrustee

/-- The answer to a request. -/
def answer (trustee : BlindingTrustee G) (now : Nat) : Request G → Answer G
  | .blind request => .blinded (trustee.blind now request).1
  | .challenge request => .challenged (trustee.challenge request).1
  | .release _ => .released

/-- A history with the answers of a trustee. -/
def log : BlindingTrustee G → History G → Log G
  | _, [] => []
  | trustee, (q, now) :: h => ((q, now), trustee.answer now q) :: (trustee.heed now q).log h

variable {trustee : BlindingTrustee G} {now : Nat}

theorem log_append (trustee : BlindingTrustee G) (h later : History G) :
    trustee.log (h ++ later) = trustee.log h ++ (trustee.after h).log later := by
  induction h generalizing trustee with
  | nil => rfl
  | cons q h ih => exact congrArg (_ :: ·) (ih (trustee.heed q.2 q.1))

theorem log_eq_cons {h : History G} {entry : (Request G × Nat) × Answer G} {l : Log G}
    (hlog : trustee.log h = entry :: l) :
    ∃ rest, h = entry.1 :: rest ∧ trustee.answer entry.1.2 entry.1.1 = entry.2 ∧
      (trustee.heed entry.1.2 entry.1.1).log rest = l := by
  cases h with
  | nil => cases hlog
  | cons q rest =>
    cases hlog
    exact ⟨rest, rfl, rfl, rfl⟩

/-! ## The effect of one request -/

theorem blind_snd_of_error {request : BlindRequest G} {rejection : Rejection}
    (h : (trustee.blind now request).1 = .error rejection) : (trustee.blind now request).2 = trustee := by
  refine heed_of_rejected ?_
  rw [accepts, h]
  rfl

/-- What is kept for other runs is left alone when a run ends. -/
theorem filter_heed_of_ends {q : Request G} (h : q.ends = true) :
    (trustee.heed now q).retained.filter (·.run != q.run) =
      trustee.retained.filter (·.run != q.run) := by
  rcases heed_of_ends h with hsame | hforgot
  · rw [hsame]
  · rw [hforgot, forget, List.filter_filter]
    simp

/-! ## Abridged histories -/

/-- **The abridged log of a history is the log of what is left**, and it leaves the trustee as the whole
history does. -/
theorem log_of_abridges {mode : NonceMode} {l kept : Log G} (habridges : Log.Abridges mode l kept)
    {h : History G} (hmode : trustee.mode = mode) (hlog : trustee.log h = l) :
    trustee.log kept.requests = kept ∧ trustee.after kept.requests = trustee.after h := by
  induction habridges generalizing trustee h with
  | nil =>
    cases h with
    | nil => exact ⟨rfl, rfl⟩
    | cons q rest => cases hlog
  | keep entry _ ih =>
    obtain ⟨rest, rfl, hanswer, hrest⟩ := log_eq_cons hlog
    obtain ⟨hkept, hafter⟩ := ih ((mode_heed trustee _ _).trans hmode) hrest
    refine ⟨?_, hafter⟩
    show ((entry.1, trustee.answer entry.1.2 entry.1.1) ::
      (trustee.heed entry.1.2 entry.1.1).log (Log.requests _) : Log G) = _
    rw [hanswer, hkept]
  | drop request now rejection _ ih =>
    obtain ⟨rest, rfl, hanswer, hrest⟩ := log_eq_cons hlog
    have hsame : trustee.heed now (.blind request) = trustee := by
      injection hanswer with herror
      exact blind_snd_of_error herror
    rw [hsame] at hrest
    obtain ⟨hkept, hafter⟩ := ih hmode hrest
    refine ⟨hkept, hafter.trans ?_⟩
    show trustee.after rest = (trustee.heed now (.blind request)).after rest
    rw [hsame]
  | replace request now answer hretained _ ih =>
    obtain ⟨rest, rfl, -, hrest⟩ := log_eq_cons hlog
    have hsame : trustee.heed now (.challenge request) = trustee.heed now (.release request.run) :=
      challenge_snd (hmode.trans hretained) request
    rw [hsame] at hrest
    obtain ⟨hkept, hafter⟩ := ih ((mode_heed trustee _ _).trans hmode) hrest
    refine ⟨congrArg (_ :: ·) hkept, hafter.trans ?_⟩
    show _ = (trustee.heed now (.challenge request)).after rest
    rw [hsame]

/-- **Requests have their own effect only.**  In every state, a rejected blinding leaves a trustee as it is;
a challenge, answered or rejected, does what a release of the run does if the trustee keeps its numbers,
and nothing otherwise; neither draws anything or touches what is kept for other runs.  So an abridged
history is answered, and followed by the same answers to all that comes later, as if it had not been
abridged, and all rejected blindings and all challenges that forget a run can be left out or replaced. -/
theorem requests_confined (trustee : BlindingTrustee G) :
    (∀ now request rejection, (trustee.blind now request).1 = .error rejection →
      (trustee.blind now request).2 = trustee) ∧
    (∀ request,
      (trustee.mode = .retained → (trustee.challenge request).2 = trustee.release request.run) ∧
      (trustee.mode = .echoed → (trustee.challenge request).2 = trustee)) ∧
    (∀ now q, q.ends = true → (trustee.heed now q).tape = trustee.tape ∧
      (trustee.heed now q).retained.filter (·.run != q.run) =
        trustee.retained.filter (·.run != q.run)) ∧
    (∀ h kept later, Log.Abridges trustee.mode (trustee.log h) kept →
      ∃ answers, trustee.log (h ++ later) = trustee.log h ++ answers ∧
        trustee.log (kept.requests ++ later) = kept ++ answers) ∧
    ∀ h, Log.Abridges trustee.mode (trustee.log h) ((trustee.log h).essential trustee.mode) := by
  refine ⟨fun now request rejection herror => blind_snd_of_error herror, fun request => ?_,
    fun now q hends => ⟨tape_heed_of_ends hends, filter_heed_of_ends hends⟩,
    fun h kept later habridges => ?_, fun h => Log.abridges_essential _ _⟩
  · exact ⟨fun hmode => challenge_snd hmode request,
      fun hmode => challenge_snd_of_echoed hmode request⟩
  · obtain ⟨hkept, hafter⟩ := log_of_abridges habridges rfl rfl
    refine ⟨(trustee.after h).log later, log_append trustee h later, ?_⟩
    rw [log_append, hkept, hafter]

end BlindingTrustee

end PlaintextEquivalence
