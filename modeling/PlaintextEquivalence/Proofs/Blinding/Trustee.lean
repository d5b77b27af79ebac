import PlaintextEquivalence.Blinding.Trustee

/-!
# An honest trustee answers

A trustee that keeps nothing for a run yet blinds the ratios of the run, and when it is challenged
next, it answers with the numbers that it blinded with, whether it kept them or got them back, and
whatever it dropped to make room.

Principal results:
* `blind_cases` — what a blinding does, whether it is answered or rejected.
* `blind_fst` — what a trustee contributes.
* `challenge_blind` — how it answers the challenges for what it contributed.
-/

set_option autoImplicit false

namespace PlaintextEquivalence.BlindingTrustee

variable {G : PrimeGroup}

theorem length_drawNonces : ∀ (n : Nat) (tape : Tape), (drawNonces (G := G) n tape).1.length = n
  | 0, _ => rfl
  | n + 1, _ => congrArg (· + 1) (length_drawNonces n _)

/-- The secret numbers that a trustee draws when it is asked to blind `n` ratios. -/
def nonces (trustee : BlindingTrustee G) (n : Nat) : List (NoncePair G) :=
  (drawNonces n trustee.tape).1

theorem length_nonces (trustee : BlindingTrustee G) (n : Nat) : (trustee.nonces n).length = n :=
  length_drawNonces n _

/-- A trustee can blind for a run if it keeps nothing for it. -/
def IsFreshFor (trustee : BlindingTrustee G) (run : RunId) : Prop :=
  trustee.mode = .retained → trustee.retains run = false

/-- The contributions for ratios, with the numbers that the trustee draws. -/
def contributions (trustee : BlindingTrustee G) (ratios : List (Ciphertext G)) :
    List (Contribution G) :=
  List.zipWith (contribute trustee.mode) ratios (trustee.nonces ratios.length)

theorem length_contributions (trustee : BlindingTrustee G) (ratios : List (Ciphertext G)) :
    (trustee.contributions ratios).length = ratios.length := by
  rw [contributions, List.length_zipWith, length_nonces, Nat.min_self]

/-- What a trustee keeps once it has blinded: it makes room for the numbers of the run, unless they
travel. -/
def keeping (trustee : BlindingTrustee G) (now : Nat) (request : BlindRequest G) :
    List (RetainedRun G) :=
  match trustee.mode with
  | .retained => (trustee.evict now).retained ++
      [⟨request.run, trustee.nonces request.ciphertexts.length, now⟩]
  | .echoed => trustee.retained

/-- The trustee once it has blinded. -/
def afterBlinding (trustee : BlindingTrustee G) (now : Nat) (request : BlindRequest G) :
    BlindingTrustee G :=
  { trustee with
    tape := (drawNonces (G := G) request.ciphertexts.length trustee.tape).2
    retained := trustee.keeping now request }

variable {trustee : BlindingTrustee G} {now : Nat} {request : BlindRequest G}

theorem keeping_of_retained (hmode : trustee.mode = .retained) :
    trustee.keeping now request = (trustee.evict now).retained ++
      [⟨request.run, trustee.nonces request.ciphertexts.length, now⟩] := by
  rw [keeping, hmode]

theorem keeping_of_echoed (hmode : trustee.mode = .echoed) :
    trustee.keeping now request = trustee.retained := by
  rw [keeping, hmode]

theorem blind_of_isFreshFor (h : trustee.IsFreshFor request.run) (now : Nat) :
    trustee.blind now request =
      (.ok (trustee.contributions request.ciphertexts), trustee.afterBlinding now request) := by
  unfold blind contributions afterBlinding keeping nonces
  cases hmode : trustee.mode with
  | retained => simp [h hmode, hmode, evict]
  | echoed => simp

/-- **What a blinding does.**  It is answered, or it is rejected because numbers are kept for the run
already, and then nothing happens. -/
theorem blind_cases (trustee : BlindingTrustee G) (now : Nat) (request : BlindRequest G) :
    (trustee.IsFreshFor request.run ∧ trustee.blind now request =
      (.ok (trustee.contributions request.ciphertexts), trustee.afterBlinding now request)) ∨
    (trustee.mode = .retained ∧ trustee.retains request.run = true ∧
      trustee.blind now request = (.error (.duplicateRun request.run), trustee)) := by
  by_cases hfresh : trustee.IsFreshFor request.run
  · exact .inl ⟨hfresh, blind_of_isFreshFor hfresh now⟩
  · obtain ⟨hmode, hkept⟩ := Classical.not_imp.1 hfresh
    have hkept : trustee.retains request.run = true := by simpa using hkept
    exact .inr ⟨hmode, hkept, by simp [blind, hmode, hkept]⟩

/-- **What a trustee contributes.** -/
theorem blind_fst (h : trustee.IsFreshFor request.run) (now : Nat) :
    (trustee.blind now request).1 = .ok (trustee.contributions request.ciphertexts) := by
  rw [blind_of_isFreshFor h]

/-! ## The numbers of a run -/

theorem mem_of_mem_evict {r : RetainedRun G} (h : r ∈ (trustee.evict now).retained) :
    r ∈ trustee.retained :=
  (List.mem_filter.1 (List.mem_of_mem_drop h)).1

/-- What is kept for a run that was blinded just now are the numbers it was blinded with. -/
theorem find?_blind (hmode : trustee.mode = .retained) (h : trustee.retains request.run = false)
    (now : Nat) :
    (trustee.blind now request).2.retained.find? (·.run == request.run) =
      some ⟨request.run, trustee.nonces request.ciphertexts.length, now⟩ := by
  have hnone : (trustee.evict now).retained.find? (·.run == request.run) = none := by
    rw [List.find?_eq_none]
    intro r hr heq
    have hretains : trustee.retains request.run = true :=
      List.any_eq_true.2 ⟨r, mem_of_mem_evict hr, heq⟩
    rw [h] at hretains
    cases hretains
  rw [blind_of_isFreshFor fun _ => h]
  simp [afterBlinding, keeping_of_retained hmode, hnone]

theorem mode_blind (trustee : BlindingTrustee G) (now : Nat) (request : BlindRequest G) :
    (trustee.blind now request).2.mode = trustee.mode := by
  rcases blind_cases trustee now request with ⟨-, hblind⟩ | ⟨-, -, hblind⟩
  · rw [hblind]
    rfl
  · rw [hblind]

/-! ## Answers -/

/-- The secret numbers as a trustee lets them travel. -/
def travelling (mode : NonceMode) (pair : NoncePair G) : Nonces G :=
  match mode with
  | .retained => .retained
  | .echoed => .echoed pair

theorem answerRetained_eq :
    ∀ (position : Nat) (cs : List G.Scalar) (pairs : List (NoncePair G)),
      answerRetained position
        (List.zipWith (fun c pair => ⟨c, travelling .retained pair⟩) cs pairs) pairs =
          .ok (List.zipWith respond cs pairs)
  | _, [], _ => rfl
  | _, _ :: _, [] => rfl
  | position, c :: cs, pair :: pairs => by
    simp only [List.zipWith_cons_cons, answerRetained, travelling]
    exact congrArg (· >>= _) (answerRetained_eq (position + 1) cs pairs)

theorem answerEchoed_eq :
    ∀ (position : Nat) (cs : List G.Scalar) (pairs : List (NoncePair G)),
      answerEchoed position
        (List.zipWith (fun c pair => ⟨c, travelling .echoed pair⟩) cs pairs) =
          .ok (List.zipWith respond cs pairs)
  | _, [], _ => rfl
  | _, _ :: _, [] => rfl
  | position, c :: cs, pair :: pairs => by
    simp only [List.zipWith_cons_cons, answerEchoed, travelling]
    exact congrArg (· >>= _) (answerEchoed_eq (position + 1) cs pairs)

/-- A trustee that still keeps the numbers it drew in another state, or lets them travel, answers
challenges with them. -/
theorem challenge_fst {drew : BlindingTrustee G} (hmode : drew.mode = trustee.mode) {run : RunId}
    {n : Nat} (hkept : trustee.mode = .retained →
      ∃ since, trustee.retained.find? (·.run == run) = some ⟨run, drew.nonces n, since⟩)
    {cs : List G.Scalar} (hcs : cs.length = n) :
    (trustee.challenge ⟨run, List.zipWith (fun c pair => ⟨c, travelling drew.mode pair⟩) cs
      (drew.nonces n)⟩).1 = .ok (List.zipWith respond cs (drew.nonces n)) := by
  unfold challenge
  cases htrustee : trustee.mode with
  | retained =>
    obtain ⟨since, hfind⟩ := hkept htrustee
    simp only [hmode, htrustee, hfind, List.length_zipWith, length_nonces, hcs, Nat.min_self, ne_eq,
      not_true_eq_false, if_false]
    exact answerRetained_eq 0 cs _
  | echoed =>
    rw [hmode, htrustee]
    exact answerEchoed_eq 0 cs _

/-- **How a trustee answers** the challenges for what it contributed. -/
theorem challenge_blind (request : BlindRequest G)
    (h : trustee.IsFreshFor request.run) (now : Nat) {cs : List G.Scalar}
    (hcs : cs.length = request.ciphertexts.length) :
    ((trustee.blind now request).2.challenge ⟨request.run,
      List.zipWith (fun c pair => ⟨c, travelling trustee.mode pair⟩) cs
        (trustee.nonces request.ciphertexts.length)⟩).1 =
      .ok (List.zipWith respond cs (trustee.nonces request.ciphertexts.length)) := by
  have hmode := mode_blind trustee now request
  exact challenge_fst hmode.symm (fun hretained =>
    ⟨now, find?_blind (hmode.symm.trans hretained) (h (hmode.symm.trans hretained)) now⟩) hcs

end PlaintextEquivalence.BlindingTrustee
