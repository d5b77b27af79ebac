import PlaintextEquivalence.Blinding.Message
import PlaintextEquivalence.Random.ChaCha

/-!
# Blinding trustees

A trustee draws two secret numbers for each ratio it is asked to blind, and later answers one
challenge for each.  It either keeps the numbers until then, under the name of the run, or sends
them along and gets them back.  Numbers that are kept serve one challenge request: whatever comes of
it, they are dropped.  Runs that are never challenged are dropped when they have been kept for the
retention period, or, oldest first, when there is no room for another.

What is modelled:
* `BlindingTrustee` — `LocalBlindingTrustee`; `ofTape` and `draw` are `from_seed` and `new`, and
  `withCapacity` is `with_max_retained_runs`.
* `drawNonces` — the pairs that `blind_sync` draws with `nonzero_nonce`.
* `evict`, `respond` — the same.
* `blind`, `challenge`, `release` — `blind_sync`, `challenge_sync`, `release_sync`.
-/

namespace PlaintextEquivalence

/-- What a trustee does with its secret numbers between the rounds. -/
inductive NonceMode where
  | retained
  | echoed
  deriving DecidableEq, Repr

/-- The secret numbers of a run, kept since the given time. -/
structure RetainedRun (G : PrimeGroup) where
  run : RunId
  nonces : List (NoncePair G)
  since : Nat

/-- A trustee and all it keeps, the run blinded first at the head. -/
structure BlindingTrustee (G : PrimeGroup) where
  id : String
  mode : NonceMode
  retention : Duration
  capacity : Nat
  tape : Tape
  retained : List (RetainedRun G)

namespace BlindingTrustee

variable {G : PrimeGroup}

/-- A trustee with nothing kept: ten minutes and 1024 runs are the limits unless changed. -/
def ofTape (id : String) (tape : Tape) : BlindingTrustee G :=
  ⟨id, .retained, Duration.ofSeconds 600, 1024, tape, []⟩

/-- A trustee with randomness of its own, and what remains of the tape that its seed is drawn
from. -/
def draw (id : String) (tape : Tape) : BlindingTrustee G × Tape :=
  let (own, tape) := ChaCha.split tape
  (ofTape id own, tape)

/-- The same trustee with room for the given number of runs, at least one. -/
def withCapacity (trustee : BlindingTrustee G) (runs : Nat) : BlindingTrustee G :=
  { trustee with capacity := max runs 1 }

/-- Whether numbers are kept for a run. -/
def retains (trustee : BlindingTrustee G) (run : RunId) : Bool :=
  trustee.retained.any (·.run == run)

/-- Drops what is kept for a run. -/
def forget (trustee : BlindingTrustee G) (run : RunId) : BlindingTrustee G :=
  { trustee with retained := trustee.retained.filter (·.run != run) }

/-- Drops the runs whose time is over, then the oldest until there is room for one more. -/
def evict (trustee : BlindingTrustee G) (now : Nat) : BlindingTrustee G :=
  let fresh := trustee.retained.filter fun r => now - r.since < trustee.retention.nanos
  { trustee with retained := fresh.drop (fresh.length + 1 - trustee.capacity) }

/-- How often a zero is drawn again.  The bound is this model's own, so that drawing comes to an end on any
tape: the trustee itself draws until a number is not zero.  Both draw the same unless 129 zeros stand one
behind the other, and then a zero is taken here. -/
def redraws : Nat := 128

/-- Two secret numbers for each of `n` ratios. -/
def drawNonces : Nat → Tape → List (NoncePair G) × Tape
  | 0, tape => ([], tape)
  | n + 1, tape =>
    let (exponent, tape) := G.drawNonzero redraws tape
    let (mask, tape) := G.drawNonzero redraws tape
    let (pairs, tape) := drawNonces n tape
    (⟨exponent, mask⟩ :: pairs, tape)

/-- The contribution for a ratio. -/
def contribute (mode : NonceMode) (ratio : Ciphertext G) (pair : NoncePair G) : Contribution G :=
  { blinded := pair.exponent • ratio
    commitments := pair.mask • ratio
    nonces := match mode with
      | .retained => .retained
      | .echoed => .echoed pair }

/-- Blinds the ratios of a request. -/
def blind (trustee : BlindingTrustee G) (now : Nat) (request : BlindRequest G) :
    Except Rejection (List (Contribution G)) × BlindingTrustee G :=
  match trustee.mode with
  | .retained =>
    if trustee.retains request.run then (.error (.duplicateRun request.run), trustee)
    else
      let roomy := trustee.evict now
      let (nonces, tape) := drawNonces request.ciphertexts.length trustee.tape
      (.ok (List.zipWith (contribute .retained) request.ciphertexts nonces),
        { roomy with tape := tape, retained := roomy.retained ++ [⟨request.run, nonces, now⟩] })
  | .echoed =>
    let (nonces, tape) := drawNonces request.ciphertexts.length trustee.tape
    (.ok (List.zipWith (contribute .echoed) request.ciphertexts nonces),
      { trustee with tape := tape })

/-- The answer to a challenge: the mask less the challenged exponent. -/
def respond (challenge : G.Scalar) (pair : NoncePair G) : ChallengeResponse G :=
  ⟨pair.mask - challenge * pair.exponent⟩

/-- The answers of a trustee that kept its numbers, from a position on. -/
def answerRetained : Nat → List (Challenge G) → List (NoncePair G) →
    Except Rejection (List (ChallengeResponse G))
  | position, c :: cs, pair :: pairs =>
    match c.nonces with
    | .echoed _ => .error (.unexpectedNonces position)
    | .retained => do
      let rest ← answerRetained (position + 1) cs pairs
      pure (respond c.challenge pair :: rest)
  | _, _, _ => .ok []

/-- The answers of a trustee that gets its numbers back, from a position on. -/
def answerEchoed : Nat → List (Challenge G) → Except Rejection (List (ChallengeResponse G))
  | _, [] => .ok []
  | position, c :: cs =>
    match c.nonces with
    | .retained => .error (.unexpectedNonces position)
    | .echoed pair => do
      let rest ← answerEchoed (position + 1) cs
      pure (respond c.challenge pair :: rest)

/-- Answers the challenges of a request. -/
def challenge (trustee : BlindingTrustee G) (request : ChallengeRequest G) :
    Except Rejection (List (ChallengeResponse G)) × BlindingTrustee G :=
  match trustee.mode with
  | .retained =>
    match trustee.retained.find? (·.run == request.run) with
    | none => (.error (.unknownRun request.run), trustee)
    | some kept =>
      if kept.nonces.length ≠ request.challenges.length then
        (.error (.lengthMismatch kept.nonces.length request.challenges.length),
          trustee.forget request.run)
      else (answerRetained 0 request.challenges kept.nonces, trustee.forget request.run)
  | .echoed => (answerEchoed 0 request.challenges, trustee)

/-- Drops what is kept for a run that was given up. -/
def release (trustee : BlindingTrustee G) (run : RunId) : BlindingTrustee G := trustee.forget run

end BlindingTrustee

end PlaintextEquivalence
