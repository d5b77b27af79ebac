import PlaintextEquivalence.Elgamal.Ciphertext
import PlaintextEquivalence.Text.Duration
import PlaintextEquivalence.Text.Hex

/-!
# Messages to and from blinding trustees

In the first round a trustee is sent the ratios and answers with a contribution for each; in the
second it is sent a challenge for each and answers with a scalar.  A run is named by the session
that makes it and a number.

What is modelled:
* `RunId`, `BlindRequest`, `ChallengeRequest` — the same.
* `Contribution`, `Challenge`, `ChallengeResponse` — `BlindResponse`, `BlindChallenge`,
  `BlindChallengeResponse`.
* `Nonces` — `TrusteeNonces`.
* `Rejection`, `CallError` — `TrusteeRejection`, `TransportError`.
-/

namespace PlaintextEquivalence

/-- The name of a run. -/
structure RunId where
  session : Vector UInt8 16
  number : UInt64
  deriving DecidableEq, Repr

/-- The first four bytes of the session and the number. -/
def RunId.text (run : RunId) : String :=
  Bytes.toHex (run.session.toList.take 4) ++ "/" ++ toString run.number.toNat

/-- The secret numbers behind a contribution: the blinding exponent and that of the commitment. -/
structure NoncePair (G : PrimeGroup) where
  exponent : G.Scalar
  mask : G.Scalar
  deriving DecidableEq

/-- The secret numbers as they travel: kept by the trustee, or sent along. -/
inductive Nonces (G : PrimeGroup) where
  | retained
  | echoed (pair : NoncePair G)
  deriving DecidableEq

/-- The ratios to blind. -/
structure BlindRequest (G : PrimeGroup) where
  run : RunId
  ciphertexts : List (Ciphertext G)
  deriving DecidableEq

/-- A trustee's contribution for one ratio. -/
structure Contribution (G : PrimeGroup) where
  blinded : Ciphertext G
  commitments : Ciphertext G
  nonces : Nonces G
  deriving DecidableEq

/-- The challenge for one ratio, with the secret numbers sent back. -/
structure Challenge (G : PrimeGroup) where
  challenge : G.Scalar
  nonces : Nonces G
  deriving DecidableEq

/-- The challenges of a run. -/
structure ChallengeRequest (G : PrimeGroup) where
  run : RunId
  challenges : List (Challenge G)
  deriving DecidableEq

/-- A trustee's answer to one challenge. -/
structure ChallengeResponse (G : PrimeGroup) where
  response : G.Scalar
  deriving DecidableEq

/-- Why a trustee rejects a request. -/
inductive Rejection where
  | unknownRun (run : RunId)
  | duplicateRun (run : RunId)
  | lengthMismatch (expected actual : Nat)
  | unexpectedNonces (position : Nat)
  deriving DecidableEq, Repr

def Rejection.message : Rejection → String
  | .unknownRun run => "no retained nonces for run " ++ run.text
  | .duplicateRun run => "ciphertexts for run " ++ run.text ++ " were already blinded"
  | .lengthMismatch expected actual =>
    "received " ++ toString actual ++ " challenges for " ++ toString expected ++
      " blinded ciphertexts"
  | .unexpectedNonces position =>
    "challenge #" ++ toString position ++ " carries nonces in an unexpected form"

/-- Why a call to a trustee failed. -/
inductive CallError where
  | timeout (limit : Duration)
  | responseLength (expected actual : Nat)
  | rejected (rejection : Rejection)
  | other (message : String)
  deriving DecidableEq, Repr

def CallError.message : CallError → String
  | .timeout limit => "trustee did not respond within " ++ limit.text
  | .responseLength expected actual =>
    "trustee returned " ++ toString actual ++ " responses, expected " ++ toString expected
  | .rejected rejection => "trustee rejected the request: " ++ rejection.message
  | .other message => message

end PlaintextEquivalence
