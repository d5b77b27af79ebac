import PlaintextEquivalence.Sharing.Interpolation

/-!
# Threshold parameters

How many guardians there are and how many of them decrypt, and how their shares of a decryption are
combined.

What is modelled:
* `ThresholdParams` — `Params`; `make` is `new`, and `combine` is `combine_shares`.
* `SharingError` — the same.
* `PartialDecryption` — `VerifiableDecryption` and `CandidateDecryption`.
-/

namespace PlaintextEquivalence

/-- The number of guardians and the number of them that decrypts. -/
structure ThresholdParams where
  shares : UInt64
  threshold : UInt64
  deriving DecidableEq, Repr

/-- Why guardians cannot be set up. -/
inductive SharingError where
  | malformedDealerPolynomial
  | invalidSecret
  | participantCountMismatch
  | malformedParticipantKeys
  | participantIndex (index shares : UInt64)
  deriving DecidableEq, Repr

def SharingError.message : SharingError → String
  | .malformedDealerPolynomial => "public polynomial received from the dealer is malformed"
  | .invalidSecret =>
    "secret received from the dealer does not correspond to their commitment via public polynomial"
  | .participantCountMismatch =>
    "number of participants specified in `Params` does not match the number of provided public keys"
  | .malformedParticipantKeys =>
    "participants' public keys do not correspond to a single shared key"
  | .participantIndex index shares =>
    "participant index " ++ toString index.toNat ++ " out of bounds, expected a value in 0.." ++
      toString shares.toNat

/-- A share of a decryption, or the combination of several: the multiple of a ciphertext's pad. -/
structure PartialDecryption (G : PrimeGroup) where
  element : G.Element
  deriving DecidableEq

namespace PartialDecryption

variable {G : PrimeGroup}

/-- The share that bytes stand for. -/
def ofBytes? (bytes : Bytes) : Option (PartialDecryption G) :=
  if bytes.length = G.elementSize then (G.elementOfBytes? bytes).map (⟨·⟩) else none

def toBytes (share : PartialDecryption G) : Bytes := G.elementBytes share.element

end PartialDecryption

namespace ThresholdParams

/-- Parameters with at least one guardian and a threshold between one and their number. -/
def make (shares threshold : UInt64) : Except Fault ThresholdParams :=
  if 0 < shares ∧ 0 < threshold ∧ threshold ≤ shares then .ok ⟨shares, threshold⟩
  else .error .badParameters

/-- Every number is below the bound and none comes twice. -/
def areValid (bound : UInt64) : List UInt64 → Bool
  | [] => true
  | i :: rest => i < bound && !rest.contains i && areValid bound rest

/-- Combines as many shares as the threshold says, given with the guardians' indexes.  There is no
combination of too few shares, nor of shares of repeated guardians or of guardians that do not
exist. -/
def combine {G : PrimeGroup} (params : ThresholdParams)
    (shares : List (UInt64 × PartialDecryption G)) :
    Except Fault (Option (PartialDecryption G)) := do
  let taken := shares.take params.threshold.toNat
  let indexes := taken.map (·.1)
  if taken.length < params.threshold.toNat then pure none
  else if areValid params.shares indexes then
    let multiples ← Interpolation.coefficients G indexes
    let value ← Interpolation.combine G multiples (taken.map (·.2.element))
    pure (some ⟨value⟩)
  else pure none

end ThresholdParams

end PlaintextEquivalence
