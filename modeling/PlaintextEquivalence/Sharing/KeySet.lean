import PlaintextEquivalence.Sharing.Params
import PlaintextEquivalence.Sigma.Basic

/-!
# Guardians' keys

The joint key of the guardians and the key of each, made either from the public polynomial of a
dealer or from the guardians' keys themselves, which then have to lie on one polynomial.

What is modelled:
* `KeySet` — `PublicKeySet`; `ofPolynomial` is `new`, `ofKeys` is `from_participants`, `participantKey?`
  is `participant_key`, and `commit` is the same.
* `PublicPolynomial` — the same.
-/

namespace PlaintextEquivalence

/-- The joint key and the key of each guardian. -/
structure KeySet (G : PrimeGroup) where
  params : ThresholdParams
  sharedKey : PublicKey G
  participantKeys : List (PublicKey G)

/-- The coefficients of a polynomial with values in the group, lowest first. -/
structure PublicPolynomial (G : PrimeGroup) where
  coefficients : List G.Element

namespace PublicPolynomial

variable {G : PrimeGroup}

/-- The powers of a scalar, as many as asked for, from the given one on. -/
def powers (x : G.Scalar) : Nat → G.Scalar → List G.Scalar
  | 0, _ => []
  | n + 1, power => power :: powers x n (power * x)

/-- The value at zero: the lowest coefficient. -/
def valueAtZero (p : PublicPolynomial G) : Except Fault G.Element :=
  match p.coefficients with
  | [] => .error .outOfRange
  | c :: _ => .ok c

/-- The value at a scalar. -/
def valueAt (p : PublicPolynomial G) (x : G.Scalar) : Except Fault G.Element :=
  G.multiply (powers x p.coefficients.length 1) p.coefficients

end PublicPolynomial

namespace KeySet

variable {G : PrimeGroup}

/-- The key of the guardian with the given index. -/
def participantKey? (keys : KeySet G) (index : UInt64) : Option (PublicKey G) :=
  keys.participantKeys[index.toNat]?

/-- The keys on a dealer's public polynomial, which has as many coefficients as the threshold. -/
def ofPolynomial (params : ThresholdParams) (polynomial : List G.Element) :
    Checked SharingError (KeySet G) :=
  if polynomial.length ≠ params.threshold.toNat then
    Checked.refuse .malformedDealerPolynomial
  else Checked.ofFault do
    let p : PublicPolynomial G := ⟨polynomial⟩
    let shared ← p.valueAtZero
    let elements ← (List.range params.shares.toNat).mapM fun i => do
      let x ← Word.next (UInt64.ofNat i)
      p.valueAt (G.ofWord x)
    pure ⟨params, PublicKey.ofElement shared, elements.map PublicKey.ofElement⟩

/-- The joint key that the first keys determine, if the others fit them: as many as the threshold
says are interpolated at zero, and at the point of every other key. -/
def ofKeys (params : ThresholdParams) (keys : List (PublicKey G)) :
    Checked SharingError (KeySet G) :=
  if params.shares.toNat ≠ keys.length then
    Checked.refuse .participantCountMismatch
  else do
    let threshold := params.threshold.toNat
    let indexes := (List.range threshold).map UInt64.ofNat
    let first := (keys.take threshold).map (·.element)
    let multiples ← Checked.ofFault (Interpolation.coefficients G indexes)
    let shared ← Checked.ofFault (Interpolation.combine G multiples first)
    let inverses ← Checked.ofFault
      (G.inverses ((List.range params.shares.toNat).map fun i => G.ofWord (UInt64.ofNat (i + 1))))
    let fits ← Checked.ofFault ((keys.zipIdx.drop threshold).mapM fun (key, i) => do
      let there ← Interpolation.coefficientsAt G indexes multiples.1 inverses (UInt64.ofNat i)
      let expected ← Interpolation.combine G there first
      pure (decide (expected = key.element)))
    if fits.all id then pure ⟨params, PublicKey.ofElement shared, keys⟩
    else Checked.refuse .malformedParticipantKeys

/-- Appends the parameters and the joint key. -/
def commit (keys : KeySet G) (t : Transcript) : Transcript :=
  let t := (t.appendWord "n" keys.params.shares).appendWord "t" keys.params.threshold
  t.append "K" keys.sharedKey.bytes

end KeySet

end PlaintextEquivalence
