import PlaintextEquivalence.Sharing.KeySet

/-!
# Dealers

A dealer draws a secret polynomial, publishes its coefficients as multiples of the generator, and
hands each guardian its value at the guardian's point.

Models `Dealer`: `draw` is `new`, `publicPolynomial` is `public_info`, and `share` is
`secret_share_for_participant`.
-/

namespace PlaintextEquivalence

/-- A secret polynomial, lowest coefficient first, for guardians of the given number. -/
structure Dealer (G : PrimeGroup) where
  params : ThresholdParams
  coefficients : List G.Scalar

namespace Dealer

variable {G : PrimeGroup}

/-- A random polynomial with as many coefficients as the threshold. -/
def draw (params : ThresholdParams) (tape : Tape) : Dealer G × Tape :=
  let (coefficients, tape) := G.drawMany params.threshold.toNat tape
  (⟨params, coefficients⟩, tape)

/-- The coefficients of the public polynomial. -/
def publicPolynomial (dealer : Dealer G) : List G.Element := dealer.coefficients.map G.mulGenerator

/-- The value of the secret polynomial, from the highest coefficient down. -/
def valueAt (dealer : Dealer G) (x : G.Scalar) : G.Scalar :=
  dealer.coefficients.reverse.foldl (fun value c => value * x + c) 0

/-- The share of a guardian, which has to exist. -/
def share (dealer : Dealer G) (index : UInt64) : Except Fault G.Scalar :=
  if index < dealer.params.shares then do
    let x ← Word.next index
    pure (dealer.valueAt (G.ofWord x))
  else .error .badParameters

end Dealer

end PlaintextEquivalence
