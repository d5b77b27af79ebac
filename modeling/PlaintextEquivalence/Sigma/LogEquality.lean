import PlaintextEquivalence.Sigma.Basic

/-!
# Equality of discrete logarithms

A proof that two elements are the same multiple of the generator and of a second base: for
`R = [r] G` and `B = [r] K` the prover commits to `[x] G` and `[x] K`, takes the challenge `c`, and
answers `s = x + c r`.  The verifier restores the commitments as `[s] G - [c] R` and
`[s] K - [c] B`.

Models `LogEqualityProof`: `prove` is `new`, `statement` is `commit_statement`, and `commitments` are those
that `verify` restores.
-/

namespace PlaintextEquivalence

/-- A proof that two elements have the same discrete logarithm. -/
structure LogEquality (G : PrimeGroup) where
  challenge : G.Scalar
  response : G.Scalar
  deriving DecidableEq

namespace LogEquality

variable {G : PrimeGroup}

/-- Appends what is to be proved: the second base and the two powers. -/
def statement (t : Transcript) (base : PublicKey G) (powers : G.Element × G.Element) :
    Transcript :=
  let t := (t.beginProof "log_eq").append "K" base.bytes
  (t.appendElement "[r]G" powers.1).appendElement "[r]K" powers.2

/-- Appends the commitments and takes the challenge. -/
def challengeOf (t : Transcript) (commitments : G.Element × G.Element) : G.Scalar × Transcript :=
  let t := (t.appendElement "[x]G" commitments.1).appendElement "[x]K" commitments.2
  t.challengeScalar G "c"

/-- A proof with given randomness. -/
def proveWith (base : PublicKey G) (secret : G.Scalar) (powers : G.Element × G.Element)
    (t : Transcript) (x : G.Scalar) : LogEquality G × Transcript :=
  let (c, t) := challengeOf (statement t base powers) (G.mulGenerator x, x • base.element)
  (⟨c, c * secret + x⟩, t)

/-- A proof. -/
def prove (base : PublicKey G) (secret : G.Scalar) (powers : G.Element × G.Element)
    (t : Transcript) (tape : Tape) : LogEquality G × Transcript × Tape :=
  let (x, tape) := G.draw tape
  let (proof, t) := proveWith base secret powers t x
  (proof, t, tape)

/-- The commitments that a proof answers to. -/
def commitments (proof : LogEquality G) (base : PublicKey G) (powers : G.Element × G.Element) :
    G.Element × G.Element :=
  (G.sumMultiples [(-proof.challenge, powers.1), (proof.response, G.generator)],
    G.sumMultiples [(-proof.challenge, powers.2), (proof.response, base.element)])

/-- Checks a proof: the restored commitments have to give its challenge. -/
def verify (proof : LogEquality G) (base : PublicKey G) (powers : G.Element × G.Element)
    (t : Transcript) : Except ProofError Unit × Transcript :=
  let (c, t) := challengeOf (statement t base powers) (proof.commitments base powers)
  (if c = proof.challenge then .ok () else .error .challengeMismatch, t)

/-- The challenge, then the response. -/
def toBytes (proof : LogEquality G) : Bytes :=
  G.scalarBytes proof.challenge ++ G.scalarBytes proof.response

/-- The proof that bytes stand for. -/
def ofBytes? (bytes : Bytes) : Option (LogEquality G) :=
  if bytes.length = 2 * G.scalarSize then
    match G.scalarOfBytes? (bytes.take G.scalarSize),
      G.scalarOfBytes? (bytes.drop G.scalarSize) with
    | some challenge, some response => some ⟨challenge, response⟩
    | _, _ => none
  else none

end LogEquality

end PlaintextEquivalence
