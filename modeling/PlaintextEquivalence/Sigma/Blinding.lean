import PlaintextEquivalence.Election.Basic

/-!
# Blinding by a common exponent

A proof that a ciphertext `(A, B)` is the multiple of a ratio `(α, β)` by one exponent `ξ`: the
provers commit to `[u] α` and `[u] β`, the challenge `c` is derived from the election, the joint key
and all six elements, and the answer is `v = u - c ξ`.  The commitments are restored as
`[v] α + [c] A` and `[v] β + [c] B`.

Models `BlindingProof`, with `challengeFor` for `blinding_challenge` and `expectedCommitments` for
`expected_commitments`.
-/

namespace PlaintextEquivalence

/-- A proof that a ciphertext is the multiple of another. -/
structure Blinding (G : PrimeGroup) where
  challenge : G.Scalar
  response : G.Scalar
  deriving DecidableEq

namespace Blinding

variable {G : PrimeGroup}

/-- What the challenge is derived from. -/
def transcript (election : Election G) (ratio blinded : Ciphertext G)
    (commitments : Ciphertext G) : Transcript :=
  let t := (Transcript.start "pep_blinding").append "Q" election.extendedHash.toList
  let t := (t.append "tag" [0x42]).beginProof "ratio_blinding"
  let t := t.append "K" election.jointKey.bytes
  let t := (t.appendElement "alpha" ratio.pad).appendElement "beta" ratio.data
  let t := (t.appendElement "A" blinded.pad).appendElement "B" blinded.data
  (t.appendElement "a" commitments.pad).appendElement "b" commitments.data

/-- The challenge for a ratio, its blinding and the commitments. -/
def challengeFor (election : Election G) (ratio blinded commitments : Ciphertext G) : G.Scalar :=
  ((transcript election ratio blinded commitments).challengeScalar G "c").1

/-- The commitments that a challenge and a response answer to. -/
def expectedCommitments (ratio blinded : Ciphertext G) (challenge response : G.Scalar) :
    Ciphertext G :=
  ⟨G.sumMultiples [(response, ratio.pad), (challenge, blinded.pad)],
    G.sumMultiples [(response, ratio.data), (challenge, blinded.data)]⟩

/-- Checks a proof: the restored commitments have to give its challenge. -/
def verify (proof : Blinding G) (election : Election G) (ratio blinded : Ciphertext G) :
    Except ProofError Unit :=
  let commitments := expectedCommitments ratio blinded proof.challenge proof.response
  if challengeFor election ratio blinded commitments = proof.challenge then .ok ()
  else .error .challengeMismatch

/-- The challenge, then the response. -/
def toBytes (proof : Blinding G) : Bytes :=
  G.scalarBytes proof.challenge ++ G.scalarBytes proof.response

/-- The proof that bytes stand for. -/
def ofBytes? (bytes : Bytes) : Option (Blinding G) :=
  if bytes.length = 2 * G.scalarSize then
    match G.scalarOfBytes? (bytes.take G.scalarSize),
      G.scalarOfBytes? (bytes.drop G.scalarSize) with
    | some challenge, some response => some ⟨challenge, response⟩
    | _, _ => none
  else none

end Blinding

end PlaintextEquivalence
