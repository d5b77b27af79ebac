import PlaintextEquivalence.Elgamal.Ciphertext
import PlaintextEquivalence.Transcript.Basic

/-!
# Challenges and refusals

What the proofs of knowledge share: the way group elements enter a transcript, the scalar that a
transcript gives as a challenge, and the reasons for which a verifier refuses.

What is modelled:
* `beginProof`, `appendElement`, `challengeScalar` — `start_proof`, `append_element`, `challenge_scalar`
  of `TranscriptForGroup`.
* `ProofError` — `VerificationError`.
-/

namespace PlaintextEquivalence

/-- Why a proof is refused. -/
inductive ProofError where
  | challengeMismatch
  | lengthMismatch (collection : String) (expected actual : Nat)
  | participantIndex (index : UInt64)
  | plaintextMismatch
  deriving DecidableEq, Repr

def ProofError.message : ProofError → String
  | .challengeMismatch => "restored challenge scalar does not match the one provided in the proof"
  | .lengthMismatch collection expected actual =>
    "number of " ++ collection ++ " (" ++ toString actual ++ ") differs from expected (" ++
      toString expected ++ ")"
  | .participantIndex index =>
    "participant index " ++ toString index.toNat ++ " is out of range or repeated"
  | .plaintextMismatch => "combined decryption shares do not match the claimed decrypted element"

namespace Transcript

/-- Marks the beginning of a proof. -/
def beginProof (t : Transcript) (name : String) : Transcript :=
  t.append "dom-sep" (Bytes.ofText name)

/-- Appends a group element. -/
def appendElement {G : PrimeGroup} (t : Transcript) (label : String) (element : G.Element) :
    Transcript :=
  t.append label (G.elementBytes element)

/-- A scalar as a challenge. -/
def challengeScalar (G : PrimeGroup) (t : Transcript) (label : String) : G.Scalar × Transcript :=
  let (bytes, t) := t.challenge label 64
  (G.ofWide bytes, t)

end Transcript

end PlaintextEquivalence
