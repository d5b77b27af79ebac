import PlaintextEquivalence.Codec.Variant
import PlaintextEquivalence.Election.Decryption
import PlaintextEquivalence.Sigma.Blinding

/-!
# Codecs of keys, ciphertexts and proofs

Scalars, elements, keys and hashes are written as their byte strings.

Models `ScalarHelper`, `ElementHelper` and `HashHelper`, and the serialization of `PublicKey`,
`Ciphertext`, `LogEqualityProof`, `BlindingProof`, `CandidateDecryption`, `DecryptionShare` and
`DecryptionProof`.
-/

namespace PlaintextEquivalence

namespace Codec

/-- Scalars. -/
def scalar (G : PrimeGroup) : Codec G.Scalar :=
  bytes.refine
    (fun b =>
      if b.length ≠ G.scalarSize then .error (.invalidLength b.length (toString G.scalarSize))
      else match G.scalarOfBytes? b with
        | some k => .ok k
        | none => .error (.invalidValue .byteString "group scalar"))
    G.scalarBytes

/-- Elements. -/
def element (G : PrimeGroup) : Codec G.Element :=
  bytes.refine
    (fun b =>
      if b.length ≠ G.elementSize then .error (.invalidLength b.length (toString G.elementSize))
      else match G.elementOfBytes? b with
        | some e => .ok e
        | none => .error (.invalidValue .byteString "group element"))
    G.elementBytes

/-- Public keys. -/
def publicKey (G : PrimeGroup) : Codec (PublicKey G) :=
  bytes.refine (fun b => (PublicKey.ofBytes? b).mapError .invalidKey) (·.bytes)

/-- Hashes. -/
def digest : Codec Digest :=
  bytes.refine
    (fun b => match Bytes.block? 32 b with
      | some h => .ok h
      | none => .error (.invalidLength b.length "32 bytes"))
    (·.toList)

variable (G : PrimeGroup)

def ciphertext : Codec (Ciphertext G) :=
  ofFields "Ciphertext"
    (.field "pad" (element G) none <| .field "data" (element G) none .none)
    (fun (pad, data, ()) => ⟨pad, data⟩)
    (fun c => (c.pad, c.data, ()))

def logEquality : Codec (LogEquality G) :=
  ofFields "LogEqualityProof"
    (.field "challenge" (scalar G) none <| .field "response" (scalar G) none .none)
    (fun (challenge, response, ()) => ⟨challenge, response⟩)
    (fun p => (p.challenge, p.response, ()))

def blinding : Codec (Blinding G) :=
  ofFields "BlindingProof"
    (.field "challenge" (scalar G) none <| .field "response" (scalar G) none .none)
    (fun (challenge, response, ()) => ⟨challenge, response⟩)
    (fun p => (p.challenge, p.response, ()))

def partialDecryption : Codec (PartialDecryption G) :=
  ofFields "VerifiableDecryption"
    (.field "dh_element" (element G) none .none)
    (fun (element, ()) => ⟨element⟩)
    (fun d => (d.element, ()))

def provedShare : Codec (ProvedShare G) :=
  ofFields "DecryptionShare"
    (.field "index" (word64 "usize") none <| .field "share" (partialDecryption G) none <|
      .field "proof" (logEquality G) none .none)
    (fun (index, share, proof, ()) => ⟨index, share, proof⟩)
    (fun s => (s.index, s.share, s.proof, ()))

def decryptionProof : Codec (DecryptionProof G) :=
  ofFields "DecryptionProof"
    (.field "shares" (list (provedShare G)) none .none)
    (fun (shares, ()) => ⟨shares⟩)
    (fun p => (p.shares, ()))

end Codec

end PlaintextEquivalence
