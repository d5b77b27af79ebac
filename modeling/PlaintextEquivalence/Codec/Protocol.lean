import PlaintextEquivalence.Blinding.Trustee
import PlaintextEquivalence.Codec.Elgamal
import PlaintextEquivalence.Protocol.Session

/-!
# Codecs of the messages between a session and its trustees

Models the serialization of `RunId`, `PepConfig`, `NonceMode`, `TrusteeNonces`, `BlindRequest`,
`BlindResponse`, `ChallengeRequest` and `BlindChallengeResponse`.
-/

namespace PlaintextEquivalence

namespace Codec

def runId : Codec RunId :=
  ofFields "RunId"
    (.field "instance" (array 16 (word8 "u8")) none <| .field "sequence" (word64 "u64") none .none)
    (fun (session, number, ()) => ⟨session, number⟩)
    (fun r => (r.session, r.number, ()))

/-- A duration of so many seconds and nanoseconds, if it fits into 64 bits of seconds. -/
def durationOf (seconds nanos : Nat) : Except DataError Duration :=
  if seconds + nanos / 1000000000 < UInt64.size then .ok ⟨seconds * 1000000000 + nanos⟩
  else .error .durationOverflow

/-- Durations, which have no other fields. -/
def duration : Codec Duration :=
  record ⟨"struct Duration", "struct Duration", true⟩
    (.field "secs" (word64 "u64") none <| .field "nanos" (word32 "u32") none .none)
    (fun (seconds, nanos, ()) => durationOf seconds.toNat nanos.toNat)
    (fun d => (UInt64.ofNat d.seconds, UInt32.ofNat d.subsecondNanos, ()))

/-- Limits; those that are not given are the standard ones. -/
def limits : Codec Limits :=
  ofFields "PepConfig"
    (.field "trustee_timeout" duration (some Limits.standard.patience) <|
      .field "max_concurrent_runs" (word64 "usize") (some Limits.standard.concurrency) .none)
    (fun (patience, concurrency, ()) => ⟨patience, concurrency⟩)
    (fun l => (l.patience, l.concurrency, ()))

def nonceMode : Codec NonceMode :=
  variants [.unit "retained" .retained, .unit "echoed" .echoed]
    (fun
      | .retained => Quotation.write "retained"
      | .echoed => Quotation.write "echoed")
    (fun
      | .retained => Variant.encodeIndex 0
      | .echoed => Variant.encodeIndex 1)

variable (G : PrimeGroup)

/-- The two secret numbers, as the content of a variant. -/
def noncePair : Codec (NoncePair G) :=
  record (.ofKind "struct variant TrusteeNonces::Echoed" 2)
    (.field "eps" (scalar G) none <| .field "u" (scalar G) none .none)
    (fun (exponent, mask, ()) => .ok ⟨exponent, mask⟩)
    (fun p => (p.exponent, p.mask, ()))

def nonces : Codec (Nonces G) :=
  variants [.unit "retained" .retained, .ofRecord "echoed" (noncePair G) .echoed]
    (fun
      | .retained => Quotation.write "retained"
      | .echoed p => Variant.writeContent "echoed" ((noncePair G).write p))
    (fun
      | .retained => Variant.encodeIndex 0
      | .echoed p => Variant.encodeIndex 1 ++ (noncePair G).encode p)

def blindRequest : Codec (BlindRequest G) :=
  ofFields "BlindRequest"
    (.field "run" runId none <| .field "ciphertexts" (list (ciphertext G)) none .none)
    (fun (run, ciphertexts, ()) => ⟨run, ciphertexts⟩)
    (fun r => (r.run, r.ciphertexts, ()))

def contribution : Codec (Contribution G) :=
  ofFields "BlindResponse"
    (.field "blinded" (ciphertext G) none <| .field "commitments" (ciphertext G) none <|
      .field "nonces" (nonces G) none .none)
    (fun (blinded, commitments, nonces, ()) => ⟨blinded, commitments, nonces⟩)
    (fun c => (c.blinded, c.commitments, c.nonces, ()))

def challenge : Codec (Challenge G) :=
  ofFields "BlindChallenge"
    (.field "challenge" (scalar G) none <| .field "nonces" (nonces G) none .none)
    (fun (challenge, nonces, ()) => ⟨challenge, nonces⟩)
    (fun c => (c.challenge, c.nonces, ()))

def challengeRequest : Codec (ChallengeRequest G) :=
  ofFields "ChallengeRequest"
    (.field "run" runId none <| .field "challenges" (list (challenge G)) none .none)
    (fun (run, challenges, ()) => ⟨run, challenges⟩)
    (fun r => (r.run, r.challenges, ()))

def challengeResponse : Codec (ChallengeResponse G) :=
  ofFields "BlindChallengeResponse"
    (.field "response" (scalar G) none .none)
    (fun (response, ()) => ⟨response⟩)
    (fun r => (r.response, ()))

end Codec

end PlaintextEquivalence
