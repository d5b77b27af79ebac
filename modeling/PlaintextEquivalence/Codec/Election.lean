import PlaintextEquivalence.Certificate.Basic
import PlaintextEquivalence.Codec.Elgamal

/-!
# Codecs of elections, ballots and certificates

Models the serialization of `Params`, `SelectionRef`, `PublicKeySet`, `ElectionContext`,
`EncryptedBallot` and `BallotPep`.
-/

namespace PlaintextEquivalence

namespace Codec

/-- Threshold parameters, whether they make sense or not. -/
def thresholdParams : Codec ThresholdParams :=
  ofFields "Params"
    (.field "shares" (word64 "usize") none <| .field "threshold" (word64 "usize") none .none)
    (fun (shares, threshold, ()) => ⟨shares, threshold⟩)
    (fun p => (p.shares, p.threshold, ()))

def selectionPath : Codec SelectionPath :=
  ofFields "SelectionRef"
    (.field "contest_id" text none <| .field "selection_id" text none .none)
    (fun (contestId, selectionId, ()) => ⟨contestId, selectionId⟩)
    (fun p => (p.contestId, p.selectionId, ()))

variable (G : PrimeGroup)

/-- Key sets, whether their keys fit together or not. -/
def keySet : Codec (KeySet G) :=
  ofFields "PublicKeySet"
    (.field "params" thresholdParams none <| .field "shared_key" (publicKey G) none <|
      .field "participant_keys" (list (publicKey G)) none .none)
    (fun (params, sharedKey, participantKeys, ()) => ⟨params, sharedKey, participantKeys⟩)
    (fun k => (k.params, k.sharedKey, k.participantKeys, ()))

def election : Codec (Election G) :=
  ofFields "ElectionContext"
    (.field "extended_base_hash" digest none <| .field "key_set" (keySet G) none .none)
    (fun (extendedHash, keys, ()) => ⟨extendedHash, keys⟩)
    (fun e => (e.extendedHash, e.keys, ()))

def selection : Codec (Selection G) :=
  ofFields "EncryptedSelection"
    (.field "selection_id" text none <| .field "ciphertext" (ciphertext G) none .none)
    (fun (selectionId, ciphertext, ()) => ⟨selectionId, ciphertext⟩)
    (fun s => (s.selectionId, s.ciphertext, ()))

def contest : Codec (Contest G) :=
  ofFields "EncryptedContest"
    (.field "contest_id" text none <| .field "selections" (list (selection G)) none .none)
    (fun (contestId, selections, ()) => ⟨contestId, selections⟩)
    (fun c => (c.contestId, c.selections, ()))

def ballot : Codec (Ballot G) :=
  ofFields "EncryptedBallot"
    (.field "ballot_id" text none <| .field "contests" (list (contest G)) none .none)
    (fun (ballotId, contests, ()) => ⟨ballotId, contests⟩)
    (fun b => (b.ballotId, b.contests, ()))

def selectionCertificate : Codec (SelectionCertificate G) :=
  ofFields "SelectionPep"
    (.field "selection_id" text none <| .field "ciphertext_ratio" (ciphertext G) none <|
      .field "ciphertext_ab" (ciphertext G) none <| .field "blinding_proof" (blinding G) none <|
      .field "t" (element G) none <| .field "decryption_proof" (decryptionProof G) none .none)
    (fun (selectionId, ratio, blinded, blinding, decrypted, decryption, ()) =>
      ⟨selectionId, ratio, blinded, blinding, decrypted, decryption⟩)
    (fun s => (s.selectionId, s.ratio, s.blinded, s.blinding, s.decrypted, s.decryption, ()))

def contestCertificate : Codec (ContestCertificate G) :=
  ofFields "ContestPep"
    (.field "contest_id" text none <|
      .field "selections" (list (selectionCertificate G)) none .none)
    (fun (contestId, selections, ()) => ⟨contestId, selections⟩)
    (fun c => (c.contestId, c.selections, ()))

def ballotCertificate : Codec (BallotCertificate G) :=
  ofFields "BallotPep"
    (.field "ballot_id" text none <| .field "is_equal" bool none <|
      .field "contests" (list (contestCertificate G)) none .none)
    (fun (ballotId, isEqual, contests, ()) => ⟨ballotId, isEqual, contests⟩)
    (fun b => (b.ballotId, b.isEqual, b.contests, ()))

end Codec

end PlaintextEquivalence
