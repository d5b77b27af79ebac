import PlaintextEquivalence.Hash.Sha256
import PlaintextEquivalence.Sharing.Dealer
import PlaintextEquivalence.Sigma.LogEquality

/-!
# Elections

An election is the guardians' keys and a hash of what the election is about and of the joint key;
every proof is bound to both.  Here are the shares by which guardians decrypt, with their proofs.

What is modelled:
* `Election` — `ElectionContext`; `ofBaseHash` is `new`, and `shareTranscript` is
  `decryption_share_transcript` with the start of the proof.
* `commit`, `proveShare`, `verifyShare` — `commit`, `prove_share`, `verify_share`.
* `Guardian` — `ActiveParticipant`; `make` is `new`, `publicKey?` is `public_key_share`, and
  `decryptShare` is `decrypt_share`.
-/

namespace PlaintextEquivalence

/-- A SHA-256 hash. -/
abbrev Digest := Vector UInt8 32

/-- What all proofs of an election are bound to. -/
structure Election (G : PrimeGroup) where
  extendedHash : Digest
  keys : KeySet G

namespace Election

variable {G : PrimeGroup}

/-- The election with a base hash: it is hashed together with the joint key. -/
def ofBaseHash (baseHash : Bytes) (keys : KeySet G) : Election G :=
  ⟨Sha256.hash (baseHash ++ keys.sharedKey.bytes), keys⟩

/-- The joint key. -/
def jointKey (election : Election G) : PublicKey G := election.keys.sharedKey

/-- Appends the election. -/
def commit (election : Election G) (t : Transcript) : Transcript :=
  election.keys.commit (t.append "Q" election.extendedHash.toList)

/-- The transcript in which a guardian's share is proved. -/
def shareTranscript (election : Election G) (index : UInt64) : Transcript :=
  ((election.commit (Transcript.start "pep_decryption_share")).appendWord "i" index).beginProof
    "guardian_share"

/-- A guardian's share of a decryption and its proof. -/
def proveShare (election : Election G) (index : UInt64) (secret : G.Scalar)
    (ciphertext : Ciphertext G) (tape : Tape) : (PartialDecryption G × LogEquality G) × Tape :=
  let share := secret • ciphertext.pad
  let (proof, _, tape) := LogEquality.prove (PublicKey.ofElement ciphertext.pad) secret
    (G.mulGenerator secret, share) (election.shareTranscript index) tape
  ((⟨share⟩, proof), tape)

/-- Checks a guardian's share of a decryption. -/
def verifyShare (election : Election G) (share : PartialDecryption G) (ciphertext : Ciphertext G)
    (index : UInt64) (proof : LogEquality G) : Except ProofError Unit :=
  match election.keys.participantKey? index with
  | none => .error (.participantIndex index)
  | some key =>
    (proof.verify (PublicKey.ofElement ciphertext.pad) (key.element, share.element)
      (election.shareTranscript index)).1

end Election

/-- A guardian: an index among the keys and the secret of the key there. -/
structure Guardian (G : PrimeGroup) where
  keys : KeySet G
  index : UInt64
  secret : G.Scalar

namespace Guardian

variable {G : PrimeGroup}

/-- The guardian with an index and a secret, which has to be that of the guardian's key. -/
def make (keys : KeySet G) (index : UInt64) (secret : G.Scalar) :
    Except SharingError (Guardian G) :=
  match keys.participantKey? index with
  | none => .error (.participantIndex index keys.params.shares)
  | some key =>
    if G.mulGenerator secret = key.element then .ok ⟨keys, index, secret⟩
    else .error .invalidSecret

/-- The guardian's own key. -/
def publicKey? (guardian : Guardian G) : Option (PublicKey G) :=
  guardian.keys.participantKey? guardian.index

/-- The guardian's share of a decryption and its proof. -/
def decryptShare (guardian : Guardian G) (election : Election G) (ciphertext : Ciphertext G)
    (tape : Tape) : (PartialDecryption G × LogEquality G) × Tape :=
  election.proveShare guardian.index guardian.secret ciphertext tape

end Guardian

end PlaintextEquivalence
