import PlaintextEquivalence.Election.Basic
import PlaintextEquivalence.Random.ChaCha

/-!
# Threshold decryption

A proof of decryption is a list of guardians' shares, each with its own proof; it is accepted if
there are as many as the threshold says, of different guardians, all proved, and their combination
gives the claimed element.  A board of guardians makes such proofs with the guardians of the lowest
indexes.

What is modelled:
* `ProvedShare`, `DecryptionProof` — `DecryptionShare`, `DecryptionProof` with `verify`.
* `GuardianBoard` — `GuardianDecryptor`; `ofGuardians` and `convene` are `new`, `agrees` is
  `check_key_set` for one guardian, and `decrypt` is `decrypt_sync`.
* `BoardError` — `DecryptionError`.
-/

namespace PlaintextEquivalence

/-- A guardian's share of a decryption with its proof. -/
structure ProvedShare (G : PrimeGroup) where
  index : UInt64
  share : PartialDecryption G
  proof : LogEquality G
  deriving DecidableEq

/-- The shares that decrypt a ciphertext. -/
structure DecryptionProof (G : PrimeGroup) where
  shares : List (ProvedShare G)
  deriving DecidableEq

namespace DecryptionProof

variable {G : PrimeGroup}

/-- Checks the shares in order, given the indexes of those before. -/
def verifyShares (election : Election G) (ciphertext : Ciphertext G) :
    List UInt64 → List (ProvedShare G) → Except ProofError Unit
  | _, [] => .ok ()
  | seen, s :: rest =>
    if s.index ∈ seen then .error (.participantIndex s.index)
    else match election.verifyShare s.share ciphertext s.index s.proof with
      | .error e => .error e
      | .ok () => verifyShares election ciphertext (s.index :: seen) rest

/-- Checks that a ciphertext decrypts to an element. -/
def verify (proof : DecryptionProof G) (election : Election G) (ciphertext : Ciphertext G)
    (decrypted : G.Element) : Checked ProofError Unit := do
  let params := election.keys.params
  if params.threshold.toNat ≠ proof.shares.length then
    Checked.refuse (.lengthMismatch "decryption shares" params.threshold.toNat proof.shares.length)
  else
    Checked.ofExcept (verifyShares election ciphertext [] proof.shares)
    let combined ← Checked.ofFault (params.combine (proof.shares.map fun s => (s.index, s.share)))
    match combined with
    | none => Checked.refuse .plaintextMismatch
    | some share =>
      if ciphertext.data - share.element = decrypted then pure ()
      else Checked.refuse .plaintextMismatch

end DecryptionProof

/-- Why guardians do not decrypt. -/
inductive BoardError where
  | notEnoughGuardians (available : Nat) (threshold : UInt64)
  | keySetMismatch
  | responseLength (expected actual : Nat)
  | other (message : String)
  deriving DecidableEq, Repr

def BoardError.message : BoardError → String
  | .notEnoughGuardians available threshold =>
    toString available ++ " guardians are available, while decryption requires " ++
      toString threshold.toNat
  | .keySetMismatch => "guardians' key set does not match the election context"
  | .responseLength expected actual =>
    "decryptor returned " ++ toString actual ++ " decryptions, expected " ++ toString expected
  | .other message => message

/-- The guardians that are available, by index, and the randomness of their proofs. -/
structure GuardianBoard (G : PrimeGroup) where
  guardians : List (Guardian G)
  tape : Tape

namespace GuardianBoard

variable {G : PrimeGroup}

/-- Puts a guardian in its place, unless there is one of its index. -/
def seat (guardian : Guardian G) : List (Guardian G) → List (Guardian G)
  | [] => [guardian]
  | g :: rest =>
    if guardian.index < g.index then guardian :: g :: rest
    else if guardian.index = g.index then g :: rest
    else g :: seat guardian rest

/-- A board of the given guardians; of those of one index the first is taken. -/
def ofGuardians (guardians : List (Guardian G)) (tape : Tape) : GuardianBoard G :=
  ⟨guardians.foldl (fun seated g => seat g seated) [], tape⟩

/-- A board of the given guardians with randomness of its own, and what remains of the tape that its
seed is drawn from. -/
def convene (guardians : List (Guardian G)) (tape : Tape) : GuardianBoard G × Tape :=
  let (own, tape) := ChaCha.split tape
  (ofGuardians guardians own, tape)

/-- Whether a guardian's keys are those of an election. -/
def agrees (election : Election G) (guardian : Guardian G) : Bool :=
  guardian.keys.params = election.keys.params &&
    guardian.keys.sharedKey == election.keys.sharedKey &&
    guardian.keys.participantKeys == election.keys.participantKeys

/-- The shares of guardians for a ciphertext. -/
def proveShares (election : Election G) (ciphertext : Ciphertext G) :
    List (Guardian G) → Tape → List (ProvedShare G) × Tape
  | [], tape => ([], tape)
  | g :: rest, tape =>
    let ((share, proof), tape) := g.decryptShare election ciphertext tape
    let (shares, tape) := proveShares election ciphertext rest tape
    (⟨g.index, share, proof⟩ :: shares, tape)

/-- The decryption of a ciphertext by guardians. -/
def decryptOne (election : Election G) (guardians : List (Guardian G)) (ciphertext : Ciphertext G)
    (tape : Tape) : Checked BoardError (G.Element × DecryptionProof G) × Tape :=
  let (shares, tape) := proveShares election ciphertext guardians tape
  (do
    let combined ← Checked.ofFault
      (election.keys.params.combine (shares.map fun s => (s.index, s.share)))
    match combined with
    | none => Checked.refuse .keySetMismatch
    | some share => pure (ciphertext.data - share.element, ⟨shares⟩), tape)

/-- The decryptions of ciphertexts in order, up to the first that fails. -/
def decryptAll (election : Election G) (guardians : List (Guardian G)) :
    List (Ciphertext G) → Tape →
      Checked BoardError (List (G.Element × DecryptionProof G)) × Tape
  | [], tape => (.ok [], tape)
  | c :: rest, tape =>
    match decryptOne election guardians c tape with
    | (.error e, tape) => (.error e, tape)
    | (.ok d, tape) =>
      match decryptAll election guardians rest tape with
      | (.error e, tape) => (.error e, tape)
      | (.ok ds, tape) => (.ok (d :: ds), tape)

/-- Decrypts ciphertexts under the joint key of an election. -/
def decrypt (board : GuardianBoard G) (election : Election G) (ciphertexts : List (Ciphertext G)) :
    Checked BoardError (List (G.Element × DecryptionProof G)) × GuardianBoard G :=
  let threshold := election.keys.params.threshold
  if board.guardians.length < threshold.toNat then
    (Checked.refuse (.notEnoughGuardians board.guardians.length threshold), board)
  else if !board.guardians.all (agrees election) then (Checked.refuse .keySetMismatch, board)
  else match firstItems threshold.toNat board.guardians with
    | .error f => (.error (.fault f), board)
    | .ok quorum =>
      let (result, tape) := decryptAll election quorum ciphertexts board.tape
      (result, { board with tape := tape })

end GuardianBoard

end PlaintextEquivalence
