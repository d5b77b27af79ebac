import PlaintextEquivalence.Blinding.Trustee
import PlaintextEquivalence.Election.Decryption
import PlaintextEquivalence.Protocol.Round

/-!
# Misbehaviour

Ways in which trustees and guardians deviate from the protocol: late, failing or altered answers.  A
trustee that misbehaves acts as it should on what it is asked, and alters what it says.

Models implementations of `BlindingTrustee` and `ThresholdDecryptor` that do not keep to the protocol.
-/

namespace PlaintextEquivalence

/-- A change to a list as a whole. -/
inductive ListChange where
  | pop
  | extend
  | clear
  | reverse
  deriving DecidableEq, Repr

/-- Drops the last item, repeats it, drops all, or turns the order around. -/
def ListChange.apply {α : Type} (change : ListChange) (items : List α) : List α :=
  match change with
  | .pop => items.dropLast
  | .extend => items ++ items.getLast?.toList
  | .clear => []
  | .reverse => items.reverse

/-- One of the two ciphertexts of a contribution. -/
inductive ContributionPart where
  | blinded
  | commitments
  deriving DecidableEq, Repr

/-- A change to the ciphertext of a contribution. -/
def ContributionPart.change {G : PrimeGroup} (part : ContributionPart)
    (f : Ciphertext G → Ciphertext G) (c : Contribution G) : Contribution G :=
  match part with
  | .blinded => { c with blinded := f c.blinded }
  | .commitments => { c with commitments := f c.commitments }

/-- Misbehaviour in the first round. -/
inductive BlindFault (G : PrimeGroup) where
  | delay (nanos : Nat)
  | fail (message : String)
  | twice
  | change (change : ListChange)
  | add (position : Nat) (part : ContributionPart) (ciphertext : Ciphertext G)
  | scale (position : Nat) (part : ContributionPart) (factor : G.Scalar)
  | setNonces (position : Nat) (nonces : Nonces G)

/-- Misbehaviour in the second round, on what is asked. -/
inductive RequestFault where
  | forget
  | change (change : ListChange)
  deriving DecidableEq, Repr

/-- Misbehaviour in the second round, on what is answered. -/
inductive ChallengeFault (G : PrimeGroup) where
  | delay (nanos : Nat)
  | fail (message : String)
  | change (change : ListChange)
  | add (position : Nat) (delta : G.Scalar)

/-- A trustee with its misbehaviour. -/
structure Actor (G : PrimeGroup) where
  trustee : BlindingTrustee G
  blindFaults : List (BlindFault G)
  requestFaults : List RequestFault
  challengeFaults : List (ChallengeFault G)
  releaseDelay : Nat

namespace Actor

variable {G : PrimeGroup}

def alterContributions (items : List (Contribution G)) : BlindFault G → List (Contribution G)
  | .delay _ | .fail _ | .twice => items
  | .change c => c.apply items
  | .add position part ct => items.modify position (part.change (· + ct))
  | .scale position part factor => items.modify position (part.change (factor • ·))
  | .setNonces position nonces => items.modify position ({ · with nonces := nonces })

def alterResponses (items : List (ChallengeResponse G)) :
    ChallengeFault G → List (ChallengeResponse G)
  | .delay _ | .fail _ => items
  | .change c => c.apply items
  | .add position delta => items.modify position fun r => ⟨r.response + delta⟩

/-- The reply of a trustee: the failure it feigns if there is one, or its own answer, altered. -/
def reply {α : Type} (delay : Nat) (failure? : Option String)
    (answer : Except Rejection (List α)) (alter : List α → List α) : Reply α :=
  ⟨delay, match failure?, answer with
    | some message, _ => .error (.other message)
    | none, .error rejection => .error (.rejected rejection)
    | none, .ok items => .ok (alter items)⟩

/-- Blinds, perhaps twice, and alters the answer. -/
def blind (actor : Actor G) (request : BlindRequest G) : Reply (Contribution G) × Actor G :=
  let faults := actor.blindFaults
  let twice := faults.any fun | .twice => true | _ => false
  let before := if twice then (actor.trustee.blind 0 request).2 else actor.trustee
  let (answer, trustee) := before.blind 0 request
  let delay := (faults.map fun | .delay n => n | _ => 0).foldl (· + ·) 0
  let failure? := faults.findSome? fun | .fail m => some m | _ => none
  (reply delay failure? answer (faults.foldl alterContributions ·),
    { actor with trustee := trustee })

/-- Alters what is asked, answers it, and alters the answer. -/
def challenge (actor : Actor G) (request : ChallengeRequest G) :
    Reply (ChallengeResponse G) × Actor G :=
  let (trustee, request) := actor.requestFaults.foldl
    (fun (t, r) fault => match fault with
      | .forget => (t.release r.run, r)
      | .change c => (t, { r with challenges := c.apply r.challenges }))
    (actor.trustee, request)
  let faults := actor.challengeFaults
  let (answer, trustee) := trustee.challenge request
  let delay := (faults.map fun | .delay n => n | _ => 0).foldl (· + ·) 0
  let failure? := faults.findSome? fun | .fail m => some m | _ => none
  (reply delay failure? answer (faults.foldl alterResponses ·),
    { actor with trustee := trustee })

/-- Releases a run, and takes its time. -/
def release (actor : Actor G) (run : RunId) : Nat × Actor G :=
  (actor.releaseDelay, { actor with trustee := actor.trustee.release run })

end Actor

/-- Misbehaviour of the guardians, on all decryptions or on the one at a position. -/
inductive BoardFault (G : PrimeGroup) where
  | fail (message : String)
  | change (change : ListChange)
  | claim (position? : Option Nat) (element : G.Element)
  | shares (position? : Option Nat) (change : ListChange)
  | index (position? : Option Nat) (index : UInt64)

namespace BoardFault

variable {G : PrimeGroup}

/-- A change to all items or to the one at a position. -/
def onItems {α : Type} (position? : Option Nat) (f : α → α) (items : List α) : List α :=
  match position? with
  | none => items.map f
  | some position => items.modify position f

def apply (items : List (G.Element × DecryptionProof G)) :
    BoardFault G → Except BoardError (List (G.Element × DecryptionProof G))
  | .fail message => .error (.other message)
  | .change c => .ok (c.apply items)
  | .claim position? t => .ok (onItems position? (fun d => (t, d.2)) items)
  | .shares position? c => .ok (onItems position? (fun d => (d.1, ⟨c.apply d.2.shares⟩)) items)
  | .index position? i =>
    .ok (onItems position? (fun d => (d.1, ⟨d.2.shares.modify 0 ({ · with index := i })⟩)) items)

end BoardFault

end PlaintextEquivalence
