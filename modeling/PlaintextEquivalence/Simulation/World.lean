import PlaintextEquivalence.Protocol.Schedule
import PlaintextEquivalence.Simulation.Misbehaviour

/-!
# A simulated world

Trustees and guardians in one place, with a record of all that they were asked.

Models a `PepCoordinator` together with its trustees, `ThresholdDecryptor` and `PepMetrics`, as a test
would set it up.
-/

namespace PlaintextEquivalence

/-- Trustees, guardians, the number of the next run, and the questions asked, last first. -/
structure Village (G : PrimeGroup) where
  election : Election G
  actors : List (Actor G)
  board : GuardianBoard G
  boardFaults : List (BoardFault G)
  nextRun : UInt64
  asked : List (Question G)

namespace Village

variable {G : PrimeGroup}

/-- The guardians' answer, altered. -/
def decrypt (v : Village G) (ciphertexts : List (Ciphertext G)) :
    Checked BoardError (List (G.Element × DecryptionProof G)) × Village G :=
  let (result, board) := v.board.decrypt v.election ciphertexts
  let v := { v with board := board }
  match result with
  | .error e => (.error e, v)
  | .ok items => (Checked.ofExcept (v.boardFaults.foldlM BoardFault.apply items), v)

/-- The answer of those who live in the village. -/
def answer : World (Question G) Question.Answer (Village G)
  | .number, v => (v.nextRun, { v with nextRun := v.nextRun + 1 })
  | .blind j request, v =>
    match v.actors[j]? with
    | none => (⟨0, .error (.other "")⟩, v)
    | some actor =>
      let (reply, actor) := actor.blind request
      (reply, { v with actors := v.actors.set j actor })
  | .challenge j request, v =>
    match v.actors[j]? with
    | none => (⟨0, .error (.other "")⟩, v)
    | some actor =>
      let (reply, actor) := actor.challenge request
      (reply, { v with actors := v.actors.set j actor })
  | .release j run, v =>
    match v.actors[j]? with
    | none => (0, v)
    | some actor =>
      let (delay, actor) := actor.release run
      (delay, { v with actors := v.actors.set j actor })
  | .decrypt ciphertexts, v => v.decrypt ciphertexts
  | .pass _, v => ((), v)
  | .reached _, v => ((), v)
  | .ended _, v => ((), v)

/-- The answer, with the question on record. -/
def world : World (Question G) Question.Answer (Village G) := fun q v =>
  answer q { v with asked := q :: v.asked }

end Village

end PlaintextEquivalence
