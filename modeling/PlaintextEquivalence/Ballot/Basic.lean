import PlaintextEquivalence.Elgamal.Ciphertext

/-!
# Encrypted ballots

A ballot lists contests and a contest lists selections, each under a name; a selection holds one
ciphertext.  A selection is referred to by the names of its contest and of itself.

Models `EncryptedBallot`, `EncryptedContest` and `EncryptedSelection`, here `Ballot`, `Contest` and
`Selection`, and `SelectionRef`, here `SelectionPath`.
-/

namespace PlaintextEquivalence

/-- The names of a contest and of a selection in it. -/
structure SelectionPath where
  contestId : String
  selectionId : String
  deriving DecidableEq, Repr

/-- The two names with a number sign between them. -/
def SelectionPath.text (path : SelectionPath) : String :=
  path.contestId ++ "#" ++ path.selectionId

/-- An encrypted vote. -/
structure Selection (G : PrimeGroup) where
  selectionId : String
  ciphertext : Ciphertext G
  deriving DecidableEq

/-- A contest. -/
structure Contest (G : PrimeGroup) where
  contestId : String
  selections : List (Selection G)
  deriving DecidableEq

/-- A ballot. -/
structure Ballot (G : PrimeGroup) where
  ballotId : String
  contests : List (Contest G)
  deriving DecidableEq

/-- The number of selections in all contests. -/
def Ballot.selectionCount {G : PrimeGroup} (ballot : Ballot G) : Nat :=
  (ballot.contests.flatMap (·.selections)).length

end PlaintextEquivalence
