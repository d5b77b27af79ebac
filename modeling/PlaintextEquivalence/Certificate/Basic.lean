import PlaintextEquivalence.Ballot.Quotient
import PlaintextEquivalence.Election.Decryption
import PlaintextEquivalence.Sigma.Blinding

/-!
# Certificates

A certificate says whether two ballots encrypt the same votes, and holds for each selection the
ratio, its blinding, the decryption of the blinding, and the proofs of both.

Models `BallotPep`, `ContestPep` and `SelectionPep`.
-/

namespace PlaintextEquivalence

/-- What is certified of a selection. -/
structure SelectionCertificate (G : PrimeGroup) where
  selectionId : String
  ratio : Ciphertext G
  blinded : Ciphertext G
  blinding : Blinding G
  decrypted : G.Element
  decryption : DecryptionProof G
  deriving DecidableEq

/-- What is certified of a contest. -/
structure ContestCertificate (G : PrimeGroup) where
  contestId : String
  selections : List (SelectionCertificate G)
  deriving DecidableEq

/-- What is certified of two ballots. -/
structure BallotCertificate (G : PrimeGroup) where
  ballotId : String
  isEqual : Bool
  contests : List (ContestCertificate G)
  deriving DecidableEq

namespace BallotCertificate

variable {G : PrimeGroup}

/-- All selections in order, with their references. -/
def selections (certificate : BallotCertificate G) :
    List (SelectionPath × SelectionCertificate G) :=
  certificate.contests.flatMap fun c => c.selections.map fun s => (⟨c.contestId, s.selectionId⟩, s)

/-- The number of selections in all contests. -/
def selectionCount (certificate : BallotCertificate G) : Nat :=
  (certificate.contests.flatMap (·.selections)).length

end BallotCertificate

end PlaintextEquivalence
