import PlaintextEquivalence.Blinding.Message
import PlaintextEquivalence.Certificate.Audit

/-!
# Why a run fails

Models `PepError`, here `RunError`, and `ProofFailure`, here `FaultyBlinding`.
-/

namespace PlaintextEquivalence

/-- A selection whose blinding does not verify, and the trustees whose own part does not. -/
structure FaultyBlinding where
  selection : SelectionPath
  trustees : List Nat
  deriving DecidableEq, Repr

def FaultyBlinding.text (f : FaultyBlinding) : String :=
  let who := if f.trustees.isEmpty then "no trustee isolated"
    else "trustees " ++ ", ".intercalate (f.trustees.map toString)
  "`" ++ f.selection.text ++ "` (" ++ who ++ ")"

/-- Why a run fails. -/
inductive RunError where
  | structuralMismatch (source : BallotMismatch)
  | transport (trustee : Nat) (source : CallError)
  | degenerateBlinding (selections : List SelectionPath)
  | proofVerification (failures : List FaultyBlinding)
  | decryption (source : BoardError)
  | finalVerification (findings : List Finding)
  deriving DecidableEq, Repr

def RunError.message : RunError → String
  | .structuralMismatch source => "ballots are not comparable: " ++ source.message
  | .transport trustee source =>
    "blinding trustee #" ++ toString trustee ++ " failed: " ++ source.message
  | .degenerateBlinding selections =>
    "blinding is degenerate for " ++ ", ".intercalate (selections.map (·.text))
  | .proofVerification failures =>
    "blinding proof verification failed for " ++ ", ".intercalate (failures.map (·.text))
  | .decryption source => "threshold decryption failed: " ++ source.message
  | .finalVerification findings =>
    "assembled result did not pass verification: " ++ Finding.summary findings

end PlaintextEquivalence
