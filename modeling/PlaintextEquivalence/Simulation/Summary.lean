import PlaintextEquivalence.Simulation.World
import PlaintextEquivalence.Text.Quoted

/-!
# Summaries

One line about a trustee, a board of guardians or a session, without any of their secrets: a name and
the fields that may be shown, with two dots in place of the others.

Models the debug texts of `LocalBlindingTrustee`, `GuardianDecryptor`, `PepConfig` and
`PepCoordinator`.
-/

namespace PlaintextEquivalence

namespace Summary

/-- Items between brackets. -/
def list (items : List String) : String := "[" ++ ", ".intercalate items ++ "]"

/-- A name with fields between braces. -/
def braced (name : String) (fields : List String) : String :=
  name ++ " \x7b " ++ ", ".intercalate fields ++ " \x7d"

/-- A field and its value. -/
def field (name value : String) : String := name ++ ": " ++ value

end Summary

def NonceMode.text : NonceMode → String
  | .retained => "Retained"
  | .echoed => "Echoed"

variable {G : PrimeGroup}

/-- A trustee without its secrets. -/
def BlindingTrustee.summary (trustee : BlindingTrustee G) : String :=
  Summary.braced "LocalBlindingTrustee"
    [Summary.field "id" (Quoted.quote trustee.id), Summary.field "mode" trustee.mode.text,
      Summary.field "retention_period" trustee.retention.text,
      Summary.field "max_retained_runs" (toString trustee.capacity), ".."]

/-- A board of guardians without their secrets. -/
def GuardianBoard.summary (board : GuardianBoard G) : String :=
  let indexes := board.guardians.map fun g => toString g.index.toNat
  Summary.braced "GuardianDecryptor" [Summary.field "guardians" (Summary.list indexes), ".."]

def Limits.summary (limits : Limits) : String :=
  Summary.braced "PepConfig"
    [Summary.field "trustee_timeout" limits.patience.text,
      Summary.field "max_concurrent_runs" (toString limits.concurrency.toNat)]

/-- A session with the trustees of a village, and the number of its next run. -/
def Session.summary (session : Session G) (village : Village G) : String :=
  let ids := village.actors.map fun actor => Quoted.quote actor.trustee.id
  Summary.braced "PepCoordinator"
    [Summary.field "trustees" (Summary.list ids), Summary.field "config" session.limits.summary,
      Summary.field "next_run" (toString village.nextRun.toNat), ".."]

end PlaintextEquivalence
