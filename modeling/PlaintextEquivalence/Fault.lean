/-!
# Faults

A fault is a broken precondition: an arithmetic overflow, lists that should be of equal length, the
inverse of zero, a position out of range.  It is kept apart from the errors that a computation
reports, and ends the computation without an answer.

A fault stands where the program modelled would panic: its callers see to it that none does.
-/

namespace PlaintextEquivalence

/-- A broken precondition. -/
inductive Fault where
  | overflow
  | unequalLengths
  | zeroInverse
  | outOfRange
  | badParameters
  | unfinished
  deriving DecidableEq, Repr

/-- Why a computation ended without an answer: a fault, or an error that it reports. -/
inductive Stop (ε : Type) where
  | fault (fault : Fault)
  | error (error : ε)
  deriving DecidableEq, Repr

/-- A computation that answers, reports an error or meets a fault. -/
abbrev Checked (ε α : Type) := Except (Stop ε) α

namespace Checked

/-- Reports an error. -/
def refuse {ε α : Type} (error : ε) : Checked ε α := .error (.error error)

/-- A computation that can only meet a fault. -/
def ofFault {ε α : Type} : Except Fault α → Checked ε α
  | .ok a => .ok a
  | .error f => .error (.fault f)

/-- A computation that can only report an error. -/
def ofExcept {ε α : Type} : Except ε α → Checked ε α
  | .ok a => .ok a
  | .error e => .error (.error e)

/-- Renames the errors. -/
def mapError {ε δ α : Type} (f : ε → δ) : Checked ε α → Checked δ α
  | .ok a => .ok a
  | .error (.fault x) => .error (.fault x)
  | .error (.error e) => .error (.error (f e))

end Checked

namespace Word

/-- The next 64-bit number. -/
def next (w : UInt64) : Except Fault UInt64 :=
  if w.toNat + 1 < UInt64.size then .ok (w + 1) else .error .overflow

/-- The difference of two 64-bit numbers. -/
def minus (a b : UInt64) : Except Fault UInt64 :=
  if b ≤ a then .ok (a - b) else .error .overflow

end Word

/-- The first items of a list, which has to have as many. -/
def firstItems {α : Type} (n : Nat) (items : List α) : Except Fault (List α) :=
  if n ≤ items.length then .ok (items.take n) else .error .outOfRange

end PlaintextEquivalence
