import PlaintextEquivalence.Blinding.Message

/-!
# Rounds

A round asks all trustees at once and waits for their replies, each for at most the same time.  The
first failure ends the round; among failures at the same time it is that of the trustee with the
lowest index.

What is modelled:
* `settleOne` — `PepCoordinator.call_trustee`, with the timeout of a call.
* `settle` — how `blind` and `respond` of `PepCoordinator` join the calls.
* `longest` — how long `PepCoordinator.release` waits.
-/

namespace PlaintextEquivalence

/-- A reply to a call, and how long it takes in nanoseconds. -/
structure Reply (α : Type) where
  delay : Nat
  result : Except CallError (List α)

namespace Round

variable {α : Type}

/-- When a call ends and how: a reply that takes too long is not waited for, and one of another
length than expected is a failure. -/
def settleOne (limit : Duration) (expected : Nat) (reply : Reply α) :
    Nat × Except CallError (List α) :=
  if limit.nanos < reply.delay then (limit.nanos, .error (.timeout limit))
  else (reply.delay,
    match reply.result with
    | .error e => .error e
    | .ok items =>
      if items.length = expected then .ok items
      else .error (.responseLength expected items.length))

/-- The earliest failure, with its time and the index of the call counted from the given one. -/
def firstFailure? : Nat → List (Nat × Except CallError (List α)) → Option (Nat × Nat × CallError)
  | _, [] => none
  | index, (_, .ok _) :: rest => firstFailure? (index + 1) rest
  | index, (time, .error e) :: rest =>
    match firstFailure? (index + 1) rest with
    | none => some (time, index, e)
    | some (later, i, e') => if later < time then some (later, i, e') else some (time, index, e)

/-- The items of the calls that succeeded. -/
def items : List (Nat × Except CallError (List α)) → List (List α)
  | [] => []
  | (_, .ok items) :: rest => items :: Round.items rest
  | (_, .error _) :: rest => Round.items rest

/-- How long a round takes, and the items of all trustees or the first failure. -/
def settle (limit : Duration) (expected : Nat) (replies : List (Reply α)) :
    Nat × Except (Nat × CallError) (List (List α)) :=
  let ends := replies.map (settleOne limit expected)
  match firstFailure? 0 ends with
  | some (time, index, e) => (time, .error (index, e))
  | none => ((ends.map (·.1)).foldl max 0, .ok (items ends))

/-- How long it takes until all have answered or are given up. -/
def longest (limit : Duration) (delays : List Nat) : Nat :=
  (delays.map (min limit.nanos)).foldl max 0

end Round

end PlaintextEquivalence
