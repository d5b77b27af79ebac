/-!
# Durations

A length of time in whole nanoseconds, and its text in the largest unit that is not larger than it,
with a decimal fraction without trailing zeros.

Models the durations in `PepConfig` and in the errors of `TransportError`.
-/

namespace PlaintextEquivalence

/-- A length of time. -/
structure Duration where
  nanos : Nat
  deriving DecidableEq, Repr

namespace Duration

def ofSeconds (n : Nat) : Duration := ⟨n * 1000000000⟩

def ofMillis (n : Nat) : Duration := ⟨n * 1000000⟩

/-- The whole seconds. -/
def seconds (d : Duration) : Nat := d.nanos / 1000000000

/-- The nanoseconds beyond the whole seconds. -/
def subsecondNanos (d : Duration) : Nat := d.nanos % 1000000000

/-- The digits of a fraction `n / 10 ^ places`, without trailing zeros. -/
def fractionDigits : Nat → Nat → List Char
  | 0, _ => []
  | places + 1, n =>
    if n = 0 then []
    else Nat.digitChar (n / Nat.pow 10 places) :: fractionDigits places (n % Nat.pow 10 places)

/-- A number of nanoseconds in a unit of `10 ^ places` of them. -/
def textIn (nanos places : Nat) (unit : String) : String :=
  let fraction := fractionDigits places (nanos % Nat.pow 10 places)
  let point := if fraction.isEmpty then "" else "."
  toString (nanos / Nat.pow 10 places) ++ point ++ String.ofList fraction ++ unit

/-- The text of a duration, such as `1.5s`, `250ms`, `1µs` or `0ns`. -/
def text (d : Duration) : String :=
  if 1000000000 ≤ d.nanos then textIn d.nanos 9 "s"
  else if 1000000 ≤ d.nanos then textIn d.nanos 6 "ms"
  else if 1000 ≤ d.nanos then textIn d.nanos 3 "µs"
  else textIn d.nanos 0 "ns"

end Duration

end PlaintextEquivalence
