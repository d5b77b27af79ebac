import PlaintextEquivalence.Bytes

/-!
# Random tapes

A source of random bytes: an endless tape of 64-byte blocks and the number of bytes already used.
Drawing is a function of the tape, so that everything that uses randomness is one too.

Models the random bytes that the program takes from a generator.
-/

namespace PlaintextEquivalence

/-- An endless tape of random bytes in blocks of 64, of which the first `used` are gone. -/
structure Tape where
  block : Nat → Bytes
  used : Nat

namespace Tape

/-- The next `n` bytes, and what remains. -/
def take (n : Nat) (tape : Tape) : Bytes × Tape :=
  let first := tape.used / 64
  let skipped := tape.used % 64
  let blocks := (skipped + n + 63) / 64
  (((List.range' first blocks).flatMap tape.block).drop skipped |>.take n,
    { tape with used := tape.used + n })

end Tape

end PlaintextEquivalence
