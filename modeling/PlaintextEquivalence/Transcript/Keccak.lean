/-!
# The Keccak permutation

The permutation of 1600 bits in 24 rounds, on 25 words; the word of column `x` and row `y` is at
position `x + 5 y`.

Models the permutation under `Transcript`.
-/

namespace PlaintextEquivalence.Keccak

/-- The 25 words of the state. -/
abbrev State := Vector UInt64 25

/-- The state of zeros. -/
def State.zero : State := Vector.replicate 25 0

/-- The words that the last step of each round is exclusive-ored with. -/
def roundConstants : List UInt64 := [
  0x0000000000000001, 0x0000000000008082, 0x800000000000808a, 0x8000000080008000,
  0x000000000000808b, 0x0000000080000001, 0x8000000080008081, 0x8000000000008009,
  0x000000000000008a, 0x0000000000000088, 0x0000000080008009, 0x000000008000000a,
  0x000000008000808b, 0x800000000000008b, 0x8000000000008089, 0x8000000000008003,
  0x8000000000008002, 0x8000000000000080, 0x000000000000800a, 0x800000008000000a,
  0x8000000080008081, 0x8000000000008080, 0x0000000080000001, 0x8000000080008008]

/-- The rotation of each word. -/
def offsets : Vector UInt64 25 := #v[
  0, 1, 62, 28, 27,
  36, 44, 6, 55, 20,
  3, 10, 43, 25, 39,
  41, 45, 15, 21, 8,
  18, 2, 61, 56, 14]

def rotateLeft (w n : UInt64) : UInt64 := (w <<< n) ||| (w >>> ((64 - n) % 64))

/-- The word of column `x` and row `y`, both taken modulo five. -/
def State.word (s : State) (x y : Nat) : UInt64 := s.get ⟨x % 5 + 5 * (y % 5), by omega⟩

/-- Adds to each word the parities of two neighbouring columns. -/
def theta (s : State) : State :=
  let parity : Vector UInt64 5 := Vector.ofFn fun x : Fin 5 =>
    s.word x.val 0 ^^^ s.word x.val 1 ^^^ s.word x.val 2 ^^^ s.word x.val 3 ^^^ s.word x.val 4
  let change : Vector UInt64 5 := Vector.ofFn fun x : Fin 5 =>
    parity.get ⟨(x.val + 4) % 5, by omega⟩ ^^^
      rotateLeft (parity.get ⟨(x.val + 1) % 5, by omega⟩) 1
  Vector.ofFn fun i : Fin 25 => s[i] ^^^ change.get ⟨i.val % 5, by omega⟩

/-- Rotates each word and moves it to its new place. -/
def rhoPi (s : State) : State :=
  Vector.ofFn fun i : Fin 25 =>
    let x := (i.val % 5 + 3 * (i.val / 5)) % 5
    let source : Fin 25 := ⟨x + 5 * (i.val % 5), by omega⟩
    rotateLeft (s.get source) (offsets.get source)

/-- Combines each word with the next two of its row. -/
def chi (s : State) : State :=
  Vector.ofFn fun i : Fin 25 =>
    let x := i.val % 5
    let y := i.val / 5
    s[i] ^^^ ((~~~ s.word (x + 1) y) &&& s.word (x + 2) y)

/-- One round. -/
def round (s : State) (constant : UInt64) : State :=
  let t := chi (rhoPi (theta s))
  t.set 0 (t[0] ^^^ constant)

/-- The permutation. -/
def permute (s : State) : State := roundConstants.foldl round s

end PlaintextEquivalence.Keccak
