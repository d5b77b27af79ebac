import PlaintextEquivalence.Random.Tape

/-!
# The ChaCha20 tape

The key stream of ChaCha20 under a 32-byte seed, with a 64-bit block counter from zero and a zero
stream number.

Models `ChaChaRng`; `split` is a new generator that is seeded from another.
-/

namespace PlaintextEquivalence.ChaCha

/-- The sixteen words of the cipher's state. -/
abbrev State := Vector UInt32 16

def rotateLeft (w n : UInt32) : UInt32 := (w <<< n) ||| (w >>> (32 - n))

/-- Adds, exclusive-ors and rotates four words of the state. -/
def quarterRound (s : State) (a b c d : Fin 16) : State :=
  let wa := s[a] + s[b]
  let wd := rotateLeft (s[d] ^^^ wa) 16
  let wc := s[c] + wd
  let wb := rotateLeft (s[b] ^^^ wc) 12
  let wa := wa + wb
  let wd := rotateLeft (wd ^^^ wa) 8
  let wc := wc + wd
  let wb := rotateLeft (wb ^^^ wc) 7
  (((s.set a wa).set b wb).set c wc).set d wd

/-- Four column rounds, then four diagonal rounds. -/
def doubleRound (s : State) : State :=
  let s := quarterRound s 0 4 8 12
  let s := quarterRound s 1 5 9 13
  let s := quarterRound s 2 6 10 14
  let s := quarterRound s 3 7 11 15
  let s := quarterRound s 0 5 10 15
  let s := quarterRound s 1 6 11 12
  let s := quarterRound s 2 7 8 13
  quarterRound s 3 4 9 14

/-- The state applied `n` times. -/
def doubleRounds : Nat → State → State
  | 0, s => s
  | n + 1, s => doubleRounds n (doubleRound s)

/-- The word at position `i` of a byte string, least byte first. -/
def wordAt (bytes : Bytes) (i : Nat) : UInt32 :=
  UInt32.ofNat (Bytes.toNat ((bytes.drop (4 * i)).take 4))

/-- The four constant words, the key, the counter and the stream number. -/
def start (seed : Bytes) (counter : Nat) : State :=
  #v[0x61707865, 0x3320646e, 0x79622d32, 0x6b206574,
    wordAt seed 0, wordAt seed 1, wordAt seed 2, wordAt seed 3,
    wordAt seed 4, wordAt seed 5, wordAt seed 6, wordAt seed 7,
    UInt32.ofNat counter, UInt32.ofNat (counter >>> 32), 0, 0]

/-- A block of the key stream. -/
def block (seed : Bytes) (counter : Nat) : Bytes :=
  let s := start seed counter
  let words := Vector.zipWith (· + ·) s (doubleRounds 10 s)
  words.toList.flatMap fun w => Bytes.ofNat 4 w.toNat

/-- The key stream of a seed. -/
def tape (seed : Bytes) : Tape := ⟨block seed, 0⟩

/-- A key stream whose seed is drawn from a tape, and what remains of the tape. -/
def split (tape : Tape) : Tape × Tape :=
  let (seed, rest) := tape.take 32
  (ChaCha.tape seed, rest)

end PlaintextEquivalence.ChaCha
