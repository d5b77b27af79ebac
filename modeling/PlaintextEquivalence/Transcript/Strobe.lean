import PlaintextEquivalence.Bytes
import PlaintextEquivalence.Transcript.Keccak

/-!
# The sponge of transcripts

A duplex sponge of rate 166 over the Keccak permutation, framed in operations: an operation
absorbs where the last one began and its own flags, then its data.

Models the STROBE operations under `Transcript`.
-/

namespace PlaintextEquivalence

/-- The permutation's state, the next position in the rate, and where the operation under way
began. -/
structure Strobe where
  state : Keccak.State
  position : Nat
  began : UInt8

namespace Strobe

/-- The number of bytes absorbed or squeezed between two permutations. -/
def rate : Nat := 166

/-- Exclusive-ors a byte into the state; a position beyond it has no effect. -/
def mix (state : Keccak.State) (position : Nat) (byte : UInt8) : Keccak.State :=
  if h : position / 8 < 25 then
    state.set (position / 8)
      (state[position / 8] ^^^ (byte.toUInt64 <<< UInt64.ofNat (8 * (position % 8))))
  else state

/-- The byte of the state at a position. -/
def byteAt (state : Keccak.State) (position : Nat) : UInt8 :=
  (state.getD (position / 8) 0 >>> UInt64.ofNat (8 * (position % 8))).toUInt8

/-- Closes the block and permutes. -/
def turn (s : Strobe) : Strobe :=
  let state := mix s.state s.position s.began
  let state := mix state (s.position + 1) 0x04
  let state := mix state (rate + 1) 0x80
  ⟨Keccak.permute state, 0, 0⟩

def absorbByte (s : Strobe) (byte : UInt8) : Strobe :=
  let s := { s with state := mix s.state s.position byte, position := s.position + 1 }
  if s.position = rate then s.turn else s

def absorb (s : Strobe) (data : Bytes) : Strobe := data.foldl absorbByte s

/-- Takes bytes out of the state, leaving zeros. -/
def squeeze : Nat → Strobe → Bytes × Strobe
  | 0, s => ([], s)
  | n + 1, s =>
    let byte := byteAt s.state s.position
    let (bytes, s) := squeeze n (s.absorbByte byte)
    (byte :: bytes, s)

/-- Begins an operation; one whose data goes out starts a new block. -/
def start (s : Strobe) (flags : UInt8) : Strobe :=
  let began := UInt8.ofNat (s.position + 1)
  let s := { s with began := began }.absorb [s.began, flags]
  if flags &&& 0x04 ≠ 0 ∧ s.position ≠ 0 then s.turn else s

/-- Absorbs framing data. -/
def frame (s : Strobe) (data : Bytes) : Strobe := (s.start 0x12).absorb data

/-- Absorbs associated data. -/
def associate (s : Strobe) (data : Bytes) : Strobe := (s.start 0x02).absorb data

/-- Squeezes pseudorandom data. -/
def random (s : Strobe) (n : Nat) : Bytes × Strobe := squeeze n (s.start 0x07)

/-- The sponge for a protocol. -/
def ofProtocol (protocol : String) : Strobe :=
  let head : Bytes := [1, 168, 1, 0, 1, 96] ++ Bytes.ofText "STROBEv1.0.2"
  let state := head.zipIdx.foldl (fun st b => mix st b.2 b.1) Keccak.State.zero
  (⟨Keccak.permute state, 0, 0⟩ : Strobe).frame (Bytes.ofText protocol)

end Strobe

end PlaintextEquivalence
