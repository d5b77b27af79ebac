import PlaintextEquivalence.Group.Basic
import PlaintextEquivalence.Random.ChaCha

/-!
# Places on a tape

What is drawn from a tape depends on the place where the tape stands.  A number is read off the 64 bytes
from there on, and the tape then stands behind them, so that numbers drawn one after the other are read
off different bytes.  A number that may not be zero is the first one that is not, counted from there.

Principal results:
* `take_movedTo` — which bytes are taken from a tape of full blocks.
* `ChaCha.isFull_tape` — the key streams are such tapes.
* `drawNonzero_movedTo` — from which place a number other than zero is read.
* `numberAt_firstNonzero_ne_zero_iff` — when it is not zero indeed.
-/

set_option autoImplicit false

namespace PlaintextEquivalence

namespace Tape

/-- The same tape, used up to a place. -/
def movedTo (tape : Tape) (place : Nat) : Tape := { tape with used := place }

/-- The byte at a place of a tape. -/
def byteAt (tape : Tape) (place : Nat) : UInt8 := (tape.block (place / 64)).getD (place % 64) 0

/-- Whether all blocks of a tape have 64 bytes. -/
def IsFull (tape : Tape) : Prop := ∀ n, (tape.block n).length = 64

variable {tape : Tape}

@[simp] theorem movedTo_used : tape.movedTo tape.used = tape := rfl

@[simp] theorem used_movedTo (place : Nat) : (tape.movedTo place).used = place := rfl

theorem block_eq_map_byteAt (h : tape.IsFull) (n : Nat) :
    tape.block n = (List.range' (64 * n) 64).map tape.byteAt := by
  refine List.ext_getElem (by simp [h n]) fun i hi _ => ?_
  have hi' : i < 64 := h n ▸ hi
  have hblock : (64 * n + i) / 64 = n := by omega
  have hplace : (64 * n + i) % 64 = i := by omega
  simp [byteAt, hblock, hplace, hi]

/-- Blocks one after the other hold the bytes one after the other. -/
theorem flatMap_block (h : tape.IsFull) (first count : Nat) :
    (List.range' first count).flatMap tape.block =
      (List.range' (64 * first) (64 * count)).map tape.byteAt := by
  induction count generalizing first with
  | zero => rfl
  | succ count ih =>
    have hsize : 64 * (count + 1) = 64 + 64 * count := by omega
    rw [List.range'_succ, List.flatMap_cons, ih, block_eq_map_byteAt h, ← List.map_append, hsize,
      ← List.range'_append_1, Nat.mul_succ]

/-- **Which bytes are taken**: the next ones from the place where the tape stands. -/
theorem take_movedTo (h : tape.IsFull) (n place : Nat) :
    (tape.movedTo place).take n =
      ((List.range' place n).map tape.byteAt, tape.movedTo (place + n)) := by
  refine Prod.ext ?_ rfl
  have hstart : 64 * (place / 64) + place % 64 = place := by omega
  have hroom : n ≤ 64 * ((place % 64 + n + 63) / 64) - place % 64 := by omega
  have hblocks : (tape.movedTo place).block = tape.block := rfl
  simp only [take, used_movedTo, hblocks, flatMap_block h]
  rw [← List.map_drop, ← List.map_take, List.drop_range', Nat.mul_one, hstart,
    List.take_range'_of_length_ge hroom]

end Tape

/-- The key streams have full blocks. -/
theorem ChaCha.isFull_tape (seed : Bytes) : (ChaCha.tape seed).IsFull := by
  have hwords (words : Vector UInt32 16) :
      (words.toList.flatMap fun w => Bytes.ofNat 4 w.toNat).length = 64 := by
    simp [List.length_flatMap, List.map_const']
  exact fun n => hwords _

namespace PrimeGroup

variable (G : PrimeGroup) (tape : Tape)

/-- The number that 64 bytes from a place on stand for. -/
def numberAt (place : Nat) : G.Scalar := G.ofWide ((tape.movedTo place).take 64).1

/-- The place of the first number other than zero, from a place on, or of the last one that is looked at,
if as many as given may be passed over. -/
def firstNonzero : Nat → Nat → Nat
  | 0, place => place
  | n + 1, place => if G.numberAt tape place = 0 then firstNonzero n (place + 64) else place

variable {tape}

/-- A number of a tape of full blocks is that of 64 bytes of its own. -/
theorem numberAt_eq (h : tape.IsFull) (place : Nat) :
    G.numberAt tape place = G.ofWide ((List.range' place 64).map tape.byteAt) := by
  rw [numberAt, Tape.take_movedTo h]

theorem draw_movedTo (place : Nat) :
    G.draw (tape.movedTo place) = (G.numberAt tape place, tape.movedTo (place + 64)) :=
  rfl

/-- **Zeros are passed over**: the number is the first one that is not zero, and the tape stands behind
it. -/
theorem drawNonzero_movedTo (n place : Nat) :
    G.drawNonzero n (tape.movedTo place) =
      (G.numberAt tape (G.firstNonzero tape n place),
        tape.movedTo (G.firstNonzero tape n place + 64)) := by
  induction n generalizing place with
  | zero => exact G.draw_movedTo place
  | succ n ih =>
    rw [drawNonzero, draw_movedTo]
    simp only [firstNonzero]
    split
    · exact ih (place + 64)
    · rfl

theorem le_firstNonzero (n place : Nat) : place ≤ G.firstNonzero tape n place := by
  induction n generalizing place with
  | zero => exact Nat.le_refl place
  | succ n ih =>
    rw [firstNonzero]
    split
    · exact Nat.le_trans (Nat.le_add_right place 64) (ih (place + 64))
    · exact Nat.le_refl place

/-- **The number is not zero** just if one of those looked at is not. -/
theorem numberAt_firstNonzero_ne_zero_iff (n place : Nat) :
    G.numberAt tape (G.firstNonzero tape n place) ≠ 0 ↔
      ∃ i ≤ n, G.numberAt tape (place + 64 * i) ≠ 0 := by
  induction n generalizing place with
  | zero => simp [firstNonzero]
  | succ n ih =>
    rw [firstNonzero]
    split
    · rename_i hzero
      rw [ih]
      constructor
      · rintro ⟨i, hi, hne⟩
        refine ⟨i + 1, Nat.succ_le_succ hi, ?_⟩
        rwa [Nat.mul_succ, Nat.add_comm _ 64, ← Nat.add_assoc]
      · rintro ⟨i, hi, hne⟩
        cases i with
        | zero => exact absurd hzero hne
        | succ i =>
          refine ⟨i, Nat.le_of_succ_le_succ hi, ?_⟩
          rwa [Nat.mul_succ, Nat.add_comm _ 64, ← Nat.add_assoc] at hne
    · rename_i hne
      exact iff_of_true hne ⟨0, Nat.zero_le _, hne⟩

end PrimeGroup

end PlaintextEquivalence
