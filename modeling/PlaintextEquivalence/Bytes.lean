/-!
# Byte strings

Byte strings as lists, and the two ways a number is written in a fixed number of bytes.

Principal results:
* `length_ofNat` — `n` digits are written, whatever the number.
* `toNat_ofNat` — reading back what was written gives the number, if it fits.
* `ofNat_toNat` — writing back what was read gives the bytes.
-/

namespace PlaintextEquivalence

/-- A byte string. -/
abbrev Bytes := List UInt8

namespace Bytes

/-- The number whose base-256 digits, least first, are the bytes. -/
def toNat : Bytes → Nat
  | [] => 0
  | b :: bs => b.toNat + 256 * toNat bs

/-- The `n` lowest base-256 digits of a number, least first. -/
def ofNat : Nat → Nat → Bytes
  | 0, _ => []
  | n + 1, v => UInt8.ofNat (v % 256) :: ofNat n (v / 256)

/-- The `n` lowest base-256 digits of a number, greatest first. -/
def ofNatBE (n v : Nat) : Bytes := (ofNat n v).reverse

/-- The UTF-8 form of a text. -/
def ofText (text : String) : Bytes := text.toList.flatMap String.utf8EncodeChar

/-- The bytes as a fixed-size block, if there are exactly `n`. -/
def block? (n : Nat) (bytes : Bytes) : Option (Vector UInt8 n) :=
  if h : bytes.length = n then some ⟨bytes.toArray, by simpa using h⟩ else none

@[simp] theorem length_ofNat (n v : Nat) : (ofNat n v).length = n := by
  induction n generalizing v with
  | zero => rfl
  | succ n ih => simp [ofNat, ih]

theorem toNat_ofNat {n v : Nat} (h : v < Nat.pow 256 n) : toNat (ofNat n v) = v := by
  induction n generalizing v with
  | zero => simp at h; simp [ofNat, toNat, h]
  | succ n ih =>
    have hd : v / 256 < 256 ^ n := by
      rw [Nat.div_lt_iff_lt_mul (by decide)]; simpa [Nat.pow_succ] using h
    simp only [ofNat, toNat, ih hd, UInt8.toNat_ofNat']
    omega

theorem toNat_lt (bytes : Bytes) : toNat bytes < Nat.pow 256 bytes.length := by
  induction bytes with
  | nil => simp [toNat]
  | cons b bs ih =>
    have hb := b.toNat_lt
    simp only [toNat, List.length_cons, Nat.pow_eq, Nat.pow_succ] at ih ⊢
    omega

theorem ofNat_toNat (bytes : Bytes) : ofNat bytes.length (toNat bytes) = bytes := by
  induction bytes with
  | nil => rfl
  | cons b bs ih =>
    have hb : b.toNat < 256 := b.toNat_lt
    have h1 : (b.toNat + 256 * toNat bs) % 256 = b.toNat := by omega
    have h2 : (b.toNat + 256 * toNat bs) / 256 = toNat bs := by omega
    simp only [List.length_cons, toNat, ofNat, h1, h2, ih, UInt8.ofNat_toNat]

end Bytes

end PlaintextEquivalence
