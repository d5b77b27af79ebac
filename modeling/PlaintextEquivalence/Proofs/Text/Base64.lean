import Mathlib.Algebra.Order.Ring.Nat
import PlaintextEquivalence.Text.Base64

/-!
# Base 64 is read back

The characters of a byte string are digits, and they are read as the number that they write; a group of
three bytes is one such number, and the one or two bytes of a last group stand above bits that are zero.

Principal results:
* `number?_digits` — the digits of a number write it.
* `decode?_encode` — a byte string is read from its characters.
-/

set_option autoImplicit false

namespace PlaintextEquivalence

/-- Bytes are the base-256 digits of the number they write, greatest first. -/
theorem Bytes.ofNatBE_toNat (bytes : Bytes) : ofNatBE bytes.length (toNat bytes.reverse) = bytes := by
  rw [ofNatBE, ← List.length_reverse, ofNat_toNat, List.reverse_reverse]

namespace Base64

theorem value?_digit : ∀ n < 64, value? (digit n) = some n := by decide +kernel

theorem number?_append_singleton (chars : List Char) (c : Char) :
    number? (chars ++ [c]) = (number? chars).bind fun v => (value? c).map (64 * v + ·) := by
  unfold number?
  rw [List.foldlM_append]
  refine congrArg _ (funext fun v => ?_)
  rw [List.foldlM_cons]
  exact bind_pure _

/-- **The digits of a number** write it, as far as they go. -/
theorem number?_digits_mod (n v : Nat) : number? (digits n v) = some (v % 64 ^ n) := by
  induction n generalizing v with
  | zero => rw [pow_zero, Nat.mod_one]; rfl
  | succ n ih =>
    rw [digits, number?_append_singleton, ih, value?_digit _ (Nat.mod_lt v (by decide)), pow_succ',
      Nat.mod_mul, Nat.add_comm]
    rfl

theorem number?_digits {n v : Nat} (h : v < Nat.pow 64 n) : number? (digits n v) = some v := by
  rw [number?_digits_mod, ← Nat.pow_eq, Nat.mod_eq_of_lt h]

/-- Bytes are read from the digits of the number that they write above bits that are zero. -/
theorem bytes?_digits (n spare : Nat) (bytes : Bytes)
    (h : Nat.pow 64 n = Nat.pow 256 bytes.length * 2 ^ spare) :
    (number? (digits n (Bytes.toNat bytes.reverse * 2 ^ spare))).bind (bytes? bytes.length spare) =
      some bytes := by
  have hbytes : Bytes.toNat bytes.reverse < Nat.pow 256 bytes.length := by
    rw [← List.length_reverse]
    exact Bytes.toNat_lt bytes.reverse
  have hspare := Nat.two_pow_pos spare
  rw [number?_digits (h ▸ Nat.mul_lt_mul_of_pos_right hbytes hspare), Option.bind_some]
  unfold bytes?
  rw [Nat.pow_eq, if_pos (Nat.mul_mod_left _ _), Nat.mul_div_cancel _ hspare, Bytes.ofNatBE_toNat]

@[simp] theorem length_digits (n v : Nat) : (digits n v).length = n := by
  induction n generalizing v with
  | zero => rfl
  | succ n ih => rw [digits, List.length_append, ih, List.length_singleton]

/-- Four characters are read before all others. -/
theorem decode?_append : ∀ {chars : List Char}, chars.length = 4 → ∀ rest,
    decode? (chars ++ rest) =
      ((number? chars).bind (bytes? 3 0)).bind fun first => (decode? rest).map (first ++ ·)
  | [c, d, e, f], _, rest => by
    simp only [List.cons_append, List.nil_append, decode?]
    cases number? [c, d, e, f] with
    | none => rfl
    | some v => cases decode? rest <;> rfl

/-- **A byte string is read** from the characters that write it. -/
theorem decode?_encode : ∀ bytes, decode? (encode bytes) = some bytes
  | [] => rfl
  | [a] => bytes?_digits 2 4 [a] (by simp)
  | [a, b] => by
    have hvalue : (a.toNat * 256 + b.toNat) * 4 = Bytes.toNat [a, b].reverse * 2 ^ 2 := by
      simp only [List.reverse_cons, List.reverse_nil, List.nil_append, List.cons_append, Bytes.toNat]
      omega
    rw [encode, hvalue]
    exact bytes?_digits 3 2 [a, b] (by simp)
  | a :: b :: c :: rest => by
    have hvalue : (a.toNat * 256 + b.toNat) * 256 + c.toNat = Bytes.toNat [a, b, c].reverse * 2 ^ 0 := by
      simp only [List.reverse_cons, List.reverse_nil, List.nil_append, List.cons_append, Bytes.toNat]
      omega
    have hgroup : (number? (digits 4 (Bytes.toNat [a, b, c].reverse * 2 ^ 0))).bind (bytes? 3 0) =
        some [a, b, c] := bytes?_digits 4 0 [a, b, c] (by simp)
    rw [encode, hvalue]
    rw [decode?_append (length_digits 4 _), hgroup, decode?_encode rest]
    rfl

end Base64

end PlaintextEquivalence
