import PlaintextEquivalence.Bytes

/-!
# Base 64

Three bytes are written as four characters of an alphabet that is safe in file names, with one or two
bytes at the end as two or three characters and no padding.  The bits that are left over at the end
are zero, so that a byte string is written in one way only.

Models how `serialize_bytes` writes a byte string in a text, and how `deserialize_bytes` reads it.
-/

namespace PlaintextEquivalence

namespace Base64

/-- The digit of a value below 64. -/
def digit (n : Nat) : Char :=
  if n < 26 then Char.ofNat (65 + n)
  else if n < 52 then Char.ofNat (71 + n)
  else if n < 62 then Char.ofNat (n - 4)
  else if n = 62 then '-'
  else '_'

/-- The value of a digit. -/
def value? (c : Char) : Option Nat :=
  if 'A' ≤ c ∧ c ≤ 'Z' then some (c.toNat - 65)
  else if 'a' ≤ c ∧ c ≤ 'z' then some (c.toNat - 71)
  else if '0' ≤ c ∧ c ≤ '9' then some (c.toNat + 4)
  else if c = '-' then some 62
  else if c = '_' then some 63
  else none

/-- The `n` digits of a number, greatest first. -/
def digits : Nat → Nat → List Char
  | 0, _ => []
  | n + 1, v => digits n (v / 64) ++ [digit (v % 64)]

/-- The number that digits write, greatest first. -/
def number? (chars : List Char) : Option Nat :=
  chars.foldlM (fun v c => (value? c).map (64 * v + ·)) 0

/-- The characters for a byte string. -/
def encode : Bytes → List Char
  | [] => []
  | [a] => digits 2 (a.toNat * 16)
  | [a, b] => digits 3 ((a.toNat * 256 + b.toNat) * 4)
  | a :: b :: c :: rest => digits 4 ((a.toNat * 256 + b.toNat) * 256 + c.toNat) ++ encode rest

/-- The bytes of a number and bits that have to be zero after them. -/
def bytes? (n spare v : Nat) : Option Bytes :=
  if v % Nat.pow 2 spare = 0 then some (Bytes.ofNatBE n (v / Nat.pow 2 spare)) else none

/-- The byte string that characters write. -/
def decode? : List Char → Option Bytes
  | [] => some []
  | [_] => none
  | [c, d] => do bytes? 1 4 (← number? [c, d])
  | [c, d, e] => do bytes? 2 2 (← number? [c, d, e])
  | c :: d :: e :: f :: rest => do
    let first ← bytes? 3 0 (← number? [c, d, e, f])
    let others ← decode? rest
    pure (first ++ others)

end Base64

end PlaintextEquivalence
