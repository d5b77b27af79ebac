import PlaintextEquivalence.Codec.Error

/-!
# Reading bytes

The binary layout writes numbers least byte first in a fixed number of bytes, and byte strings and
lists after their length in eight bytes.  A decoder takes what it needs from the front; bytes that
are missing make the whole malformed.

Models serialization to bytes and deserialization of them.
-/

namespace PlaintextEquivalence

/-- A decoder takes a value from the front of a byte string. -/
abbrev Decoder (α : Type) := StateT Bytes (Except ReadError) α

namespace Decoder

variable {α : Type}

/-- The bytes are read but refused. -/
def refuse (e : DataError) : Decoder α := fun _ => .error (.refused e)

/-- A value, or an error about what was read. -/
def check (result : Except DataError α) : Decoder α :=
  match result with
  | .ok a => pure a
  | .error e => refuse e

/-- The next `n` bytes. -/
def take (n : Nat) : Decoder Bytes := fun bytes =>
  if n ≤ bytes.length then .ok (bytes.take n, bytes.drop n) else .error .malformed

/-- A number in `n` bytes. -/
def number (n : Nat) : Decoder Nat := do
  pure (← take n).toNat

/-- The length of a byte string or of a list. -/
def length : Decoder Nat := number 8

/-- A byte string. -/
def byteString : Decoder Bytes := do take (← length)

/-- As many items as given. -/
def items (item : Decoder α) : Nat → Decoder (List α)
  | 0 => pure []
  | n + 1 => do
    let a ← item
    pure (a :: (← items item n))

/-- What a decoder gives for a byte string; what is left of it is ignored. -/
def decodeFront (decoder : Decoder α) (bytes : Bytes) : Except ReadError α :=
  (decoder bytes).map (·.1)

end Decoder

namespace Layout

/-- A length in eight bytes. -/
def length (n : Nat) : Bytes := Bytes.ofNat 8 n

/-- A byte string after its length. -/
def byteString (bytes : Bytes) : Bytes := length bytes.length ++ bytes

end Layout

end PlaintextEquivalence
