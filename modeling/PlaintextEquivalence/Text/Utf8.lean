import PlaintextEquivalence.Bytes

/-!
# Text in bytes

Reading UTF-8, with an account of where and how a byte string fails to be a text.

Models how a text is deserialized from bytes.
-/

namespace PlaintextEquivalence

namespace Utf8

/-- Where a byte string is no text: the bytes before are one.  Either as many bytes as given begin
no character, or the byte string ends within a character. -/
structure Defect where
  start : Nat
  length? : Option Nat
  deriving DecidableEq, Repr

def Defect.message (d : Defect) : String :=
  match d.length? with
  | some n => "invalid utf-8 sequence of " ++ toString n ++ " bytes from index " ++ toString d.start
  | none => "incomplete utf-8 byte sequence from index " ++ toString d.start

/-- How a character begins: the number of bytes that follow its first byte, the bits that the first
byte gives, and the least and the greatest second byte. -/
structure Lead where
  following : Nat
  bits : Nat
  least : Nat
  greatest : Nat

/-- How a first byte begins a character, if it does. -/
def lead? (b : Nat) : Option Lead :=
  if b < 0x80 then some ⟨0, b, 0x80, 0xBF⟩
  else if b < 0xC2 then none
  else if b < 0xE0 then some ⟨1, b - 0xC0, 0x80, 0xBF⟩
  else if b = 0xE0 then some ⟨2, 0, 0xA0, 0xBF⟩
  else if b = 0xED then some ⟨2, 0xD, 0x80, 0x9F⟩
  else if b < 0xF0 then some ⟨2, b - 0xE0, 0x80, 0xBF⟩
  else if b = 0xF0 then some ⟨3, 0, 0x90, 0xBF⟩
  else if b < 0xF4 then some ⟨3, b - 0xF0, 0x80, 0xBF⟩
  else if b = 0xF4 then some ⟨3, 4, 0x80, 0x8F⟩
  else none

/-- The bytes that follow in a character: the bits gathered so far, and how many bytes were seen. -/
def follow : (count : Nat) → (least greatest bits seen : Nat) → Bytes →
    Except (Option Nat) (Nat × Bytes)
  | 0, _, _, bits, _, rest => .ok (bits, rest)
  | _ + 1, _, _, _, _, [] => .error none
  | n + 1, least, greatest, bits, seen, b :: rest =>
    if least ≤ b.toNat ∧ b.toNat ≤ greatest then
      follow n 0x80 0xBF (64 * bits + b.toNat % 64) (seen + 1) rest
    else .error (some seen)

/-- The characters of a byte string, at most as many as given, from an index on. -/
def scan : Nat → Nat → Bytes → Except Defect (List Char)
  | 0, _, _ => .ok []
  | _ + 1, _, [] => .ok []
  | n + 1, index, b :: rest =>
    match lead? b.toNat with
    | none => .error ⟨index, some 1⟩
    | some l =>
      match follow l.following l.least l.greatest l.bits 1 rest with
      | .error length? => .error ⟨index, length?⟩
      | .ok (code, rest) => do
        let chars ← scan n (index + 1 + l.following) rest
        pure (Char.ofNat code :: chars)

/-- The text of a byte string. -/
def toText (bytes : Bytes) : Except Defect String :=
  (scan bytes.length 0 bytes).map String.ofList

end Utf8

end PlaintextEquivalence
