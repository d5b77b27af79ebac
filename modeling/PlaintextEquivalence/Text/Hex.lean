import PlaintextEquivalence.Bytes

/-!
# Hexadecimal text

Two lower-case digits a byte, the high digit first.

Models the digits with which a `RunId` is shown.
-/

namespace PlaintextEquivalence

namespace Bytes

/-- One hexadecimal digit. -/
def hexDigit (n : Nat) : Char :=
  if n < 10 then Char.ofNat (48 + n) else Char.ofNat (87 + n)

/-- Two lower-case digits a byte. -/
def toHex (bytes : Bytes) : String :=
  String.ofList (bytes.flatMap fun b => [hexDigit (b.toNat / 16), hexDigit (b.toNat % 16)])

/-- The value of a hexadecimal digit of either case. -/
def hexValue? (c : Char) : Option Nat :=
  if '0' ≤ c ∧ c ≤ '9' then some (c.toNat - 48)
  else if 'a' ≤ c ∧ c ≤ 'f' then some (c.toNat - 87)
  else if 'A' ≤ c ∧ c ≤ 'F' then some (c.toNat - 55)
  else none

/-- The bytes that a list of digits writes; an odd digit or a foreign character is refused. -/
def ofHexDigits? : List Char → Option Bytes
  | [] => some []
  | [_] => none
  | high :: low :: rest => do
    let h ← hexValue? high
    let l ← hexValue? low
    let bytes ← ofHexDigits? rest
    pure (UInt8.ofNat (16 * h + l) :: bytes)

/-- The bytes that a hexadecimal text writes. -/
def ofHex? (text : String) : Option Bytes := ofHexDigits? text.toList

end Bytes

end PlaintextEquivalence
