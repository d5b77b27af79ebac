import PlaintextEquivalence.Codec.Reader
import PlaintextEquivalence.Text.Hex

/-!
# Quotations

Strings in JSON text.  Quotation marks, backslashes and control characters are escaped; other
characters may be, by the numbers of their one or two UTF-16 units.

Models how strings are serialized and deserialized in JSON text.
-/

namespace PlaintextEquivalence

namespace Quotation

/-- Two hexadecimal digits. -/
def hexPair (n : Nat) : List Char := [Bytes.hexDigit (n / 16), Bytes.hexDigit (n % 16)]

/-- One character of a string. -/
def escape (c : Char) : List Char :=
  if c = '"' then ['\\', '"']
  else if c = '\\' then ['\\', '\\']
  else if c = '\x08' then ['\\', 'b']
  else if c = '\x0c' then ['\\', 'f']
  else if c = '\n' then ['\\', 'n']
  else if c = '\r' then ['\\', 'r']
  else if c = '\t' then ['\\', 't']
  else if c.toNat < 0x20 then ['\\', 'u', '0', '0'] ++ hexPair c.toNat
  else [c]

/-- A string between quotation marks. -/
def write (text : String) : List Char := '"' :: text.toList.flatMap escape ++ ['"']

/-- The number of a UTF-16 unit in four hexadecimal digits. -/
def unit : Reader Nat := fun text =>
  match text with
  | a :: b :: c :: d :: rest =>
    match Bytes.hexValue? a, Bytes.hexValue? b, Bytes.hexValue? c, Bytes.hexValue? d with
    | some a, some b, some c, some d => .ok (((a * 16 + b) * 16 + c) * 16 + d, rest)
    | _, _, _, _ => .error .malformed
  | _ => .error .malformed

/-- The character of one UTF-16 unit, or of two of which the second is still to be read. -/
def character : Reader Char := do
  let high ← unit
  if 0xDC00 ≤ high ∧ high ≤ 0xDFFF then Reader.malformed
  else if 0xD800 ≤ high ∧ high ≤ 0xDBFF then do
    Reader.expect ['\\', 'u']
    let low ← unit
    if 0xDC00 ≤ low ∧ low ≤ 0xDFFF then
      pure (Char.ofNat (0x10000 + (high - 0xD800) * 0x400 + (low - 0xDC00)))
    else Reader.malformed
  else pure (Char.ofNat high)

/-- The character that stands for itself or another after a backslash. -/
def simple? (c : Char) : Option Char :=
  if c = '"' ∨ c = '\\' ∨ c = '/' then some c
  else if c = 'b' then some '\x08'
  else if c = 'f' then some '\x0c'
  else if c = 'n' then some '\n'
  else if c = 'r' then some '\r'
  else if c = 't' then some '\t'
  else none

/-- The characters up to the closing quotation mark, at most as many as given. -/
def body : Nat → Reader (List Char)
  | 0 => Reader.malformed
  | n + 1 => do
    let c ← Reader.next
    if c = '"' then pure []
    else if c = '\\' then do
      let escaped ← Reader.next
      let c ← match simple? escaped with
        | some c => pure c
        | none => if escaped = 'u' then character else Reader.malformed
      pure (c :: (← body n))
    else if c.toNat < 0x20 then Reader.malformed
    else pure (c :: (← body n))

/-- The rest of a string whose opening quotation mark has been read. -/
def rest : Reader String := do
  let n ← Reader.remaining
  pure (String.ofList (← body n))

/-- Skips characters up to the closing quotation mark.  Escaped units need not form characters. -/
def skipBody : Nat → Reader Unit
  | 0 => Reader.malformed
  | n + 1 => do
    let c ← Reader.next
    if c = '"' then pure ()
    else if c = '\\' then do
      let escaped ← Reader.next
      match simple? escaped with
      | some _ => skipBody n
      | none =>
        if escaped = 'u' then do
          let _ ← unit
          skipBody n
        else Reader.malformed
    else if c.toNat < 0x20 then Reader.malformed
    else skipBody n

/-- Skips the rest of a string whose opening quotation mark has been read. -/
def skipRest : Reader Unit := do
  let n ← Reader.remaining
  skipBody n

end Quotation

end PlaintextEquivalence
