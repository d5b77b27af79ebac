import PlaintextEquivalence.Text.Visible

/-!
# Quoted text

Text between double quotes, as it appears in messages: what could not be read there is escaped.

Models the quoted names in the messages of errors.
-/

namespace PlaintextEquivalence

namespace Quoted

/-- One character of quoted text. -/
def escape (c : Char) : List Char :=
  if c = '\x00' then ['\\', '0']
  else if c = '\t' then ['\\', 't']
  else if c = '\r' then ['\\', 'r']
  else if c = '\n' then ['\\', 'n']
  else if c = '\\' ∨ c = '"' then ['\\', c]
  else if isVisible c then [c]
  else ['\\', 'u', '\x7b'] ++ Nat.toDigits 16 c.toNat ++ ['\x7d']

/-- A text between double quotes. -/
def quote (text : String) : String :=
  String.ofList ('"' :: text.toList.flatMap escape ++ ['"'])

end Quoted

end PlaintextEquivalence
