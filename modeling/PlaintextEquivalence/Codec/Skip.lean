import PlaintextEquivalence.Codec.Number
import PlaintextEquivalence.Codec.Quotation

/-!
# Values that are not wanted

A member of a map that nobody asked for is skipped: it has to be well-formed, but its numbers may be
of any size and the escaped units in its strings need not form characters.  A value of the wrong type
is refused at its beginning; a number, a string or a word is read to its end first.

Models deserialization of fields that a type does not have.
-/

namespace PlaintextEquivalence

namespace Reader

variable {α : Type}

mutual

/-- Skips a value; every step down uses one of the given number of steps. -/
def skipValue : Nat → Reader Unit
  | 0 => malformed
  | n + 1 => do
    blanks
    match ← peek? with
    | some 'n' => expect ['n', 'u', 'l', 'l']
    | some 't' => expect ['t', 'r', 'u', 'e']
    | some 'f' => expect ['f', 'a', 'l', 's', 'e']
    | some '"' => do
      let _ ← next
      Quotation.skipRest
    | some '[' => do
      let _ ← next
      skipItems n true
    | some '\x7b' => do
      let _ ← next
      skipMembers n true
    | _ => do
      let _ ← Numeral.read

/-- Skips the items of a list and its closing bracket. -/
def skipItems : Nat → Bool → Reader Unit
  | 0, _ => malformed
  | n + 1, isFirst => do
    if ← nextItem isFirst then do
      skipValue n
      skipItems n false
    else close ']'

/-- Skips the members of a map and its closing brace. -/
def skipMembers : Nat → Bool → Reader Unit
  | 0, _ => malformed
  | n + 1, isFirst => do
    if ← nextMember isFirst then do
      Quotation.skipRest
      colon
      skipValue n
      skipMembers n false
    else close '\x7d'

end

/-- Skips a value. -/
def skip : Reader Unit := do
  let n ← remaining
  skipValue (2 * n + 1)

/-- Refuses the value that follows, of another type than the expected one. -/
def wrongType (expected : String) : Reader α := do
  let refuseAs := fun (found : Found) => (refuse (.invalidType found expected) : Reader α)
  match ← peek? with
  | some 'n' => do
    expect ['n', 'u', 'l', 'l']
    refuseAs .null
  | some 't' => do
    expect ['t', 'r', 'u', 'e']
    refuseAs (.boolean true)
  | some 'f' => do
    expect ['f', 'a', 'l', 's', 'e']
    refuseAs (.boolean false)
  | some '"' => do
    let _ ← next
    refuseAs (.text (← Quotation.rest))
  | some '[' => refuseAs .sequence
  | some '\x7b' => refuseAs .map
  | _ => do
    refuseAs (← Number.read).found

end Reader

end PlaintextEquivalence
