import PlaintextEquivalence.Codec.Error

/-!
# Reading text

A reader takes what it needs from the front of a text.  A value is read from left to right in one
pass, and the first error that is met is the answer.  Blanks may stand before every token.

Models deserialization of JSON text.
-/

namespace PlaintextEquivalence

/-- What is read from the front of a text. -/
abbrev Reader (α : Type) := StateT (List Char) (Except ReadError) α

namespace Reader

variable {α : Type}

/-- The text is malformed. -/
def malformed : Reader α := fun _ => .error .malformed

/-- The text is well-formed so far, but not what is expected. -/
def refuse (e : DataError) : Reader α := fun _ => .error (.refused e)

/-- A value, or an error about what was read. -/
def check (result : Except DataError α) : Reader α :=
  match result with
  | .ok a => pure a
  | .error e => refuse e

/-- Whether a character is a blank. -/
def isBlank (c : Char) : Bool := c = ' ' || c = '\n' || c = '\t' || c = '\r'

/-- Skips blanks. -/
def blanks : Reader Unit := fun text => .ok ((), text.dropWhile isBlank)

/-- The next character, which is left in the text. -/
def peek? : Reader (Option Char) := fun text => .ok (text.head?, text)

/-- The next character. -/
def next : Reader Char
  | [] => .error .malformed
  | c :: rest => .ok (c, rest)

/-- How many characters are left. -/
def remaining : Reader Nat := fun text => .ok (text.length, text)

/-- Takes the given characters. -/
def expect : List Char → Reader Unit
  | [] => pure ()
  | c :: cs => do
    if (← next) = c then expect cs else malformed

/-- The longest run of characters of a kind. -/
def takeWhile (p : Char → Bool) : Reader (List Char) := fun text =>
  .ok (text.takeWhile p, text.dropWhile p)

/-- Takes the mark between the name and the value of a member. -/
def colon : Reader Unit := do
  blanks
  expect [':']

/-- Whether another item of a list follows, with its separator taken; the closing bracket is left. -/
def nextItem (isFirst : Bool) : Reader Bool := do
  blanks
  match ← peek? with
  | none => malformed
  | some ']' => pure false
  | some c =>
    if isFirst then pure true
    else if c = ',' then do
      let _ ← next
      blanks
      match ← peek? with
      | none => malformed
      | some ']' => malformed
      | some _ => pure true
    else malformed

/-- Whether another member of a map follows, with its separator and the opening quotation mark of
its name taken; the closing brace is left. -/
def nextMember (isFirst : Bool) : Reader Bool := do
  blanks
  match ← peek? with
  | some '\x7d' => pure false
  | some ',' =>
    if isFirst then malformed
    else do
      let _ ← next
      blanks
      expect ['"']
      pure true
  | _ =>
    if isFirst then do
      expect ['"']
      pure true
    else malformed

/-- Takes a closing bracket or brace. -/
def close (bracket : Char) : Reader Unit := do
  blanks
  expect [bracket]

/-- What a reader gives for a whole text, after which only blanks may follow. -/
def readAll (reader : Reader α) (text : String) : Except ReadError α :=
  match reader text.toList with
  | .error e => .error e
  | .ok (a, rest) => if (rest.dropWhile isBlank).isEmpty then .ok a else .error .malformed

end Reader

end PlaintextEquivalence
