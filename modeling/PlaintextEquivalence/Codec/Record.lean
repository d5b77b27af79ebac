import PlaintextEquivalence.Codec.Basic

/-!
# Records

A record is written as a map from the names of its fields, in order, and read from such a map in any
order, or from a list of all its fields.  Of the errors of a record the first that is met is
reported; that a field is missing is seen at the end of the map.

Models the derived serialization of types with fields.
-/

namespace PlaintextEquivalence

/-- The fields of a record in order: names, codecs, and the values of fields that may be missing.
The first type is that of what has been read of a record, the second that of all its values. -/
inductive Fields : Type → Type → Type 1 where
  | none : Fields Unit Unit
  | field {α σ τ : Type} (name : String) (codec : Codec α) (default? : Option α)
    (rest : Fields σ τ) : Fields (Option α × σ) (α × τ)

namespace Fields

/-- Nothing has been read. -/
def empty : {σ τ : Type} → Fields σ τ → σ
  | _, _, .none => ()
  | _, _, .field _ _ _ rest => (.none, rest.empty)

/-- The names of the fields. -/
def names : {σ τ : Type} → Fields σ τ → List String
  | _, _, .none => []
  | _, _, .field name _ _ rest => name :: rest.names

/-- Reads what follows the name of a field, if there is a field of that name. -/
def readNamed? : {σ τ : Type} → Fields σ τ → String → σ → Option (Reader σ)
  | _, _, .none, _, _ => .none
  | _, _, .field name codec _ rest, wanted, (slot, slots) =>
    if name = wanted then
      some (match slot with
        | some _ => Reader.refuse (.duplicateField name)
        | .none => do
          Reader.colon
          let a ← codec.read
          pure (some a, slots))
    else (rest.readNamed? wanted slots).map fun reader => do
      let slots ← reader
      pure (slot, slots)

/-- The record of what has been read. -/
def complete : {σ τ : Type} → Fields σ τ → σ → Except DataError τ
  | _, _, .none, _ => .ok ()
  | _, _, .field name _ default? rest, (slot, slots) =>
    match slot <|> default? with
    | .none => .error (.missingField name)
    | some a => do
      let others ← rest.complete slots
      pure (a, others)

/-- Reads the members of a map up to its closing brace, at most as many as given. -/
def readMembers {σ τ : Type} (fields : Fields σ τ) (isClosed : Bool) :
    Nat → Bool → σ → Reader σ
  | 0, _, _ => Reader.malformed
  | n + 1, isFirst, slots => do
    if ← Reader.nextMember isFirst then do
      let name ← Quotation.rest
      match fields.readNamed? name slots with
      | some reader => do
        let slots ← reader
        readMembers fields isClosed n false slots
      | .none =>
        if isClosed then Reader.refuse (.unknownField name fields.names)
        else do
          Reader.colon
          Reader.skip
          readMembers fields isClosed n false slots
    else pure slots

/-- Reads the fields from a list, in order. -/
def readInOrder (short : String) : {σ τ : Type} → Fields σ τ → Nat → Reader τ
  | _, _, .none, _ => pure ()
  | _, _, .field _ codec default? rest, position => do
    if ← Reader.nextItem (position = 0) then do
      let a ← codec.read
      let others ← rest.readInOrder short (position + 1)
      pure (a, others)
    else match default? with
      | .none => Reader.refuse (.invalidLength position short)
      | some a => do
        let others ← rest.readInOrder short position
        pure (a, others)

/-- The members of the map that a record is written as. -/
def members : {σ τ : Type} → Fields σ τ → τ → List (List Char)
  | _, _, .none, _ => []
  | _, _, .field name codec _ rest, (a, others) =>
    (Quotation.write name ++ ':' :: codec.write a) :: rest.members others

/-- The fields from bytes, one after the other. -/
def decode : {σ τ : Type} → Fields σ τ → Decoder τ
  | _, _, .none => pure ()
  | _, _, .field _ codec _ rest => do
    let a ← codec.decode
    let others ← rest.decode
    pure (a, others)

/-- The bytes of the fields, one after the other. -/
def encode : {σ τ : Type} → Fields σ τ → τ → Bytes
  | _, _, .none, _ => []
  | _, _, .field _ codec _ rest, (a, others) => codec.encode a ++ rest.encode others

end Fields

/-- How errors speak of a record and of a list that is too short for it, and whether the record
refuses members that are none of its fields. -/
structure RecordStyle where
  expected : String
  short : String
  isClosed : Bool

namespace RecordStyle

/-- The style of records of the given kind and number of fields. -/
def ofKind (kind : String) (size : Nat) : RecordStyle :=
  ⟨kind, kind ++ " with " ++ toString size ++ (if size = 1 then " element" else " elements"), false⟩

/-- The style of a structure with a name. -/
def named (name : String) (size : Nat) : RecordStyle := ofKind ("struct " ++ name) size

end RecordStyle

namespace Codec

/-- The opening bracket or brace of a record, or the error that says what was expected. -/
def openRecord (expected : String) : Reader Bool := do
  Reader.blanks
  match ← Reader.peek? with
  | none => Reader.malformed
  | some '[' => do
    let _ ← Reader.next
    pure true
  | some '\x7b' => do
    let _ ← Reader.next
    pure false
  | some _ => Reader.wrongType expected

/-- The codec of a record that is made of its fields, which may be refused. -/
def record {α σ τ : Type} (style : RecordStyle) (fields : Fields σ τ) (make : τ → Except DataError α)
    (parts : α → τ) : Codec α where
  read := do
    if ← openRecord style.expected then do
      let a ← Reader.check (make (← fields.readInOrder style.short 0))
      Reader.close ']'
      pure a
    else do
      let n ← Reader.remaining
      let slots ← fields.readMembers style.isClosed (n + 1) true fields.empty
      let a ← Reader.check (fields.complete slots >>= make)
      Reader.close '\x7d'
      pure a
  write a := '\x7b' :: commaSeparated (fields.members (parts a)) ++ ['\x7d']
  decode := do Decoder.check (make (← fields.decode))
  encode a := fields.encode (parts a)

/-- A structure with the given name and fields. -/
def ofFields {α σ τ : Type} (name : String) (fields : Fields σ τ) (make : τ → α) (parts : α → τ) :
    Codec α :=
  record (.named name fields.names.length) fields (fun t => .ok (make t)) parts

end Codec

end PlaintextEquivalence
