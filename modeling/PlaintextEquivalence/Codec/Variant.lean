import PlaintextEquivalence.Codec.Record

/-!
# Variants

A value of one of several variants is written as the name of its variant, or as a map of that one
name to the content of the variant.  A map whose first key is no text is malformed.

Models the derived serialization of types with variants.
-/

namespace PlaintextEquivalence

/-- How a variant is read: from its name alone, from what follows its name in a map, and from
bytes. -/
structure Variant (α : Type) where
  name : String
  bare : Except DataError α
  content : Reader α
  decode : Decoder α

namespace Variant

variable {α : Type}

/-- The null that stands for no content. -/
def noContent : Reader Unit := do
  Reader.blanks
  match ← Reader.peek? with
  | none => Reader.malformed
  | some 'n' => Reader.expect ['n', 'u', 'l', 'l']
  | some _ => Reader.wrongType "unit"

/-- A variant without content. -/
def unit (name : String) (a : α) : Variant α where
  name := name
  bare := .ok a
  content := do
    noContent
    pure a
  decode := pure a

/-- A variant that holds a record. -/
def ofRecord {β : Type} (name : String) (codec : Codec β) (make : β → α) : Variant α where
  name := name
  bare := .error (.invalidType .unitVariant "struct variant")
  content := do
    let b ← codec.read
    pure (make b)
  decode := do
    let b ← codec.decode
    pure (make b)

/-- The variant with the given name. -/
def named (variants : List (Variant α)) (name : String) : Except DataError (Variant α) :=
  match variants.find? (·.name = name) with
  | some v => .ok v
  | none => .error (.unknownVariant name (variants.map (·.name)))

/-- The map of a variant's name to its content. -/
def writeContent (name : String) (content : List Char) : List Char :=
  '\x7b' :: Quotation.write name ++ ':' :: content ++ ['\x7d']

/-- The variant with the given number. -/
def numbered (variants : List (Variant α)) (index : Nat) : Except DataError (Variant α) :=
  match variants[index]? with
  | some v => .ok v
  | none =>
    let expected := "variant index 0 <= i < " ++ toString variants.length
    .error (.invalidValue (.integer index) expected)

/-- The number of a variant. -/
def encodeIndex (index : Nat) : Bytes := Bytes.ofNat 4 index

end Variant

/-- The codec of a type with variants, given how they are written. -/
def Codec.variants {α : Type} (variants : List (Variant α)) (write : α → List Char)
    (encode : α → Bytes) : Codec α where
  read := do
    Reader.blanks
    match ← Reader.peek? with
    | some '"' => do
      let _ ← Reader.next
      let v ← Reader.check (Variant.named variants (← Quotation.rest))
      Reader.check v.bare
    | some '\x7b' => do
      let _ ← Reader.next
      Reader.blanks
      Reader.expect ['"']
      let v ← Reader.check (Variant.named variants (← Quotation.rest))
      Reader.colon
      let a ← v.content
      Reader.close '\x7d'
      pure a
    | _ => Reader.malformed
  write := write
  decode := do
    let v ← Decoder.check (Variant.numbered variants (← Decoder.number 4))
    v.decode
  encode := encode

end PlaintextEquivalence
