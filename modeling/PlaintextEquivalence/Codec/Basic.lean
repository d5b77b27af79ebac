import PlaintextEquivalence.Codec.Layout
import PlaintextEquivalence.Codec.Skip
import PlaintextEquivalence.Text.Base64

/-!
# Codecs

A codec writes the values of a type as JSON text and as bytes, and reads both.  Here are the codecs of
simple values and of lists, and the ways to make a codec of one type from that of another.

Models serialization to JSON text and to bytes; `bytes` is `serialize_bytes` and `deserialize_bytes`.
-/

namespace PlaintextEquivalence

/-- The written forms of a type. -/
structure Codec (α : Type) where
  /-- Reads JSON text. -/
  read : Reader α
  /-- Writes JSON text. -/
  write : α → List Char
  /-- Reads bytes. -/
  decode : Decoder α
  /-- Writes bytes. -/
  encode : α → Bytes

namespace Codec

variable {α β : Type}

/-- The JSON text of a value. -/
def toText (codec : Codec α) (a : α) : String := String.ofList (codec.write a)

/-- The value that a JSON text writes. -/
def ofText? (codec : Codec α) (text : String) : Except ReadError α := codec.read.readAll text

/-- The value that a byte string begins with. -/
def ofBytes? (codec : Codec α) (bytes : Bytes) : Except ReadError α := codec.decode.decodeFront bytes

/-- The codec of a type whose values are made of those of another, which may be refused. -/
def refine (codec : Codec α) (make : α → Except DataError β) (parts : β → α) : Codec β where
  read := do Reader.check (make (← codec.read))
  write b := codec.write (parts b)
  decode := do Decoder.check (make (← codec.decode))
  encode b := codec.encode (parts b)

/-- A string, or the error that says what was expected. -/
def readString (expected : String) : Reader String := do
  Reader.blanks
  match ← Reader.peek? with
  | none => Reader.malformed
  | some '"' => do
    let _ ← Reader.next
    Quotation.rest
  | some _ => Reader.wrongType expected

/-- Texts. -/
def text : Codec String where
  read := readString "a string"
  write := Quotation.write
  decode := do
    let bytes ← Decoder.byteString
    Decoder.check ((Utf8.toText bytes).mapError .invalidText)
  encode s := Layout.byteString (Bytes.ofText s)

/-- Byte strings: in base 64 where they are written in text. -/
def bytes : Codec Bytes where
  read := do
    let expected := "base64url-encoded data"
    let s ← readString expected
    match Base64.decode? s.toList with
    | some bytes => pure bytes
    | none => Reader.refuse (.invalidValue (.text s) expected)
  write b := '"' :: Base64.encode b ++ ['"']
  decode := Decoder.byteString
  encode := Layout.byteString

/-- Truth values. -/
def bool : Codec Bool where
  read := do
    Reader.blanks
    match ← Reader.peek? with
    | none => Reader.malformed
    | some 't' => do
      Reader.expect ['t', 'r', 'u', 'e']
      pure true
    | some 'f' => do
      Reader.expect ['f', 'a', 'l', 's', 'e']
      pure false
    | some _ => Reader.wrongType "a boolean"
  write b := if b then ['t', 'r', 'u', 'e'] else ['f', 'a', 'l', 's', 'e']
  decode := do
    match ← Decoder.number 1 with
    | 0 => pure false
    | 1 => pure true
    | n => Decoder.refuse (.invalidBoolean (UInt8.ofNat n))
  encode b := [if b then 1 else 0]

/-- A natural number below a bound. -/
def readNatural (bound : Nat) (expected : String) : Reader Nat := do
  Reader.blanks
  match ← Reader.peek? with
  | none => Reader.malformed
  | some c =>
    if c = '-' ∨ c.isDigit then do
      match ← Number.read with
      | .natural n =>
        if n < bound then pure n else Reader.refuse (.invalidValue (.integer n) expected)
      | .negative n => Reader.refuse (.invalidValue (.integer (-n)) expected)
      | .fraction isNegative x =>
        Reader.refuse (.invalidType (.fraction isNegative x) expected)
    else Reader.wrongType expected

/-- Numbers of 64 bits. -/
def word64 (expected : String) : Codec UInt64 where
  read := do pure (UInt64.ofNat (← readNatural UInt64.size expected))
  write n := Numeral.toDigits n.toNat
  decode := do pure (UInt64.ofNat (← Decoder.number 8))
  encode n := Bytes.ofNat 8 n.toNat

/-- Numbers of 32 bits. -/
def word32 (expected : String) : Codec UInt32 where
  read := do pure (UInt32.ofNat (← readNatural UInt32.size expected))
  write n := Numeral.toDigits n.toNat
  decode := do pure (UInt32.ofNat (← Decoder.number 4))
  encode n := Bytes.ofNat 4 n.toNat

/-- Numbers of 8 bits. -/
def word8 (expected : String) : Codec UInt8 where
  read := do pure (UInt8.ofNat (← readNatural UInt8.size expected))
  write n := Numeral.toDigits n.toNat
  decode := do pure (UInt8.ofNat (← Decoder.number 1))
  encode n := Bytes.ofNat 1 n.toNat

/-- Written items with commas between them. -/
def commaSeparated : List (List Char) → List Char
  | [] => []
  | [item] => item
  | item :: rest => item ++ ',' :: commaSeparated rest

/-- Written items between brackets. -/
def writeItems (codec : Codec α) (items : List α) : List Char :=
  '[' :: commaSeparated (items.map codec.write) ++ [']']

/-- The items of a list up to its closing bracket, at most as many as given. -/
def readItems (item : Reader α) : Nat → Bool → Reader (List α)
  | 0, _ => Reader.malformed
  | n + 1, isFirst => do
    if ← Reader.nextItem isFirst then do
      let a ← item
      pure (a :: (← readItems item n false))
    else pure []

/-- The opening bracket of a list, or the error that says what was expected. -/
def openList (expected : String) : Reader Unit := do
  Reader.blanks
  match ← Reader.peek? with
  | none => Reader.malformed
  | some '[' => do
    let _ ← Reader.next
  | some _ => Reader.wrongType expected

/-- Lists. -/
def list (codec : Codec α) : Codec (List α) where
  read := do
    openList "a sequence"
    let n ← Reader.remaining
    let items ← readItems codec.read (n + 1) true
    Reader.close ']'
    pure items
  write := writeItems codec
  decode := do Decoder.items codec.decode (← Decoder.length)
  encode items := Layout.length items.length ++ items.flatMap codec.encode

/-- As many items as given, of which the first has the given position. -/
def readExactly (item : Reader α) (expected : String) : (n position : Nat) → Reader (Vector α n)
  | 0, _ => pure #v[]
  | n + 1, position => do
    if ← Reader.nextItem (position = 0) then do
      let a ← item
      let rest ← readExactly item expected n (position + 1)
      pure ((#v[a] ++ rest).cast (by omega))
    else Reader.refuse (.invalidLength position expected)

/-- As many items as given. -/
def decodeExactly (item : Decoder α) : (n : Nat) → Decoder (Vector α n)
  | 0 => pure #v[]
  | n + 1 => do
    let a ← item
    let rest ← decodeExactly item n
    pure ((#v[a] ++ rest).cast (by omega))

/-- Arrays of a fixed size. -/
def array (n : Nat) (codec : Codec α) : Codec (Vector α n) where
  read :=
    let expected := "an array of length " ++ toString n
    do
      openList expected
      let items ← readExactly codec.read expected n 0
      Reader.close ']'
      pure items
  write items := writeItems codec items.toList
  decode := decodeExactly codec.decode n
  encode items := items.toList.flatMap codec.encode

end Codec

end PlaintextEquivalence
