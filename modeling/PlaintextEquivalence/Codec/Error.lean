import PlaintextEquivalence.Decimal.Shortest
import PlaintextEquivalence.Elgamal.Key
import PlaintextEquivalence.Text.Quoted
import PlaintextEquivalence.Text.Utf8

/-!
# Why a written value is refused

A text can be malformed, which is all that is said of it, or well-formed but not what is expected,
which is explained.

Models the errors of deserialization.
-/

namespace PlaintextEquivalence

/-- What stands where something else is expected. -/
inductive Found where
  | null
  | boolean (value : Bool)
  | integer (value : Int)
  | fraction (isNegative : Bool) (magnitude : Double)
  | text (value : String)
  | sequence
  | map
  | unitVariant
  | byteString
  deriving DecidableEq, Repr

def Found.message : Found → String
  | .null => "null"
  | .boolean value => "boolean `" ++ toString value ++ "`"
  | .integer value => "integer `" ++ toString value ++ "`"
  | .fraction isNegative magnitude =>
    "floating point `" ++ (if isNegative then "-" else "") ++ magnitude.text ++ "`"
  | .text value => "string " ++ Quoted.quote value
  | .sequence => "sequence"
  | .map => "map"
  | .unitVariant => "unit variant"
  | .byteString => "byte array"

/-- Why a well-formed value is refused. -/
inductive DataError where
  | invalidType (found : Found) (expected : String)
  | invalidValue (found : Found) (expected : String)
  | invalidLength (length : Nat) (expected : String)
  | missingField (name : String)
  | duplicateField (name : String)
  | unknownField (name : String) (known : List String)
  | unknownVariant (name : String) (known : List String)
  | invalidKey (source : KeyError)
  | durationOverflow
  | invalidBoolean (byte : UInt8)
  | invalidText (defect : Utf8.Defect)
  deriving DecidableEq, Repr

/-- Names that are accepted, each in backquotes. -/
def DataError.alternatives (names : List String) : String :=
  " or ".intercalate (names.map fun name => "`" ++ name ++ "`")

def DataError.message : DataError → String
  | .invalidType found expected => "invalid type: " ++ found.message ++ ", expected " ++ expected
  | .invalidValue found expected => "invalid value: " ++ found.message ++ ", expected " ++ expected
  | .invalidLength length expected =>
    "invalid length " ++ toString length ++ ", expected " ++ expected
  | .missingField name => "missing field `" ++ name ++ "`"
  | .duplicateField name => "duplicate field `" ++ name ++ "`"
  | .unknownField name known =>
    "unknown field `" ++ name ++ "`, expected " ++ alternatives known
  | .unknownVariant name known =>
    "unknown variant `" ++ name ++ "`, expected " ++ alternatives known
  | .invalidKey source => source.message
  | .durationOverflow => "overflow deserializing Duration"
  | .invalidBoolean byte =>
    "invalid u8 while decoding bool, expected 0 or 1, found " ++ toString byte.toNat
  | .invalidText defect => "string is not valid utf8: " ++ defect.message

/-- Why a written value cannot be read. -/
inductive ReadError where
  | malformed
  | refused (error : DataError)
  deriving DecidableEq, Repr

end PlaintextEquivalence
