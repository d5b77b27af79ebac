import PlaintextEquivalence.Codec.Reader

/-!
# Numbers

A number in JSON text has an optional sign, digits, an optional fraction and an optional exponent.
Without the last two it is an integer if it fits into 64 bits, with or without sign.  Any other
number is one of double precision: its leading digits as far as they fit into 64 bits, multiplied or
divided by a power of ten.

Models how numbers are deserialized in JSON text.
-/

namespace PlaintextEquivalence

/-- A number as it is written. -/
structure Numeral where
  isNegative : Bool
  whole : List Char
  fraction? : Option (List Char)
  exponent? : Option (Bool × List Char)
  deriving DecidableEq, Repr

/-- The value of a number. -/
inductive Number where
  | natural (value : Nat)
  | negative (magnitude : Nat)
  | fraction (isNegative : Bool) (magnitude : Double)
  deriving DecidableEq, Repr

/-- What a number is said to be where it is not expected. -/
def Number.found : Number → Found
  | .natural n => .integer n
  | .negative n => .integer (-n)
  | .fraction isNegative x => .fraction isNegative x

namespace Numeral

/-- The value of a digit. -/
def digitValue (c : Char) : Nat := c.toNat - 48

/-- The number that digits write. -/
def ofDigits (digits : List Char) : Nat := digits.foldl (fun n c => 10 * n + digitValue c) 0

/-- The digits of a number. -/
def toDigits (n : Nat) : List Char := Nat.toDigits 10 n

/-- The least number that does not fit into 64 bits. -/
def bound : Nat := UInt64.size

/-- Appends digits to a number as long as it fits into 64 bits; the digits that are left. -/
def absorb : Nat → List Char → Nat × List Char
  | n, [] => (n, [])
  | n, c :: rest =>
    if 10 * n + digitValue c < bound then absorb (10 * n + digitValue c) rest else (n, c :: rest)

/-- Divides by a power as often as given, or until nothing is left. -/
def shrink (power : Double) : Nat → Double → Option Double
  | 0, x => some x
  | n + 1, x =>
    if x.mantissa = 0 then some x
    else match x.div? power with
      | none => none
      | some y => shrink power n y

/-- The greatest power of ten that is a number of double precision. -/
def greatestPower : Nat := 308

/-- A number times a power of ten, unless it is too large.  A division by a power that is too large
itself is done in parts. -/
def scale? (x : Double) (exponent : Int) : Option Double :=
  let size := exponent.natAbs
  if size ≤ greatestPower then do
    let power ← Double.tenPow? size
    if 0 ≤ exponent then x.mul? power else x.div? power
  else if x.mantissa = 0 then some x
  else if 0 ≤ exponent then none
  else do
    let parts := (size - 1) / greatestPower
    let x ← shrink (← Double.tenPow? greatestPower) parts x
    x.div? (← Double.tenPow? (size - greatestPower * parts))

/-- The number of double precision that is written. -/
def magnitude? (n : Numeral) : Option Double := do
  let (significand, dropped) := absorb 0 n.whole
  let fraction := n.fraction?.getD []
  let (significand, ignored) := absorb significand fraction
  let shift : Int := dropped.length - (fraction.length - ignored.length)
  let exponent : Int := match n.exponent? with
    | none => 0
    | some (isNegative, digits) => if isNegative then -ofDigits digits else ofDigits digits
  let x ← Double.nearest? significand 1
  scale? x (shift + exponent)

/-- Whether the number has neither fraction nor exponent. -/
def isInteger (n : Numeral) : Bool := n.fraction?.isNone && n.exponent?.isNone

/-- The value that is written, unless it is too large. -/
def value? (n : Numeral) : Option Number :=
  let integer := ofDigits n.whole
  if n.isInteger ∧ !n.isNegative ∧ integer < bound then some (.natural integer)
  else if n.isInteger ∧ n.isNegative ∧ 0 < integer ∧ integer ≤ Nat.pow 2 63 then some (.negative integer)
  else n.magnitude?.map (.fraction n.isNegative)

/-- One digit or more. -/
def someDigits : Reader (List Char) := do
  let digits ← Reader.takeWhile Char.isDigit
  if digits.isEmpty then Reader.malformed else pure digits

/-- The digits before the point; the first of several is not a zero. -/
def wholeDigits : Reader (List Char) := do
  let digits ← someDigits
  if digits.head? = some '0' ∧ digits.length ≠ 1 then Reader.malformed else pure digits

/-- The fraction, if there is one. -/
def fractionPart : Reader (Option (List Char)) := do
  match ← Reader.peek? with
  | some '.' => do
    let _ ← Reader.next
    some <$> someDigits
  | _ => pure none

/-- The exponent, if there is one, and whether it is negative. -/
def exponentPart : Reader (Option (Bool × List Char)) := do
  let mark ← Reader.peek?
  if mark = some 'e' ∨ mark = some 'E' then do
    let _ ← Reader.next
    let sign ← Reader.peek?
    if sign = some '+' ∨ sign = some '-' then do
      let _ ← Reader.next
    let digits ← someDigits
    pure (some (sign = some '-', digits))
  else pure none

/-- A number as it is written. -/
def read : Reader Numeral := do
  let sign ← Reader.peek?
  if sign = some '-' then do
    let _ ← Reader.next
  let whole ← wholeDigits
  let fraction? ← fractionPart
  let exponent? ← exponentPart
  pure ⟨sign = some '-', whole, fraction?, exponent?⟩

end Numeral

/-- The value of a number. -/
def Number.read : Reader Number := do
  let numeral ← Numeral.read
  match numeral.value? with
  | some n => pure n
  | none => Reader.malformed

end PlaintextEquivalence
