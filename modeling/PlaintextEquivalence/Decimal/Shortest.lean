import PlaintextEquivalence.Decimal.Double

/-!
# Shortest decimal text

Of the decimal numbers that round to a given number of double precision, the text is that of one
with the fewest digits, and of those the nearest.  Numbers whose decimal point falls within their
first sixteen places, or less than five places before them, are written out, with at least one digit
on each side of the point; others have an exponent, always with its sign.

Models how such a number is named in an error of deserialization.
-/

namespace PlaintextEquivalence

/-- A decimal number: its digits as one integer, and the power of ten that they are multiplied by. -/
structure Decimal where
  digits : Nat
  exponent : Int
  deriving DecidableEq, Repr

namespace Double

/-- A decimal number and a multiple of a power of two, as integers in the same proportion. -/
def inProportion (d : Decimal) (n : Nat) (e : Int) : Nat × Nat :=
  (d.digits * Nat.pow 10 d.exponent.toNat * Nat.pow 2 (-e).toNat,
    n * Nat.pow 2 e.toNat * Nat.pow 10 (-d.exponent).toNat)

/-- Whether a decimal number rounds to the given number: it lies between the midpoints to the
neighbours, which belong to the number if its mantissa is even. -/
def roundsTo (x : Double) (d : Decimal) : Bool :=
  let below := if x.mantissa = Nat.pow 2 52 ∧ -1074 < x.exponent then 1 else 2
  let low := inProportion d (4 * x.mantissa - below) (x.exponent - 2)
  let high := inProportion d (4 * x.mantissa + 2) (x.exponent - 2)
  if x.mantissa % 2 = 0 then low.2 ≤ low.1 && high.1 ≤ high.2
  else low.2 < low.1 && high.1 < high.2

/-- Whether the next larger decimal number is nearer; of two equally near it is the even one. -/
def isNearerAbove (x : Double) (d : Decimal) : Bool :=
  let (twice, value) := inProportion ⟨2 * d.digits + 1, d.exponent⟩ (2 * x.mantissa) x.exponent
  twice < value || (twice = value && d.digits % 2 = 1)

/-- The exponent of a power of ten that the number does not exceed, nor is ten times smaller than. -/
def magnitude (x : Double) : Int :=
  let (num, den) := x.toFraction
  if den ≤ num then (toString (num / den)).length else 1 - (toString (den / num)).length

/-- The decimal number on a grid just below the number. -/
def floorAt (x : Double) (exponent : Int) : Decimal :=
  let (num, den) := x.toFraction
  ⟨num * Nat.pow 10 (-exponent).toNat / (den * Nat.pow 10 exponent.toNat), exponent⟩

/-- The nearer of the two neighbours on a grid that round to the number. -/
def onGrid? (x : Double) (exponent : Int) : Option Decimal :=
  let low := x.floorAt exponent
  let high : Decimal := ⟨low.digits + 1, exponent⟩
  let candidates := if x.isNearerAbove low then [high, low] else [low, high]
  candidates.find? x.roundsTo

/-- The first grid, of the given number of them and each ten times finer than the one before, that
has a decimal number that rounds to the number. -/
def search (x : Double) : Nat → Int → Decimal
  | 0, exponent => x.floorAt exponent
  | n + 1, exponent =>
    match x.onGrid? exponent with
    | some d => d
    | none => search x n (exponent - 1)

/-- The shortest decimal number that rounds to a number other than zero. -/
def shortest (x : Double) : Decimal := x.search 18 x.magnitude

end Double

namespace Decimal

/-- The same number without trailing zeros; `n` bounds how many are taken off. -/
def trim : Nat → Decimal → Decimal
  | 0, d => d
  | n + 1, d => if d.digits % 10 = 0 then trim n ⟨d.digits / 10, d.exponent + 1⟩ else d

/-- The text of a decimal number other than zero and without trailing zeros. -/
def text (d : Decimal) : String :=
  let digits := (toString d.digits).toList
  let point : Int := digits.length + d.exponent
  let zeros := fun (n : Int) => List.replicate n.toNat '0'
  if 0 ≤ d.exponent ∧ point ≤ 16 then
    String.ofList (digits ++ zeros d.exponent ++ ['.', '0'])
  else if 0 < point ∧ point ≤ 16 then
    String.ofList (digits.take point.toNat ++ '.' :: digits.drop point.toNat)
  else if -5 < point ∧ point ≤ 0 then
    String.ofList ('0' :: '.' :: zeros (-point) ++ digits)
  else
    let fraction := if digits.length = 1 then [] else '.' :: digits.drop 1
    let mark := if 0 < point then "e+" else "e"
    String.ofList (digits.take 1 ++ fraction) ++ mark ++ toString (point - 1)

end Decimal

/-- The shortest decimal text of a number of double precision. -/
def Double.text (x : Double) : String :=
  if x.mantissa = 0 then "0.0" else (Decimal.trim 18 x.shortest).text

end PlaintextEquivalence
