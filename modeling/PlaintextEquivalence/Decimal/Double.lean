/-!
# Numbers of double precision

A number of double precision is `m * 2 ^ e` with `m` below `2 ^ 53` and `e` between -1074 and 971.
Fractions are rounded to the nearest one, and of two equally near to the one with an even `m`.
All is done in exact integer arithmetic.

Models the numbers with a fraction or an exponent that a reader of text meets; they are named in the
errors of deserialization.
-/

namespace PlaintextEquivalence

/-- A number of double precision that is not negative. -/
structure Double where
  mantissa : Nat
  exponent : Int
  deriving DecidableEq, Repr

namespace Double

/-- A quotient rounded to the nearest integer, a half to the even one. -/
def roundDiv (num den : Nat) : Nat :=
  let q := num / den
  let r := num % den
  if 2 * r < den then q
  else if den < 2 * r then q + 1
  else if q % 2 = 0 then q else q + 1

/-- The power of two with a given exponent as a fraction. -/
def twoPow (e : Int) : Nat × Nat := (Nat.pow 2 e.toNat, Nat.pow 2 (-e).toNat)

/-- The quotient of a fraction and a power of two, as a fraction. -/
def scaled (num den : Nat) (e : Int) : Nat × Nat :=
  let (up, down) := twoPow e
  (num * down, den * up)

/-- The exponent with which a fraction has 53 binary digits before the point, or the least. -/
def exponentFor (num den : Nat) : Int :=
  let guess : Int := num.log2 - den.log2 - 53
  let (n, d) := scaled num den guess
  let exact := if n / d < Nat.pow 2 53 then guess else guess + 1
  max exact (-1074)

/-- The number nearest to a fraction, unless it is too large. -/
def nearest? (num den : Nat) : Option Double :=
  if num = 0 then some ⟨0, -1074⟩
  else
    let e := exponentFor num den
    let (n, d) := scaled num den e
    let m := roundDiv n d
    let rounded : Double := if m = Nat.pow 2 53 then ⟨Nat.pow 2 52, e + 1⟩ else ⟨m, e⟩
    if rounded.exponent ≤ 971 then some rounded else none

/-- The number as a fraction. -/
def toFraction (x : Double) : Nat × Nat :=
  let (up, down) := twoPow x.exponent
  (x.mantissa * up, down)

/-- The product, rounded. -/
def mul? (x y : Double) : Option Double :=
  let (a, b) := x.toFraction
  let (c, d) := y.toFraction
  nearest? (a * c) (b * d)

/-- The quotient, rounded. -/
def div? (x y : Double) : Option Double :=
  let (a, b) := x.toFraction
  let (c, d) := y.toFraction
  nearest? (a * d) (b * c)

/-- The power of ten, rounded. -/
def tenPow? (n : Nat) : Option Double := nearest? (Nat.pow 10 n) 1

end Double

end PlaintextEquivalence
