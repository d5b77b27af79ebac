import PlaintextEquivalence.Bytes

/-!
# The field of the curve

Arithmetic modulo `2 ^ 255 - 19`: powers along a fixed chain of squarings, inverses, the sign of
a number (its parity), and square roots of quotients.

Models the field arithmetic behind `Ristretto` and `Curve25519Subgroup`.
-/

namespace PlaintextEquivalence.Curve

/-- The field prime. -/
abbrev fieldPrime : Nat := Nat.pow 2 255 - 19

instance : @NeZero Nat Zero.ofOfNat0 fieldPrime := ⟨by decide⟩

/-- A number modulo the field prime, in its least representative. -/
abbrev Field := Fin fieldPrime

/-- The number whose remainder is taken. -/
def Field.ofNat (n : Nat) : Field := Fin.ofNat fieldPrime n

namespace Field

/-- Squaring `n` times. -/
def squarings : Nat → Field → Field
  | 0, x => x
  | n + 1, x => squarings n (x * x)

/-- The powers `x ^ (2 ^ 250 - 1)` and `x ^ 11`, by the usual chain. -/
def longPower (x : Field) : Field × Field :=
  let x2 := x * x
  let x9 := squarings 2 x2 * x
  let x11 := x9 * x2
  let e5 := x11 * x11 * x9
  let e10 := squarings 5 e5 * e5
  let e20 := squarings 10 e10 * e10
  let e40 := squarings 20 e20 * e20
  let e50 := squarings 10 e40 * e10
  let e100 := squarings 50 e50 * e50
  let e200 := squarings 100 e100 * e100
  let e250 := squarings 50 e200 * e50
  (e250, x11)

/-- The inverse `x ^ (p - 2)`; of zero, zero. -/
def inverse (x : Field) : Field :=
  let (e250, x11) := longPower x
  squarings 5 e250 * x11

/-- The power `x ^ ((p - 5) / 8)`. -/
def rootPower (x : Field) : Field := squarings 2 (longPower x).1 * x

/-- A number is negative if its least representative is odd. -/
def isNegative (x : Field) : Bool := x.val % 2 == 1

/-- The number or its opposite, whichever is not negative. -/
def abs (x : Field) : Field := if x.isNegative then -x else x

/-- The square root of `-1` that is not negative. -/
def rootOfMinusOne : Field :=
  19681161376707505956807079304988542015446066515923890162744021073123829784752

/-- Whether `u / v` is a square, and the root that is not negative of it or, if it is not a
square, of its product with the square root of `-1`. -/
def sqrtRatio (u v : Field) : Bool × Field :=
  let v3 := v * v * v
  let v7 := v3 * v3 * v
  let r := u * v3 * rootPower (u * v7)
  let check := v * (r * r)
  let isRoot := check == u
  let isFlipped := check == -u
  let isFlippedTwice := check == -u * rootOfMinusOne
  let root := if isFlipped || isFlippedTwice then rootOfMinusOne * r else r
  (isRoot || isFlipped, root.abs)

/-- The 32 bytes of a number, least first. -/
def toBytes (x : Field) : Bytes := Bytes.ofNat 32 x.val

end Field

end PlaintextEquivalence.Curve
