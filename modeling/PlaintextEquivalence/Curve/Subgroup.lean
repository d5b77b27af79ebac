import PlaintextEquivalence.Curve.Scalar

/-!
# The prime-order subgroup of the curve

An element is a point of the curve in affine coordinates whose multiple by the group order is
neutral.  Its 32 bytes are the `y` coordinate with the sign of `x` in the highest bit.  Reading is
more generous than writing: `y` need not be reduced, and the sign of a zero `x` is not looked at.

Models the elements of `Curve25519Subgroup`: `toBytes` is `serialize_element` and `ofBytes?` is
`deserialize_element`.
-/

namespace PlaintextEquivalence.Curve

namespace Affine

/-- The base point, with `y = 4 / 5` and an even `x`. -/
def basePoint : Affine :=
  ⟨15112221349535400772501151409588531511454012693041857206046113283949847762202,
    46316835694926478169428394003475163141307993866256225615783033603165251855960⟩

def add (a b : Affine) : Affine := (a.toExtended.add b.toExtended).toAffine

def neg (a : Affine) : Affine := ⟨-a.x, a.y⟩

def sub (a b : Affine) : Affine := a.add b.neg

/-- The multiple of a point. -/
def smul (k : Scalar) (a : Affine) : Affine := (a.toExtended.multiple k.toBits).toAffine

/-- Whether the multiple by the group order is neutral. -/
def isTorsionFree (a : Affine) : Bool :=
  let p := a.toExtended.multiple (bits 253 groupOrder)
  p.x == 0 && p.y == p.z

/-- The sign of `x` above the 255 bits of `y`. -/
def toBytes (a : Affine) : Bytes :=
  Bytes.ofNat 32 (a.y.val + if a.x.isNegative then Nat.pow 2 255 else 0)

/-- The point with the given `y` and sign of `x`, if `y` is the coordinate of a point. -/
def ofY? (y : Field) (negative : Bool) : Option Affine :=
  let yy := y * y
  let (isSquare, x) := Field.sqrtRatio (yy - 1) (yy * edwardsD + 1)
  if isSquare then some ⟨if negative then -x else x, y⟩ else none

/-- The point with the given 32 bytes, which has to be in the subgroup. -/
def ofBytes? (bytes : Bytes) : Option Affine :=
  if bytes.length = 32 then
    let n := bytes.toNat
    match ofY? (Field.ofNat (n % Nat.pow 2 255)) (n.testBit 255) with
    | some a => if a.isTorsionFree then some a else none
    | none => none
  else none

end Affine

end PlaintextEquivalence.Curve
