import PlaintextEquivalence.Curve.Subgroup
import PlaintextEquivalence.Group.Basic

/-!
# The prime-order subgroup of the curve as a group for encryption

Models `Curve25519Subgroup`.
-/

namespace PlaintextEquivalence

/-- The prime-order subgroup of the twisted Edwards curve. -/
def edwards25519 : PrimeGroup where
  Scalar := Curve.Scalar
  Element := Curve.Affine
  scalarEq := inferInstance
  elementEq := inferInstance
  ofWord n := Curve.Scalar.ofNat n.toNat
  addScalar := (· + ·)
  subScalar := (· - ·)
  mulScalar := (· * ·)
  negScalar := (- ·)
  invert := Curve.Scalar.inverse
  invertAll := Curve.Scalar.inverseAll
  ofWide bytes := Curve.Scalar.ofNat bytes.toNat
  scalarSize := 32
  scalarBytes := Curve.Scalar.toBytes
  scalarOfBytes? := Curve.Scalar.ofBytes?
  identity := Curve.Affine.neutral
  generator := Curve.Affine.basePoint
  add := Curve.Affine.add
  sub := Curve.Affine.sub
  neg := Curve.Affine.neg
  smul := Curve.Affine.smul
  elementSize := 32
  elementBytes := Curve.Affine.toBytes
  elementOfBytes? := Curve.Affine.ofBytes?
  stopsAtShorter := false

end PlaintextEquivalence
