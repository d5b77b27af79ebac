import PlaintextEquivalence.Curve.Ristretto
import PlaintextEquivalence.Group.Basic

/-!
# The ristretto255 group as a group for encryption

Models `Ristretto`.
-/

namespace PlaintextEquivalence

/-- The ristretto255 group. -/
def ristretto255 : PrimeGroup where
  Scalar := Curve.Scalar
  Element := Curve.Ristretto
  scalarEq := inferInstance
  elementEq := inferInstance
  ofWord n := Curve.Scalar.ofNat n.toNat
  addScalar := (· + ·)
  subScalar := (· - ·)
  mulScalar := (· * ·)
  negScalar := (- ·)
  invert := Curve.Scalar.inverse
  invertAll := Curve.Scalar.inverseAll
  ofWide bytes := Curve.Scalar.ofNat bytes.toNat
  scalarSize := 32
  scalarBytes := Curve.Scalar.toBytes
  scalarOfBytes? := Curve.Scalar.ofBytes?
  identity := Curve.Ristretto.neutral
  generator := Curve.Ristretto.generator
  add := Curve.Ristretto.add
  sub := Curve.Ristretto.sub
  neg := Curve.Ristretto.neg
  smul := Curve.Ristretto.smul
  elementSize := 32
  elementBytes := Curve.Ristretto.toBytes
  elementOfBytes? := Curve.Ristretto.ofBytes?
  stopsAtShorter := false

end PlaintextEquivalence
