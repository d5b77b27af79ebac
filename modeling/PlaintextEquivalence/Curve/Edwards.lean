import PlaintextEquivalence.Curve.Field

/-!
# The twisted Edwards curve

The curve `-x² + y² = 1 + d x² y²` in affine coordinates, and in extended coordinates
`(X : Y : Z : T)` with `x = X / Z`, `y = Y / Z`, `x y = T / Z`, where addition has no exceptional
cases.  A multiple is computed by doubling along the bits of the factor, greatest first.

Models the point arithmetic behind `Ristretto` and `Curve25519Subgroup`.
-/

namespace PlaintextEquivalence.Curve

/-- The coefficient `d = -121665 / 121666`. -/
def edwardsD : Field :=
  37095705934669439343138083508754565189542113879843219016388785533085940283555

/-- Twice the coefficient `d`. -/
def edwardsD2 : Field := edwardsD + edwardsD

/-- A point in affine coordinates. -/
structure Affine where
  x : Field
  y : Field
  deriving DecidableEq, Repr

/-- A point in extended coordinates. -/
structure Extended where
  x : Field
  y : Field
  z : Field
  t : Field
  deriving Repr

/-- The bits of the `width` lowest places of a number, greatest first. -/
def bits : Nat → Nat → List Bool
  | 0, _ => []
  | width + 1, n => n.testBit width :: bits width n

namespace Extended

/-- The neutral point. -/
def neutral : Extended := ⟨0, 1, 1, 0⟩

def add (p q : Extended) : Extended :=
  let a := (p.y - p.x) * (q.y - q.x)
  let b := (p.y + p.x) * (q.y + q.x)
  let c := p.t * edwardsD2 * q.t
  let d := p.z * q.z
  let d := d + d
  let e := b - a
  let f := d - c
  let g := d + c
  let h := b + a
  ⟨e * f, g * h, f * g, e * h⟩

def double (p : Extended) : Extended :=
  let a := p.x * p.x
  let b := p.y * p.y
  let z2 := p.z * p.z
  let c := z2 + z2
  let s := p.x + p.y
  let e := s * s - a - b
  let g := b - a
  let f := g - c
  let h := -a - b
  ⟨e * f, g * h, f * g, e * h⟩

def neg (p : Extended) : Extended := ⟨-p.x, p.y, p.z, -p.t⟩

/-- The multiple of a point by the number with the given bits, greatest first. -/
def multiple (bits : List Bool) (p : Extended) : Extended :=
  bits.foldl (fun acc bit => if bit then acc.double.add p else acc.double) neutral

/-- The affine coordinates. -/
def toAffine (p : Extended) : Affine :=
  let w := p.z.inverse
  ⟨p.x * w, p.y * w⟩

end Extended

namespace Affine

/-- The neutral point. -/
def neutral : Affine := ⟨0, 1⟩

def toExtended (p : Affine) : Extended := ⟨p.x, p.y, 1, p.x * p.y⟩

end Affine

end PlaintextEquivalence.Curve
