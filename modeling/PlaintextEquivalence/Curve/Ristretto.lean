import PlaintextEquivalence.Curve.Scalar

/-!
# The ristretto255 group

An element is a coset of small-order points, held as its canonical encoding: the non-negative
field number `s` that the coset encodes to.  Two elements are equal exactly if their encodings
are, and an operation decodes, computes on points and encodes again.

Models the elements of `Ristretto`: `toBytes` is `serialize_element` and `ofBytes?` is
`deserialize_element`.

Principal results:
* `toBytes_of_ofBytes?` — an accepted byte string is the byte string of its element.
-/

namespace PlaintextEquivalence.Curve

/-- A ristretto255 element, as its canonical encoding. -/
structure Ristretto where
  s : Field
  deriving DecidableEq, Repr

namespace Ristretto

/-- The inverse square root of `a - d` for `a = -1`. -/
def invRootAMinusD : Field :=
  54469307008909316920995813868745141605393597292927456921205312896311721017578

/-- The point that a number decodes to, and whether the decoding is a proper one. -/
def decode (s : Field) : Extended × Bool :=
  let ss := s * s
  let u1 := 1 - ss
  let u2 := 1 + ss
  let u2u2 := u2 * u2
  let v := -(edwardsD * (u1 * u1)) - u2u2
  let (wasSquare, inv) := Field.sqrtRatio 1 (v * u2u2)
  let denX := inv * u2
  let denY := inv * denX * v
  let x := ((s + s) * denX).abs
  let y := u1 * denY
  let t := x * y
  (⟨x, y, 1, t⟩, wasSquare && !t.isNegative && y != 0)

/-- The canonical encoding of the coset of a point. -/
def encode (p : Extended) : Ristretto :=
  let u1 := (p.z + p.y) * (p.z - p.y)
  let u2 := p.x * p.y
  let (_, inv) := Field.sqrtRatio 1 (u1 * (u2 * u2))
  let den1 := inv * u1
  let den2 := inv * u2
  let zInv := den1 * den2 * p.t
  let rotate := (p.t * zInv).isNegative
  let x := if rotate then p.y * Field.rootOfMinusOne else p.x
  let y := if rotate then p.x * Field.rootOfMinusOne else p.y
  let denInv := if rotate then den1 * invRootAMinusD else den2
  let y := if (x * zInv).isNegative then -y else y
  ⟨(denInv * (p.z - y)).abs⟩

/-- A point of the coset. -/
def toPoint (e : Ristretto) : Extended := (decode e.s).1

/-- The neutral element. -/
def neutral : Ristretto := ⟨0⟩

/-- The conventional generator. -/
def generator : Ristretto :=
  ⟨53453403443306840533278073560698739391446669128918427283046925944918568268514⟩

def add (a b : Ristretto) : Ristretto := encode (a.toPoint.add b.toPoint)

def sub (a b : Ristretto) : Ristretto := encode (a.toPoint.add b.toPoint.neg)

def neg (a : Ristretto) : Ristretto := encode a.toPoint.neg

/-- The multiple of an element. -/
def smul (k : Scalar) (a : Ristretto) : Ristretto := encode (a.toPoint.multiple k.toBits)

/-- The 32 bytes of the encoding. -/
def toBytes (a : Ristretto) : Bytes := a.s.toBytes

/-- The element with the given 32 bytes: their number has to be reduced, not negative, and a
proper encoding. -/
def ofBytes? (bytes : Bytes) : Option Ristretto :=
  if bytes.length = 32 then
    if h : bytes.toNat < fieldPrime then
      let s : Field := ⟨bytes.toNat, h⟩
      if !s.isNegative && (decode s).2 then some ⟨s⟩ else none
    else none
  else none

theorem toBytes_of_ofBytes? {bytes : Bytes} {a : Ristretto} (h : ofBytes? bytes = some a) :
    a.toBytes = bytes := by
  unfold ofBytes? at h
  split at h
  · rename_i hl
    split at h
    · simp only at h
      split at h
      · cases h
        rw [toBytes, Field.toBytes, ← hl, Bytes.ofNat_toNat]
      · cases h
    · cases h
  · cases h

end Ristretto

end PlaintextEquivalence.Curve
