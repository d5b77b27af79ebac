import PlaintextEquivalence.Fault
import PlaintextEquivalence.Random.Tape

/-!
# Groups for encryption

The operations of a group of prime order with its numbers (scalars) modulo that order, written
additively, together with their byte forms.  Nothing is assumed of the operations here; the laws of
such a group are a hypothesis of the theorems that need them.

Models `ScalarOps`, `ElementOps` and `Group`: `draw` is `generate_scalar`, `ofWide` makes a scalar of the
bytes in `scalar_from_random_bytes`, `inverses` is `invert_scalars`, `multiply` is `multi_mul`, and
`plain` has the default implementations of both.
-/

namespace PlaintextEquivalence

/-- The operations of a group of prime order. -/
structure PrimeGroup where
  /-- Numbers modulo the order. -/
  Scalar : Type
  /-- Elements of the group. -/
  Element : Type
  scalarEq : DecidableEq Scalar
  elementEq : DecidableEq Element
  ofWord : UInt64 → Scalar
  addScalar : Scalar → Scalar → Scalar
  subScalar : Scalar → Scalar → Scalar
  mulScalar : Scalar → Scalar → Scalar
  negScalar : Scalar → Scalar
  invert : Scalar → Scalar
  /-- Inverts a list of numbers, none of them zero. -/
  invertAll : List Scalar → List Scalar
  /-- The remainder of the number that 64 bytes write. -/
  ofWide : Bytes → Scalar
  scalarSize : Nat
  scalarBytes : Scalar → Bytes
  scalarOfBytes? : Bytes → Option Scalar
  identity : Element
  generator : Element
  add : Element → Element → Element
  sub : Element → Element → Element
  neg : Element → Element
  smul : Scalar → Element → Element
  elementSize : Nat
  elementBytes : Element → Bytes
  elementOfBytes? : Bytes → Option Element
  /-- Whether a sum of multiples over lists of different lengths stops at the shorter one; it is a
  fault otherwise. -/
  stopsAtShorter : Bool

namespace PrimeGroup

variable (G : PrimeGroup)

instance : DecidableEq G.Scalar := G.scalarEq
instance : DecidableEq G.Element := G.elementEq
instance : Zero G.Scalar := ⟨G.ofWord 0⟩
instance : One G.Scalar := ⟨G.ofWord 1⟩
instance : Add G.Scalar := ⟨G.addScalar⟩
instance : Sub G.Scalar := ⟨G.subScalar⟩
instance : Mul G.Scalar := ⟨G.mulScalar⟩
instance : Neg G.Scalar := ⟨G.negScalar⟩
instance : Zero G.Element := ⟨G.identity⟩
instance : Add G.Element := ⟨G.add⟩
instance : Sub G.Element := ⟨G.sub⟩
instance : Neg G.Element := ⟨G.neg⟩
instance : SMul G.Scalar G.Element := ⟨G.smul⟩
instance : Inhabited G.Scalar := ⟨0⟩
instance : Inhabited G.Element := ⟨0⟩

/-- The multiple of the generator. -/
def mulGenerator (k : G.Scalar) : G.Element := k • G.generator

/-- The sum of multiples. -/
def sumMultiples (terms : List (G.Scalar × G.Element)) : G.Element :=
  terms.foldl (fun acc term => acc + term.1 • term.2) 0

/-- The sum of multiples of elements by scalars that stand in two lists. -/
def multiply (scalars : List G.Scalar) (elements : List G.Element) : Except Fault G.Element :=
  if scalars.length = elements.length ∨ G.stopsAtShorter then
    .ok (G.sumMultiples (scalars.zip elements))
  else .error .unequalLengths

/-- The inverses of scalars, none of which may be zero. -/
def inverses (scalars : List G.Scalar) : Except Fault (List G.Scalar) :=
  if (0 : G.Scalar) ∈ scalars then .error .zeroInverse else .ok (G.invertAll scalars)

/-- The product of scalars. -/
def product (scalars : List G.Scalar) : G.Scalar := scalars.foldl (· * ·) 1

/-- A random scalar. -/
def draw (tape : Tape) : G.Scalar × Tape :=
  let (bytes, tape) := tape.take 64
  (G.ofWide bytes, tape)

/-- Random scalars, drawn one after the other. -/
def drawMany : Nat → Tape → List G.Scalar × Tape
  | 0, tape => ([], tape)
  | n + 1, tape =>
    let (k, tape) := G.draw tape
    let (ks, tape) := drawMany n tape
    (k :: ks, tape)

/-- A random scalar; zeros are drawn again, as often as the given number.  If the last one is a zero as
well, it is taken: the bound is what makes drawing end on every tape. -/
def drawNonzero : Nat → Tape → G.Scalar × Tape
  | 0, tape => G.draw tape
  | n + 1, tape =>
    let (k, rest) := G.draw tape
    if k = 0 then drawNonzero n rest else (k, rest)

/-- The same group with batch inversion done one by one, and sums of multiples that stop at the
shorter list. -/
def plain : PrimeGroup :=
  { G with invertAll := fun ks => ks.map G.invert, stopsAtShorter := true }

end PrimeGroup

end PlaintextEquivalence
