import PlaintextEquivalence.Group.Basic

/-!
# Interpolation

The guardian with index `i` stands at the point `i + 1`.  From the values of a polynomial at the points
of some guardians, its value at zero, and at the point of a guardian after all of them, is the sum of
multiples of the values, scaled by a common factor.  Points and differences of indexes are taken as
64-bit numbers, the smaller index from the greater one, and only then as scalars with a sign.

What is modelled:
* `coefficients` — `lagrange_coefficients`.
* `coefficientsAt` — what `PublicKeySet.from_participants` makes of them for a further guardian.
* `combine` — the scaled sum in `Params.combine_shares` and `PublicKeySet.from_participants`.
-/

namespace PlaintextEquivalence.Interpolation

variable (G : PrimeGroup)

/-- A scalar with a sign. -/
def signed (negative : Bool) (size : G.Scalar) : G.Scalar := if negative then -size else size

/-- What an index brings to the denominator of an index: whether it is negative, and its size.  That is
the distance of the two, or the point of the index if they are the same. -/
def part (index other : UInt64) : Except Fault (Bool × G.Scalar) :=
  if other < index then do
    let d ← Word.minus index other
    pure (true, G.ofWord d)
  else if index < other then do
    let d ← Word.minus other index
    pure (false, G.ofWord d)
  else do
    let x ← Word.next index
    pure (false, G.ofWord x)

/-- The product of all parts of a denominator. -/
def denominator (indexes : List UInt64) (index : UInt64) : Except Fault G.Scalar := do
  let parts ← indexes.mapM (part G index)
  let size := G.product (parts.map (·.2))
  pure (signed G (parts.foldl (fun negative p => negative ^^ p.1) false) size)

/-- The multiples for the value at zero, and their common scale. -/
def coefficients (indexes : List UInt64) : Except Fault (List G.Scalar × G.Scalar) := do
  let denominators ← indexes.mapM (denominator G indexes)
  let inverses ← G.inverses denominators
  let points ← indexes.mapM Word.next
  pure (inverses, G.product (points.map G.ofWord))

/-- The multiple for the value at the point of a guardian with a greater index, from that for the value
at zero and the inverses of the numbers from one on. -/
def multipleAt (inverses : List G.Scalar) (index i : UInt64) (multiple : G.Scalar) :
    Except Fault G.Scalar := do
  let x ← Word.next i
  let distance ← Word.minus index i
  let position ← Word.minus distance 1
  match inverses[position.toNat]? with
  | none => .error .outOfRange
  | some inverse => pure (multiple * G.ofWord x * inverse)

/-- The multiples for the value at the point of a guardian with a greater index, and their common
scale. -/
def coefficientsAt (indexes : List UInt64) (multiples inverses : List G.Scalar) (index : UInt64) :
    Except Fault (List G.Scalar × G.Scalar) := do
  let distances ← indexes.mapM (Word.minus index)
  let there ← (indexes.zip multiples).mapM fun (i, k) => multipleAt G inverses index i k
  let scale := G.product (distances.map G.ofWord)
  -- all distances count as negative, in the scale and once more in each multiple
  pure (there, signed G (indexes.length % 2 = 0) scale)

/-- The sum of the multiples of values, scaled. -/
def combine (multiples : List G.Scalar × G.Scalar) (values : List G.Element) :
    Except Fault G.Element := do
  let sum ← G.multiply multiples.1 values
  pure (multiples.2 • sum)

end PlaintextEquivalence.Interpolation
