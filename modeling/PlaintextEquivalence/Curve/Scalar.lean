import PlaintextEquivalence.Curve.Edwards

/-!
# Numbers modulo the group order

The prime order of the group generated by the base point, inverses by a fixed power, the batch
inversion that needs one inversion for a whole list, and the 32-byte form.

Models the scalars of `Ristretto` and `Curve25519Subgroup`: `inverse` is `invert_scalar`, `inverseAll` is
`invert_scalars`, and `toBytes` and `ofBytes?` are `serialize_scalar` and `deserialize_scalar`.
-/

namespace PlaintextEquivalence.Curve

/-- The order of the group. -/
abbrev groupOrder : Nat := Nat.pow 2 252 + 27742317777372353535851937790883648493

instance : @NeZero Nat Zero.ofOfNat0 groupOrder := ⟨by decide⟩

/-- A number modulo the group order, in its least representative. -/
abbrev Scalar := Fin groupOrder

namespace Scalar

/-- The number whose remainder is taken. -/
def ofNat (n : Nat) : Scalar := Fin.ofNat groupOrder n

/-- The bits of a number, greatest first. -/
def toBits (k : Scalar) : List Bool := bits 253 k.val

/-- The exponent of the inverse, as bits. -/
def inverseBits : List Bool := bits 253 (groupOrder - 2)

/-- The inverse `k ^ (order - 2)`; of zero, zero. -/
def inverse (k : Scalar) : Scalar :=
  inverseBits.foldl (fun acc bit => if bit then acc * acc * k else acc * acc) 1

/-- Inverts a list with a single inversion: from the inverse of the product of a suffix, that of
its head and that of the shorter suffix are got by one product each.  The answer is the inverses
together with the inverse of the whole product; a zero anywhere makes all of them zero. -/
def inverseAllAux : List Scalar → Scalar → List Scalar × Scalar
  | [], product => ([], product.inverse)
  | k :: ks, product =>
    let (inverses, rest) := inverseAllAux ks (product * k)
    (rest * product :: inverses, rest * k)

/-- The inverses of a list of numbers. -/
def inverseAll (ks : List Scalar) : List Scalar := (inverseAllAux ks 1).1

/-- The 32 bytes of a number, least first. -/
def toBytes (k : Scalar) : Bytes := Bytes.ofNat 32 k.val

/-- The number with the given 32 bytes, which has to be less than the order. -/
def ofBytes? (bytes : Bytes) : Option Scalar :=
  if bytes.length = 32 then
    if h : bytes.toNat < groupOrder then some ⟨bytes.toNat, h⟩ else none
  else none

theorem toBytes_of_ofBytes? {bytes : Bytes} {k : Scalar} (h : ofBytes? bytes = some k) :
    k.toBytes = bytes := by
  unfold ofBytes? at h
  split at h
  · rename_i hl
    split at h
    · cases h
      rw [toBytes, ← hl, Bytes.ofNat_toNat]
    · cases h
  · cases h

theorem ofBytes?_toBytes (k : Scalar) : ofBytes? k.toBytes = some k := by
  have hk : k.val < Nat.pow 256 32 := Nat.lt_trans k.isLt (by decide)
  simp [ofBytes?, toBytes, Bytes.toNat_ofNat hk, k.isLt]

end Scalar

end PlaintextEquivalence.Curve
