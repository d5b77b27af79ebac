import PlaintextEquivalence.Elgamal.Ciphertext
import PlaintextEquivalence.Group.Edwards
import PlaintextEquivalence.Group.Ristretto
import PlaintextEquivalence.Proofs.Curve.Ristretto
import PlaintextEquivalence.Proofs.Curve.Subgroup
import PlaintextEquivalence.Sharing.Params
import PlaintextEquivalence.Sigma.Blinding

/-!
# Accepted bytes are written back

Bytes are canonical if the value that is read from them is written as these bytes; then it is read from
no others.  Ciphertexts, shares and proofs are made of elements and scalars, and what is read of them is
written back where elements and scalars are.  So it is in the ristretto255 group.  In the subgroup of
the curve scalars are written back, but the identity has three aliases, which ciphertexts and shares
let through.

Principal results:
* `WritesBack.canonical` — a value that is written back is read from one byte string.
* `PrimeGroup.WritesParts.messages` — ciphertexts, shares and proofs are written back where elements
  and scalars are.
* `canonical_ristretto255_edwards25519` — what of it holds in the two groups.
* `aliasedBytes_read` — a ciphertext that is not written back.
-/

set_option autoImplicit false

namespace PlaintextEquivalence

section Reading

variable {α : Type} {read : Bytes → Option α} {write : α → Bytes} {isAlias : Bytes → Prop}

/-- A value that was read is written as the bytes it was read from, unless they are an alias. -/
def WritesBack (read : Bytes → Option α) (write : α → Bytes) (isAlias : Bytes → Prop) : Prop :=
  ∀ bytes a, read bytes = some a → (write a = bytes ↔ ¬isAlias bytes)

/-- The value that is read from given bytes is written back, and read from no others; but for aliases. -/
structure Canonical (read : Bytes → Option α) (write : α → Bytes) (isAlias : Bytes → Prop)
    (bytes : Bytes) : Prop where
  write_eq_iff : ∀ a, read bytes = some a → (write a = bytes ↔ ¬isAlias bytes)
  unique : ∀ a, read bytes = some a → ∀ other, read other = some a →
    bytes = other ∨ isAlias bytes ∨ isAlias other

/-- **A value that is written back** is read from one byte string. -/
theorem WritesBack.canonical (h : WritesBack read write isAlias) (bytes : Bytes) :
    Canonical read write isAlias bytes where
  write_eq_iff := h bytes
  unique a hbytes other hother := by
    by_contra hnot
    obtain ⟨hne, hnot⟩ := not_or.1 hnot
    obtain ⟨hnotBytes, hnotOther⟩ := not_or.1 hnot
    exact hne (((h bytes a hbytes).2 hnotBytes).symm.trans ((h other a hother).2 hnotOther))

/-- Two values, one after the other, are written back if both are. -/
theorem WritesBack.append_eq_iff (h : WritesBack read write isAlias) {size : ℕ}
    (hsize : ∀ a, (write a).length = size) {bytes : Bytes} {a b : α}
    (ha : read (bytes.take size) = some a) (hb : read (bytes.drop size) = some b) :
    write a ++ write b = bytes ↔ ¬(isAlias (bytes.take size) ∨ isAlias (bytes.drop size)) := by
  rw [not_or, ← h _ a ha, ← h _ b hb]
  constructor
  · intro hbytes
    rw [← hbytes]
    exact ⟨(List.take_left' (hsize a)).symm, (List.drop_left' (hsize a)).symm⟩
  · rintro ⟨htake, hdrop⟩
    rw [htake, hdrop, List.take_append_drop]

end Reading

namespace PrimeGroup

variable {G : PrimeGroup} {aliases : List Bytes}

/-- Scalars are written back, and so are elements but for the given aliases. -/
structure WritesParts (G : PrimeGroup) (aliases : List Bytes) : Prop where
  length_scalarBytes : ∀ k : G.Scalar, (G.scalarBytes k).length = G.scalarSize
  length_elementBytes : ∀ a : G.Element, (G.elementBytes a).length = G.elementSize
  scalar : WritesBack G.scalarOfBytes? G.scalarBytes fun _ => False
  element : WritesBack G.elementOfBytes? G.elementBytes (· ∈ aliases)

/-- Given bytes are canonical as proofs, and as ciphertexts and shares but for aliases in them. -/
structure CanonicalMessages (G : PrimeGroup) (aliases : List Bytes) (bytes : Bytes) : Prop where
  ciphertext : Canonical (Ciphertext.ofBytes? (G := G)) Ciphertext.toBytes
    (fun bytes => bytes.take G.elementSize ∈ aliases ∨ bytes.drop G.elementSize ∈ aliases) bytes
  share : Canonical (PartialDecryption.ofBytes? (G := G)) PartialDecryption.toBytes (· ∈ aliases) bytes
  logEquality : Canonical (LogEquality.ofBytes? (G := G)) LogEquality.toBytes (fun _ => False) bytes
  blinding : Canonical (Blinding.ofBytes? (G := G)) Blinding.toBytes (fun _ => False) bytes

theorem WritesParts.scalars_append (h : G.WritesParts aliases) {bytes : Bytes} {k l : G.Scalar}
    (hk : G.scalarOfBytes? (bytes.take G.scalarSize) = some k)
    (hl : G.scalarOfBytes? (bytes.drop G.scalarSize) = some l) :
    G.scalarBytes k ++ G.scalarBytes l = bytes :=
  (h.scalar.append_eq_iff h.length_scalarBytes hk hl).2 (not_or.2 ⟨id, id⟩)

/-- **Ciphertexts, shares and proofs** are written back where elements and scalars are. -/
theorem WritesParts.messages (h : G.WritesParts aliases) (bytes : Bytes) :
    G.CanonicalMessages aliases bytes := by
  refine
    { ciphertext := WritesBack.canonical (fun bytes c hread => ?ciphertext) bytes
      share := WritesBack.canonical (fun bytes share hread => ?share) bytes
      logEquality := WritesBack.canonical (fun bytes proof hread => ?logEquality) bytes
      blinding := WritesBack.canonical (fun bytes proof hread => ?blinding) bytes }
  case ciphertext =>
    unfold Ciphertext.ofBytes? at hread
    split at hread
    case isFalse => cases hread
    split at hread
    case h_2 => cases hread
    case h_1 pad data hpad hdata =>
      cases hread
      exact h.element.append_eq_iff h.length_elementBytes hpad hdata
  case share =>
    unfold PartialDecryption.ofBytes? at hread
    split at hread
    case isFalse => cases hread
    obtain ⟨element, helement, rfl⟩ := Option.map_eq_some_iff.1 hread
    exact h.element bytes element helement
  case logEquality =>
    unfold LogEquality.ofBytes? at hread
    split at hread
    case isFalse => cases hread
    split at hread
    case h_2 => cases hread
    case h_1 challenge response hchallenge hresponse =>
      cases hread
      exact iff_of_true (h.scalars_append hchallenge hresponse) id
  case blinding =>
    unfold Blinding.ofBytes? at hread
    split at hread
    case isFalse => cases hread
    split at hread
    case h_2 => cases hread
    case h_1 challenge response hchallenge hresponse =>
      cases hread
      exact iff_of_true (h.scalars_append hchallenge hresponse) id

end PrimeGroup

/-! ## The two groups -/

theorem writesBack_scalar :
    WritesBack Curve.Scalar.ofBytes? Curve.Scalar.toBytes fun _ => False :=
  fun _ _ hread => iff_of_true (Curve.Scalar.toBytes_of_ofBytes? hread) id

theorem writesParts_ristretto255 : ristretto255.WritesParts [] where
  length_scalarBytes _ := Bytes.length_ofNat _ _
  length_elementBytes _ := Bytes.length_ofNat _ _
  scalar := writesBack_scalar
  element _ _ hread := iff_of_true (Curve.Ristretto.toBytes_of_ofBytes? hread) List.not_mem_nil

theorem writesParts_edwards25519 : edwards25519.WritesParts Curve.Affine.aliases where
  length_scalarBytes _ := Bytes.length_ofNat _ _
  length_elementBytes _ := Bytes.length_ofNat _ _
  scalar := writesBack_scalar
  element _ _ hread := Curve.Affine.toBytes_eq_iff hread

/-- **What of it holds in the two groups.**  In the ristretto255 group ciphertexts, shares and proofs
are written back as the bytes they were read from, whatever these are, and the bytes of an element are
the encoding of its point.  In the subgroup of the curve proofs are written back, and ciphertexts and
shares are just if no element in them is given by one of the aliases of the identity; for these are
accepted. -/
theorem canonical_ristretto255_edwards25519 (bytes : Bytes) :
    ristretto255.CanonicalMessages [] bytes ∧
    (∀ a, ristretto255.elementOfBytes? bytes = some a → Curve.Ristretto.encode a.toPoint = a) ∧
    edwards25519.CanonicalMessages Curve.Affine.aliases bytes ∧
    (bytes ∈ Curve.Affine.aliases → edwards25519.elementOfBytes? bytes = some 0) := by
  refine ⟨writesParts_ristretto255.messages bytes, fun a hread => Curve.Ristretto.encode_toPoint hread,
    writesParts_edwards25519.messages bytes, fun halias => ?_⟩
  obtain ⟨hread, -⟩ := Curve.Affine.ofBytes?_aliases bytes halias
  exact hread

example : Ciphertext.ofBytes? (⟨0, ristretto255.generator⟩ : Ciphertext ristretto255).toBytes =
    some (⟨0, ristretto255.generator⟩ : Ciphertext ristretto255) := by
  decide +kernel

/-- The identity with the sign of its zero `x` set, and the generator. -/
def aliasedBytes : Bytes := Bytes.ofNat 32 (1 + Nat.pow 2 255) ++ Curve.Affine.basePoint.toBytes

/-- **A ciphertext that is not written back**, and so is read from two byte strings. -/
theorem aliasedBytes_read :
    let c : Ciphertext edwards25519 := ⟨0, edwards25519.generator⟩
    Ciphertext.ofBytes? aliasedBytes = some c ∧ c.toBytes ≠ aliasedBytes ∧
      Ciphertext.ofBytes? c.toBytes = some c := by
  decide +kernel

end PlaintextEquivalence
