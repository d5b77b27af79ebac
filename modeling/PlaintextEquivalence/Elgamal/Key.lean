import PlaintextEquivalence.Group.Basic

/-!
# Keys

A public key is a group element together with the bytes it was read from, which are what proofs
absorb and what two keys are compared by.  A secret key is a scalar.

What is modelled:
* `PublicKey` — the same; `ofBytes?` is `from_bytes`, and `ofElement` is `from_element`.
* `KeyError` — `PublicKeyConversionError`.
* `secretOfBytes?` — `SecretKey.from_bytes`.
* `Keypair` — the same; `draw` is `generate`.

Principal results:
* `ofBytes?_bytes` — a key that was read keeps the bytes it was read from.
* `ofBytes?_ne_identity` — a key that was read is not the identity.
-/

namespace PlaintextEquivalence

/-- A public key: an element and the bytes that stand for it. -/
structure PublicKey (G : PrimeGroup) where
  bytes : Bytes
  element : G.Element

/-- Why bytes are no public key. -/
inductive KeyError where
  | invalidByteSize
  | invalidGroupElement
  | identityKey
  deriving DecidableEq, Repr

def KeyError.message : KeyError → String
  | .invalidByteSize => "invalid size of the byte buffer"
  | .invalidGroupElement => "byte buffer has correct length, but does not represent a group element"
  | .identityKey => "underlying group element is the group identity"

namespace PublicKey

variable {G : PrimeGroup}

/-- Keys are compared by their bytes. -/
instance : BEq (PublicKey G) := ⟨fun a b => a.bytes == b.bytes⟩

/-- The key of an element, which may be the identity. -/
def ofElement (element : G.Element) : PublicKey G := ⟨G.elementBytes element, element⟩

/-- The key that bytes stand for. -/
def ofBytes? (bytes : Bytes) : Except KeyError (PublicKey G) :=
  if bytes.length ≠ G.elementSize then .error .invalidByteSize
  else match G.elementOfBytes? bytes with
    | none => .error .invalidGroupElement
    | some element => if element = 0 then .error .identityKey else .ok ⟨bytes, element⟩

/-- The key of a secret. -/
def ofSecret (secret : G.Scalar) : PublicKey G := ofElement (G.mulGenerator secret)

theorem ofBytes?_bytes {bytes : Bytes} {key : PublicKey G} (h : ofBytes? bytes = .ok key) :
    key.bytes = bytes := by
  unfold ofBytes? at h
  split at h
  · cases h
  · split at h
    · cases h
    · split at h
      · cases h
      · cases h; rfl

theorem ofBytes?_ne_identity {bytes : Bytes} {key : PublicKey G} (h : ofBytes? bytes = .ok key) :
    key.element ≠ 0 := by
  unfold ofBytes? at h
  split at h
  · cases h
  · split at h
    · cases h
    · split at h
      · cases h
      · rename_i hne
        cases h
        exact hne

end PublicKey

/-- The secret scalar that bytes stand for. -/
def secretOfBytes? (G : PrimeGroup) (bytes : Bytes) : Option G.Scalar :=
  if bytes.length = G.scalarSize then G.scalarOfBytes? bytes else none

/-- A secret key with its public key. -/
structure Keypair (G : PrimeGroup) where
  secret : G.Scalar
  publicKey : PublicKey G

namespace Keypair

variable {G : PrimeGroup}

/-- The keypair of a secret. -/
def ofSecret (secret : G.Scalar) : Keypair G := ⟨secret, PublicKey.ofSecret secret⟩

/-- A random keypair. -/
def draw (tape : Tape) : Keypair G × Tape :=
  let (secret, tape) := G.draw tape
  (ofSecret secret, tape)

/-- Random keypairs, drawn one after the other. -/
def drawMany : Nat → Tape → List (Keypair G) × Tape
  | 0, tape => ([], tape)
  | n + 1, tape =>
    let (pair, tape) := draw tape
    let (pairs, tape) := drawMany n tape
    (pair :: pairs, tape)

end Keypair

end PlaintextEquivalence
