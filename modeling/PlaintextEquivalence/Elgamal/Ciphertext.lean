import PlaintextEquivalence.Elgamal.Key

/-!
# Ciphertexts

An ElGamal ciphertext is a pad `[r] G` and a datum `v + [r] K`.  Ciphertexts are added, subtracted
and multiplied component by component, which does the same to the encrypted values; the difference
of two ciphertexts is called their ratio.

Models `Ciphertext`, whose `random_element` is the pad and whose `blinded_element` is the datum;
`encrypt` and `encryptElement` are `PublicKey.encrypt` and `encrypt_element`, and `decrypt` is
`SecretKey.decrypt_to_element`.
-/

namespace PlaintextEquivalence

/-- An ElGamal ciphertext. -/
structure Ciphertext (G : PrimeGroup) where
  pad : G.Element
  data : G.Element
  deriving DecidableEq

namespace Ciphertext

variable {G : PrimeGroup}

/-- The encryption of zero without randomness. -/
def zero : Ciphertext G := ⟨0, 0⟩

instance : Zero (Ciphertext G) := ⟨zero⟩
instance : Add (Ciphertext G) := ⟨fun a b => ⟨a.pad + b.pad, a.data + b.data⟩⟩
instance : Sub (Ciphertext G) := ⟨fun a b => ⟨a.pad - b.pad, a.data - b.data⟩⟩
instance : SMul G.Scalar (Ciphertext G) := ⟨fun k a => ⟨k • a.pad, k • a.data⟩⟩

/-- A ciphertext is degenerate if a component is the identity. -/
def isDegenerate (a : Ciphertext G) : Bool := a.pad = 0 || a.data = 0

/-- The pad, then the datum. -/
def toBytes (a : Ciphertext G) : Bytes := G.elementBytes a.pad ++ G.elementBytes a.data

/-- The ciphertext that bytes stand for. -/
def ofBytes? (bytes : Bytes) : Option (Ciphertext G) :=
  if bytes.length = 2 * G.elementSize then
    match G.elementOfBytes? (bytes.take G.elementSize),
      G.elementOfBytes? (bytes.drop G.elementSize) with
    | some pad, some data => some ⟨pad, data⟩
    | _, _ => none
  else none

/-- The decryption under a secret key. -/
def decrypt (secret : G.Scalar) (a : Ciphertext G) : G.Element := a.data - secret • a.pad

end Ciphertext

namespace PublicKey

variable {G : PrimeGroup}

/-- The encryption of an element with given randomness. -/
def encryptWith (key : PublicKey G) (element : G.Element) (r : G.Scalar) : Ciphertext G :=
  ⟨G.mulGenerator r, element + r • key.element⟩

/-- The encryption of an element. -/
def encryptElement (key : PublicKey G) (element : G.Element) (tape : Tape) : Ciphertext G × Tape :=
  let (r, tape) := G.draw tape
  (key.encryptWith element r, tape)

/-- The encryption of a number, as a multiple of the generator. -/
def encrypt (key : PublicKey G) (value : UInt64) (tape : Tape) : Ciphertext G × Tape :=
  key.encryptElement (G.mulGenerator (G.ofWord value)) tape

end PublicKey

end PlaintextEquivalence
