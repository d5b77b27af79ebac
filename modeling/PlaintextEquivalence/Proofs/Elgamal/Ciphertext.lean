import PlaintextEquivalence.Elgamal.Ciphertext
import PlaintextEquivalence.Proofs.Group.Lawful

/-!
# Calculating with ciphertexts

In a lawful group, ciphertexts form a space over the scalars, component by component, and decryption
is linear.

Principal results:
* `sum_smul` — the sum of multiples of a ciphertext is a multiple of it.
* `isDegenerate_smul` — when a multiple is degenerate.
* `decrypt_sub_eq_zero` — a ratio of two encryptions decrypts to the identity iff the same number was
  encrypted.
-/

set_option autoImplicit false

namespace PlaintextEquivalence

variable {G : PrimeGroup}

namespace Ciphertext

@[simp] theorem sub_pad (a b : Ciphertext G) : (a - b).pad = a.pad - b.pad := rfl

@[simp] theorem sub_data (a b : Ciphertext G) : (a - b).data = a.data - b.data := rfl

@[simp] theorem smul_pad (k : G.Scalar) (a : Ciphertext G) : (k • a).pad = k • a.pad := rfl

@[simp] theorem smul_data (k : G.Scalar) (a : Ciphertext G) : (k • a).data = k • a.data := rfl

@[ext] theorem ext {a b : Ciphertext G} (hpad : a.pad = b.pad) (hdata : a.data = b.data) : a = b := by
  cases a
  cases b
  exact congr (congrArg _ hpad) hdata

variable [PrimeGroup.Lawful G]

theorem zero_smul_eq (a : Ciphertext G) : (0 : G.Scalar) • a = 0 := by
  ext
  · exact zero_smul G.Scalar a.pad
  · exact zero_smul G.Scalar a.data

theorem add_smul_eq (k l : G.Scalar) (a : Ciphertext G) : (k + l) • a = k • a + l • a := by
  ext
  · exact add_smul k l a.pad
  · exact add_smul k l a.data

/-- The sum of multiples of a ciphertext is a multiple of it. -/
theorem sum_smul (ks : List G.Scalar) (a : Ciphertext G) :
    (ks.map (· • a)).foldl (· + ·) 0 = ks.sum • a := by
  have hfold : ∀ (ks : List G.Scalar) (k : G.Scalar),
      (ks.map (· • a)).foldl (· + ·) (k • a) = (ks.foldl (· + ·) k) • a := by
    intro ks
    induction ks with
    | nil => intro k; rfl
    | cons l ks ih =>
      intro k
      rw [List.map_cons, List.foldl_cons, ← add_smul_eq, ih, List.foldl_cons]
  rw [← zero_smul_eq a, hfold, List.sum_eq_foldl]

theorem isDegenerate_smul (k : G.Scalar) (a : Ciphertext G) :
    (k • a).isDegenerate = true ↔ k = 0 ∨ a.isDegenerate = true := by
  simp only [isDegenerate, smul_pad, smul_data, smul_eq_zero, Bool.or_eq_true, decide_eq_true_eq]
  tauto

/-! ## Decryption -/

theorem decrypt_smul (secret k : G.Scalar) (a : Ciphertext G) :
    (k • a).decrypt secret = k • a.decrypt secret := by
  simp only [decrypt, smul_pad, smul_data, smul_sub, smul_comm k secret]

theorem decrypt_sub (secret : G.Scalar) (a b : Ciphertext G) :
    (a - b).decrypt secret = a.decrypt secret - b.decrypt secret := by
  simp only [decrypt, sub_pad, sub_data, smul_sub]
  abel

theorem decrypt_encryptWith {key : PublicKey G} {secret : G.Scalar}
    (h : key.element = G.mulGenerator secret) (element : G.Element) (r : G.Scalar) :
    (key.encryptWith element r).decrypt secret = element := by
  simp only [decrypt, PublicKey.encryptWith, h, PrimeGroup.mulGenerator, smul_comm r secret,
    add_sub_cancel_right]

/-- A ratio of two encryptions decrypts to the identity iff the same number was encrypted. -/
theorem decrypt_sub_eq_zero {key : PublicKey G} {secret : G.Scalar}
    (h : key.element = G.mulGenerator secret) (v w : UInt64) (r s : G.Scalar) :
    (key.encryptWith (G.mulGenerator (G.ofWord v)) r -
      key.encryptWith (G.mulGenerator (G.ofWord w)) s).decrypt secret = 0 ↔ v = w := by
  rw [decrypt_sub, decrypt_encryptWith h, decrypt_encryptWith h, sub_eq_zero]
  constructor
  · intro heq
    exact PrimeGroup.ofWord_injective (PrimeGroup.mulGenerator_injective heq)
  · rintro rfl
    rfl

end Ciphertext

end PlaintextEquivalence
