import PlaintextEquivalence.Codec.Election
import PlaintextEquivalence.Proofs.Certificate.Soundness
import PlaintextEquivalence.Proofs.Codec.Record
import PlaintextEquivalence.Proofs.Group.Encoded

/-!
# Elections and certificates are read back

Where scalars and elements are read from their bytes, so is all that is made of them: proofs, shares and
certificates of any size, with any text for a name.  An election is read back if its keys are keys
that their bytes stand for; the identity is no such key, though it may be the key of an element.

Principal results:
* `PublicKey.IsAccepted.ofBytes?_bytes` — an accepted key is the key that its bytes stand for.
* `Codec.readsBack_ballotCertificate`, `Codec.readsBack_election` — certificates and elections are read
  back.
* `Codec.roundTrips_outputs` — reading what was written gives the same value, which is written the same
  again.
-/

set_option autoImplicit false

namespace PlaintextEquivalence

open PrimeGroup (Encoded Lawful)

variable {G : PrimeGroup}

/-! ## Keys -/

namespace PublicKey

/-- A key is that of an element, or was read from bytes; keys are made in no other way. -/
def IsMade (key : PublicKey G) : Prop :=
  (∃ element, key = ofElement element) ∨ ∃ bytes, ofBytes? bytes = .ok key

/-- A key whose bytes stand for a key. -/
def IsAccepted (key : PublicKey G) : Prop :=
  key.IsMade ∧ ∃ other : PublicKey G, ofBytes? key.bytes = .ok other

/-- The bytes of an element stand for its key, unless it is the identity. -/
theorem ofBytes?_elementBytes [hG : Encoded G] (element : G.Element) :
    ofBytes? (G.elementBytes element) =
      if element = 0 then .error .identityKey else .ok (ofElement element) := by
  rw [ofBytes?, if_neg (not_not.2 (hG.length_elementBytes element)),
    hG.elementOfBytes?_elementBytes element]
  rfl

/-- **An accepted key** is the key that its bytes stand for. -/
theorem IsAccepted.ofBytes?_bytes [Encoded G] {key : PublicKey G} (h : key.IsAccepted) :
    ofBytes? key.bytes = .ok key := by
  obtain ⟨⟨element, rfl⟩ | ⟨bytes, hbytes⟩, other, hother⟩ := h
  · change ofBytes? (G.elementBytes element) = _ at hother ⊢
    rw [ofBytes?_elementBytes] at hother ⊢
    split at hother
    case isTrue => cases hother
    case isFalse hne => exact if_neg hne
  · rw [PublicKey.ofBytes?_bytes hbytes]
    exact hbytes

/-- The key of a secret number that is not zero is accepted. -/
theorem isAccepted_ofWord [Lawful G] [Encoded G] {word : UInt64} (h : word ≠ 0) :
    (ofSecret (G.ofWord word)).IsAccepted := by
  have hsecret : G.ofWord word ≠ 0 := PrimeGroup.ofWord_injective.ne h
  have hzero : G.mulGenerator 0 = 0 := zero_smul G.Scalar G.generator
  have helement : G.mulGenerator (G.ofWord word) ≠ 0 := fun h =>
    hsecret (PrimeGroup.mulGenerator_injective (h.trans hzero.symm))
  exact ⟨.inl ⟨_, rfl⟩, _, (ofBytes?_elementBytes _).trans (if_neg helement)⟩

end PublicKey

/-- The joint key and the guardians' keys are accepted. -/
def KeySet.AreAccepted (keys : KeySet G) : Prop :=
  ∀ key ∈ keys.sharedKey :: keys.participantKeys, key.IsAccepted

namespace Codec

theorem readsBack_digest (h : Digest) : digest.ReadsBack h := by
  have hblock : Bytes.block? 32 h.toList = some h := dif_pos h.length_toList
  exact (readsBack_bytes _).refine (by rw [hblock])

theorem readsBack_publicKey [Encoded G] {key : PublicKey G} (h : key.IsAccepted) :
    (publicKey G).ReadsBack key :=
  (readsBack_bytes _).refine (by rw [h.ofBytes?_bytes]; rfl)

section

variable [hG : Encoded G]

theorem readsBack_scalar (k : G.Scalar) : (scalar G).ReadsBack k :=
  (readsBack_bytes _).refine (by
    rw [if_neg (not_not.2 (hG.length_scalarBytes k)), hG.scalarOfBytes?_scalarBytes k])

theorem readsBack_element (e : G.Element) : (element G).ReadsBack e :=
  (readsBack_bytes _).refine (by
    rw [if_neg (not_not.2 (hG.length_elementBytes e)), hG.elementOfBytes?_elementBytes e])

theorem readsBack_ciphertext (c : Ciphertext G) : (ciphertext G).ReadsBack c :=
  readsBack_ofFields (by simp [Fields.names]) ⟨readsBack_element _, readsBack_element _, trivial⟩ rfl

theorem readsBack_logEquality (p : LogEquality G) : (logEquality G).ReadsBack p :=
  readsBack_ofFields (by simp [Fields.names]) ⟨readsBack_scalar _, readsBack_scalar _, trivial⟩ rfl

theorem readsBack_blinding (p : Blinding G) : (blinding G).ReadsBack p :=
  readsBack_ofFields (by simp [Fields.names]) ⟨readsBack_scalar _, readsBack_scalar _, trivial⟩ rfl

theorem readsBack_partialDecryption (d : PartialDecryption G) : (partialDecryption G).ReadsBack d :=
  readsBack_ofFields (by simp [Fields.names]) ⟨readsBack_element _, trivial⟩ rfl

theorem readsBack_provedShare (s : ProvedShare G) : (provedShare G).ReadsBack s :=
  readsBack_ofFields (by simp [Fields.names])
    ⟨readsBack_word64 _ _, readsBack_partialDecryption _, readsBack_logEquality _, trivial⟩ rfl

theorem readsBack_decryptionProof (p : DecryptionProof G) : (decryptionProof G).ReadsBack p :=
  readsBack_ofFields (by simp [Fields.names])
    ⟨readsBack_list fun s _ => readsBack_provedShare s, trivial⟩ rfl

/-! ## Certificates -/

theorem readsBack_selectionCertificate (s : SelectionCertificate G) :
    (selectionCertificate G).ReadsBack s :=
  readsBack_ofFields (by simp [Fields.names])
    ⟨readsBack_text _, readsBack_ciphertext _, readsBack_ciphertext _, readsBack_blinding _,
      readsBack_element _, readsBack_decryptionProof _, trivial⟩ rfl

theorem readsBack_contestCertificate (c : ContestCertificate G) : (contestCertificate G).ReadsBack c :=
  readsBack_ofFields (by simp [Fields.names])
    ⟨readsBack_text _, readsBack_list fun s _ => readsBack_selectionCertificate s, trivial⟩ rfl

/-- Certificates are read back, whatever they certify. -/
theorem readsBack_ballotCertificate (b : BallotCertificate G) : (ballotCertificate G).ReadsBack b :=
  readsBack_ofFields (by simp [Fields.names])
    ⟨readsBack_text _, readsBack_bool _, readsBack_list fun c _ => readsBack_contestCertificate c,
      trivial⟩ rfl

/-! ## Elections -/

theorem readsBack_thresholdParams (p : ThresholdParams) : thresholdParams.ReadsBack p :=
  readsBack_ofFields (by simp [Fields.names]) ⟨readsBack_word64 _ _, readsBack_word64 _ _, trivial⟩ rfl

theorem readsBack_keySet {keys : KeySet G} (h : keys.AreAccepted) : (keySet G).ReadsBack keys := by
  obtain ⟨hshared, hparticipants⟩ := List.forall_mem_cons.1 h
  exact readsBack_ofFields (by simp [Fields.names])
    ⟨readsBack_thresholdParams _, readsBack_publicKey hshared,
      readsBack_list fun key hkey => readsBack_publicKey (hparticipants key hkey), trivial⟩ rfl

/-- An election is read back if its keys are accepted. -/
theorem readsBack_election {e : Election G} (h : e.keys.AreAccepted) : (election G).ReadsBack e :=
  readsBack_ofFields (by simp [Fields.names]) ⟨readsBack_digest _, readsBack_keySet h, trivial⟩ rfl

end

/-! ## Round trips -/

/-- The text of a value is read as the same value, which is written as the same text again. -/
def RoundTrips {α : Type} (codec : Codec α) (a : α) : Prop :=
  ∃ b, codec.ofText? (codec.toText a) = .ok b ∧ b = a ∧ codec.toText b = codec.toText a

theorem ReadsBack.roundTrips {α : Type} {codec : Codec α} {a : α} (h : codec.ReadsBack a) :
    codec.RoundTrips a :=
  ⟨a, h.ofText?_toText, rfl, rfl⟩

/-- **Certificates, decryptions and elections** are read from the texts that are written of them, and
written as the same texts again: all certificates, decryptions and shares of them, and the elections
whose keys are accepted. -/
theorem roundTrips_outputs [Encoded G] :
    (∀ certificate : BallotCertificate G, (ballotCertificate G).RoundTrips certificate) ∧
    (∀ proof : DecryptionProof G, (decryptionProof G).RoundTrips proof) ∧
    (∀ share : PartialDecryption G, (partialDecryption G).RoundTrips share) ∧
    ∀ e : Election G, e.keys.AreAccepted → (election G).RoundTrips e :=
  ⟨fun certificate => (readsBack_ballotCertificate certificate).roundTrips,
    fun proof => (readsBack_decryptionProof proof).roundTrips,
    fun share => (readsBack_partialDecryption share).roundTrips,
    fun _ haccepted => (readsBack_election haccepted).roundTrips⟩

end Codec

namespace Small

theorem areAccepted_keys : keys.AreAccepted := by
  have hkeys : keys.sharedKey :: keys.participantKeys =
      [5, 12, 19, 26].map fun word => .ofSecret (Group.ofWord word) := rfl
  have hnonzero : ∀ word ∈ ([5, 12, 19, 26] : List UInt64), word ≠ 0 := by simp
  rw [KeySet.AreAccepted, hkeys, List.forall_mem_map]
  exact fun word hword => PublicKey.isAccepted_ofWord (hnonzero word hword)

/-- A small certificate whose name has to be escaped, a decryption with its share and an election are read
from their texts. -/
theorem roundTrips_small :
    election.keys.AreAccepted ∧
    (Codec.ballotCertificate Group).RoundTrips { certificate with ballotId := "\"é\u0001\n" } ∧
    (Codec.decryptionProof Group).RoundTrips
      (certified "yes" ⟨Group.ofWord 2, Group.ofWord 10⟩).decryption ∧
    (Codec.partialDecryption Group).RoundTrips ⟨Group.ofWord 24⟩ ∧
    (Codec.election Group).RoundTrips election :=
  have h := Codec.roundTrips_outputs (G := Group)
  ⟨areAccepted_keys, h.1 _, h.2.1 _, h.2.2.1 _, h.2.2.2 _ areAccepted_keys⟩

end Small

end PlaintextEquivalence
