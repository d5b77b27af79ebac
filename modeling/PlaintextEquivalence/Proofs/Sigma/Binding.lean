import PlaintextEquivalence.Proofs.Elgamal.Ciphertext
import PlaintextEquivalence.Proofs.Group.Encoded
import PlaintextEquivalence.Proofs.Sharing.KeySet
import PlaintextEquivalence.Sigma.Blinding

/-!
# What challenges are bound to

A challenge is a function of a transcript, so a proof is about all that its transcript has taken in and
about nothing else.  If different elements have different bytes, the transcript of a proof tells the
whole statement: the election, the keys, the ciphertexts and the commitments.  One lemma says so for each
function that appends, and the transcripts are put together from them.

Principal results:
* `append_inj`, `appendWord_inj`, `appendElement_inj` — what was appended last can be told.
* `Blinding.transcript_inj` — what is blinded, and for which election.
* `ShareChallenge.transcript_inj` — whose share of which decryption is proved, and in which election.
* `challenges_bound` — both kinds of challenges, and that they are never taken from the same entries.
-/

set_option autoImplicit false

namespace PlaintextEquivalence

/-! ## Transcripts -/

namespace Transcript

variable {t t' : Transcript} {label : String}

/-- Transcripts of one protocol are told apart by their entries. -/
theorem entries_eq_iff (hlabel : t.label = t'.label) : t.entries = t'.entries ↔ t = t' := by
  constructor
  · intro hentries
    cases t
    cases t'
    exact congr (congrArg _ hlabel) hentries
  · exact congrArg _

theorem append_inj {data data' : Bytes} :
    t.append label data = t'.append label data' ↔ t = t' ∧ data = data' := by
  constructor
  · intro h
    obtain ⟨hlabel, hentries⟩ := Transcript.mk.inj h
    obtain ⟨hbefore, hlast⟩ := List.append_inj' hentries rfl
    exact ⟨(entries_eq_iff hlabel).1 hbefore, by simpa using hlast⟩
  · rintro ⟨rfl, rfl⟩
    rfl

theorem appendWord_inj {n n' : UInt64} :
    t.appendWord label n = t'.appendWord label n' ↔ t = t' ∧ n = n' := by
  have hread : ∀ n : UInt64, (Bytes.ofNat 8 n.toNat).toNat = n.toNat := fun n =>
    Bytes.toNat_ofNat n.toNat_lt
  rw [appendWord, appendWord, append_inj]
  refine and_congr_right fun _ => ⟨fun hbytes => ?_, fun h => by rw [h]⟩
  have hnumbers := congrArg Bytes.toNat hbytes
  rw [hread, hread] at hnumbers
  exact UInt64.toNat_inj.1 hnumbers

theorem beginProof_inj {name : String} : t.beginProof name = t'.beginProof name ↔ t = t' := by
  rw [beginProof, beginProof, append_inj, and_iff_left rfl]

variable {G : PrimeGroup}

theorem appendElement_inj (hinj : Function.Injective G.elementBytes) {a b : G.Element} :
    t.appendElement label a = t'.appendElement label b ↔ t = t' ∧ a = b := by
  rw [appendElement, appendElement, append_inj, hinj.eq_iff]

end Transcript

open Transcript

variable {G : PrimeGroup} {t t' : Transcript}

/-! ## Elections and keys -/

theorem KeySet.commit_inj {keys keys' : KeySet G} :
    keys.commit t = keys'.commit t' ↔
      t = t' ∧ keys.params = keys'.params ∧ keys.sharedKey.bytes = keys'.sharedKey.bytes := by
  have hparams : keys.params = keys'.params ↔
      keys.params.shares = keys'.params.shares ∧ keys.params.threshold = keys'.params.threshold := by
    rw [ThresholdParams.mk.injEq]
  simp only [commit, append_inj, appendWord_inj, hparams, and_assoc]

namespace Election

variable {election election' : Election G}

theorem commit_inj :
    election.commit t = election'.commit t' ↔
      t = t' ∧ election.extendedHash = election'.extendedHash ∧
        election.keys.params = election'.keys.params ∧
        election.jointKey.bytes = election'.jointKey.bytes := by
  simp only [commit, KeySet.commit_inj, append_inj, Vector.toList_inj, jointKey, and_assoc]

theorem shareTranscript_inj {index index' : UInt64} :
    election.shareTranscript index = election'.shareTranscript index' ↔
      election.extendedHash = election'.extendedHash ∧
        election.keys.params = election'.keys.params ∧
        election.jointKey.bytes = election'.jointKey.bytes ∧ index = index' := by
  simp only [shareTranscript, beginProof_inj, appendWord_inj, commit_inj, true_and, and_assoc]

end Election

/-! ## Proofs of blinding -/

/-- **A challenge for a blinding is bound** to the election's hash and joint key, the ratio, its blinding
and the commitments. -/
theorem Blinding.transcript_inj (hinj : Function.Injective G.elementBytes)
    {election election' : Election G} {ratio ratio' blinded blinded' : Ciphertext G}
    {commitments commitments' : Ciphertext G} :
    transcript election ratio blinded commitments =
        transcript election' ratio' blinded' commitments' ↔
      election.extendedHash = election'.extendedHash ∧
        election.jointKey.bytes = election'.jointKey.bytes ∧
        ratio = ratio' ∧ blinded = blinded' ∧ commitments = commitments' := by
  simp only [transcript, append_inj, appendElement_inj hinj, beginProof_inj, Vector.toList_inj,
    Ciphertext.ext_iff, true_and, and_true, and_assoc]

theorem Blinding.label_transcript (election : Election G) (ratio blinded commitments : Ciphertext G) :
    (transcript election ratio blinded commitments).label = "pep_blinding" :=
  rfl

/-- A challenge for a blinding has ten entries. -/
theorem Blinding.length_entries (election : Election G) (ratio blinded commitments : Ciphertext G) :
    (transcript election ratio blinded commitments).entries.length = 10 :=
  rfl

/-- A verifier compares the challenge in the proof with the one that it derives, for the commitments that
the proof answers to. -/
theorem Blinding.verify_eq_ok {proof : Blinding G} {election : Election G}
    {ratio blinded : Ciphertext G} :
    proof.verify election ratio blinded = .ok () ↔
      challengeFor election ratio blinded
        (expectedCommitments ratio blinded proof.challenge proof.response) = proof.challenge := by
  unfold verify
  simp

/-! ## Proofs of shares -/

namespace LogEquality

/-- What the challenge of a proof is taken from. -/
def absorbed (t : Transcript) (base : PublicKey G) (powers commitments : G.Element × G.Element) :
    Transcript :=
  ((statement t base powers).appendElement "[x]G" commitments.1).appendElement "[x]K" commitments.2

theorem statement_inj (hinj : Function.Injective G.elementBytes) {base base' : PublicKey G}
    {powers powers' : G.Element × G.Element} :
    statement t base powers = statement t' base' powers' ↔
      t = t' ∧ base.bytes = base'.bytes ∧ powers = powers' := by
  simp only [statement, append_inj, appendElement_inj hinj, beginProof_inj, Prod.ext_iff, and_assoc]

theorem absorbed_inj (hinj : Function.Injective G.elementBytes) {base base' : PublicKey G}
    {powers powers' commitments commitments' : G.Element × G.Element} :
    absorbed t base powers commitments = absorbed t' base' powers' commitments' ↔
      t = t' ∧ base.bytes = base'.bytes ∧ powers = powers' ∧ commitments = commitments' := by
  have hcommitments : commitments = commitments' ↔
      commitments.1 = commitments'.1 ∧ commitments.2 = commitments'.2 := Prod.ext_iff
  rw [absorbed, absorbed, appendElement_inj hinj, appendElement_inj hinj, statement_inj hinj,
    hcommitments]
  simp only [and_assoc]

/-- A verifier compares the challenge in the proof with the one for the commitments that it restores. -/
theorem verify_eq_ok {proof : LogEquality G} {base : PublicKey G} {powers : G.Element × G.Element} :
    (proof.verify base powers t).1 = .ok () ↔
      ((absorbed t base powers (proof.commitments base powers)).challengeScalar G "c").1 =
        proof.challenge := by
  have hverify : (proof.verify base powers t).1 =
      if ((absorbed t base powers (proof.commitments base powers)).challengeScalar G "c").1 =
          proof.challenge then .ok ()
      else .error .challengeMismatch := rfl
  simp [hverify]

end LogEquality

/-- What the challenge for a guardian's share of a decryption is derived from. -/
structure ShareChallenge (G : PrimeGroup) where
  election : Election G
  index : UInt64
  /-- The pad of the ciphertext that is decrypted. -/
  pad : G.Element
  /-- The guardian's key. -/
  key : G.Element
  /-- The guardian's share, which has to be of the pad what the key is of the generator. -/
  share : G.Element
  commitments : G.Element × G.Element

namespace ShareChallenge

def transcript (derived : ShareChallenge G) : Transcript :=
  LogEquality.absorbed (derived.election.shareTranscript derived.index) (.ofElement derived.pad)
    (derived.key, derived.share) derived.commitments

/-- The challenge itself. -/
def value (derived : ShareChallenge G) : G.Scalar := (derived.transcript.challengeScalar G "c").1

/-- What a guardian with a secret derives, with a random number to commit to. -/
def ofProver (election : Election G) (index : UInt64) (secret : G.Scalar) (pad : G.Element)
    (x : G.Scalar) : ShareChallenge G :=
  ⟨election, index, pad, G.mulGenerator secret, secret • pad, (G.mulGenerator x, x • pad)⟩

/-- What a verifier derives for the key of a guardian: the commitments are those that the proof answers
to. -/
def ofVerifier (election : Election G) (index : UInt64) (key : PublicKey G) (pad share : G.Element)
    (proof : LogEquality G) : ShareChallenge G :=
  ⟨election, index, pad, key.element, share,
    proof.commitments (.ofElement pad) (key.element, share)⟩

/-- **A challenge for a share is bound** to the election, the guardian, the ciphertext's pad, the key, the
share and the commitments. -/
theorem transcript_inj (hinj : Function.Injective G.elementBytes) {derived derived' : ShareChallenge G} :
    derived.transcript = derived'.transcript ↔
      derived.election.extendedHash = derived'.election.extendedHash ∧
        derived.election.keys.params = derived'.election.keys.params ∧
        derived.election.jointKey.bytes = derived'.election.jointKey.bytes ∧
        derived.index = derived'.index ∧ derived.pad = derived'.pad ∧ derived.key = derived'.key ∧
        derived.share = derived'.share ∧ derived.commitments = derived'.commitments := by
  simp only [transcript, LogEquality.absorbed_inj hinj, Election.shareTranscript_inj,
    PublicKey.ofElement, hinj.eq_iff, Prod.mk.injEq, and_assoc]

/-- The challenge in a guardian's proof. -/
theorem challenge_proveShare (election : Election G) (index : UInt64) (secret : G.Scalar)
    (ciphertext : Ciphertext G) (tape : Tape) :
    (election.proveShare index secret ciphertext tape).1.2.challenge =
      (ofProver election index secret ciphertext.pad (G.draw tape).1).value :=
  rfl

/-- A verifier compares the challenge in the proof with the one that it derives. -/
theorem verifyShare_eq_ok {election : Election G} {share : PartialDecryption G}
    {ciphertext : Ciphertext G} {index : UInt64} {proof : LogEquality G} :
    election.verifyShare share ciphertext index proof = .ok () ↔
      ∃ key, election.keys.participantKey? index = some key ∧
        (ofVerifier election index key ciphertext.pad share.element proof).value =
          proof.challenge := by
  unfold Election.verifyShare
  cases hkey : election.keys.participantKey? index with
  | none => simp
  | some key =>
    simp only [Option.some.injEq, exists_eq_left']
    exact LogEquality.verify_eq_ok

theorem label_transcript (derived : ShareChallenge G) :
    derived.transcript.label = "pep_decryption_share" :=
  rfl

/-- A challenge for a share has twelve entries. -/
theorem length_entries (derived : ShareChallenge G) : derived.transcript.entries.length = 12 := rfl

end ShareChallenge

/-! ## Both challenges -/

/-- **Challenges are bound to the whole statement.**  The entries that a challenge for a blinding is taken
from are the same just if the elections' hashes, the joint keys' bytes and all six elements are; the
entries that a challenge for a share is taken from, by a guardian or by a verifier, are the same just if
what it is derived from is; and entries of the two kinds are never the same, nor are the labels before
them.  Both challenges are taken from these entries, and the verifiers accept a proof just if the
challenge in it is the one taken. -/
theorem challenges_bound (hinj : Function.Injective G.elementBytes) :
    (∀ (election election' : Election G)
        (ratio ratio' blinded blinded' commitments commitments' : Ciphertext G),
      (Blinding.transcript election ratio blinded commitments).entries =
          (Blinding.transcript election' ratio' blinded' commitments').entries ↔
        election.extendedHash = election'.extendedHash ∧
          election.jointKey.bytes = election'.jointKey.bytes ∧
          ratio = ratio' ∧ blinded = blinded' ∧ commitments = commitments') ∧
    (∀ derived derived' : ShareChallenge G,
      derived.transcript.entries = derived'.transcript.entries ↔
        derived.election.extendedHash = derived'.election.extendedHash ∧
          derived.election.keys.params = derived'.election.keys.params ∧
          derived.election.jointKey.bytes = derived'.election.jointKey.bytes ∧
          derived.index = derived'.index ∧ derived.pad = derived'.pad ∧ derived.key = derived'.key ∧
          derived.share = derived'.share ∧ derived.commitments = derived'.commitments) ∧
    (∀ (election : Election G) (index : UInt64) (secret : G.Scalar) (ciphertext : Ciphertext G)
        (tape : Tape),
      (election.proveShare index secret ciphertext tape).1.2.challenge =
        (ShareChallenge.ofProver election index secret ciphertext.pad (G.draw tape).1).value) ∧
    (∀ (election : Election G) (share : PartialDecryption G) (ciphertext : Ciphertext G)
        (index : UInt64) (proof : LogEquality G),
      election.verifyShare share ciphertext index proof = .ok () ↔
        ∃ key, election.keys.participantKey? index = some key ∧
          (ShareChallenge.ofVerifier election index key ciphertext.pad share.element proof).value =
            proof.challenge) ∧
    (∀ (election : Election G) (ratio blinded commitments : Ciphertext G),
      Blinding.challengeFor election ratio blinded commitments =
        ((Blinding.transcript election ratio blinded commitments).challengeScalar G "c").1) ∧
    (∀ (election : Election G) (ratio blinded : Ciphertext G) (proof : Blinding G),
      let restored := Blinding.expectedCommitments ratio blinded proof.challenge proof.response
      proof.verify election ratio blinded = .ok () ↔
        ((Blinding.transcript election ratio blinded restored).challengeScalar G "c").1 =
          proof.challenge) ∧
    (∀ derived : ShareChallenge G,
      derived.value = (derived.transcript.challengeScalar G "c").1) ∧
    ∀ (election : Election G) (ratio blinded commitments : Ciphertext G) (derived : ShareChallenge G),
      (Blinding.transcript election ratio blinded commitments).label ≠ derived.transcript.label ∧
        (Blinding.transcript election ratio blinded commitments).entries ≠
          derived.transcript.entries := by
  refine ⟨?blinding, ?share, ShareChallenge.challenge_proveShare, ?verified, fun _ _ _ _ => rfl,
    fun _ _ _ _ => Blinding.verify_eq_ok, fun _ => rfl, ?apart⟩
  case blinding =>
    intro election election' ratio ratio' blinded blinded' commitments commitments'
    rw [entries_eq_iff (by rw [Blinding.label_transcript, Blinding.label_transcript]),
      Blinding.transcript_inj hinj]
  case share =>
    intro derived derived'
    rw [entries_eq_iff (by rw [ShareChallenge.label_transcript, ShareChallenge.label_transcript]),
      ShareChallenge.transcript_inj hinj]
  case verified =>
    intro election share ciphertext index proof
    exact ShareChallenge.verifyShare_eq_ok
  case apart =>
    intro election ratio blinded commitments derived
    constructor
    · rw [Blinding.label_transcript, ShareChallenge.label_transcript]
      decide
    · intro hentries
      have hlength := congrArg List.length hentries
      rw [Blinding.length_entries, ShareChallenge.length_entries] at hlength
      exact absurd hlength (by decide)

/-! ## Small challenges -/

namespace Small

/-- The election of three guardians tells a ratio from its blinding, and the shares of two guardians with
one key from each other. -/
theorem bound_small :
    let ratio : Ciphertext Group := ⟨Group.ofWord 2, Group.ofWord 11⟩
    let blinded : Ciphertext Group := ⟨Group.ofWord 10, Group.ofWord 55⟩
    let election : Election Group := ⟨Vector.replicate 32 0, keys⟩
    let derived (index : UInt64) : ShareChallenge Group :=
      .ofProver election index (Group.ofWord 12) ratio.pad (Group.ofWord 4)
    Function.Injective Group.elementBytes ∧
      (Blinding.transcript election ratio blinded 0).entries ≠
        (Blinding.transcript election blinded ratio 0).entries ∧
      (derived 0).transcript.entries ≠ (derived 1).transcript.entries := by
  intro ratio blinded election derived
  have hinj : Function.Injective Group.elementBytes := PrimeGroup.elementBytes_injective
  obtain ⟨hblinding, hshare, -⟩ := challenges_bound hinj
  refine ⟨hinj, fun h => ?_, fun h => ?_⟩
  · obtain ⟨-, -, hratio, -⟩ := (hblinding _ _ _ _ _ _ _ _).1 h
    exact absurd hratio (by decide)
  · obtain ⟨-, -, -, hindex, -⟩ := (hshare _ _).1 h
    exact absurd hindex (by decide)

end Small

end PlaintextEquivalence
