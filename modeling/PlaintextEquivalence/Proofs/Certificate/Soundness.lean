import PlaintextEquivalence.Proofs.Certificate.Audit
import PlaintextEquivalence.Proofs.Election.Board

/-!
# What an audit guarantees

An audit checks proofs, and proofs can be false with small probability.  If those that it accepts
are for true statements, the verdict is right: no selection is blinded by zero, every selection is
decrypted as it should be, and the ballots are found equal iff every ratio decrypts to the identity.

Principal results:
* `verdict_of_verify` — the verdict of a certificate that passes an audit.
-/

set_option autoImplicit false

namespace PlaintextEquivalence

open Polynomial

variable {G : PrimeGroup} [hG : PrimeGroup.Lawful G]

/-- The accepted proofs of a selection are for true statements: every share is the multiple of the pad
by the value of the polynomial at the guardian's point, and the blinding is a multiple of the ratio. -/
structure SelectionCertificate.IsTrue (P : G.Scalar[X]) (s : SelectionCertificate G) : Prop where
  shares : ∀ share ∈ s.decryption.shares,
    share.share.element = P.eval ((share.index.toNat + 1 : ℕ) : G.Scalar) • s.blinded.pad
  blinding : ∃ exponent : G.Scalar, s.blinded = exponent • s.ratio

/-- In a selection that passes, the exponent of the blinding is not zero. -/
theorem SelectionCertificate.Passes.exponent_ne_zero {election : Election G}
    {s : SelectionCertificate G} (h : s.Passes election) {exponent : G.Scalar}
    (hexponent : s.blinded = exponent • s.ratio) : exponent ≠ 0 := by
  intro hzero
  have hdegenerate : s.blinded.isDegenerate = true := by
    rw [hexponent, Ciphertext.isDegenerate_smul]
    exact .inl hzero
  rw [h.proper] at hdegenerate
  cases hdegenerate

/-- In a selection that passes with true statements, the multiple of the decrypted ratio is recorded. -/
theorem SelectionCertificate.Passes.decrypted_eq {election : Election G} {P : G.Scalar[X]}
    (hkeys : election.keys.LiesOn P) {s : SelectionCertificate G} (h : s.Passes election)
    (htrue : s.IsTrue P) {exponent : G.Scalar} (hexponent : s.blinded = exponent • s.ratio) :
    s.decrypted = exponent • s.ratio.decrypt (P.eval 0) := by
  rw [DecryptionProof.eq_decrypt_of_verify hkeys htrue.shares h.decryption, hexponent,
    Ciphertext.decrypt_smul]

/-! ## What honest parties certify -/

namespace SelectionCertificate

/-- What honest parties certify of a ratio that they blind by an exponent, proved with a mask, and that
guardians decrypt. -/
def ofHonest (election : Election G) (secret exponent mask : G.Scalar) (guardians : List (Guardian G))
    (tape : Tape) (selectionId : String) (ratio : Ciphertext G) : SelectionCertificate G :=
  let blinded := exponent • ratio
  let challenge := Blinding.challengeFor election ratio blinded (mask • ratio)
  { selectionId, ratio, blinded
    blinding := ⟨challenge, mask - challenge * exponent⟩
    decrypted := blinded.decrypt secret
    decryption := ⟨(GuardianBoard.proveShares election blinded guardians tape).1⟩ }

variable {election : Election G} {P : G.Scalar[X]} {exponent mask : G.Scalar}
  {guardians : List (Guardian G)} {tape : Tape} {selectionId : String} {ratio : Ciphertext G}

theorem passes_ofHonest (hkeys : election.keys.LiesOn P)
    (hlen : guardians.length = election.keys.params.threshold.toNat)
    (hnodup : (guardians.map (·.index)).Nodup) (hholds : ∀ g ∈ guardians, g.Holds election.keys)
    (hproper : (exponent • ratio).isDegenerate = false) :
    (ofHonest election (P.eval 0) exponent mask guardians tape selectionId ratio).Passes election :=
  ⟨hproper, Blinding.verify_honest election ratio exponent mask rfl,
    GuardianBoard.verify_proveShares hkeys hlen hnodup hholds _ tape⟩

theorem isTrue_ofHonest (hkeys : election.keys.LiesOn P)
    (hholds : ∀ g ∈ guardians, g.Holds election.keys) (secret : G.Scalar) :
    (ofHonest election secret exponent mask guardians tape selectionId ratio).IsTrue P := by
  refine ⟨fun share hshare => ?_, exponent, rfl⟩
  obtain ⟨g, hg, hof⟩ := Paired.exists_right (GuardianBoard.proveShares_of_holds _ tape hholds) hshare
  rw [hof.share, hof.index, GuardianBoard.secret_of_holds hkeys (hholds g hg)]
  rfl

end SelectionCertificate

/-! ## The verdict -/

namespace BallotCertificate

/-- **The verdict of a certificate that passes an audit**, if the proofs that were accepted are for true
statements: whichever guardians contributed, no exponent is zero, every selection is decrypted to the
multiple of the decrypted ratio, and the ballots are found equal iff every ratio decrypts to the
identity. -/
theorem verdict_of_verify {election : Election G} {P : G.Scalar[X]}
    (hkeys : election.keys.LiesOn P) {certificate : BallotCertificate G}
    (hverify : certificate.verify election = .ok ())
    (htrue : ∀ s ∈ certificate.selections, s.2.IsTrue P) :
    (∀ s ∈ certificate.selections, ∀ exponent : G.Scalar, s.2.blinded = exponent • s.2.ratio →
      exponent ≠ 0 ∧ s.2.decrypted = exponent • s.2.ratio.decrypt (P.eval 0)) ∧
    (certificate.isEqual = true ↔
      ∀ s ∈ certificate.selections, s.2.ratio.decrypt (P.eval 0) = 0) := by
  obtain ⟨hpasses, hverdict⟩ := verify_eq_ok.1 hverify
  have hselection : ∀ s ∈ certificate.selections, ∀ exponent : G.Scalar,
      s.2.blinded = exponent • s.2.ratio →
        exponent ≠ 0 ∧ s.2.decrypted = exponent • s.2.ratio.decrypt (P.eval 0) :=
    fun s hs exponent h => ⟨(hpasses s hs).exponent_ne_zero h,
      (hpasses s hs).decrypted_eq hkeys (htrue s hs) h⟩
  refine ⟨hselection, ?_⟩
  rw [← hverdict, computedVerdict, List.all_eq_true]
  refine forall₂_congr fun s hs => ?_
  obtain ⟨exponent, hexponent⟩ := (htrue s hs).blinding
  obtain ⟨hne, hdecrypted⟩ := hselection s hs exponent hexponent
  rw [decide_eq_true_eq, hdecrypted, smul_eq_zero]
  exact or_iff_right hne

end BallotCertificate

namespace Small

/-- What is certified of a ratio that is blinded by three and decrypted by the last guardian and the
first. -/
def certified (selectionId : String) (ratio : Ciphertext Group) : SelectionCertificate Group :=
  .ofHonest election (Group.ofWord 5) (Group.ofWord 3) (Group.ofWord 4) guardians tape selectionId ratio

/-- A certificate of two ratios, of which the first decrypts to zero. -/
def certificate : BallotCertificate Group where
  ballotId := "ballot"
  isEqual := false
  contests := [⟨"question", [certified "yes" ⟨Group.ofWord 2, Group.ofWord 10⟩,
    certified "no" ⟨Group.ofWord 2, Group.ofWord 11⟩]⟩, ⟨"empty", []⟩]

theorem mem_certificate {s : SelectionPath × SelectionCertificate Group}
    (hs : s ∈ certificate.selections) :
    ∃ selectionId ratio, s.2 = certified selectionId ratio ∧
      (Group.ofWord 3 • ratio).isDegenerate = false := by
  have hs : s = (_, certified _ _) ∨ s ∈ [(_, certified _ _)] := List.mem_cons.1 hs
  rw [List.mem_singleton] at hs
  rcases hs with rfl | rfl
  · exact ⟨_, _, rfl, by decide +kernel⟩
  · exact ⟨_, _, rfl, by decide +kernel⟩

theorem verify_certificate : certificate.verify election = .ok () := by
  rw [BallotCertificate.verify_eq_ok]
  refine ⟨fun s hs => ?_, by decide +kernel⟩
  obtain ⟨_, _, hs, hproper⟩ := mem_certificate hs
  rw [hs, certified, ← eval_dealer]
  exact SelectionCertificate.passes_ofHonest liesOn_keys rfl (by decide) holds_guardians hproper

/-- The verdict on a small certificate, and what it follows from. -/
theorem verdict_of_certificate :
    certificate.verify election = .ok () ∧
    (∀ s ∈ certificate.selections, s.2.IsTrue dealer.polynomial) ∧
    (∀ s ∈ certificate.selections, ∀ exponent : Group.Scalar,
      s.2.blinded = exponent • s.2.ratio →
        exponent ≠ 0 ∧ s.2.decrypted = exponent • s.2.ratio.decrypt (dealer.polynomial.eval 0)) ∧
    (certificate.isEqual = true ↔
      ∀ s ∈ certificate.selections, s.2.ratio.decrypt (dealer.polynomial.eval 0) = 0) := by
  have htrue : ∀ s ∈ certificate.selections, s.2.IsTrue dealer.polynomial := by
    intro s hs
    obtain ⟨_, _, hs, _⟩ := mem_certificate hs
    rw [hs]
    exact SelectionCertificate.isTrue_ofHonest liesOn_keys holds_guardians _
  exact ⟨verify_certificate, htrue,
    BallotCertificate.verdict_of_verify liesOn_keys verify_certificate htrue⟩

end Small

end PlaintextEquivalence
