import Mathlib.Data.List.Forall2
import PlaintextEquivalence.Certificate.Audit
import PlaintextEquivalence.Proofs.Fault
import PlaintextEquivalence.Proofs.Lists

/-!
# What an audit says

An audit passes a certificate iff every selection passes and the verdict is the one that the decrypted
elements give; and what it finds is found in a selection or is about the verdict.

Principal results:
* `verify_eq_ok` — when an audit passes.
* `mem_of_verify_eq_error` — where a finding comes from.
-/

set_option autoImplicit false

namespace PlaintextEquivalence

variable {G : PrimeGroup}

/-- A ciphertext none of whose components is the identity. -/
theorem Ciphertext.isDegenerate_eq_false {a : Ciphertext G} :
    a.isDegenerate = false ↔ a.pad ≠ 0 ∧ a.data ≠ 0 := by
  simp [Ciphertext.isDegenerate]

namespace SelectionCertificate

/-- What an audit asks of a selection. -/
structure Passes (election : Election G) (s : SelectionCertificate G) : Prop where
  proper : s.blinded.isDegenerate = false
  blinding : s.blinding.verify election s.ratio s.blinded = .ok ()
  decryption : s.decryption.verify election s.blinded s.decrypted = .ok ()

/-- The findings on the decryption of a selection. -/
def decryptionFindings (election : Election G) (path : SelectionPath)
    (s : SelectionCertificate G) : Except Fault (List Finding) :=
  match s.decryption.verify election s.blinded s.decrypted with
  | .ok () => .ok []
  | .error (.error e) => .ok [.decryptionProof path e]
  | .error (.fault f) => .error f

theorem findings_eq_ok {election : Election G} {path : SelectionPath} {s : SelectionCertificate G}
    {findings : List Finding} :
    s.findings election path = .ok findings ↔
      ∃ decryption, s.decryptionFindings election path = .ok decryption ∧
        findings = (if s.blinded.isDegenerate then [.degenerateBlinding path] else []) ++
          (match s.blinding.verify election s.ratio s.blinded with
            | .ok () => []
            | .error e => [.blindingProof path e]) ++ decryption := by
  unfold SelectionCertificate.findings decryptionFindings
  rcases s.decryption.verify election s.blinded s.decrypted with (f | e) | _
  · simp [bind, Except.bind]
  all_goals
    constructor
    · intro h
      exact ⟨_, rfl, (Except.ok.inj h).symm⟩
    · rintro ⟨_, hd, rfl⟩
      cases hd
      rfl

theorem decryptionFindings_eq_nil {election : Election G} {path : SelectionPath}
    {s : SelectionCertificate G} :
    s.decryptionFindings election path = .ok [] ↔
      s.decryption.verify election s.blinded s.decrypted = .ok () := by
  unfold decryptionFindings
  split <;> simp_all

theorem findings_eq_nil {election : Election G} {path : SelectionPath}
    {s : SelectionCertificate G} : s.findings election path = .ok [] ↔ s.Passes election := by
  rw [findings_eq_ok]
  constructor
  · rintro ⟨decryption, hd, h⟩
    simp only [List.nil_eq, List.append_eq_nil_iff] at h
    obtain ⟨⟨hproper, hblinding⟩, rfl⟩ := h
    refine ⟨by simpa using hproper, ?_, decryptionFindings_eq_nil.1 hd⟩
    split at hblinding
    · assumption
    · cases hblinding
  · rintro ⟨hproper, hblinding, hdecryption⟩
    exact ⟨[], decryptionFindings_eq_nil.2 hdecryption, by simp [hproper, hblinding]⟩

/-- If all but the decryption of a selection is in order, a finding is about the decryption. -/
theorem eq_decryptionProof_of_mem {election : Election G} {path : SelectionPath}
    {s : SelectionCertificate G} {findings : List Finding} {f : Finding}
    (proper : s.blinded.isDegenerate = false)
    (blinding : s.blinding.verify election s.ratio s.blinded = .ok ())
    (h : s.findings election path = .ok findings) (hf : f ∈ findings) :
    ∃ source, f = .decryptionProof path source := by
  obtain ⟨decryption, hd, rfl⟩ := findings_eq_ok.1 h
  rw [proper, blinding] at hf
  simp only [Bool.false_eq_true, if_false, List.nil_append] at hf
  unfold decryptionFindings at hd
  split at hd
  · cases hd
    cases hf
  · cases hd
    exact ⟨_, List.mem_singleton.1 hf⟩
  · cases hd

end SelectionCertificate

namespace BallotCertificate

theorem findings_eq_ok {election : Election G} {certificate : BallotCertificate G}
    {findings : List Finding} :
    certificate.findings election = .ok findings ↔
      ∃ lists, List.Forall₂ (fun s l => s.2.findings election s.1 = .ok l) certificate.selections
          lists ∧
        findings = lists.flatten ++ if certificate.computedVerdict = certificate.isEqual then []
          else [.equalityFlag certificate.isEqual certificate.computedVerdict] := by
  unfold BallotCertificate.findings
  simp only [Except.bind_eq_ok, Except.mapM_eq_ok]
  constructor
  · rintro ⟨lists, hl, h⟩
    exact ⟨lists, hl, (Except.ok.inj h).symm⟩
  · rintro ⟨lists, hl, rfl⟩
    exact ⟨lists, hl, rfl⟩

theorem findings_eq_nil {election : Election G} {certificate : BallotCertificate G} :
    certificate.findings election = .ok [] ↔
      (∀ s ∈ certificate.selections, s.2.Passes election) ∧
        certificate.computedVerdict = certificate.isEqual := by
  rw [findings_eq_ok]
  constructor
  · rintro ⟨lists, hl, h⟩
    obtain ⟨hlists, hverdict⟩ := List.append_eq_nil_iff.1 h.symm
    rw [List.flatten_eq_nil_iff] at hlists
    refine ⟨fun s hs => ?_, by simpa using hverdict⟩
    obtain ⟨l, hlm, hsl⟩ := Paired.exists_right hl hs
    rw [hlists l hlm] at hsl
    exact SelectionCertificate.findings_eq_nil.1 hsl
  · rintro ⟨hs, hverdict⟩
    refine ⟨certificate.selections.map fun _ => [], ?_, by simp [hverdict]⟩
    rw [List.forall₂_map_right_iff, List.forall₂_same]
    exact fun s h => SelectionCertificate.findings_eq_nil.2 (hs s h)

theorem verdictOf_eq_ok {findings : List Finding} : verdictOf findings = .ok () ↔ findings = [] := by
  cases findings <;> simp [verdictOf]

/-- **When an audit passes.** -/
theorem verify_eq_ok {election : Election G} {certificate : BallotCertificate G} :
    certificate.verify election = .ok () ↔
      (∀ s ∈ certificate.selections, s.2.Passes election) ∧
        certificate.computedVerdict = certificate.isEqual := by
  unfold verify
  simp only [Except.bind_eq_ok, Checked.ofFault_eq_ok, verdictOf_eq_ok, exists_eq_right,
    findings_eq_nil]

theorem verifyAgainst_eq_ok {election : Election G} {certificate : BallotCertificate G}
    {first second : Ballot G} :
    certificate.verifyAgainst election first second = .ok () ↔
      certificate.verify election = .ok () ∧ certificate.ballotFindings first second = [] := by
  unfold verify verifyAgainst
  simp only [Except.bind_eq_ok, Checked.ofFault_eq_ok, verdictOf_eq_ok, List.append_eq_nil_iff,
    exists_eq_right]
  constructor
  · rintro ⟨_, h, rfl, hb⟩
    exact ⟨h, hb⟩
  · rintro ⟨h, hb⟩
    exact ⟨[], h, rfl, hb⟩

/-- When a certificate is about two ballots. -/
theorem ballotFindings_eq_nil {certificate : BallotCertificate G} {first second : Ballot G}
    {q : Quotient G} (h : Quotient.ofBallots first second = .ok q) :
    certificate.ballotFindings first second = [] ↔ certificate.ballotId = q.ballotId ∧
      List.Forall₂ (fun x r => x.1 = r.path ∧ x.2.ratio = r.ratio) certificate.selections
        q.selections := by
  have hpaths : certificate.selections.map (·.1) = q.paths ↔
      List.Forall₂ (fun x r => x.1 = r.path) certificate.selections q.selections := by
    rw [Quotient.paths, ← List.forall₂_eq_eq_eq, List.forall₂_map_left_iff,
      List.forall₂_map_right_iff]
  have hid : (if certificate.ballotId = q.ballotId then [] else
      [Finding.ballotId certificate.ballotId q.ballotId]) = [] ↔
        certificate.ballotId = q.ballotId := by
    split <;> simp_all
  unfold ballotFindings
  simp only [h]
  split
  · rename_i hne
    simp only [List.append_eq_nil_iff, List.cons_ne_nil, and_false, false_iff, not_and]
    exact fun _ hall => hne (hpaths.2 (hall.imp fun _ _ hx => hx.1))
  · rename_i heq
    have hall := hpaths.1 (Decidable.not_not.1 heq)
    rw [List.append_eq_nil_iff, hid, List.filterMap_eq_nil_iff]
    refine and_congr_right fun _ => ⟨fun hz => ?_, fun hz p hp => ?_⟩
    · refine List.forall₂_iff_zip.2 ⟨hall.length_eq, fun {x r} hx => ?_⟩
      refine ⟨List.forall₂_zip hall hx, ?_⟩
      simpa using hz (x, r) hx
    · have := List.forall₂_zip hz hp
      simp [this.2]

/-- **Where a finding comes from**: a selection, or the verdict. -/
theorem mem_of_verify_eq_error {election : Election G} {certificate : BallotCertificate G}
    {findings : List Finding} (h : certificate.verify election = .error (.error findings))
    {f : Finding} (hf : f ∈ findings) :
    (∃ s ∈ certificate.selections, ∃ l, s.2.findings election s.1 = .ok l ∧ f ∈ l) ∨
      certificate.computedVerdict ≠ certificate.isEqual := by
  unfold verify at h
  cases hc : certificate.findings election with
  | error e => rw [hc] at h; cases h
  | ok fs =>
    rw [hc] at h
    obtain rfl : fs = findings := by
      cases fs with
      | nil => cases h
      | cons g gs => exact Stop.error.inj (Except.error.inj h)
    obtain ⟨lists, hl, rfl⟩ := findings_eq_ok.1 hc
    rcases List.mem_append.1 hf with hf | hf
    · obtain ⟨l, hlm, hfl⟩ := List.mem_flatten.1 hf
      obtain ⟨s, hs, hsl⟩ := Paired.exists_left hl hlm
      exact .inl ⟨s, hs, l, hsl, hfl⟩
    · exact .inr fun hv => by simp [hv] at hf

end BallotCertificate

end PlaintextEquivalence
