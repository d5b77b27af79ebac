import PlaintextEquivalence.Proofs.Ballot.Quotient
import PlaintextEquivalence.Proofs.Certificate.Audit
import PlaintextEquivalence.Proofs.Protocol.Evidence

/-!
# The certificate that a run makes

The results of all steps are put side by side for each selection, and the list of them is cut at the
ranges of the contests.  Since the ranges are those of the ratios, every contest gets back as many
selections as it had ratios, in their order, and none is left.

Principal results:
* `flatMap_cut` — the pieces of a list, one after the other, are the list.
* `forall₂_cut` — each piece is paired with the group of its range.
* `certificate_items`, `certificate_contests` — the same of certificates.
* `verifyAgainst_certificateOf` — the certificate is about the ballots that were compared.
-/

set_option autoImplicit false

namespace PlaintextEquivalence.Session

variable {G : PrimeGroup} {α β : Type}

/-! ## Cutting -/

theorem flatMap_cut :
    ∀ {groups : List (String × List α)} {start : Nat} {items : List β},
      items.length = (groups.flatMap (·.2)).length →
        (cut (Quotient.ranges start groups) items).flatMap (·.2) = items
  | [], _, items, h => by
    cases items with
    | nil => rfl
    | cons => cases h
  | g :: groups, start, items, h => by
    rw [List.flatMap_cons, List.length_append] at h
    have hrest : (items.drop g.2.length).length = (groups.flatMap (·.2)).length := by
      rw [List.length_drop]
      omega
    rw [Quotient.ranges, cut, List.flatMap_cons, flatMap_cut hrest, List.take_append_drop]

theorem forall₂_cut {R : β → α → Prop} :
    ∀ {groups : List (String × List α)} {start : Nat} {items : List β},
      List.Forall₂ R items (groups.flatMap (·.2)) →
        List.Forall₂ (fun piece g => piece.1 = g.1 ∧ List.Forall₂ R piece.2 g.2)
          (cut (Quotient.ranges start groups) items) groups
  | [], _, _, _ => .nil
  | g :: groups, start, items, h => by
    rw [List.flatMap_cons] at h
    exact .cons ⟨rfl, List.forall₂_take_append items g.2 _ h⟩
      (forall₂_cut (List.forall₂_drop_append items g.2 _ h))

/-! ## Certificates -/

/-- What is certified of the selection at a position. -/
def certificateAt (session : Session G) (rows : List (List (Contribution G)))
    (answers : List (List (ChallengeResponse G)))
    (x : (SelectionQuotient G × Nat) × G.Element × DecryptionProof G) : SelectionCertificate G where
  selectionId := x.1.1.path.selectionId
  ratio := x.1.1.ratio
  blinded := (aggregateAt rows x.1).blinded
  blinding := session.proofAt rows answers x.1
  decrypted := x.2.1
  decryption := x.2.2

/-- The selections of a certificate before they are cut into contests. -/
def certificates (session : Session G) (q : Quotient G) (rows : List (List (Contribution G)))
    (answers : List (List (ChallengeResponse G)))
    (decryptions : List (G.Element × DecryptionProof G)) : List (SelectionCertificate G) :=
  (q.places.zip decryptions).map (session.certificateAt rows answers)

/-- The certificate that a run makes of what trustees and guardians answer. -/
def certificateOf (session : Session G) (q : Quotient G) (rows : List (List (Contribution G)))
    (answers : List (List (ChallengeResponse G)))
    (decryptions : List (G.Element × DecryptionProof G)) : BallotCertificate G :=
  certificate q (aggregates q rows) (q.places.map (session.proofAt rows answers)) decryptions

/-- A list that is a map of another, zipped with pairs that begin with the other. -/
theorem zip_map_zip {γ δ : Type} (f : α → γ) (g : α × β → δ) :
    ∀ (l : List α) (r : List β),
      (l.map f).zip ((l.zip r).map g) = (l.zip r).map fun x => (f x.1, g x)
  | [], _ => rfl
  | _ :: _, [] => rfl
  | a :: l, b :: r => by simp [zip_map_zip f g l r]

theorem certificateOf_eq (session : Session G) (q : Quotient G)
    (rows : List (List (Contribution G))) (answers : List (List (ChallengeResponse G)))
    (decryptions : List (G.Element × DecryptionProof G)) :
    session.certificateOf q rows answers decryptions =
      { ballotId := q.ballotId
        isEqual := decryptions.all fun d => d.1 = 0
        contests := (cut q.contests (session.certificates q rows answers decryptions)).map
          fun (id, items) => ⟨id, items⟩ } := by
  have hzip : q.selections.zip ((aggregates q rows).zip
      ((q.places.map (session.proofAt rows answers)).zip decryptions)) =
      (q.places.zip decryptions).map fun x =>
        (x.1.1, aggregateAt rows x.1, session.proofAt rows answers x.1, x.2) := by
    rw [List.zip_map_left, aggregates_eq, zip_map_zip, ← Quotient.map_fst_places, zip_map_zip]
    rfl
  unfold certificateOf certificate certificates
  simp only [hzip, List.map_map, Function.comp_def, aggregateAt_ratio]
  rfl

variable {session : Session G} {q : Quotient G} {rows : List (List (Contribution G))}
  {answers : List (List (ChallengeResponse G))} {decryptions : List (G.Element × DecryptionProof G)}

/-- What a selection of a certificate has of the selection of the quotient that it is about. -/
structure IsAbout (s : SelectionCertificate G) (r : SelectionQuotient G) : Prop where
  selectionId : s.selectionId = r.path.selectionId
  ratio : s.ratio = r.ratio

theorem forall₂_certificates (counted : decryptions.length = q.size) :
    List.Forall₂ IsAbout (session.certificates q rows answers decryptions) q.selections := by
  have hplaces : q.selections = (q.places.zip decryptions).map fun x => x.1.1 := by
    have hlen : q.places.length ≤ decryptions.length :=
      Nat.le_of_eq (q.length_places.trans counted.symm)
    calc q.selections = q.places.map Prod.fst := q.map_fst_places.symm
      _ = ((q.places.zip decryptions).map Prod.fst).map Prod.fst := by
        rw [List.map_fst_zip hlen]
      _ = _ := by rw [List.map_map]; rfl
  rw [certificates, hplaces, List.forall₂_map_left_iff, List.forall₂_map_right_iff,
    List.forall₂_same]
  exact fun x _ => ⟨rfl, rfl⟩

theorem length_certificates (counted : decryptions.length = q.size) :
    (session.certificates q rows answers decryptions).length = q.selections.length :=
  (forall₂_certificates counted).length_eq

theorem mem_certificates {s : SelectionCertificate G}
    (h : s ∈ session.certificates q rows answers decryptions) :
    ∃ x d, (x, d) ∈ q.places.zip decryptions ∧ s = session.certificateAt rows answers (x, d) := by
  obtain ⟨⟨x, d⟩, hmem, rfl⟩ := List.mem_map.1 h
  exact ⟨x, d, hmem, rfl⟩

section Groups

variable {ballotId : String} {groups : List (String × List (SelectionQuotient G))}

/-- No selection is lost or moved when the selections are cut into contests. -/
theorem certificate_items (hq : q = Quotient.ofGroups ballotId groups)
    (counted : decryptions.length = q.size) :
    (session.certificateOf q rows answers decryptions).selections.map (·.2) =
      session.certificates q rows answers decryptions := by
  have hlen : (session.certificates q rows answers decryptions).length = q.selections.length :=
    length_certificates counted
  rw [certificateOf_eq, BallotCertificate.selections, List.map_flatMap, List.flatMap_map]
  simp only [List.map_map, Function.comp_def, List.map_id']
  rw [hq] at hlen ⊢
  exact flatMap_cut hlen

/-- Each contest of the certificate is paired with the ratios of its selections. -/
theorem certificate_contests (hq : q = Quotient.ofGroups ballotId groups)
    (counted : decryptions.length = q.size) :
    List.Forall₂ (fun c g => c.contestId = g.1 ∧ List.Forall₂ IsAbout c.selections g.2)
      (session.certificateOf q rows answers decryptions).contests groups := by
  have hitems : List.Forall₂ IsAbout (session.certificates q rows answers decryptions)
      q.selections := forall₂_certificates counted
  rw [certificateOf_eq, List.forall₂_map_left_iff]
  rw [hq] at hitems ⊢
  exact forall₂_cut hitems

/-- Each selection of the certificate stands at the place of the ratio that it is about. -/
theorem certificate_selections (hq : q = Quotient.ofGroups ballotId groups)
    (hnamed : ∀ g ∈ groups, ∀ r ∈ g.2, r.path.contestId = g.1)
    (counted : decryptions.length = q.size) :
    List.Forall₂ (fun x r => x.1 = r.path ∧ x.2.ratio = r.ratio)
      (session.certificateOf q rows answers decryptions).selections q.selections := by
  subst hq
  refine List.rel_flatMap (Paired.and_right (certificate_contests rfl counted) hnamed)
    fun c g hc => ?_
  obtain ⟨⟨hid, habout⟩, hg⟩ := hc
  rw [List.forall₂_map_left_iff]
  refine (Paired.and_right habout hg).imp fun s r hs => ⟨?_, hs.1.ratio⟩
  rw [hid, hs.1.selectionId, ← hs.2]

/-- The verdict of the certificate is the one that its decrypted elements give. -/
theorem computedVerdict_eq (hq : q = Quotient.ofGroups ballotId groups)
    (counted : decryptions.length = q.size) :
    (session.certificateOf q rows answers decryptions).computedVerdict =
      (session.certificateOf q rows answers decryptions).isEqual := by
  have hdecrypted : (session.certificates q rows answers decryptions).map (·.decrypted) =
      decryptions.map (·.1) := by
    have hlen : decryptions.length ≤ q.places.length :=
      Nat.le_of_eq (counted.trans q.length_places.symm)
    calc (session.certificates q rows answers decryptions).map (·.decrypted)
        = ((q.places.zip decryptions).map Prod.snd).map (·.1) := by
          rw [certificates, List.map_map, List.map_map]
          rfl
      _ = decryptions.map (·.1) := by rw [List.map_snd_zip hlen]
  have hall : ∀ l : List (SelectionPath × SelectionCertificate G),
      l.all (fun s => s.2.decrypted = 0) = ((l.map (·.2)).map (·.decrypted)).all (· = 0) := by
    intro l
    simp [List.all_map, Function.comp_def]
  rw [BallotCertificate.computedVerdict, hall, certificate_items hq counted, hdecrypted,
    List.all_map, certificateOf_eq]
  rfl

end Groups

/-- The selections of the certificate stand at the places of those that were compared. -/
theorem certificate_selections_of_comparable {first second : Ballot G}
    (hcomparable : Quotient.ofBallots first second = .ok q) (counted : decryptions.length = q.size) :
    List.Forall₂ (fun x r => x.1 = r.path ∧ x.2.ratio = r.ratio)
      (session.certificateOf q rows answers decryptions).selections q.selections := by
  obtain ⟨groups, hq, _, _, _, hgroups⟩ := Quotient.ofBallots_eq_ok hcomparable
  have hnamed : ∀ g ∈ groups, ∀ r ∈ g.2, r.path.contestId = g.1 := by
    intro g hg
    obtain ⟨contest, _, hgroup⟩ := Paired.exists_right hgroups hg
    exact hgroup.contestId
  exact certificate_selections hq hnamed counted

/-- If the certificate passes an audit, it passes one against the ballots that were compared. -/
theorem verifyAgainst_certificateOf {first second : Ballot G}
    (hcomparable : Quotient.ofBallots first second = .ok q) (counted : decryptions.length = q.size)
    (hverify : (session.certificateOf q rows answers decryptions).verify session.election = .ok ()) :
    (session.certificateOf q rows answers decryptions).verifyAgainst session.election first second =
      .ok () := by
  have hid : (session.certificateOf q rows answers decryptions).ballotId = q.ballotId := by
    rw [certificateOf_eq]
  rw [BallotCertificate.verifyAgainst_eq_ok, BallotCertificate.ballotFindings_eq_nil hcomparable]
  exact ⟨hverify, hid, certificate_selections_of_comparable hcomparable counted⟩

end PlaintextEquivalence.Session
