import PlaintextEquivalence.Proofs.Certificate.Audit
import PlaintextEquivalence.Proofs.Protocol.Honest

/-!
# What a run certifies

Whatever trustees and guardians answer, a run that succeeds gives a certificate about the two ballots
that were compared: an audit against them passes, and the certificate has the contests and the
selections of the first ballot, each with its ratio to the selection of the same names in the second.

Principal results:
* `certificate_of_run` — what the certificate of a run is about.
-/

set_option autoImplicit false

namespace PlaintextEquivalence

variable {G : PrimeGroup}

/-- A certified selection is about a selection of a contest: there is a selection of the same names
in the second ballot, and whichever it is, the ratio is theirs. -/
structure SelectionCertificate.Compares (second : Ballot G) (contestId : String)
    (s : SelectionCertificate G) (selection : Selection G) : Prop where
  selectionId : s.selectionId = selection.selectionId
  matched : ∃ contest ∈ second.contests, contest.contestId = contestId ∧
    ∃ other ∈ contest.selections, other.selectionId = selection.selectionId
  ratio : ∀ contest ∈ second.contests, contest.contestId = contestId →
    ∀ other ∈ contest.selections, other.selectionId = selection.selectionId →
      s.ratio = selection.ciphertext - other.ciphertext

/-- A certified contest is about a contest: it has the same selections in the same order. -/
structure ContestCertificate.Compares (second : Ballot G) (c : ContestCertificate G)
    (contest : Contest G) : Prop where
  contestId : c.contestId = contest.contestId
  selections : List.Forall₂ (SelectionCertificate.Compares second contest.contestId) c.selections
    contest.selections

/-- If a group of ratios is that of a contest, the contest certified for it is about it. -/
theorem ContestCertificate.compares_of_group {second : Ballot G} {c : ContestCertificate G}
    {g : String × List (SelectionQuotient G)} {contest : Contest G}
    (hsecond : (second.contests.map (·.contestId)).Nodup)
    (hc : c.contestId = g.1 ∧ List.Forall₂ Session.IsAbout c.selections g.2)
    (hg : Quotient.IsGroupOf second.contests g contest) : c.Compares second contest := by
  obtain ⟨hid, habout⟩ := hc
  obtain ⟨other, hother, hname, hunique, hratios⟩ := hg.ratios
  refine ⟨hid.trans hg.name, Paired.trans ?_ habout hratios⟩
  intro s r selection hs hr
  obtain ⟨o, ho, hsame, _⟩ := hr.ratio
  have hid : s.selectionId = selection.selectionId := by rw [hs.selectionId, hr.path]
  refine ⟨hid, ⟨other, hother, hname, o, ho, hsame⟩, ?_⟩
  intro contest' hcontest' hname' o' ho' hsame'
  obtain rfl : contest' = other :=
    List.inj_on_of_nodup_map hsecond hcontest' hother (hname'.trans hname.symm)
  rw [hs.ratio, hr.eq_sub hunique ho' hsame']

namespace Session

/-- A run that succeeds gives the certificate that it made, after an audit of it. -/
theorem RunCourse.certified {session : Session G} {first second : Ballot G} {es : List (Event G)}
    {certificate : BallotCertificate G} (h : RunCourse session first second es (.ok certificate)) :
    ∃ quotient rows answers decryptions, Quotient.ofBallots first second = .ok quotient ∧
      decryptions.length = quotient.size ∧
      certificate = session.certificateOf quotient rows answers decryptions ∧
      certificate.verify session.election = .ok () := by
  generalize hresult : (.ok certificate : Checked RunError (BallotCertificate G)) = result at h
  cases h with
  | incomparable => cases hresult
  | released => cases hresult
  | concluded comparable answered conclusion =>
    cases conclusion with
    | certified proved counted audit =>
      cases hresult
      cases answered with
      | answered =>
        obtain ⟨_, rfl⟩ := proofs_eq_ok.1 proved
        rw [blinded_roundsOf, List.length_map, Quotient.length_places] at counted
        exact ⟨_, _, _, _, comparable, counted, rfl, audit⟩
    | _ => cases hresult

/-- **What the certificate of a run is about.**  Whoever the trustees and the guardians are, if a run
succeeds, its certificate passes an audit against the two ballots, bears their name, and has the
contests of the first ballot in order, each with its selections in order and their ratios; no selection
is lost, repeated or moved. -/
theorem certificate_of_run {σ : Type} (session : Session G)
    (world : World (Question G) Question.Answer σ) (s : σ) (first second : Ballot G)
    {certificate : BallotCertificate G}
    (h : ((session.run first second).hold world s).1 = .ok certificate) :
    certificate.verifyAgainst session.election first second = .ok () ∧
      certificate.ballotId = first.ballotId ∧ certificate.ballotId = second.ballotId ∧
      List.Forall₂ (ContestCertificate.Compares second) certificate.contests first.contests ∧
      certificate.selections.map (·.1) = Quotient.references first.contests ∧
      (Quotient.references first.contests).Nodup := by
  have hcourse := course_run (Dialogue.course_hold world (session.run first second) s)
  rw [h] at hcourse
  obtain ⟨quotient, rows, answers, decryptions, comparable, counted, rfl, audit⟩ :=
    hcourse.certified
  obtain ⟨groups, hq, hsame, hfirst, hsecond, hgroups⟩ := Quotient.ofBallots_eq_ok comparable
  have hid : (session.certificateOf quotient rows answers decryptions).ballotId =
      first.ballotId := by
    rw [certificateOf_eq, hq]
    rfl
  have hpaths : (session.certificateOf quotient rows answers decryptions).selections.map (·.1) =
      quotient.paths := by
    have hagainst := verifyAgainst_certificateOf comparable counted audit
    obtain ⟨_, hfindings⟩ := BallotCertificate.verifyAgainst_eq_ok.1 hagainst
    obtain ⟨_, hselections⟩ := (BallotCertificate.ballotFindings_eq_nil comparable).1 hfindings
    rw [Quotient.paths, ← List.forall₂_eq_eq_eq, List.forall₂_map_left_iff,
      List.forall₂_map_right_iff]
    exact hselections.imp fun _ _ hx => hx.1
  refine ⟨verifyAgainst_certificateOf comparable counted audit, hid, hid.trans hsame, ?_, ?_, ?_⟩
  · exact Paired.trans (fun hc hg => ContestCertificate.compares_of_group hsecond hc hg)
      (certificate_contests hq counted) hgroups
  · rw [hpaths, hq]
    exact Quotient.paths_of_groups hgroups
  · refine Quotient.nodup_references hfirst fun contest hcontest => ?_
    obtain ⟨_, _, hgroup⟩ := Paired.exists_left hgroups hcontest
    exact hgroup.nodup

end Session

/-- A small run certifies what it is about. -/
theorem Small.certificate_of_small : ∃ certificate,
    ((session.run first second).hold (Assembly.world election id) assembly).1 = .ok certificate ∧
      certificate.verifyAgainst election first second = .ok () ∧
      certificate.ballotId = "ballot" ∧ certificate.ballotId = "ballot" ∧
      List.Forall₂ (ContestCertificate.Compares second) certificate.contests first.contests ∧
      certificate.selections.map (·.1) = [⟨"question", "yes"⟩] ∧
      [(⟨"question", "yes"⟩ : SelectionPath)].Nodup := by
  obtain ⟨ds, _, _, hrun⟩ := Assembly.hold_run_proper id liesOn_keys
    (Assembly.canDecrypt_ofGuardians rfl make_guardians (by decide)) ofBallots_small rfl
    isFreshFor_small degenerateSelections_small
  exact ⟨_, hrun, Session.certificate_of_run session _ _ first second hrun⟩

end PlaintextEquivalence
