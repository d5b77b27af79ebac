import Mathlib.Data.List.SplitBy
import PlaintextEquivalence.Proofs.Ballot.Comparison
import PlaintextEquivalence.Proofs.Certificate.Soundness

/-!
# What an audit says of the contests of a certificate

An audit against two ballots compares the references of a certificate with those of the first ballot, each
as one list for all contests.  Such a list does not tell where a contest without selections is, nor
whether the selections of a contest are in one place or follow each other in several of the same name.
So an audit says of the contests just what the references say: it passes a certificate with contests
added, left out or cut in pieces, as long as the references stay the same.

Principal results:
* `Outline.IsPlain.eq_of_references_eq` — outlines that references determine.
* `Outline.eq_of_names_eq` — outlines that references and the names of contests determine.
* `verifyAgainst_congr` — an audit looks at the selections, and not at the contests that they are in.
* `outline_of_verifyAgainst` — what is known of the contests of a certificate that passes an audit.
-/

set_option autoImplicit false

namespace PlaintextEquivalence

variable {G : PrimeGroup}

/-! ## Outlines -/

/-- The names of contests in order, each with the names of its selections. -/
abbrev Outline := List (String × List String)

namespace Outline

/-- The references to the selections of a contest. -/
def contestReferences (contest : String × List String) : List SelectionPath :=
  contest.2.map fun selectionId => ⟨contest.1, selectionId⟩

/-- The references to all selections in order. -/
def references (outline : Outline) : List SelectionPath := outline.flatMap contestReferences

/-- No contest is without selections, and no two of the same name follow each other. -/
structure IsPlain (outline : Outline) : Prop where
  nonempty : ∀ contest ∈ outline, contest.2 ≠ []
  apart : outline.IsChain fun contest next => contest.1 ≠ next.1

/-- A contest with selections is known from the references to them. -/
theorem eq_of_contestReferences {contest : String × List String} (h : contest.2 ≠ []) :
    (((contestReferences contest).head?.map (·.contestId)).getD "",
      (contestReferences contest).map (·.selectionId)) = contest := by
  obtain ⟨name, selections⟩ := contest
  cases selections with
  | nil => exact absurd rfl h
  | cons selection rest => simp [contestReferences, Function.comp_def]

/-- The references of a plain outline fall apart into those of its contests. -/
theorem IsPlain.splitBy_references {outline : Outline} (h : outline.IsPlain) :
    outline.references.splitBy (fun path next => path.contestId == next.contestId) =
      outline.map contestReferences := by
  have hnonempty : ∀ contest ∈ outline, contestReferences contest ≠ [] := fun contest hmem hnil =>
    h.nonempty contest hmem (List.map_eq_nil_iff.1 hnil)
  have hname : ∀ {contest : String × List String}, ∀ path ∈ contestReferences contest,
      path.contestId = contest.1 := by
    intro contest path hpath
    obtain ⟨_, _, rfl⟩ := List.mem_map.1 hpath
    rfl
  refine List.splitBy_flatten ?_ ?_ ?_
  · rintro hnil
    obtain ⟨contest, hmem, hempty⟩ := List.mem_map.1 hnil
    exact hnonempty contest hmem hempty
  · rw [List.forall_mem_map]
    intro contest _
    refine List.Pairwise.isChain (List.pairwise_iff_forall_sublist.2 fun {path next} hsub => ?_)
    rw [beq_iff_eq, hname path (hsub.subset (by simp)), hname next (hsub.subset (by simp))]
  · rw [List.isChain_map]
    refine List.IsChain.imp_of_mem_imp (fun contest next hmem hnext hne => ?_) h.apart
    refine ⟨hnonempty contest hmem, hnonempty next hnext, beq_eq_false_iff_ne.2 ?_⟩
    rw [hname _ (List.getLast_mem _), hname _ (List.head_mem _)]
    exact hne

/-- **A plain outline** is known from its references. -/
theorem IsPlain.eq_of_references_eq {outline other : Outline} (h : outline.IsPlain)
    (hother : other.IsPlain) (heq : outline.references = other.references) : outline = other := by
  have hmap : outline.map contestReferences = other.map contestReferences := by
    rw [← h.splitBy_references, heq, hother.splitBy_references]
  have hknown : ∀ {outline : Outline}, outline.IsPlain → (outline.map contestReferences).map
      (fun paths => ((paths.head?.map (·.contestId)).getD "", paths.map (·.selectionId))) =
        outline := by
    intro outline h
    rw [List.map_map]
    exact (List.map_congr_left fun contest hmem =>
      eq_of_contestReferences (h.nonempty contest hmem)).trans (List.map_id outline)
  rw [← hknown h, hmap, hknown hother]

/-- Contests without selections leave no trace in the references. -/
theorem references_filter (outline : Outline) :
    references (outline.filter (·.2 ≠ [])) = outline.references := by
  induction outline with
  | nil => rfl
  | cons contest rest ih =>
    obtain ⟨name, selections⟩ := contest
    cases selections with
    | nil => exact ih
    | cons selection selections => exact congrArg (contestReferences (name, _) ++ ·) ih

/-- If no name is given twice, the contests with selections make a plain outline. -/
theorem isPlain_filter {outline : Outline} (h : (outline.map Prod.fst).Nodup) :
    IsPlain (outline.filter (·.2 ≠ [])) where
  nonempty contest hmem := by simpa using (List.mem_filter.1 hmem).2
  apart := ((List.pairwise_map.1 h).sublist List.filter_sublist).isChain

/-- **Outlines with the same references** are the same if they have the same names of contests in the
same order, none of them twice. -/
theorem eq_of_names_eq : ∀ {outline other : Outline}, (other.map Prod.fst).Nodup →
    outline.map Prod.fst = other.map Prod.fst → outline.references = other.references →
      outline = other
  | [], [], _, _, _ => rfl
  | [], _ :: _, _, hnames, _ => nomatch hnames
  | _ :: _, [], _, hnames, _ => nomatch hnames
  | (name, selections) :: outline, (name', selections') :: other, hnodup, hnames, heq => by
    obtain ⟨hname, htail⟩ := List.cons.inj hnames
    obtain rfl : name = name' := hname
    obtain ⟨hnew, hnodup⟩ := List.nodup_cons.1 hnodup
    -- no reference after those of the first contest bears its name
    have hlater : ∀ {rest : Outline}, rest.map Prod.fst = other.map Prod.fst →
        rest.references.filter (·.contestId = name) = [] := by
      intro rest hrest
      rw [List.filter_eq_nil_iff]
      intro path hpath hname
      obtain ⟨contest, hmem, hpath⟩ := List.mem_flatMap.1 hpath
      obtain ⟨_, _, rfl⟩ := List.mem_map.1 hpath
      have hcontest : contest.1 = name := by simpa using hname
      have hmem' : contest.1 ∈ other.map Prod.fst := hrest ▸ List.mem_map_of_mem hmem
      exact hnew (hcontest ▸ hmem')
    have hown : ∀ selections : List String,
        (contestReferences (name, selections)).filter (·.contestId = name) =
          contestReferences (name, selections) := by
      intro selections
      rw [List.filter_eq_self]
      intro path hpath
      obtain ⟨_, _, rfl⟩ := List.mem_map.1 hpath
      simp
    have hcons : contestReferences (name, selections) ++ references outline =
        contestReferences (name, selections') ++ references other := heq
    have hfirst : contestReferences (name, selections) = contestReferences (name, selections') := by
      have hfilter := congrArg (List.filter (·.contestId = name)) hcons
      rwa [List.filter_append, List.filter_append, hlater htail, hlater rfl, hown, hown,
        List.append_nil, List.append_nil] at hfilter
    have hselections : selections = selections' := by
      simpa [contestReferences, Function.comp_def] using
        congrArg (List.map SelectionPath.selectionId) hfirst
    rw [hfirst] at hcons
    rw [hselections, eq_of_names_eq hnodup htail (List.append_cancel_left hcons)]

end Outline

/-- The outline of a ballot. -/
def Ballot.outline (ballot : Ballot G) : Outline :=
  ballot.contests.map fun c => (c.contestId, selectionNames c.selections)

theorem Ballot.references_outline (ballot : Ballot G) :
    ballot.outline.references = Quotient.references ballot.contests := by
  simp [Outline.references, Outline.contestReferences, Ballot.outline, selectionNames,
    Quotient.references, List.flatMap_map, Function.comp_def]

namespace BallotCertificate

/-- The outline of a certificate. -/
def outline (certificate : BallotCertificate G) : Outline :=
  certificate.contests.map fun c => (c.contestId, c.selections.map (·.selectionId))

theorem references_outline (certificate : BallotCertificate G) :
    certificate.outline.references = certificate.selections.map (·.1) := by
  simp [Outline.references, Outline.contestReferences, outline, selections, List.flatMap_map,
    List.map_flatMap, Function.comp_def]

/-! ## Audits -/

/-- **An audit looks at the selections** with their references, and not at the contests that they
are in. -/
theorem verifyAgainst_congr {certificate other : BallotCertificate G} (election : Election G)
    (first second : Ballot G) (hid : certificate.ballotId = other.ballotId)
    (hverdict : certificate.isEqual = other.isEqual)
    (hselections : certificate.selections = other.selections) :
    certificate.verifyAgainst election first second = other.verifyAgainst election first second := by
  have hfindings : certificate.findings election = other.findings election := by
    unfold findings computedVerdict
    rw [hselections, hverdict]
  have hballots : certificate.ballotFindings first second = other.ballotFindings first second := by
    unfold ballotFindings
    rw [hselections, hid]
  rw [verifyAgainst, verifyAgainst, hfindings, hballots]

/-- Selections can be put into contests of any outline with the same references. -/
theorem exists_contests : ∀ {outline : Outline}
    {selections : List (SelectionPath × SelectionCertificate G)},
    outline.references = selections.map (·.1) →
      (∀ s ∈ selections, s.1.selectionId = s.2.selectionId) →
        ∃ contests : List (ContestCertificate G),
          contests.map (fun c => (c.contestId, c.selections.map (·.selectionId))) = outline ∧
          contests.flatMap (fun c => c.selections.map fun s => (⟨c.contestId, s.selectionId⟩, s)) =
            selections
  | [], selections, heq, _ => ⟨[], rfl, (List.map_eq_nil_iff.1 heq.symm).symm⟩
  | (name, names) :: rest, selections, heq, hnamed => by
    have hsplit : Outline.contestReferences (name, names) ++ Outline.references rest =
        selections.map (·.1) := heq
    obtain ⟨own, later, rfl, hown, hlater⟩ := List.map_eq_append_iff.1 hsplit.symm
    obtain ⟨hownNamed, hlaterNamed⟩ := List.forall_mem_append.1 hnamed
    obtain ⟨contests, rfl, rfl⟩ := exists_contests hlater.symm hlaterNamed
    have hpaths : ∀ s ∈ own, s.1 = ⟨name, s.2.selectionId⟩ := by
      intro s hs
      have hmem : s.1 ∈ Outline.contestReferences (name, names) := hown ▸ List.mem_map_of_mem hs
      obtain ⟨_, _, hpath⟩ := List.mem_map.1 hmem
      rw [← hownNamed s hs, ← hpath]
    have hnames : own.map (·.2.selectionId) = names := by
      have hids := congrArg (List.map SelectionPath.selectionId) hown
      rw [List.map_map] at hids
      calc own.map (·.2.selectionId) = own.map (·.1.selectionId) :=
            List.map_congr_left fun s hs => (hownNamed s hs).symm
        _ = names := by simpa [Outline.contestReferences, Function.comp_def] using hids
    refine ⟨⟨name, own.map (·.2)⟩ :: contests, ?_, ?_⟩
    · rw [List.map_cons, List.map_map]
      exact congrArg (fun l => (name, l) :: _) hnames
    · rw [List.flatMap_cons, List.map_map]
      refine congrArg (· ++ _) ((List.map_congr_left fun s hs => ?_).trans (List.map_id own))
      exact Prod.ext (hpaths s hs).symm rfl

theorem selectionId_of_mem_selections {certificate : BallotCertificate G}
    {s : SelectionPath × SelectionCertificate G} (hs : s ∈ certificate.selections) :
    s.1.selectionId = s.2.selectionId := by
  obtain ⟨_, _, hs⟩ := List.mem_flatMap.1 hs
  obtain ⟨_, _, rfl⟩ := List.mem_map.1 hs
  rfl

/-- **What is known of the contests of a certificate** that passes an audit against two ballots.  The
outlines that pass with the same selections are just those with the references of the first ballot.  The
outline is that of the ballot exactly if the contests have the same names in the same order; and if it is
plain, the contests are those of the ballot that have selections. -/
theorem outline_of_verifyAgainst {election : Election G} {certificate : BallotCertificate G}
    {first second : Ballot G} (h : certificate.verifyAgainst election first second = .ok ()) :
    (∀ outline : Outline, outline.references = first.outline.references ↔
      ∃ other : BallotCertificate G, other.outline = outline ∧
        other.selections = certificate.selections ∧
        other.verifyAgainst election first second = .ok ()) ∧
    (certificate.outline = first.outline ↔
      certificate.outline.map Prod.fst = first.outline.map Prod.fst) ∧
    (certificate.outline.IsPlain → certificate.outline = first.outline.filter (·.2 ≠ [])) := by
  have hreferences : ∀ {other : BallotCertificate G},
      other.verifyAgainst election first second = .ok () →
        other.outline.references = first.outline.references ∧
          (first.outline.map Prod.fst).Nodup := by
    intro other hother
    have hfindings := (verifyAgainst_eq_ok.1 hother).2
    cases hq : Quotient.ofBallots first second with
    | error e =>
      rw [ballotFindings, hq] at hfindings
      cases hfindings
    | ok q =>
      obtain ⟨_, hselections⟩ := (ballotFindings_eq_nil hq).1 hfindings
      constructor
      · rw [references_outline, Ballot.references_outline, ← Quotient.paths_eq_references hq,
          Quotient.paths, ← List.forall₂_eq_eq_eq, List.forall₂_map_left_iff,
          List.forall₂_map_right_iff]
        exact hselections.imp fun _ _ hx => hx.1
      · obtain ⟨_, _, _, hnodup, _⟩ := Quotient.ofBallots_eq_ok hq
        rw [Ballot.outline, List.map_map]
        exact hnodup
  obtain ⟨heq, hnodup⟩ := hreferences h
  refine ⟨fun outline => ⟨fun houtline => ?_, ?_⟩, ⟨fun hsame => by rw [hsame], fun hnames => ?_⟩,
    fun hplain => ?_⟩
  · have hpaths : outline.references = certificate.selections.map (·.1) := by
      rw [houtline, ← heq, references_outline]
    obtain ⟨contests, hcontests, hselections⟩ :=
      exists_contests hpaths fun s => selectionId_of_mem_selections
    refine ⟨{ certificate with contests }, hcontests, hselections, ?_⟩
    rw [← h]
    exact verifyAgainst_congr election first second rfl rfl hselections
  · rintro ⟨other, rfl, _, hother⟩
    exact (hreferences hother).1
  · exact Outline.eq_of_names_eq hnodup hnames heq
  · exact hplain.eq_of_references_eq (Outline.isPlain_filter hnodup)
      (heq.trans (Outline.references_filter _).symm)

end BallotCertificate

/-! ## A small certificate in other contests -/

namespace Small

/-- The ballots that the small certificate is about: the ratios, and ciphertexts to divide them by. -/
def ratioBallot : Ballot Group where
  ballotId := "ballot"
  contests := [⟨"question", [⟨"yes", ⟨Group.ofWord 2, Group.ofWord 10⟩⟩,
    ⟨"no", ⟨Group.ofWord 2, Group.ofWord 11⟩⟩]⟩, ⟨"empty", []⟩]

def unitBallot : Ballot Group where
  ballotId := "ballot"
  contests := [⟨"empty", []⟩, ⟨"question", [⟨"yes", .zero⟩, ⟨"no", .zero⟩]⟩]

/-- The small certificate with one contest cut in two, one left out and one added. -/
def recut : BallotCertificate Group where
  ballotId := "ballot"
  isEqual := false
  contests := [⟨"added", []⟩, ⟨"question", [certified "yes" ⟨Group.ofWord 2, Group.ofWord 10⟩]⟩,
    ⟨"question", [certified "no" ⟨Group.ofWord 2, Group.ofWord 11⟩]⟩]

theorem verifyAgainst_certificate :
    certificate.verifyAgainst election ratioBallot unitBallot = .ok () := by
  rw [BallotCertificate.verifyAgainst_eq_ok]
  exact ⟨verify_certificate, rfl⟩

/-- The contests of the small certificate are those of the ballots. -/
theorem outline_certificate :
    certificate.verifyAgainst election ratioBallot unitBallot = .ok () ∧
      certificate.outline = ratioBallot.outline :=
  ⟨verifyAgainst_certificate,
    (BallotCertificate.outline_of_verifyAgainst verifyAgainst_certificate).2.1.2 rfl⟩

/-- **The audit passes a certificate with other contests** than the ballots have. -/
theorem recut_outline_ne :
    recut.verifyAgainst election ratioBallot unitBallot = .ok () ∧
      recut.outline ≠ ratioBallot.outline :=
  ⟨(BallotCertificate.verifyAgainst_congr election ratioBallot unitBallot rfl rfl rfl).trans
    verifyAgainst_certificate, by decide⟩

end Small

end PlaintextEquivalence
