import Mathlib.Data.List.Perm.Subperm
import PlaintextEquivalence.Proofs.Ballot.Quotient
import PlaintextEquivalence.Proofs.Fault

/-!
# Which ballots can be compared

Two ballots can be compared if they have the same name and the same contests, and contests of the same
name have the same selections, all named once.  That every name of the second ballot is met is never
looked at: it follows from the numbers of names, of which none is repeated and each of the first ballot is
found in the second.  A reported mismatch is one that there is, and ballots with a mismatch cannot be
compared.

Principal results:
* `isPresent_of_ofBallots` — a reported mismatch is there.
* `BallotMismatch.IsPresent.not_isComparableTo` — ballots with a mismatch cannot be compared.
* `ofBallots_iff_isComparableTo` — just the ballots that can be compared have a quotient, and which.
-/

set_option autoImplicit false

namespace PlaintextEquivalence

variable {G : PrimeGroup}

/-! ## Names -/

/-- Two lists hold the same names, each once. -/
structure SameNames (left right : List String) : Prop where
  nodup_left : left.Nodup
  nodup_right : right.Nodup
  mem_iff : ∀ name, name ∈ left ↔ name ∈ right

namespace SameNames

variable {left right : List String}

theorem length_eq (h : SameNames left right) : left.length = right.length :=
  ((List.perm_ext_iff_of_nodup h.nodup_left h.nodup_right).2 h.mem_iff).length_eq

/-- As many names as there are to find are all of them. -/
theorem of_subset (hleft : left.Nodup) (hright : right.Nodup) (hsubset : left ⊆ right)
    (hlength : left.length = right.length) : SameNames left right :=
  ⟨hleft, hright,
    fun _ => ((List.subperm_of_subset hleft hsubset).perm_of_length_le hlength.ge).mem_iff⟩

end SameNames

/-- The names of contests. -/
def contestNames (contests : List (Contest G)) : List String := contests.map (·.contestId)

/-- The names of selections. -/
def selectionNames (selections : List (Selection G)) : List String := selections.map (·.selectionId)

/-- Two ballots have the same name, the same contests and in them the same selections. -/
structure Ballot.IsComparableTo (first second : Ballot G) : Prop where
  ballotId : first.ballotId = second.ballotId
  contests : SameNames (contestNames first.contests) (contestNames second.contests)
  selections : ∀ c ∈ first.contests, ∀ o ∈ second.contests, o.contestId = c.contestId →
    SameNames (selectionNames c.selections) (selectionNames o.selections)

/-- What a mismatch says of two ballots. -/
def BallotMismatch.IsPresent (first second : Ballot G) : BallotMismatch → Prop
  | .ballotId one other => one = first.ballotId ∧ other = second.ballotId ∧ one ≠ other
  | .contestCount one other =>
    one = first.contests.length ∧ other = second.contests.length ∧ one ≠ other
  | .selectionCount contestId one other =>
    ∃ c ∈ first.contests, ∃ o ∈ second.contests, c.contestId = contestId ∧ o.contestId = contestId ∧
      one = c.selections.length ∧ other = o.selections.length ∧ one ≠ other
  | .unmatchedContest contestId =>
    contestId ∈ contestNames first.contests ∧ contestId ∉ contestNames second.contests
  | .unmatchedSelection path =>
    path ∈ Quotient.references first.contests ∧ path ∉ Quotient.references second.contests
  | .duplicateContest contestId =>
    2 ≤ (contestNames first.contests).count contestId ∨ 2 ≤ (contestNames second.contests).count contestId
  | .duplicateSelection path =>
    ∃ c, (c ∈ first.contests ∨ c ∈ second.contests) ∧ c.contestId = path.contestId ∧
      2 ≤ (selectionNames c.selections).count path.selectionId

/-! ## Mismatches -/

namespace Ballot.IsComparableTo

variable {first second : Ballot G}

/-- A contest of the first ballot has a counterpart in the second. -/
theorem exists_right (h : first.IsComparableTo second) {c : Contest G} (hc : c ∈ first.contests) :
    ∃ o ∈ second.contests, o.contestId = c.contestId ∧
      SameNames (selectionNames c.selections) (selectionNames o.selections) := by
  obtain ⟨o, ho, hname⟩ := List.mem_map.1 ((h.contests.mem_iff _).1 (List.mem_map_of_mem hc))
  exact ⟨o, ho, hname, h.selections c hc o ho hname⟩

/-- A contest of the second ballot has a counterpart in the first. -/
theorem exists_left (h : first.IsComparableTo second) {o : Contest G} (ho : o ∈ second.contests) :
    ∃ c ∈ first.contests, o.contestId = c.contestId ∧
      SameNames (selectionNames c.selections) (selectionNames o.selections) := by
  obtain ⟨c, hc, hname⟩ := List.mem_map.1 ((h.contests.mem_iff _).2 (List.mem_map_of_mem ho))
  exact ⟨c, hc, hname.symm, h.selections c hc o ho hname.symm⟩

end Ballot.IsComparableTo

theorem not_two_le_count {names : List String} (h : names.Nodup) (name : String) :
    ¬2 ≤ names.count name :=
  Nat.not_le.2 (Nat.lt_succ_of_le (List.nodup_iff_count_le_one.1 h name))

/-- **Ballots with a mismatch** cannot be compared. -/
theorem BallotMismatch.IsPresent.not_isComparableTo {first second : Ballot G}
    {mismatch : BallotMismatch} (h : mismatch.IsPresent first second) :
    ¬first.IsComparableTo second := by
  intro hsame
  cases mismatch with
  | ballotId one other =>
    obtain ⟨rfl, rfl, hne⟩ := h
    exact hne hsame.ballotId
  | contestCount one other =>
    obtain ⟨rfl, rfl, hne⟩ := h
    exact hne (by simpa [contestNames] using hsame.contests.length_eq)
  | selectionCount contestId one other =>
    obtain ⟨c, hc, o, ho, rfl, hname, rfl, rfl, hne⟩ := h
    exact hne (by simpa [selectionNames] using (hsame.selections c hc o ho hname).length_eq)
  | unmatchedContest contestId => exact h.2 ((hsame.contests.mem_iff _).1 h.1)
  | unmatchedSelection path =>
    obtain ⟨c, hc, hpath⟩ := List.mem_flatMap.1 h.1
    obtain ⟨s, hs, rfl⟩ := List.mem_map.1 hpath
    obtain ⟨o, ho, hname, hselections⟩ := hsame.exists_right hc
    obtain ⟨t, ht, hselection⟩ :=
      List.mem_map.1 ((hselections.mem_iff _).1 (List.mem_map_of_mem hs))
    refine h.2 (List.mem_flatMap.2 ⟨o, ho, List.mem_map.2 ⟨t, ht, ?_⟩⟩)
    rw [hname, hselection]
  | duplicateContest contestId =>
    rcases h with h | h
    · exact not_two_le_count hsame.contests.nodup_left _ h
    · exact not_two_le_count hsame.contests.nodup_right _ h
  | duplicateSelection path =>
    obtain ⟨c, hc | hc, -, hcount⟩ := h
    · obtain ⟨_, _, _, hselections⟩ := hsame.exists_right hc
      exact not_two_le_count hselections.nodup_left _ hcount
    · obtain ⟨_, _, _, hselections⟩ := hsame.exists_left hc
      exact not_two_le_count hselections.nodup_right _ hcount

namespace Quotient

variable {α : Type}

/-- A name that was seen before is given twice. -/
theorem two_le_count_append {name : String} {seen rest : List String} (hseen : name ∈ seen) :
    2 ≤ (seen.reverse ++ name :: rest).count name := by
  have hone : 0 < seen.reverse.count name := List.count_pos_iff.2 (List.mem_reverse.2 hseen)
  rw [List.count_append, List.count_cons_self]
  omega

theorem firstRepeated?_eq_some {name : α → String} {a : α} :
    ∀ {l : List α} {seen : List String}, firstRepeated? name seen l = some a →
      2 ≤ (seen.reverse ++ l.map name).count (name a)
  | [], _, h => nomatch h
  | b :: l, seen, h => by
    unfold firstRepeated? at h
    split at h
    · rename_i hseen
      cases h
      exact two_le_count_append hseen
    · simpa using firstRepeated?_eq_some h

/-- Why the selections of a contest have no ratios. -/
theorem selectionRatios_eq_error {contestId : String} {others : List (Selection G)}
    {mismatch : BallotMismatch} :
    ∀ {ss : List (Selection G)} {seen : List String},
      selectionRatios contestId others seen ss = .error mismatch →
        (∃ name, mismatch = .duplicateSelection ⟨contestId, name⟩ ∧
          2 ≤ (seen.reverse ++ selectionNames ss).count name) ∨
        ∃ s ∈ ss, mismatch = .unmatchedSelection ⟨contestId, s.selectionId⟩ ∧
          s.selectionId ∉ selectionNames others
  | [], _, h => nomatch h
  | s :: ss, seen, h => by
    unfold selectionRatios at h
    simp only at h
    split at h
    case isTrue hseen =>
      cases h
      exact .inl ⟨_, rfl, two_le_count_append hseen⟩
    case isFalse hseen =>
      split at h
      case h_1 hfind =>
        cases h
        refine .inr ⟨s, List.mem_cons_self, rfl, fun hmem => ?_⟩
        obtain ⟨o, ho, hname⟩ := List.mem_map.1 hmem
        exact List.find?_eq_none.1 hfind o ho (beq_iff_eq.2 hname)
      case h_2 o hfind =>
        cases hrest : selectionRatios contestId others (s.selectionId :: seen) ss with
        | ok rest =>
          rw [hrest] at h
          cases h
        | error e =>
          rw [hrest] at h
          cases h
          rcases selectionRatios_eq_error hrest with ⟨name, rfl, hcount⟩ | ⟨t, ht, hdefect⟩
          · exact .inl ⟨name, rfl, by simpa [selectionNames] using hcount⟩
          · exact .inr ⟨t, List.mem_cons_of_mem _ ht, hdefect⟩

/-- Why a contest has no ratios. -/
theorem contestRatios_eq_error {c o : Contest G} {mismatch : BallotMismatch}
    (hname : o.contestId = c.contestId) (h : contestRatios c o = .error mismatch) :
    (mismatch = .selectionCount c.contestId c.selections.length o.selections.length ∧
      c.selections.length ≠ o.selections.length) ∨
    (∃ name, mismatch = .duplicateSelection ⟨c.contestId, name⟩ ∧
      (2 ≤ (selectionNames c.selections).count name ∨ 2 ≤ (selectionNames o.selections).count name)) ∨
    ∃ s ∈ c.selections, mismatch = .unmatchedSelection ⟨c.contestId, s.selectionId⟩ ∧
      s.selectionId ∉ selectionNames o.selections := by
  unfold contestRatios at h
  split at h
  case isTrue hlength =>
    cases h
    exact .inl ⟨rfl, hlength⟩
  case isFalse hlength =>
    split at h
    case h_1 s hrepeated =>
      cases h
      rw [hname]
      exact .inr (.inl ⟨_, rfl, .inr (firstRepeated?_eq_some hrepeated)⟩)
    case h_2 hrepeated =>
      rcases selectionRatios_eq_error h with ⟨name, rfl, hcount⟩ | hunmatched
      · exact .inr (.inl ⟨name, rfl, .inl hcount⟩)
      · exact .inr (.inr hunmatched)

/-- Why contests have no ratios. -/
theorem ballotRatios_eq_error {others : List (Contest G)} {mismatch : BallotMismatch} :
    ∀ {cs : List (Contest G)} {seen : List String}, ballotRatios others seen cs = .error mismatch →
      (∃ name, mismatch = .duplicateContest name ∧
        2 ≤ (seen.reverse ++ contestNames cs).count name) ∨
      (∃ c ∈ cs, mismatch = .unmatchedContest c.contestId ∧ c.contestId ∉ contestNames others) ∨
      ∃ c ∈ cs, ∃ o ∈ others, o.contestId = c.contestId ∧ contestRatios c o = .error mismatch
  | [], _, h => nomatch h
  | c :: cs, seen, h => by
    unfold ballotRatios at h
    split at h
    case isTrue hseen =>
      cases h
      exact .inl ⟨_, rfl, two_le_count_append hseen⟩
    case isFalse hseen =>
      split at h
      case h_1 hfind =>
        cases h
        refine .inr (.inl ⟨c, List.mem_cons_self, rfl, fun hmem => ?_⟩)
        obtain ⟨o, ho, hname⟩ := List.mem_map.1 hmem
        exact List.find?_eq_none.1 hfind o ho (beq_iff_eq.2 hname)
      case h_2 o hfind =>
        have hname : o.contestId = c.contestId := by simpa using List.find?_some hfind
        cases hratios : contestRatios c o with
        | error e =>
          rw [hratios] at h
          cases h
          exact .inr (.inr ⟨c, List.mem_cons_self, o, List.mem_of_find?_eq_some hfind, hname, hratios⟩)
        | ok rs =>
          rw [hratios] at h
          cases hrest : ballotRatios others (c.contestId :: seen) cs with
          | ok rest =>
            simp only [hrest, bind, Except.bind] at h
            cases h
          | error e =>
            simp only [hrest, bind, Except.bind] at h
            cases h
            rcases ballotRatios_eq_error hrest with ⟨name, rfl, hcount⟩ | ⟨d, hd, hdefect⟩ |
              ⟨d, hd, hdefect⟩
            · exact .inl ⟨name, rfl, by simpa [contestNames] using hcount⟩
            · exact .inr (.inl ⟨d, List.mem_cons_of_mem _ hd, hdefect⟩)
            · exact .inr (.inr ⟨d, List.mem_cons_of_mem _ hd, hdefect⟩)

/-- A contest whose name is found once holds all selections of that name. -/
theorem selectionId_mem_of_mem_references {contests : List (Contest G)} {o : Contest G} {name : String}
    (hnodup : (contestNames contests).Nodup) (ho : o ∈ contests)
    (hpath : ⟨o.contestId, name⟩ ∈ references contests) : name ∈ selectionNames o.selections := by
  obtain ⟨d, hd, hpath⟩ := List.mem_flatMap.1 hpath
  obtain ⟨s, hs, heq⟩ := List.mem_map.1 hpath
  have hcontest : d.contestId = o.contestId := congrArg SelectionPath.contestId heq
  have hselection : s.selectionId = name := congrArg SelectionPath.selectionId heq
  rw [← List.inj_on_of_nodup_map hnodup hd ho hcontest, ← hselection]
  exact List.mem_map_of_mem hs

/-- **A reported mismatch** is there. -/
theorem isPresent_of_ofBallots {first second : Ballot G} {mismatch : BallotMismatch}
    (h : ofBallots first second = .error mismatch) : mismatch.IsPresent first second := by
  unfold ofBallots at h
  split at h
  case isTrue hid =>
    cases h
    exact ⟨rfl, rfl, hid⟩
  split at h
  case isTrue hlength =>
    cases h
    exact ⟨rfl, rfl, hlength⟩
  split at h
  case h_1 o hrepeated =>
    cases h
    exact .inr (firstRepeated?_eq_some hrepeated)
  case h_2 hrepeated =>
    split at h
    case h_2 => cases h
    case h_1 e hratios =>
      cases h
      have hnodup : (contestNames second.contests).Nodup := (firstRepeated?_eq_none.1 hrepeated).1
      rcases ballotRatios_eq_error hratios with ⟨name, rfl, hcount⟩ | ⟨c, hc, rfl, hnone⟩ |
        ⟨c, hc, o, ho, hname, hcontest⟩
      · exact .inl hcount
      · exact ⟨List.mem_map_of_mem hc, hnone⟩
      rcases contestRatios_eq_error hname hcontest with ⟨rfl, hlength⟩ | ⟨name, rfl, hcount⟩ |
        ⟨s, hs, rfl, hnone⟩
      · exact ⟨c, hc, o, ho, rfl, hname, rfl, rfl, hlength⟩
      · rcases hcount with hcount | hcount
        · exact ⟨c, .inl hc, rfl, hcount⟩
        · exact ⟨o, .inr ho, hname, hcount⟩
      · refine ⟨List.mem_flatMap.2 ⟨c, hc, List.mem_map_of_mem hs⟩, fun hpath => hnone ?_⟩
        exact selectionId_mem_of_mem_references hnodup ho (hname ▸ hpath)

/-! ## Quotients -/

/-- Every contest is compared with one of its name. -/
theorem exists_contestRatios {others : List (Contest G)} :
    ∀ {cs : List (Contest G)} {seen : List String}
      {groups : List (String × List (SelectionQuotient G))}, ballotRatios others seen cs = .ok groups →
        ∀ c ∈ cs, ∃ o ∈ others, o.contestId = c.contestId ∧ ∃ rs, contestRatios c o = .ok rs
  | [], _, _, _ => nofun
  | d :: cs, seen, groups, h => by
    unfold ballotRatios at h
    split at h
    case isTrue => cases h
    split at h
    case h_1 => cases h
    case h_2 o hfind =>
      obtain ⟨rs, hrs, h⟩ := Except.bind_eq_ok.1 h
      obtain ⟨rest, hrest, -⟩ := Except.bind_eq_ok.1 h
      have hname : o.contestId = d.contestId := by simpa using List.find?_some hfind
      rw [List.forall_mem_cons]
      exact ⟨⟨o, List.mem_of_find?_eq_some hfind, hname, rs, hrs⟩, exists_contestRatios hrest⟩

theorem sameNames_of_contestRatios {c o : Contest G} {rs : List (SelectionQuotient G)}
    (h : contestRatios c o = .ok rs) :
    SameNames (selectionNames c.selections) (selectionNames o.selections) := by
  obtain ⟨hc, ho, hratios⟩ := contestRatios_eq_ok h
  have hlength : c.selections.length = o.selections.length := by
    unfold contestRatios at h
    split at h
    case isTrue => cases h
    case isFalse hlength => exact Decidable.not_not.1 hlength
  refine .of_subset hc ho (fun name hname => ?_) (by simpa [selectionNames] using hlength)
  obtain ⟨s, hs, rfl⟩ := List.mem_map.1 hname
  obtain ⟨r, _, hr⟩ := Paired.exists_left hratios hs
  obtain ⟨t, ht, hsame, _⟩ := hr.ratio
  exact List.mem_map.2 ⟨t, ht, hsame⟩

/-- A quotient is made of ballots with equally many contests. -/
theorem exists_ballotRatios {first second : Ballot G} {q : Quotient G}
    (h : ofBallots first second = .ok q) :
    first.contests.length = second.contests.length ∧
      ∃ groups, ballotRatios second.contests [] first.contests = .ok groups := by
  unfold ofBallots at h
  split at h
  case isTrue => cases h
  split at h
  case isTrue => cases h
  case isFalse hlength =>
    refine ⟨Decidable.not_not.1 hlength, ?_⟩
    split at h
    case h_1 => cases h
    split at h
    case h_1 => cases h
    case h_2 groups hgroups => exact ⟨groups, hgroups⟩

/-- **Ballots with a quotient** can be compared. -/
theorem isComparableTo_of_ofBallots {first second : Ballot G} {q : Quotient G}
    (h : ofBallots first second = .ok q) : first.IsComparableTo second := by
  obtain ⟨_, _, hid, hfirst, hsecond, _⟩ := ofBallots_eq_ok h
  obtain ⟨hlength, groups, hgroups⟩ := exists_ballotRatios h
  have hfound := exists_contestRatios hgroups
  refine ⟨hid, .of_subset hfirst hsecond (fun name hname => ?_) (by simpa [contestNames] using hlength),
    fun c hc o ho hname => ?_⟩
  · obtain ⟨c, hc, rfl⟩ := List.mem_map.1 hname
    obtain ⟨o, ho, hname, _⟩ := hfound c hc
    exact List.mem_map.2 ⟨o, ho, hname⟩
  · obtain ⟨o', ho', hname', rs, hrs⟩ := hfound c hc
    obtain rfl := List.inj_on_of_nodup_map hsecond ho ho' (hname.trans hname'.symm)
    exact sameNames_of_contestRatios hrs

/-- Ranges follow each other from one place to another. -/
def AreConsecutive : Nat → List ContestRange → Nat → Prop
  | start, [], stop => start = stop
  | start, range :: rest, stop => range.start = start ∧ AreConsecutive (start + range.length) rest stop

/-- The selections in a range. -/
def slice (q : Quotient G) (range : ContestRange) : List (SelectionQuotient G) :=
  (q.selections.drop range.start).take range.length

/-- The selections of contests in order, each with its contest. -/
def placed (contests : List (Contest G)) : List (Contest G × Selection G) :=
  contests.flatMap fun c => c.selections.map fun s => (c, s)

/-- A quotient holds the ratios of the selections of the first ballot in order, each to the selection of
the same names in the second, and the contests are the ranges of their own selections. -/
structure IsQuotientOf (first second : Ballot G) (q : Quotient G) : Prop where
  ballotId : q.ballotId = first.ballotId
  ratios : List.Forall₂ (fun r placed => ∃ o ∈ second.contests, o.contestId = placed.1.contestId ∧
    IsRatioOf placed.1.contestId o.selections r placed.2) q.selections (placed first.contests)
  consecutive : AreConsecutive 0 q.contests q.size
  contests : List.Forall₂ (fun range c => range.contestId = c.contestId ∧
    (q.slice range).map (·.path) = c.selections.map fun s => ⟨c.contestId, s.selectionId⟩)
    q.contests first.contests

theorem areConsecutive_ranges (start : Nat) (groups : List (String × List α)) :
    AreConsecutive start (ranges start groups) (start + (groups.flatMap (·.2)).length) := by
  induction groups generalizing start with
  | nil => exact (Nat.add_zero start).symm
  | cons g groups ih =>
    refine ⟨rfl, ?_⟩
    have hrest := ih (start + g.2.length)
    rw [List.flatMap_cons, List.length_append, ← Nat.add_assoc]
    exact hrest

/-- The range of a group is where it stands among what comes before it and all groups. -/
theorem forall₂_ranges (groups : List (String × List α)) (before : List α) :
    List.Forall₂ (fun range g => range.contestId = g.1 ∧
      ((before ++ groups.flatMap (·.2)).drop range.start).take range.length = g.2)
      (ranges before.length groups) groups := by
  induction groups generalizing before with
  | nil => exact .nil
  | cons g groups ih =>
    refine .cons ⟨rfl, ?_⟩ ?_
    · rw [List.drop_left, List.flatMap_cons, List.take_left]
    · have hrest := ih (before ++ g.2)
      rw [List.length_append, List.append_assoc] at hrest
      exact hrest

theorem isQuotientOf_ofGroups {first second : Ballot G}
    {groups : List (String × List (SelectionQuotient G))}
    (h : List.Forall₂ (IsGroupOf second.contests) groups first.contests) :
    IsQuotientOf first second (ofGroups first.ballotId groups) where
  ballotId := rfl
  ratios := by
    refine List.rel_flatMap h fun g c hgroup => ?_
    obtain ⟨o, ho, hname, _, hratios⟩ := hgroup.ratios
    rw [List.forall₂_map_right_iff]
    exact hratios.imp fun r s hr => ⟨o, ho, hname, hr⟩
  consecutive := by
    have hranges := areConsecutive_ranges 0 groups
    rw [Nat.zero_add] at hranges
    exact hranges
  contests := by
    refine Paired.trans (fun {range g c} hrange hgroup => ?_) (forall₂_ranges groups []) h
    obtain ⟨o, _, _, _, hratios⟩ := hgroup.ratios
    refine ⟨hrange.1.trans hgroup.name, ?_⟩
    have hslice : (ofGroups first.ballotId groups).slice range = g.2 := hrange.2
    rw [hslice, ← List.forall₂_eq_eq_eq, List.forall₂_map_left_iff, List.forall₂_map_right_iff]
    exact hratios.imp fun r s hr => hr.path

/-- **Just the ballots that can be compared have a quotient**, which holds the ratios of their selections
in the order of the first ballot; if there is none, the mismatch that is reported is there. -/
theorem ofBallots_iff_isComparableTo (first second : Ballot G) :
    ((∃ q, ofBallots first second = .ok q) ↔ first.IsComparableTo second) ∧
    (∀ q, ofBallots first second = .ok q → IsQuotientOf first second q) ∧
    ∀ mismatch, ofBallots first second = .error mismatch → mismatch.IsPresent first second := by
  refine ⟨⟨fun ⟨q, hq⟩ => isComparableTo_of_ofBallots hq, fun hsame => ?_⟩, fun q hq => ?_,
    fun mismatch hmismatch => isPresent_of_ofBallots hmismatch⟩
  · cases hresult : ofBallots first second with
    | ok q => exact ⟨q, rfl⟩
    | error mismatch => exact absurd hsame (isPresent_of_ofBallots hresult).not_isComparableTo
  · obtain ⟨groups, rfl, _, _, _, hgroups⟩ := ofBallots_eq_ok hq
    exact isQuotientOf_ofGroups hgroups

end Quotient

end PlaintextEquivalence
