import Mathlib.Data.List.Forall2
import Mathlib.Data.List.Nodup
import PlaintextEquivalence.Ballot.Quotient
import PlaintextEquivalence.Proofs.Lists

/-!
# Quotients of ballots, selection by selection

What two ballots have in common if they have a quotient: the contests of the first, in order, are
paired with groups of ratios, each ratio with one selection, and the names that a ratio is found by
stand for one selection only.

Principal results:
* `ofBallots_eq_ok` — the groups of ratios that a quotient is made of.
* `IsRatioOf.eq_sub` — the ratio is that of the selection of the second ballot with the same names.
* `paths_of_groups`, `nodup_references` — the references of a quotient are those of the first ballot,
  none of them twice.
-/

set_option autoImplicit false

namespace PlaintextEquivalence.Quotient

variable {G : PrimeGroup} {α : Type}

/-- No name is met again iff all names differ from each other and from those seen before. -/
theorem firstRepeated?_eq_none {name : α → String} :
    ∀ {l : List α} {seen : List String},
      firstRepeated? name seen l = none ↔ (l.map name).Nodup ∧ ∀ a ∈ l, name a ∉ seen
  | [], _ => by simp [firstRepeated?]
  | a :: l, seen => by
    unfold firstRepeated?
    split
    · rename_i h
      simp [h]
    · rename_i h
      rw [firstRepeated?_eq_none]
      simp only [List.map_cons, List.nodup_cons, List.mem_map, not_exists, not_and, List.mem_cons,
        not_or, forall_eq_or_imp]
      constructor
      · rintro ⟨hl, hs⟩
        exact ⟨⟨fun b hb => (hs b hb).1, hl⟩, h, fun b hb => (hs b hb).2⟩
      · rintro ⟨⟨hn, hl⟩, _, hs⟩
        exact ⟨hl, fun b hb => ⟨hn b hb, hs b hb⟩⟩

/-- A ratio is that of a selection and the selection of the same name among others. -/
structure IsRatioOf (contestId : String) (others : List (Selection G)) (r : SelectionQuotient G)
    (s : Selection G) : Prop where
  path : r.path = ⟨contestId, s.selectionId⟩
  ratio : ∃ o ∈ others, o.selectionId = s.selectionId ∧ r.ratio = s.ciphertext - o.ciphertext

theorem selectionRatios_eq_ok {contestId : String} {others : List (Selection G)} :
    ∀ {ss : List (Selection G)} {seen : List String} {rs : List (SelectionQuotient G)},
      selectionRatios contestId others seen ss = .ok rs →
        List.Forall₂ (IsRatioOf contestId others) rs ss ∧ (ss.map (·.selectionId)).Nodup ∧
          ∀ s ∈ ss, s.selectionId ∉ seen
  | [], seen, rs, h => by
    cases h
    simp
  | s :: ss, seen, rs, h => by
    unfold selectionRatios at h
    simp only at h
    split at h
    · cases h
    rename_i hseen
    split at h
    · cases h
    rename_i o ho
    cases hrest : selectionRatios contestId others (s.selectionId :: seen) ss with
    | error e => rw [hrest] at h; cases h
    | ok rest =>
      rw [hrest] at h
      cases h
      obtain ⟨hr, hn, hs⟩ := selectionRatios_eq_ok hrest
      have hname : o.selectionId = s.selectionId := by simpa using List.find?_some ho
      refine ⟨.cons ⟨rfl, o, List.mem_of_find?_eq_some ho, hname, rfl⟩ hr, ?_, ?_⟩
      · simp only [List.map_cons, List.nodup_cons, List.mem_map, not_exists, not_and]
        exact ⟨fun t ht he => hs t ht (by simp [he]), hn⟩
      · simp only [List.mem_cons, forall_eq_or_imp]
        exact ⟨hseen, fun t ht hm => hs t ht (List.mem_cons_of_mem _ hm)⟩

/-- A named group of ratios is that of a contest and the contest of the same name among others. -/
structure IsGroupOf (others : List (Contest G)) (g : String × List (SelectionQuotient G))
    (c : Contest G) : Prop where
  name : g.1 = c.contestId
  nodup : (c.selections.map (·.selectionId)).Nodup
  ratios : ∃ o ∈ others, o.contestId = c.contestId ∧ (o.selections.map (·.selectionId)).Nodup ∧
    List.Forall₂ (IsRatioOf c.contestId o.selections) g.2 c.selections

theorem contestRatios_eq_ok {c o : Contest G} {rs : List (SelectionQuotient G)}
    (h : contestRatios c o = .ok rs) :
    (c.selections.map (·.selectionId)).Nodup ∧ (o.selections.map (·.selectionId)).Nodup ∧
      List.Forall₂ (IsRatioOf c.contestId o.selections) rs c.selections := by
  unfold contestRatios at h
  split at h
  · cases h
  split at h
  · cases h
  · rename_i hrep
    obtain ⟨hr, hn, _⟩ := selectionRatios_eq_ok h
    exact ⟨hn, (firstRepeated?_eq_none.1 hrep).1, hr⟩

theorem ballotRatios_eq_ok {others : List (Contest G)} :
    ∀ {cs : List (Contest G)} {seen : List String}
      {groups : List (String × List (SelectionQuotient G))},
      ballotRatios others seen cs = .ok groups →
        List.Forall₂ (IsGroupOf others) groups cs ∧ (cs.map (·.contestId)).Nodup ∧
          ∀ c ∈ cs, c.contestId ∉ seen
  | [], seen, groups, h => by
    cases h
    simp
  | c :: cs, seen, groups, h => by
    unfold ballotRatios at h
    split at h
    · cases h
    rename_i hseen
    split at h
    · cases h
    rename_i o ho
    cases hratios : contestRatios c o with
    | error e => rw [hratios] at h; cases h
    | ok rs =>
      rw [hratios] at h
      cases hrest : ballotRatios others (c.contestId :: seen) cs with
      | error e => simp only [hrest, bind, Except.bind] at h; cases h
      | ok rest =>
        simp only [hrest, bind, Except.bind, pure, Except.pure] at h
        cases h
        obtain ⟨hg, hn, hs⟩ := ballotRatios_eq_ok hrest
        obtain ⟨hc, hoc, hr⟩ := contestRatios_eq_ok hratios
        have hname : o.contestId = c.contestId := by simpa using List.find?_some ho
        refine ⟨.cons ⟨rfl, hc, o, List.mem_of_find?_eq_some ho, hname, hoc, hr⟩ hg, ?_, ?_⟩
        · simp only [List.map_cons, List.nodup_cons, List.mem_map, not_exists, not_and]
          exact ⟨fun d hd he => hs d hd (by simp [he]), hn⟩
        · simp only [List.mem_cons, forall_eq_or_imp]
          exact ⟨hseen, fun d hd hm => hs d hd (List.mem_cons_of_mem _ hm)⟩

/-- The quotient that groups of ratios make up. -/
def ofGroups (ballotId : String) (groups : List (String × List (SelectionQuotient G))) :
    Quotient G :=
  ⟨ballotId, ranges 0 groups, groups.flatMap (·.2)⟩

/-- **A quotient of two ballots** is made of a group of ratios for each contest of the first. -/
theorem ofBallots_eq_ok {first second : Ballot G} {q : Quotient G}
    (h : ofBallots first second = .ok q) :
    ∃ groups, q = ofGroups first.ballotId groups ∧ first.ballotId = second.ballotId ∧
      (first.contests.map (·.contestId)).Nodup ∧ (second.contests.map (·.contestId)).Nodup ∧
      List.Forall₂ (IsGroupOf second.contests) groups first.contests := by
  unfold ofBallots at h
  split at h
  · cases h
  rename_i hid
  split at h
  · cases h
  split at h
  · cases h
  rename_i hrep
  split at h
  · cases h
  · rename_i groups hgroups
    cases h
    obtain ⟨hg, hn, _⟩ := ballotRatios_eq_ok hgroups
    exact ⟨groups, rfl, Decidable.not_not.1 hid, hn, (firstRepeated?_eq_none.1 hrep).1, hg⟩

/-- If names stand for one selection only, the other selection of a ratio is the one of its name. -/
theorem IsRatioOf.eq_sub {contestId : String} {others : List (Selection G)}
    {r : SelectionQuotient G} {s o : Selection G} (h : IsRatioOf contestId others r s)
    (hn : (others.map (·.selectionId)).Nodup) (ho : o ∈ others)
    (hname : o.selectionId = s.selectionId) : r.ratio = s.ciphertext - o.ciphertext := by
  obtain ⟨o', ho', hname', hr⟩ := h.ratio
  rw [hr, List.inj_on_of_nodup_map hn ho' ho (hname'.trans hname.symm)]

/-! ## References -/

theorem IsGroupOf.contestId {others : List (Contest G)}
    {g : String × List (SelectionQuotient G)} {c : Contest G} (h : IsGroupOf others g c) :
    ∀ r ∈ g.2, r.path.contestId = g.1 := by
  obtain ⟨o, _, _, _, hratios⟩ := h.ratios
  intro r hr
  obtain ⟨s, _, hs⟩ := Paired.exists_right hratios hr
  rw [hs.path, h.name]

/-- The references to the selections of contests in order. -/
def references (contests : List (Contest G)) : List SelectionPath :=
  contests.flatMap fun c => c.selections.map fun s => ⟨c.contestId, s.selectionId⟩

theorem paths_of_groups {others contests : List (Contest G)}
    {groups : List (String × List (SelectionQuotient G))}
    (h : List.Forall₂ (IsGroupOf others) groups contests) :
    (groups.flatMap (·.2)).map (·.path) = references contests := by
  rw [references, List.map_flatMap, ← List.forall₂_eq_eq_eq]
  refine List.rel_flatMap h fun g c hgroup => ?_
  obtain ⟨o, _, _, _, hratios⟩ := hgroup.ratios
  rw [List.forall₂_map_left_iff, List.forall₂_map_right_iff]
  exact hratios.imp fun r s hr => hr.path

theorem nodup_references {contests : List (Contest G)}
    (hcontests : (contests.map (·.contestId)).Nodup)
    (hselections : ∀ c ∈ contests, (c.selections.map (·.selectionId)).Nodup) :
    (references contests).Nodup := by
  rw [references, List.nodup_flatMap]
  constructor
  · intro c hc
    refine List.Nodup.of_map SelectionPath.selectionId ?_
    rw [List.map_map]
    exact hselections c hc
  · refine (List.pairwise_map.1 hcontests).imp fun {c d} hne => ?_
    intro path hc hd
    obtain ⟨_, _, rfl⟩ := List.mem_map.1 hc
    obtain ⟨_, _, heq⟩ := List.mem_map.1 hd
    exact hne (congrArg SelectionPath.contestId heq).symm

/-- The references of a quotient are those of the first ballot. -/
theorem paths_eq_references {first second : Ballot G} {q : Quotient G}
    (h : ofBallots first second = .ok q) : q.paths = references first.contests := by
  obtain ⟨groups, rfl, _, _, _, hgroups⟩ := ofBallots_eq_ok h
  exact paths_of_groups hgroups

/-- No reference occurs twice in a quotient. -/
theorem nodup_paths {first second : Ballot G} {q : Quotient G} (h : ofBallots first second = .ok q) :
    q.paths.Nodup := by
  obtain ⟨groups, _, _, hfirst, _, hgroups⟩ := ofBallots_eq_ok h
  rw [paths_eq_references h]
  refine nodup_references hfirst fun contest hcontest => ?_
  obtain ⟨_, _, hgroup⟩ := Paired.exists_left hgroups hcontest
  exact hgroup.nodup

end PlaintextEquivalence.Quotient
