import PlaintextEquivalence.Ballot.Basic

/-!
# Quotients of ballots

The quotient of two ballots holds, for each selection of the first, its ciphertext less that of the
selection of the second with the same names.  It exists only for ballots of the same names, each
given once at its place; otherwise the first defect found is reported.  The selections stand in one
list in the order of the first ballot, and each contest is a range of it.

What is modelled:
* `Quotient` — `RatioBallot`, with `SelectionQuotient` for `RatioSelection` and `ContestRange` for
  `ContestLayout`.
* `Quotient.ofBallots` — `RatioBallot.new`, with `contestRatios` for `push_contest_ratios` and
  `firstRepeated?` for the duplicates that `index_contests` and `index_selections` find.
* `BallotMismatch` — `StructuralMismatch`.
-/

namespace PlaintextEquivalence

/-- Why two ballots cannot be compared. -/
inductive BallotMismatch where
  | ballotId (first second : String)
  | contestCount (first second : Nat)
  | selectionCount (contestId : String) (first second : Nat)
  | unmatchedContest (contestId : String)
  | unmatchedSelection (selection : SelectionPath)
  | duplicateContest (contestId : String)
  | duplicateSelection (selection : SelectionPath)
  deriving DecidableEq, Repr

def BallotMismatch.message : BallotMismatch → String
  | .ballotId first second => "ballot ids differ: `" ++ first ++ "` vs `" ++ second ++ "`"
  | .contestCount first second =>
    "ballots contain " ++ toString first ++ " and " ++ toString second ++ " contests"
  | .selectionCount contestId first second =>
    "contest `" ++ contestId ++ "` contains " ++ toString first ++ " and " ++ toString second ++
      " selections"
  | .unmatchedContest contestId =>
    "contest `" ++ contestId ++ "` has no counterpart in the second ballot"
  | .unmatchedSelection selection =>
    "selection `" ++ selection.text ++ "` has no counterpart in the second ballot"
  | .duplicateContest contestId => "contest `" ++ contestId ++ "` is repeated"
  | .duplicateSelection selection => "selection `" ++ selection.text ++ "` is repeated"

/-- The ratio of two selections. -/
structure SelectionQuotient (G : PrimeGroup) where
  path : SelectionPath
  ratio : Ciphertext G
  deriving DecidableEq

/-- Where the selections of a contest stand. -/
structure ContestRange where
  contestId : String
  start : Nat
  length : Nat
  deriving DecidableEq, Repr

/-- The quotient of two ballots. -/
structure Quotient (G : PrimeGroup) where
  ballotId : String
  contests : List ContestRange
  selections : List (SelectionQuotient G)
  deriving DecidableEq

namespace Quotient

variable {G : PrimeGroup}

/-- The first item whose name was seen before. -/
def firstRepeated? {α : Type} (name : α → String) : List String → List α → Option α
  | _, [] => none
  | seen, a :: rest =>
    if name a ∈ seen then some a else firstRepeated? name (name a :: seen) rest

/-- The ratios of the selections of a contest, given the names already used in it. -/
def selectionRatios (contestId : String) (others : List (Selection G)) :
    List String → List (Selection G) → Except BallotMismatch (List (SelectionQuotient G))
  | _, [] => .ok []
  | seen, selection :: rest =>
    let path : SelectionPath := ⟨contestId, selection.selectionId⟩
    if selection.selectionId ∈ seen then .error (.duplicateSelection path)
    else match others.find? (·.selectionId == selection.selectionId) with
      | none => .error (.unmatchedSelection path)
      | some other => do
        let ratios ← selectionRatios contestId others (selection.selectionId :: seen) rest
        pure (⟨path, selection.ciphertext - other.ciphertext⟩ :: ratios)

/-- The ratios of a contest and the contest of the same name in the other ballot. -/
def contestRatios (contest other : Contest G) :
    Except BallotMismatch (List (SelectionQuotient G)) :=
  if contest.selections.length ≠ other.selections.length then
    .error (.selectionCount contest.contestId contest.selections.length other.selections.length)
  else match firstRepeated? (·.selectionId) [] other.selections with
    | some s => .error (.duplicateSelection ⟨other.contestId, s.selectionId⟩)
    | none => selectionRatios contest.contestId other.selections [] contest.selections

/-- The contests with their ratios, given the names already used. -/
def ballotRatios (others : List (Contest G)) :
    List String → List (Contest G) →
      Except BallotMismatch (List (String × List (SelectionQuotient G)))
  | _, [] => .ok []
  | seen, contest :: rest =>
    if contest.contestId ∈ seen then .error (.duplicateContest contest.contestId)
    else match others.find? (·.contestId == contest.contestId) with
      | none => .error (.unmatchedContest contest.contestId)
      | some other => do
        let ratios ← contestRatios contest other
        let others ← ballotRatios others (contest.contestId :: seen) rest
        pure ((contest.contestId, ratios) :: others)

/-- The ranges that lists take when they are written one after the other. -/
def ranges {α : Type} : Nat → List (String × List α) → List ContestRange
  | _, [] => []
  | start, (contestId, items) :: rest =>
    ⟨contestId, start, items.length⟩ :: ranges (start + items.length) rest

/-- The quotient of two ballots. -/
def ofBallots (first second : Ballot G) : Except BallotMismatch (Quotient G) :=
  if first.ballotId ≠ second.ballotId then .error (.ballotId first.ballotId second.ballotId)
  else if first.contests.length ≠ second.contests.length then
    .error (.contestCount first.contests.length second.contests.length)
  else match firstRepeated? (·.contestId) [] second.contests with
    | some c => .error (.duplicateContest c.contestId)
    | none =>
      match ballotRatios second.contests [] first.contests with
      | .error e => .error e
      | .ok contests => .ok ⟨first.ballotId, ranges 0 contests, contests.flatMap (·.2)⟩

/-- The number of selections. -/
def size (q : Quotient G) : Nat := q.selections.length

/-- The ratios in order. -/
def ratios (q : Quotient G) : List (Ciphertext G) := q.selections.map (·.ratio)

/-- The references in order. -/
def paths (q : Quotient G) : List SelectionPath := q.selections.map (·.path)

end Quotient

end PlaintextEquivalence
