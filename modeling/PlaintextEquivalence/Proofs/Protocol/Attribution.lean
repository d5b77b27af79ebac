import PlaintextEquivalence.Proofs.Protocol.Calls

/-!
# Who is to blame for a failed proof

If the summed responses do not answer the challenge for a selection, the trustees whose own responses
do not answer it either are named.  The equations are linear, so that a sum of parts that all fit would
fit: somebody is always named, and never one who followed the protocol.

Principal results:
* `balances_of_each` — if every part fits, the sum does.
* `mem_faulty` — who is named for a selection.
* `faults_attributed` — which selections are reported when a run fails, and who is named for each.
-/

set_option autoImplicit false

namespace PlaintextEquivalence

variable {G : PrimeGroup}

/-! ## Equations -/

namespace Blinding

/-- A response `v` fits a challenge `c` to a blinding `(A, B)` of a ratio `(α, β)` with commitments
`(a, b)`: `a = [v] α + [c] A` and `b = [v] β + [c] B`. -/
structure Balances (ratio blinded commitments : Ciphertext G) (c v : G.Scalar) : Prop where
  pad : commitments.pad = v • ratio.pad + c • blinded.pad
  data : commitments.data = v • ratio.data + c • blinded.data

instance (ratio blinded commitments : Ciphertext G) (c v : G.Scalar) :
    Decidable (Balances ratio blinded commitments c v) :=
  decidable_of_iff (commitments.pad = v • ratio.pad + c • blinded.pad ∧
      commitments.data = v • ratio.data + c • blinded.data)
    ⟨fun h => ⟨h.1, h.2⟩, fun h => ⟨h.pad, h.data⟩⟩

variable [PrimeGroup.Lawful G] {ratio : Ciphertext G} {c : G.Scalar}

/-- The check of a response is that of its equations. -/
theorem answers_eq_true {blinded commitments : Ciphertext G} {v : G.Scalar} :
    Session.answers ratio blinded commitments c v = true ↔
      Balances ratio blinded commitments c v := by
  unfold Session.answers expectedCommitments
  rw [decide_eq_true_iff, PrimeGroup.sumMultiples_pair, PrimeGroup.sumMultiples_pair]
  constructor
  · rintro rfl
    exact ⟨rfl, rfl⟩
  · rintro ⟨hpad, hdata⟩
    exact Ciphertext.ext hpad.symm hdata.symm

theorem balances_zero : Balances ratio 0 0 c 0 := by
  have hzero : ∀ a : G.Element, (0 : G.Element) = (0 : G.Scalar) • a + c • 0 := by
    intro a
    rw [zero_smul, smul_zero, add_zero]
  exact ⟨hzero ratio.pad, hzero ratio.data⟩

theorem Balances.add {blinded blinded' commitments commitments' : Ciphertext G} {v v' : G.Scalar}
    (h : Balances ratio blinded commitments c v) (h' : Balances ratio blinded' commitments' c v') :
    Balances ratio (blinded + blinded') (commitments + commitments') c (v + v') := by
  have hadd : ∀ a b b' : G.Element,
      v • a + c • b + (v' • a + c • b') = (v + v') • a + c • (b + b') := by
    intro a b b'
    rw [add_smul, smul_add]
    abel
  constructor
  · calc commitments.pad + commitments'.pad
        = v • ratio.pad + c • blinded.pad + (v' • ratio.pad + c • blinded'.pad) := by
          rw [h.pad, h'.pad]
      _ = (v + v') • ratio.pad + c • (blinded.pad + blinded'.pad) := hadd _ _ _
  · calc commitments.data + commitments'.data
        = v • ratio.data + c • blinded.data + (v' • ratio.data + c • blinded'.data) := by
          rw [h.data, h'.data]
      _ = (v + v') • ratio.data + c • (blinded.data + blinded'.data) := hadd _ _ _

/-- **If every part fits, the sum does.** -/
theorem balances_of_each {contributions : List (Contribution G)}
    {responses : List (ChallengeResponse G)}
    (h : List.Forall₂ (fun contribution r =>
      Balances ratio contribution.blinded contribution.commitments c r.response)
      contributions responses) :
    Balances ratio (Aggregate.of ratio contributions).blinded
      (Aggregate.of ratio contributions).commitments c (Session.totalResponse responses) := by
  -- whatever fits already keeps to fit when the parts are added to it one by one
  have hfold : ∀ {blinded commitments : Ciphertext G} {v : G.Scalar},
      Balances ratio blinded commitments c v →
        Balances ratio ((contributions.map (·.blinded)).foldl (· + ·) blinded)
          ((contributions.map (·.commitments)).foldl (· + ·) commitments) c
          (responses.foldl (fun acc r => acc + r.response) v) := by
    induction h with
    | nil => exact fun hsum => hsum
    | cons hpart _ ih => exact fun hsum => ih (hsum.add hpart)
  rw [Aggregate.of_eq]
  exact hfold balances_zero

/-- **What fits a blinding by one exponent**: commitments with one number, which the response gives
away together with the exponent. -/
theorem balances_smul {commitments : Ciphertext G} {exponent v : G.Scalar} :
    Balances ratio (exponent • ratio) commitments c v ↔
      commitments = (v + c * exponent) • ratio := by
  have hsum : ∀ a : G.Element, v • a + c • exponent • a = (v + c * exponent) • a := by
    intro a
    rw [add_smul, mul_smul]
  constructor
  · rintro ⟨hpad, hdata⟩
    exact Ciphertext.ext (hpad.trans (hsum ratio.pad)) (hdata.trans (hsum ratio.data))
  · rintro rfl
    exact ⟨(hsum ratio.pad).symm, (hsum ratio.data).symm⟩

end Blinding

namespace Session

/-! ## Who is named -/

section Faulty

variable {ratio : Ciphertext G} {c : G.Scalar} {contributions : List (Contribution G)}
  {responses : List (ChallengeResponse G)}

/-- The trustees named are the positions of the parts that fail, in order. -/
theorem faulty_eq (ratio : Ciphertext G) (c : G.Scalar) :
    ∀ (contributions : List (Contribution G)) (responses : List (ChallengeResponse G)) (first : Nat),
      faulty ratio c first contributions responses =
        (((contributions.zip responses).zipIdx first).filter fun part =>
          !answers ratio part.1.1.blinded part.1.1.commitments c part.1.2.response).map Prod.snd
  | [], _, _ => by simp [faulty]
  | _ :: _, [], _ => by simp [faulty]
  | contribution :: contributions, r :: responses, first => by
    unfold faulty
    rw [faulty_eq ratio c contributions responses (first + 1), List.zip_cons_cons, List.zipIdx_cons,
      List.filter_cons]
    split
    · rename_i hfits
      simp [hfits]
    · rename_i hfails
      simp [hfails]

theorem mem_faulty {j : Nat} :
    j ∈ faulty ratio c 0 contributions responses ↔
      ∃ contribution r, contributions[j]? = some contribution ∧ responses[j]? = some r ∧
        answers ratio contribution.blinded contribution.commitments c r.response = false := by
  rw [faulty_eq]
  simp only [List.mem_map, List.mem_filter, List.mem_zipIdx_iff_getElem?, Bool.not_eq_true',
    List.getElem?_zip_eq_some]
  constructor
  · rintro ⟨⟨⟨contribution, r⟩, _⟩, ⟨⟨hcontribution, hr⟩, hfails⟩, rfl⟩
    exact ⟨contribution, r, hcontribution, hr, hfails⟩
  · rintro ⟨contribution, r, hcontribution, hr, hfails⟩
    exact ⟨((contribution, r), j), ⟨⟨hcontribution, hr⟩, hfails⟩, rfl⟩

theorem pairwise_faulty (ratio : Ciphertext G) (c : G.Scalar) (contributions : List (Contribution G))
    (responses : List (ChallengeResponse G)) :
    (faulty ratio c 0 contributions responses).Pairwise (· < ·) := by
  have hpositions : (((contributions.zip responses).zipIdx 0).map Prod.snd).Pairwise (· < ·) := by
    rw [List.zipIdx_map_snd]
    exact List.pairwise_lt_range'
  rw [faulty_eq]
  exact hpositions.sublist (List.filter_sublist.map _)

/-- **Somebody is named** if the sum of all parts fails. -/
theorem faulty_ne_nil [PrimeGroup.Lawful G] (hlen : contributions.length = responses.length)
    (hfails : answers ratio (Aggregate.of ratio contributions).blinded
      (Aggregate.of ratio contributions).commitments c (totalResponse responses) = false) :
    faulty ratio c 0 contributions responses ≠ [] := by
  intro hnone
  have hall : List.Forall₂ (fun contribution r =>
      Blinding.Balances ratio contribution.blinded contribution.commitments c r.response)
      contributions responses := by
    rw [List.forall₂_iff_get]
    refine ⟨hlen, fun j hj hj' => ?_⟩
    rw [← Blinding.answers_eq_true]
    by_contra hpart
    have hmem : j ∈ faulty ratio c 0 contributions responses :=
      mem_faulty.2 ⟨_, _, List.getElem?_eq_getElem hj, List.getElem?_eq_getElem hj',
        Bool.eq_false_iff.2 hpart⟩
    rw [hnone] at hmem
    cases hmem
  have hsum := Blinding.answers_eq_true.2 (Blinding.balances_of_each hall)
  rw [hfails] at hsum
  cases hsum

end Faulty

/-- What a run that fails for its proofs has been answered. -/
theorem RunCourse.unproved {session : Session G} {first second : Ballot G} {es : List (Event G)}
    {found : List FaultyBlinding}
    (h : RunCourse session first second es (.error (.error (.proofVerification found)))) :
    ∃ quotient rows answers, Quotient.ofBallots first second = .ok quotient ∧
      Tabulates session es quotient.size rows answers ∧
      proofs quotient (session.roundsOf quotient rows answers) = .error found := by
  generalize hresult : (.error (.error (.proofVerification found)) :
    Checked RunError (BallotCertificate G)) = result at h
  cases h with
  | incomparable => cases hresult
  | released _ failed _ =>
    cases hresult
    rcases failed.error with ⟨_, _, h⟩ | ⟨_, h⟩
    · cases h
    · cases h
  | @concluded n quotient es es' rounds _ comparable answered conclusion =>
    obtain ⟨hblinds, hchallenges⟩ := calls_of_rounds n es (conclusion.isAside _)
    obtain ⟨rows, answers, rfl, htable⟩ := answered.tabulates hblinds hchallenges
    cases conclusion with
    | unproved unproved =>
      cases hresult
      exact ⟨quotient, rows, answers, comparable, htable, unproved⟩
    | _ => cases hresult

/-! ## Attribution -/

section Attribution

variable (session : Session G) (es : List (Event G)) (x : SelectionQuotient G × Nat)

/-- What all trustees contributed for the ratio at a position. -/
def contributionsIn (i : Nat) : List (Contribution G) :=
  (List.range session.trustees).filterMap (contributed? es · i)

/-- What all trustees responded to the challenge at a position. -/
def responsesIn (i : Nat) : List (ChallengeResponse G) :=
  (List.range session.trustees).filterMap (responded? es · i)

/-- The sum of what all trustees contributed for a selection. -/
def sumIn : Aggregate G := Aggregate.of x.1.ratio (session.contributionsIn es x.2)

/-- The challenge for that sum. -/
def challengeIn : G.Scalar := (session.sumIn es x).challenge session.election

/-- The summed responses for a selection fit the challenge. -/
def SumBalances : Prop :=
  Blinding.Balances x.1.ratio (session.sumIn es x).blinded (session.sumIn es x).commitments
    (session.challengeIn es x) (totalResponse (session.responsesIn es x.2))

instance : DecidablePred (session.SumBalances es) := fun _ =>
  inferInstanceAs (Decidable (Blinding.Balances _ _ _ _ _))

/-- What trustee `j` responded for a selection does not fit the challenge and what it contributed. -/
def PartFails (j : Nat) : Prop :=
  ∃ contribution r, contributed? es j x.2 = some contribution ∧ responded? es j x.2 = some r ∧
    ¬ Blinding.Balances x.1.ratio contribution.blinded contribution.commitments
      (session.challengeIn es x) r.response

/-- What trustee `j` contributed and responded for a selection are as the protocol wants, with some
secret numbers. -/
def Follows (j : Nat) : Prop :=
  ∃ (contribution : Contribution G) (exponent mask : G.Scalar),
    contributed? es j x.2 = some contribution ∧ contribution.blinded = exponent • x.1.ratio ∧
      contribution.commitments = mask • x.1.ratio ∧
      responded? es j x.2 = some ⟨mask - session.challengeIn es x * exponent⟩

/-- A failure names exactly those to blame for a selection. -/
structure Attributes (f : FaultyBlinding) : Prop where
  selection : f.selection = x.1.path
  ordered : f.trustees.Pairwise (· < ·)
  failing : ∀ j, j ∈ f.trustees ↔ j < session.trustees ∧ session.PartFails es x j
  somebody : f.trustees ≠ []
  honest : ∀ j, session.Follows es x j → j ∉ f.trustees
  alone : ∀ j, (∀ k < session.trustees, k ≠ j → session.Follows es x k) → f.trustees = [j]

end Attribution

/-! ## From the two rounds to the failures -/

/-- If every trustee has given a row of a table, all that was given at a position is a column. -/
theorem filterMap_range_eq_column {α : Type} {table : List (List α)} {i n : Nat}
    {given : Nat → Option α} (hlen : table.length = n)
    (hgiven : ∀ j, given j = table[j]?.bind (·[i]?)) :
    (List.range n).filterMap given = column i table := by
  rw [funext hgiven, ← hlen, filterMap_range]
  rfl

/-- There is an item at every position of a full table. -/
theorem isSome_item {α : Type} {table : List (List α)} {n size j i : Nat} (hlen : table.length = n)
    (hrow : ∀ row ∈ table, row.length = size) (hj : j < n) (hi : i < size) :
    (table[j]?.bind (·[i]?)).isSome := by
  rw [← hlen] at hj
  rw [List.getElem?_eq_getElem hj, Option.bind_some, List.getElem?_eq_getElem
    (by rw [hrow _ (List.getElem_mem hj)]; exact hi)]
  rfl

theorem tryAt_eq_error {session : Session G} {rows : List (List (Contribution G))}
    {answers : List (List (ChallengeResponse G))} {x : SelectionQuotient G × Nat}
    {f : FaultyBlinding} :
    session.tryAt rows answers x = .error f ↔ session.answersAt rows answers x = false ∧
      f = ⟨x.1.path, faulty x.1.ratio (session.challengeAt rows x) 0 (column x.2 rows)
        (column x.2 answers)⟩ := by
  unfold tryAt proofOf answersAt
  simp only [aggregateAt_ratio]
  split
  · rename_i h
    simp [h]
  · rename_i h
    simp [h, eq_comm]

/-- The failures among tries are those of the selections that fail, in order. -/
theorem forall₂_failures {session : Session G} {rows : List (List (Contribution G))}
    {answers : List (List (ChallengeResponse G))} (places : List (SelectionQuotient G × Nat)) :
    List.Forall₂ (fun x f => session.tryAt rows answers x = .error f)
      (places.filter fun x => !session.answersAt rows answers x)
      (failures (places.map (session.tryAt rows answers))) := by
  induction places with
  | nil => exact .nil
  | cons x places ih =>
    unfold failures at ih ⊢
    rw [List.map_cons, List.filterMap_cons]
    cases htry : session.tryAt rows answers x with
    | ok p =>
      have hanswers := (tryAt_eq_ok.1 htry).1
      simpa [List.filter_cons, hanswers] using ih
    | error f =>
      have hfails := (tryAt_eq_error.1 htry).1
      simpa [List.filter_cons, hfails, htry] using ih

section Tables

variable {session : Session G} {es : List (Event G)} {quotient : Quotient G} {size : Nat}
  {rows : List (List (Contribution G))} {answers : List (List (ChallengeResponse G))}

theorem sumIn_eq (hlen : rows.length = session.trustees)
    (hgiven : ∀ j i, contributed? es j i = rows[j]?.bind (·[i]?)) (x : SelectionQuotient G × Nat) :
    session.sumIn es x = aggregateAt rows x := by
  rw [sumIn, contributionsIn, filterMap_range_eq_column hlen (hgiven · x.2)]
  rfl

theorem Tabulates.sumIn_eq (h : Tabulates session es size rows answers)
    (x : SelectionQuotient G × Nat) : session.sumIn es x = aggregateAt rows x :=
  Session.sumIn_eq h.rows_length h.contributed x

theorem Tabulates.challengeIn_eq (h : Tabulates session es size rows answers)
    (x : SelectionQuotient G × Nat) : session.challengeIn es x = session.challengeAt rows x := by
  rw [challengeIn, h.sumIn_eq]
  rfl

theorem Tabulates.sumBalances [PrimeGroup.Lawful G] (h : Tabulates session es size rows answers)
    (x : SelectionQuotient G × Nat) :
    session.SumBalances es x ↔ session.answersAt rows answers x = true := by
  unfold SumBalances answersAt
  rw [h.sumIn_eq, h.challengeIn_eq, responsesIn,
    filterMap_range_eq_column h.answers_length (h.responded · x.2), Blinding.answers_eq_true]

/-- Every trustee has contributed and responded for every selection. -/
theorem Tabulates.isSome (h : Tabulates session es size rows answers) {j i : Nat}
    (hj : j < session.trustees) (hi : i < size) :
    (contributed? es j i).isSome ∧ (responded? es j i).isSome := by
  rw [h.contributed, h.responded]
  exact ⟨isSome_item h.rows_length h.row_length hj hi, isSome_item h.answers_length h.answer_length hj hi⟩

/-- A trustee whose part follows the protocol does not fail. -/
theorem Follows.not_partFails [PrimeGroup.Lawful G] {x : SelectionQuotient G × Nat} {j : Nat}
    (h : session.Follows es x j) : ¬ session.PartFails es x j := by
  obtain ⟨contribution, exponent, mask, hcontribution, hblinded, hcommitments, hresponse⟩ := h
  rintro ⟨contribution', r, hcontribution', hr, hfails⟩
  cases hcontribution.symm.trans hcontribution'
  cases hresponse.symm.trans hr
  apply hfails
  rw [hblinded, hcommitments, Blinding.balances_smul, sub_add_cancel]

/-- The trustees named for a selection are those whose own part fails. -/
theorem Tabulates.mem_faulty [PrimeGroup.Lawful G] (h : Tabulates session es size rows answers)
    {x : SelectionQuotient G × Nat} (hx : x.2 < size) (j : Nat) :
    j ∈ faulty x.1.ratio (session.challengeAt rows x) 0 (column x.2 rows) (column x.2 answers) ↔
      j < session.trustees ∧ session.PartFails es x j := by
  unfold PartFails
  rw [Session.mem_faulty, getElem?_column hx h.row_length, getElem?_column hx h.answer_length,
    ← h.contributed, ← h.responded, h.challengeIn_eq]
  simp only [← Blinding.answers_eq_true, Bool.not_eq_true]
  refine ⟨fun hpart => ⟨?_, hpart⟩, And.right⟩
  obtain ⟨contribution, _, hcontribution, -⟩ := hpart
  rw [h.contributed] at hcontribution
  obtain ⟨row, hrow, -⟩ := Option.bind_eq_some_iff.1 hcontribution
  rw [← h.rows_length]
  exact (List.getElem?_eq_some_iff.1 hrow).1

/-- What is reported for a selection that fails names exactly those to blame. -/
theorem Tabulates.attributes [PrimeGroup.Lawful G] (h : Tabulates session es size rows answers)
    {x : SelectionQuotient G × Nat} (hx : x.2 < size) {f : FaultyBlinding}
    (htry : session.tryAt rows answers x = .error f) :
    session.Attributes es x f := by
  obtain ⟨hfails, rfl⟩ := tryAt_eq_error.1 htry
  have hlen : (column x.2 rows).length = (column x.2 answers).length := by
    rw [← (forall₂_column hx h.row_length).length_eq, ← (forall₂_column hx h.answer_length).length_eq,
      h.rows_length, h.answers_length]
  have hsomebody := faulty_ne_nil hlen hfails
  have hhonest (j : Nat) (hfollows : session.Follows es x j) : j ∉ faulty x.1.ratio
      (session.challengeAt rows x) 0 (column x.2 rows) (column x.2 answers) := by
    intro hmem
    exact hfollows.not_partFails ((h.mem_faulty hx j).1 hmem).2
  have hordered := pairwise_faulty x.1.ratio (session.challengeAt rows x) (column x.2 rows)
    (column x.2 answers)
  constructor
  case selection => rfl
  case ordered => exact hordered
  case failing => exact h.mem_faulty hx
  case somebody => exact hsomebody
  case honest => exact hhonest
  case alone =>
    intro j hothers
    have honly : ∀ k ∈ faulty x.1.ratio (session.challengeAt rows x) 0 (column x.2 rows)
        (column x.2 answers), k = j := by
      intro k hk
      by_contra hne
      exact hhonest k (hothers k ((h.mem_faulty hx k).1 hk).1 hne) hk
    exact eq_singleton_of_forall hordered hsomebody honly

/-- A run whose proofs are not in order ends there. -/
theorem conclude_of_unproved {rounds : Rounds G} {found : List FaultyBlinding}
    (h : proofs quotient rounds = .error found) :
    session.conclude quotient rounds = pure (Checked.refuse (.proofVerification found)) := by
  unfold conclude
  rw [h]

end Tables

/-- **Faults are attributed exactly.**  Whoever the trustees are, if a run fails for its proofs, it
reports the selections for which the summed responses do not fit, in order and each once; and for each
of them it names the trustees whose own responses do not fit, in order, at least one, and none that
followed the protocol. -/
theorem faults_attributed [PrimeGroup.Lawful G] {σ : Type} (session : Session G)
    (world : World (Question G) Question.Answer σ) (s : σ) (first second : Ballot G)
    {found : List FaultyBlinding}
    (h : ((session.run first second).hold world s).1 = .error (.error (.proofVerification found))) :
    ∃ quotient, Quotient.ofBallots first second = .ok quotient ∧
      (∀ j < session.trustees, ∀ i < quotient.size,
        (contributed? ((session.run first second).exchanges world s) j i).isSome ∧
          (responded? ((session.run first second).exchanges world s) j i).isSome) ∧
      List.Forall₂ (session.Attributes ((session.run first second).exchanges world s))
        (quotient.places.filter fun x =>
          ¬ session.SumBalances ((session.run first second).exchanges world s) x) found ∧
      (found.map (·.selection)).Nodup := by
  have hcourse := course_run (Dialogue.course_hold world (session.run first second) s)
  generalize (session.run first second).exchanges world s = es at hcourse ⊢
  rw [h] at hcourse
  obtain ⟨quotient, rows, answers, comparable, htable, hproofs⟩ := hcourse.unproved
  have hplace : ∀ x ∈ quotient.places, x.2 < quotient.size := fun x hx =>
    (List.getElem?_eq_some_iff.1 (Quotient.mem_places.1 hx)).1
  have hfound : failures (quotient.places.map (session.tryAt rows answers)) = found := by
    rw [proofs_roundsOf] at hproofs
    split at hproofs
    · cases hproofs
    · exact Except.error.inj hproofs
  have hattributed : List.Forall₂ (session.Attributes es)
      (quotient.places.filter fun x => ¬ session.SumBalances es x) found := by
    have hfailing : (quotient.places.filter fun x => ¬ session.SumBalances es x) =
        quotient.places.filter fun x => !session.answersAt rows answers x := by
      refine List.filter_congr fun x _ => ?_
      simp [htable.sumBalances]
    rw [hfailing, ← hfound]
    have hmem : ∀ x ∈ quotient.places.filter fun x => !session.answersAt rows answers x,
        x ∈ quotient.places := fun x hx => List.mem_of_mem_filter hx
    refine ((List.forall₂_and_left _ _).2 ⟨hmem, forall₂_failures quotient.places⟩).imp ?_
    rintro x f ⟨hx, htry⟩
    exact htable.attributes (hplace x hx) htry
  refine ⟨quotient, comparable, fun j hj i hi => htable.isSome hj hi, hattributed, ?_⟩
  have hselections : found.map (·.selection) =
      (quotient.places.filter fun x => ¬ session.SumBalances es x).map (·.1.path) := by
    rw [← List.forall₂_eq_eq_eq, List.forall₂_map_left_iff, List.forall₂_map_right_iff]
    exact hattributed.flip.imp fun f x hf => hf.selection
  have hpaths : quotient.places.map (·.1.path) = quotient.paths := by
    rw [Quotient.paths, ← Quotient.map_fst_places, List.map_map]
    rfl
  rw [hselections]
  refine List.Nodup.sublist (List.filter_sublist.map _) ?_
  rw [hpaths]
  exact Quotient.nodup_paths comparable

end Session

/-! ## A small run -/

namespace Small

/-- A world in which the second trustee commits to a datum without a number behind it, while the first
one follows the protocol with zeros. -/
def crooked : World (Question Group) Question.Answer Unit
  | .number, _ => (0, ())
  | .blind j request, _ =>
    (⟨0, .ok (request.ciphertexts.map fun ratio =>
      if j = 0 then ⟨0, 0, .retained⟩ else ⟨ratio, ⟨0, Group.generator⟩, .retained⟩)⟩, ())
  | .challenge _ request, _ => (⟨0, .ok (request.challenges.map fun _ => ⟨0⟩)⟩, ())
  | .release _ _, _ => (0, ())
  | .decrypt _, _ => (.ok [], ())
  | .pass _, _ => ((), ())
  | .reached _, _ => ((), ())
  | .ended _, _ => ((), ())

def ratio : Ciphertext Group := ⟨Group.ofWord 2, Group.ofWord 11⟩

def crookedRows : List (List (Contribution Group)) :=
  [[⟨0, 0, .retained⟩], [⟨ratio, ⟨0, Group.generator⟩, .retained⟩]]

def crookedAnswers : List (List (ChallengeResponse Group)) := [[⟨0⟩], [⟨0⟩]]

theorem hold_rounds_crooked :
    (session.rounds ⟨session.name, 0⟩ quotient).hold crooked () =
      (.ok (session.roundsOf quotient crookedRows crookedAnswers), ()) :=
  rfl

/-- No response fits commitments that have no number behind them. -/
theorem answers_crooked (c v : Group.Scalar) :
    Session.answers ratio ratio ⟨0, Group.generator⟩ c v = false := by
  have hratio : (1 : Group.Scalar) • ratio = ratio := by decide +kernel
  have hproper : ratio.pad ≠ 0 := by decide +kernel
  rw [Bool.eq_false_iff, ne_eq, Blinding.answers_eq_true]
  intro hbalances
  have h : (⟨0, Group.generator⟩ : Ciphertext Group) = (v + c * 1) • ratio := by
    rw [← Blinding.balances_smul, hratio]
    exact hbalances
  have hpad : (v + c * 1) • ratio.pad = 0 := (congrArg Ciphertext.pad h).symm
  have hdata : (v + c * 1) • ratio.data = Group.generator := (congrArg Ciphertext.data h).symm
  rcases smul_eq_zero.1 hpad with hzero | hzero
  · rw [hzero, zero_smul] at hdata
    exact PrimeGroup.Lawful.generator_ne_zero hdata.symm
  · exact hproper hzero

theorem proofs_crooked :
    Session.proofs quotient (session.roundsOf quotient crookedRows crookedAnswers) =
      .error [⟨⟨"question", "yes"⟩, [1]⟩] := by
  have hsum : Aggregate.of ratio (Session.column 0 crookedRows) =
      ⟨ratio, ratio, ⟨0, Group.generator⟩⟩ := by decide +kernel
  have htry : session.tryAt crookedRows crookedAnswers (⟨⟨"question", "yes"⟩, ratio⟩, 0) =
      .error ⟨⟨"question", "yes"⟩, [1]⟩ := by
    rw [Session.tryAt_eq_error]
    constructor
    · unfold Session.answersAt Session.aggregateAt
      rw [hsum]
      exact answers_crooked _ _
    · generalize session.challengeAt crookedRows _ = c
      have hfirst : Session.answers ratio 0 0 c 0 = true :=
        Blinding.answers_eq_true.2 Blinding.balances_zero
      have hfaulty : Session.faulty ratio c 0 [⟨0, 0, .retained⟩,
          ⟨ratio, ⟨0, Group.generator⟩, .retained⟩] [⟨0⟩, ⟨0⟩] = [1] := by
        simp [Session.faulty, hfirst, answers_crooked]
      exact congrArg (FaultyBlinding.mk _) hfaulty.symm
  have hplaces : quotient.places = [(⟨⟨"question", "yes"⟩, ratio⟩, 0)] := rfl
  rw [Session.proofs_roundsOf, hplaces, List.map_singleton, htry]
  rfl

/-- A run with such a trustee fails and names it. -/
theorem hold_run_crooked :
    ((session.run first second).hold crooked ()).1 =
      .error (.error (.proofVerification [⟨⟨"question", "yes"⟩, [1]⟩])) := by
  have hnumber : Talk.number.hold crooked () = (0, ()) := rfl
  have hreached : (Talk.reached .ratio).hold crooked () = ((), ()) := rfl
  have hsteps : (session.steps ⟨session.name, 0⟩ first second).hold crooked () =
      (.error (.error (.proofVerification [⟨⟨"question", "yes"⟩, [1]⟩])), ()) := by
    unfold Session.steps
    simp only [ofBallots_small]
    rw [Dialogue.hold_bind, hreached, Dialogue.hold_bind, hold_rounds_crooked]
    simp only [Session.conclude_of_unproved proofs_crooked]
    rfl
  unfold Session.run
  rw [Dialogue.hold_bind, hnumber, Dialogue.hold_bind, hsteps]
  rfl

/-- What a small run that fails reports. -/
theorem faults_crooked : ∃ q, Quotient.ofBallots first second = .ok q ∧
    (∀ j < session.trustees, ∀ i < q.size,
      (Session.contributed? ((session.run first second).exchanges crooked ()) j i).isSome ∧
        (Session.responded? ((session.run first second).exchanges crooked ()) j i).isSome) ∧
    List.Forall₂ (session.Attributes ((session.run first second).exchanges crooked ()))
      (q.places.filter fun x =>
        ¬ session.SumBalances ((session.run first second).exchanges crooked ()) x)
      [⟨⟨"question", "yes"⟩, [1]⟩] ∧
    ([⟨"question", "yes"⟩] : List SelectionPath).Nodup :=
  Session.faults_attributed session crooked () first second hold_run_crooked

end Small

end PlaintextEquivalence
