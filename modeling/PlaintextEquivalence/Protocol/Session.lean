import PlaintextEquivalence.Protocol.Dialogue
import PlaintextEquivalence.Protocol.Error
import PlaintextEquivalence.Protocol.Round

/-!
# Sessions

A session compares ballots of one election, two at a time.  A run of it is a dialogue with the
blinding trustees and the guardians:

1. the ratios of the two ballots are blinded by all trustees;
2. the contributions are summed for each selection, and a sum with an identity component is refused;
3. a challenge is derived for each selection and put to all trustees;
4. the answers are summed and checked; of a sum that fails, the trustees whose own answers fail are
   named;
5. the guardians decrypt the blinded ratios;
6. the certificate made of all this is audited.

If the run fails before all challenges are answered, every trustee is asked to drop what it keeps.

What is modelled:
* `Session` — `PepCoordinator`, with `PepConfig` as `Limits`; `draw` is `new`.
* `run`, `steps`, `rounds`, `releaseAll` — `run`, `run_steps`, `blinding_rounds`, `release`.
* `Aggregate`, `Rounds` — `BlindingAggregate`, `BlindingRounds`; `answers` is `check_response`.
* `columns`, `challengesFor` — `transpose`, and the challenges that `respond` puts to a trustee.
* `proofs`, `certificate`, `conclude` — `verify_responses`, `assemble`, and the steps from there on.
* `Milestone`, `Outcome` — `PepStep`, `RunOutcome`.
* `Question` — what is asked of `next_run_id`, `BlindingTrustee`, `ThresholdDecryptor` and `PepMetrics`.
-/

namespace PlaintextEquivalence

/-- The limits of a session: how long a trustee is waited for, and how many runs are under way at
once. -/
structure Limits where
  patience : Duration
  concurrency : UInt64
  deriving DecidableEq, Repr

namespace Limits

/-- Thirty seconds and four runs. -/
def standard : Limits := ⟨Duration.ofSeconds 30, 4⟩

/-- The number of runs under way at once, at least one. -/
def width (limits : Limits) : UInt64 := max limits.concurrency 1

end Limits

/-- The steps of a run. -/
inductive Milestone where
  | ratio
  | blind
  | aggregate
  | challenge
  | respond
  | verify
  | decrypt
  | selfVerify
  deriving DecidableEq, Repr

def Milestone.text : Milestone → String
  | .ratio => "ratio"
  | .blind => "blind"
  | .aggregate => "aggregate"
  | .challenge => "challenge"
  | .respond => "respond"
  | .verify => "verify"
  | .decrypt => "decrypt"
  | .selfVerify => "self_verify"

/-- How a run ends. -/
inductive Outcome where
  | equal
  | notEqual
  | failed
  deriving DecidableEq, Repr

/-- What a run asks, in order: the number of the run, calls to trustees and to the guardians, the
passing of time, and the taking note of steps and of the end. -/
inductive Question (G : PrimeGroup) where
  | number
  | blind (trustee : Nat) (request : BlindRequest G)
  | challenge (trustee : Nat) (request : ChallengeRequest G)
  | release (trustee : Nat) (run : RunId)
  | decrypt (ciphertexts : List (Ciphertext G))
  | pass (nanos : Nat)
  | reached (milestone : Milestone)
  | ended (outcome : Outcome)

/-- What the answer to a question is.  A release is answered by the time it takes. -/
abbrev Question.Answer {G : PrimeGroup} : Question G → Type
  | .number => UInt64
  | .blind _ _ => Reply (Contribution G)
  | .challenge _ _ => Reply (ChallengeResponse G)
  | .release _ _ => Nat
  | .decrypt _ => Checked BoardError (List (G.Element × DecryptionProof G))
  | .pass _ => Unit
  | .reached _ => Unit
  | .ended _ => Unit

/-- A dialogue of a run. -/
abbrev Talk (G : PrimeGroup) (α : Type) := Dialogue (Question G) Question.Answer α

namespace Talk

variable {G : PrimeGroup}

def number : Talk G UInt64 := .ask .number .done

def blind (trustee : Nat) (request : BlindRequest G) : Talk G (Reply (Contribution G)) :=
  .ask (.blind trustee request) .done

def challenge (trustee : Nat) (request : ChallengeRequest G) :
    Talk G (Reply (ChallengeResponse G)) :=
  .ask (.challenge trustee request) .done

def release (trustee : Nat) (run : RunId) : Talk G Nat := .ask (.release trustee run) .done

def decrypt (ciphertexts : List (Ciphertext G)) :
    Talk G (Checked BoardError (List (G.Element × DecryptionProof G))) :=
  .ask (.decrypt ciphertexts) .done

def pass (nanos : Nat) : Talk G Unit := .ask (.pass nanos) .done

def reached (milestone : Milestone) : Talk G Unit := .ask (.reached milestone) .done

def ended (outcome : Outcome) : Talk G Unit := .ask (.ended outcome) .done

end Talk

/-- What all runs of a session share. -/
structure Session (G : PrimeGroup) where
  election : Election G
  trustees : Nat
  limits : Limits
  name : Vector UInt8 16

/-- The summed contributions of all trustees for one ratio. -/
structure Aggregate (G : PrimeGroup) where
  ratio : Ciphertext G
  blinded : Ciphertext G
  commitments : Ciphertext G
  deriving DecidableEq

namespace Aggregate

variable {G : PrimeGroup}

/-- The sum of contributions. -/
def of (ratio : Ciphertext G) (contributions : List (Contribution G)) : Aggregate G :=
  contributions.foldl
    (fun a c => { a with blinded := a.blinded + c.blinded, commitments := a.commitments + c.commitments })
    ⟨ratio, 0, 0⟩

/-- The challenge for the sum. -/
def challenge (election : Election G) (a : Aggregate G) : G.Scalar :=
  Blinding.challengeFor election a.ratio a.blinded a.commitments

end Aggregate

/-- What the two rounds with the trustees lead to, selection by selection. -/
structure Rounds (G : PrimeGroup) where
  contributions : List (List (Contribution G))
  aggregates : List (Aggregate G)
  challenges : List G.Scalar
  responses : List (List (ChallengeResponse G))

namespace Session

variable {G : PrimeGroup}

/-- A session under a random name, and what remains of the tape that the name is drawn from. -/
def draw (election : Election G) (trustees : Nat) (limits : Limits) (tape : Tape) :
    Session G × Tape :=
  let (bytes, tape) := tape.take 16
  (⟨election, trustees, limits, Vector.ofFn fun i => bytes.getD i.val 0⟩, tape)

/-- Whether a response answers a challenge to the given blinding and commitments. -/
def answers (ratio blinded commitments : Ciphertext G) (challenge response : G.Scalar) : Bool :=
  Blinding.expectedCommitments ratio blinded challenge response = commitments

/-- The columns of a table, from its rows. -/
def columns {α : Type} (width : Nat) (rows : List (List α)) : List (List α) :=
  (List.range width).map fun i => rows.filterMap (·[i]?)

/-- Asks the trustees with the indexes from `first` on, as many as given. -/
def askEach {α : Type} (call : Nat → Talk G α) : Nat → Nat → Talk G (List α)
  | _, 0 => pure []
  | first, n + 1 => do
    let reply ← call first
    let replies ← askEach call (first + 1) n
    pure (reply :: replies)

/-- A round with all trustees: what they answer, trustee by trustee. -/
def round {α : Type} (session : Session G) (call : Nat → Talk G (Reply α)) (expected : Nat) :
    Talk G (Except RunError (List (List α))) := do
  let replies ← askEach call 0 session.trustees
  let (time, result) := Round.settle session.limits.patience expected replies
  Talk.pass time
  match result with
  | .ok items => pure (.ok items)
  | .error (trustee, source) => pure (.error (.transport trustee source))

/-- The challenges for the trustee with the given index, from the contributions and the challenge for each
selection.  All trustees have contributed to each selection, so that no challenge is left out. -/
def challengesFor (contributions : List (List (Contribution G))) (challenges : List G.Scalar)
    (index : Nat) : List (Challenge G) :=
  (contributions.zip challenges).filterMap fun (ofSelection, c) =>
    ofSelection[index]?.map fun contribution => ⟨c, contribution.nonces⟩

/-- Both rounds with the trustees. -/
def rounds (session : Session G) (run : RunId) (quotient : Quotient G) :
    Talk G (Except RunError (Rounds G)) := do
  let blindRequest : BlindRequest G := ⟨run, quotient.ratios⟩
  match ← session.round (fun j => Talk.blind j blindRequest) quotient.size with
  | .error e => pure (.error e)
  | .ok rows => do
    let contributions := columns quotient.size rows
    Talk.reached .blind
    let aggregates := List.zipWith Aggregate.of quotient.ratios contributions
    let degenerate := (quotient.selections.zip aggregates).filterMap fun (s, a) =>
      if a.blinded.isDegenerate then some s.path else none
    if !degenerate.isEmpty then pure (.error (.degenerateBlinding degenerate))
    else do
      Talk.reached .aggregate
      let challenges := aggregates.map (Aggregate.challenge session.election)
      Talk.reached .challenge
      let request := fun j => (⟨run, challengesFor contributions challenges j⟩ : ChallengeRequest G)
      match ← session.round (fun j => Talk.challenge j (request j)) quotient.size with
      | .error e => pure (.error e)
      | .ok answers => do
        Talk.reached .respond
        pure (.ok ⟨contributions, aggregates, challenges, columns quotient.size answers⟩)

/-- Asks all trustees to drop what they keep for a run. -/
def releaseAll (session : Session G) (run : RunId) : Talk G Unit := do
  let delays ← askEach (fun j => Talk.release j run) 0 session.trustees
  Talk.pass (Round.longest session.limits.patience delays)

/-- The positions of the contributions whose own responses do not answer the challenge, from the
given position on. -/
def faulty (ratio : Ciphertext G) (challenge : G.Scalar) :
    Nat → List (Contribution G) → List (ChallengeResponse G) → List Nat
  | j, c :: cs, r :: rs =>
    let rest := faulty ratio challenge (j + 1) cs rs
    if answers ratio c.blinded c.commitments challenge r.response then rest else j :: rest
  | _, _, _ => []

/-- The sum of responses. -/
def totalResponse (responses : List (ChallengeResponse G)) : G.Scalar :=
  responses.foldl (fun acc r => acc + r.response) 0

/-- The proof for a selection, or the trustees whose part of it fails. -/
def proofOf (path : SelectionPath) (aggregate : Aggregate G) (challenge : G.Scalar)
    (contributions : List (Contribution G)) (responses : List (ChallengeResponse G)) :
    Except FaultyBlinding (Blinding G) :=
  let response := totalResponse responses
  if answers aggregate.ratio aggregate.blinded aggregate.commitments challenge response then
    .ok ⟨challenge, response⟩
  else .error ⟨path, faulty aggregate.ratio challenge 0 contributions responses⟩

/-- The proofs of all selections, or all failures among them. -/
def proofs (quotient : Quotient G) (rounds : Rounds G) : Except (List FaultyBlinding) (List (Blinding G)) :=
  let tries := (quotient.selections.zip (rounds.aggregates.zip (rounds.challenges.zip
      (rounds.contributions.zip rounds.responses)))).map fun (s, a, c, cs, rs) =>
    proofOf s.path a c cs rs
  let failures := tries.filterMap fun
    | .error f => some f
    | .ok _ => none
  let good := tries.filterMap fun
    | .ok p => some p
    | .error _ => none
  if failures.isEmpty then .ok good else .error failures

/-- Cuts a list into the given ranges. -/
def cut {α : Type} : List ContestRange → List α → List (String × List α)
  | [], _ => []
  | r :: rest, items => (r.contestId, items.take r.length) :: cut rest (items.drop r.length)

/-- The certificate made of the results of all steps. -/
def certificate (quotient : Quotient G) (aggregates : List (Aggregate G))
    (proofs : List (Blinding G)) (decryptions : List (G.Element × DecryptionProof G)) :
    BallotCertificate G :=
  let selections :=
    (quotient.selections.zip (aggregates.zip (proofs.zip decryptions))).map fun (s, a, p, t, d) =>
      ({ selectionId := s.path.selectionId, ratio := a.ratio, blinded := a.blinded, blinding := p,
         decrypted := t, decryption := d } : SelectionCertificate G)
  { ballotId := quotient.ballotId
    isEqual := decryptions.all fun d => d.1 = 0
    contests := (cut quotient.contests selections).map fun (id, items) => ⟨id, items⟩ }

/-- The steps of a run after the rounds with the trustees. -/
def conclude (session : Session G) (quotient : Quotient G) (rounds : Rounds G) :
    Talk G (Checked RunError (BallotCertificate G)) :=
  match proofs quotient rounds with
  | .error failures => pure (Checked.refuse (.proofVerification failures))
  | .ok proofs => do
    Talk.reached .verify
    let blinded := rounds.aggregates.map (·.blinded)
    match ← Talk.decrypt blinded with
    | .error (.fault f) => pure (.error (.fault f))
    | .error (.error e) => pure (Checked.refuse (.decryption e))
    | .ok decryptions =>
      if decryptions.length ≠ blinded.length then
        pure (Checked.refuse (.decryption (.responseLength blinded.length decryptions.length)))
      else do
        Talk.reached .decrypt
        let certificate := certificate quotient rounds.aggregates proofs decryptions
        match certificate.verify session.election with
        | .error (.fault f) => pure (.error (.fault f))
        | .error (.error findings) => pure (Checked.refuse (.finalVerification findings))
        | .ok () => do
          Talk.reached .selfVerify
          pure (.ok certificate)

/-- The steps of a run. -/
def steps (session : Session G) (run : RunId) (first second : Ballot G) :
    Talk G (Checked RunError (BallotCertificate G)) :=
  match Quotient.ofBallots first second with
  | .error e => pure (Checked.refuse (.structuralMismatch e))
  | .ok quotient => do
    Talk.reached .ratio
    match ← session.rounds run quotient with
    | .error e => do
      session.releaseAll run
      pure (Checked.refuse e)
    | .ok rounds => session.conclude quotient rounds

/-- How a run with the given result ends, if it ends at all. -/
def outcome? : Checked RunError (BallotCertificate G) → Option Outcome
  | .ok certificate => some (if certificate.isEqual then .equal else .notEqual)
  | .error (.error _) => some .failed
  | .error (.fault _) => none

/-- A run: whether two ballots encrypt the same votes, with a certificate. -/
def run (session : Session G) (first second : Ballot G) :
    Talk G (Checked RunError (BallotCertificate G)) := do
  let number ← Talk.number
  let result ← session.steps ⟨session.name, number⟩ first second
  match outcome? result with
  | none => pure result
  | some outcome => do
    Talk.ended outcome
    pure result

end Session

end PlaintextEquivalence
