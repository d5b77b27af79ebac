import PlaintextEquivalence.Protocol.Session

/-!
# Schedules of runs

Several runs of a session are under way at once: each goes on until it waits for time to pass, and
time passes only when all wait.  Runs are begun in the order of their pairs, and no more of them than
the session's width are begun beyond those whose results, and all results before, are known.

What is modelled:
* `Session.runMany` — `PepCoordinator.run_many`, with `Pool` for the runs in progress.
* `Session.runInTurn` — `PepCoordinator.run`, once for each pair.
-/

namespace PlaintextEquivalence

/-- A run under way: its place among the pairs and what remains of it. -/
structure Running (G : PrimeGroup) (α : Type) where
  place : Nat
  rest : Talk G α

/-- A run that waits for a time; of those that wait for the same time the one that began waiting
first goes first. -/
structure Waiting (G : PrimeGroup) (α : Type) where
  wake : Nat
  running : Running G α

/-- The runs of a session: those to begin, those that can go on, those that wait in the order in
which they began to, and the results in the order of their places. -/
structure Pool (G : PrimeGroup) (α : Type) where
  now : Nat
  unbegun : List (Talk G α)
  begun : Nat
  ready : List (Running G α)
  waiting : List (Waiting G α)
  results : List (Nat × α)

namespace Talk

variable {G : PrimeGroup} {α σ : Type}

/-- Holds a dialogue until it ends or waits for time to pass. -/
def advance (world : World (Question G) Question.Answer σ) :
    Talk G α → σ → (α ⊕ Nat × Talk G α) × σ
  | .done a, s => (.inl a, s)
  | .ask (.pass nanos) next, s =>
    if nanos = 0 then advance world (next ()) s else (.inr (nanos, next ()), s)
  | .ask q next, s =>
    let (answer, s) := world q s
    advance world (next answer) s

end Talk

namespace Pool

variable {G : PrimeGroup} {α σ : Type}

/-- A pool of runs, none of them begun. -/
def ofRuns (runs : List (Talk G α)) : Pool G α := ⟨0, runs, 0, [], [], []⟩

/-- The result of a run, if it has ended. -/
def result? (pool : Pool G α) (place : Nat) : Option α := pool.results.lookup place

/-- The number of results known from the first place on without a gap. -/
def settled (pool : Pool G α) : Nat → Nat → Nat
  | 0, place => place
  | n + 1, place => if (pool.result? place).isSome then pool.settled n (place + 1) else place

/-- Begins runs while fewer than the width are under way beyond the settled ones. -/
def begin (width : Nat) : Nat → Pool G α → Pool G α
  | 0, pool => pool
  | n + 1, pool =>
    match pool.unbegun with
    | [] => pool
    | run :: rest =>
      if pool.begun < pool.settled pool.begun 0 + width then
        begin width n
          { pool with
            unbegun := rest
            begun := pool.begun + 1
            ready := pool.ready ++ [⟨pool.begun, run⟩] }
      else pool

/-- Lets time pass until the first waiting run can go on. -/
def wake (pool : Pool G α) : Pool G α :=
  match (pool.waiting.map (·.wake)).min? with
  | none => pool
  | some time =>
    let (due, later) := pool.waiting.partition (·.wake ≤ time)
    { pool with now := time, ready := due.map (·.running), waiting := later }

/-- Lets the first run that can go on do so, or time pass if there is none. -/
def step (world : World (Question G) Question.Answer σ) (width : Nat) (pool : Pool G α) (s : σ) :
    Pool G α × σ :=
  match pool.ready with
  | [] => (pool.wake, s)
  | r :: others =>
    match r.rest.advance world s with
    | (.inl a, s) =>
      let pool := { pool with ready := others, results := (r.place, a) :: pool.results }
      (pool.begin width pool.unbegun.length, s)
    | (.inr (nanos, rest), s) =>
      ({ pool with
          ready := others
          waiting := pool.waiting ++ [⟨pool.now + nanos, ⟨r.place, rest⟩⟩] }, s)

/-- The given number of steps. -/
def steps (world : World (Question G) Question.Answer σ) (width : Nat) :
    Nat → Pool G α → σ → Pool G α × σ
  | 0, pool, s => (pool, s)
  | n + 1, pool, s =>
    let (pool, s) := pool.step world width s
    steps world width n pool s

end Pool

namespace Session

variable {G : PrimeGroup} {σ : Type}

/-- Runs of all pairs of ballots, each begun when the one before has ended. -/
def runInTurn (session : Session G) (world : World (Question G) Question.Answer σ) :
    List (Ballot G × Ballot G) → σ → List (Checked RunError (BallotCertificate G)) × σ
  | [], s => ([], s)
  | pair :: rest, s =>
    let (result, s) := (session.run pair.1 pair.2).hold world s
    let (results, s) := runInTurn session world rest s
    (result :: results, s)

/-- How often a run can go on at most: it waits in each of two rounds and once after a failure. -/
def turns : Nat := 4

/-- Runs of all pairs of ballots, with the results in the order of the pairs. -/
def runMany (session : Session G) (world : World (Question G) Question.Answer σ)
    (pairs : List (Ballot G × Ballot G)) (s : σ) :
    List (Checked RunError (BallotCertificate G)) × σ :=
  let width := session.limits.width.toNat
  let pool := Pool.ofRuns (pairs.map fun pair => session.run pair.1 pair.2)
  let pool := pool.begin width pairs.length
  let (pool, s) := pool.steps world width (2 * turns * pairs.length) s
  ((List.range pairs.length).map fun place =>
    (pool.result? place).getD (.error (.fault .unfinished)), s)

end Session

end PlaintextEquivalence
