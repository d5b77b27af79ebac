import PlaintextEquivalence.Proofs.Protocol.Assembly
import PlaintextEquivalence.Simulation.World

/-!
# An honest village

A village in which nobody misbehaves answers as its trustees and guardians do among themselves, while
their clocks stand still.  What is shown of runs with an assembly thus holds of simulated runs.

Principal results:
* `hold_of_agrees` — if two worlds agree on each answer, they agree on every dialogue.
* `agrees_world`, `hold_of_hosts` — an honest village agrees with its assembly.
-/

set_option autoImplicit false

namespace PlaintextEquivalence

/-- Two worlds agree, in related states, if they give the same answers and stay related. -/
def Dialogue.Agrees {Q : Type} {A : Q → Type} {σ τ : Type} (R : σ → τ → Prop) (world : World Q A σ)
    (world' : World Q A τ) : Prop :=
  ∀ q s t, R s t → (world q s).1 = (world' q t).1 ∧ R (world q s).2 (world' q t).2

/-- If two worlds agree on each answer, they agree on every dialogue. -/
theorem Dialogue.hold_of_agrees {Q : Type} {A : Q → Type} {σ τ : Type} {R : σ → τ → Prop}
    {world : World Q A σ} {world' : World Q A τ} (h : Agrees R world world') {α : Type}
    (d : Dialogue Q A α) {s : σ} {t : τ} (hst : R s t) :
    (d.hold world s).1 = (d.hold world' t).1 ∧ R (d.hold world s).2 (d.hold world' t).2 := by
  have hworld : ∀ q : Q, True → ∀ s t, R s t →
      (world' q t).1 = (world q s).1 ∧ R (world q s).2 (world' q t).2 :=
    fun q _ s t hR => ⟨(h q s t hR).1.symm, (h q s t hR).2⟩
  obtain ⟨hresult, hstates⟩ := hold_congr hworld (d := d) hst fun _ _ => trivial
  exact ⟨hresult.symm, hstates⟩

variable {G : PrimeGroup}

/-- A trustee that does not misbehave. -/
structure Actor.IsHonest (actor : Actor G) : Prop where
  blind : actor.blindFaults = []
  request : actor.requestFaults = []
  challenge : actor.challengeFaults = []
  release : actor.releaseDelay = 0

namespace Village

/-- A village in which nobody misbehaves, with the trustees and the guardians of an assembly. -/
structure Hosts (election : Election G) (v : Village G) (a : Assembly G) : Prop where
  election : v.election = election
  honest : ∀ actor ∈ v.actors, actor.IsHonest
  trustees : v.actors.map (·.trustee) = a.trustees
  board : v.board = a.board
  faultless : v.boardFaults = []
  nextRun : v.nextRun = a.nextRun

section Hosts

variable {election : Election G} {v : Village G} {a : Assembly G} {j : Nat}

/-- What is on record does not matter. -/
theorem Hosts.record (h : v.Hosts election a) (asked : List (Question G)) :
    { v with asked := asked }.Hosts election a :=
  ⟨h.election, h.honest, h.trustees, h.board, h.faultless, h.nextRun⟩

theorem Hosts.call_none {α : Type} (h : v.Hosts election a) (hj : v.actors[j]? = none) (absent : α)
    (act : BlindingTrustee G → α × BlindingTrustee G) : a.call j absent act = (absent, a) := by
  unfold Assembly.call
  rw [← h.trustees, List.getElem?_map, hj]
  rfl

theorem Hosts.call_some {α : Type} (h : v.Hosts election a) {actor : Actor G}
    (hj : v.actors[j]? = some actor) (absent : α)
    (act : BlindingTrustee G → α × BlindingTrustee G) :
    a.call j absent act = ((act actor.trustee).1,
      { a with trustees := a.trustees.set j (act actor.trustee).2 }) := by
  unfold Assembly.call
  rw [← h.trustees, List.getElem?_map, hj]
  rfl

/-- A trustee may go on to another state. -/
theorem Hosts.set (h : v.Hosts election a) {actor : Actor G} (hj : v.actors[j]? = some actor)
    (trustee : BlindingTrustee G) :
    { v with actors := v.actors.set j { actor with trustee := trustee } }.Hosts election
      { a with trustees := a.trustees.set j trustee } := by
  refine ⟨h.election, fun other hother => ?_, ?_, h.board, h.faultless, h.nextRun⟩
  · rcases List.mem_or_eq_of_mem_set hother with hother | rfl
    · exact h.honest other hother
    · obtain ⟨hblind, hrequest, hchallenge, hrelease⟩ := h.honest actor (List.mem_of_getElem? hj)
      exact ⟨hblind, hrequest, hchallenge, hrelease⟩
  · rw [List.map_set, h.trustees]

end Hosts

/-! ## Answers -/

/-- An answer that is neither late nor altered. -/
theorem reply_unaltered {α : Type} (answer : Except Rejection (List α)) :
    Actor.reply 0 none answer (fun items => items) = Assembly.promptly answer := by
  cases answer with
  | error rejection => rfl
  | ok items => rfl

theorem blind_of_isHonest {actor : Actor G} (h : actor.IsHonest) (request : BlindRequest G) (j : Nat) :
    actor.blind request =
      ((Assembly.blindAt (fun _ => 0) request j actor.trustee).1,
        { actor with trustee := (Assembly.blindAt (fun _ => 0) request j actor.trustee).2 }) := by
  unfold Actor.blind
  rw [h.blind]
  exact Prod.ext (reply_unaltered _) rfl

theorem challenge_of_isHonest {actor : Actor G} (h : actor.IsHonest) (request : ChallengeRequest G)
    (j : Nat) :
    actor.challenge request =
      ((Assembly.challengeAt (fun _ => request) j actor.trustee).1,
        { actor with trustee := (Assembly.challengeAt (fun _ => request) j actor.trustee).2 }) := by
  unfold Actor.challenge
  rw [h.request, h.challenge]
  exact Prod.ext (reply_unaltered _) rfl

theorem decrypt_of_faultless {v : Village G} (h : v.boardFaults = [])
    (ciphertexts : List (Ciphertext G)) :
    v.decrypt ciphertexts = ((v.board.decrypt v.election ciphertexts).1,
      { v with board := (v.board.decrypt v.election ciphertexts).2 }) := by
  unfold decrypt
  generalize v.board.decrypt v.election ciphertexts = decrypted
  obtain ⟨result, board⟩ := decrypted
  cases result with
  | error e => rfl
  | ok items =>
    simp only [h]
    rfl

/-- **An honest village agrees with its assembly.** -/
theorem agrees_world (election : Election G) :
    Dialogue.Agrees (Hosts election) world (Assembly.world election fun _ => 0) := by
  intro q v a h
  have hrecord := h.record (q :: v.asked)
  cases q with
  | number =>
    obtain ⟨helection, honest, htrustees, hboard, hfaultless, hnext⟩ := hrecord
    exact ⟨hnext, helection, honest, htrustees, hboard, hfaultless, congrArg (· + 1) hnext⟩
  | blind j request =>
    cases hj : v.actors[j]? with
    | none =>
      simp only [world, answer, hj, Assembly.world, h.call_none hj]
      exact ⟨trivial, hrecord⟩
    | some actor =>
      have hact := blind_of_isHonest (h.honest actor (List.mem_of_getElem? hj)) request j
      simp only [world, answer, hj, Assembly.world, h.call_some hj, hact]
      exact ⟨trivial, hrecord.set hj _⟩
  | challenge j request =>
    cases hj : v.actors[j]? with
    | none =>
      simp only [world, answer, hj, Assembly.world, h.call_none hj]
      exact ⟨trivial, hrecord⟩
    | some actor =>
      have hact := challenge_of_isHonest (h.honest actor (List.mem_of_getElem? hj)) request j
      simp only [world, answer, hj, Assembly.world, h.call_some hj, hact]
      exact ⟨trivial, hrecord.set hj _⟩
  | release j run =>
    cases hj : v.actors[j]? with
    | none =>
      simp only [world, answer, hj, Assembly.world, h.call_none hj]
      exact ⟨trivial, hrecord⟩
    | some actor =>
      have hdelay := (h.honest actor (List.mem_of_getElem? hj)).release
      simp only [world, answer, hj, Assembly.world, h.call_some hj, Actor.release]
      exact ⟨hdelay, hrecord.set hj _⟩
  | decrypt ciphertexts =>
    obtain ⟨rfl, honest, htrustees, hboard, hfaultless, hnext⟩ := hrecord
    simp only [world, answer, decrypt_of_faultless hfaultless, Assembly.world, ← hboard]
    exact ⟨trivial, rfl, honest, htrustees, rfl, hfaultless, hnext⟩
  | pass _ => exact ⟨rfl, hrecord⟩
  | reached _ => exact ⟨rfl, hrecord⟩
  | ended _ => exact ⟨rfl, hrecord⟩

/-- Whatever is talked about, an honest village comes to the same result as its assembly. -/
theorem hold_of_hosts {election : Election G} {v : Village G} {a : Assembly G}
    (h : v.Hosts election a) {α : Type} (talk : Talk G α) :
    (talk.hold world v).1 = (talk.hold (Assembly.world election fun _ => 0) a).1 :=
  (Dialogue.hold_of_agrees (agrees_world election) talk h).1

end Village

end PlaintextEquivalence
