import PlaintextEquivalence.Protocol.Dialogue

/-!
# Courses of dialogues

What a dialogue and a world have said to each other: every question with its answer, in order.  A
course forgets the world, so that what holds of every course holds whoever answers, with whatever
state, and however the answers depend on all questions before.

Principal results:
* `course_hold` — holding a dialogue is a course of it.
* `course_bind` — a course of two dialogues, one after the other, is one course after the other.
* `forall_mem_exchanges` — what holds of every answer of a world holds of all that is said to it.
* `hold_congr` — worlds that answer alike lead to the same result.
-/

set_option autoImplicit false

namespace PlaintextEquivalence

namespace Dialogue

variable {Q : Type} {A : Q → Type} {α β σ τ : Type}

/-- The questions that a world is asked, with its answers. -/
def exchanges (world : World Q A σ) : Dialogue Q A α → σ → List ((q : Q) × A q)
  | .done _, _ => []
  | .ask q next, s => ⟨q, (world q s).1⟩ :: exchanges world (next (world q s).1) (world q s).2

/-- What holds of every question with the answer of a world holds of all that is said. -/
theorem forall_mem_exchanges {world : World Q A σ} {p : ((q : Q) × A q) → Prop}
    (h : ∀ q s, p ⟨q, (world q s).1⟩) (d : Dialogue Q A α) (s : σ) : ∀ e ∈ d.exchanges world s, p e := by
  induction d generalizing s with
  | done a => exact fun e he => absurd he List.not_mem_nil
  | ask q next ih => exact List.forall_mem_cons.2 ⟨h q s, ih _ _⟩

/-- The same of what is taken from some of what is said. -/
theorem forall_mem_filterMap_exchanges {world : World Q A σ} {f : ((q : Q) × A q) → Option β}
    {p : β → Prop} (h : ∀ q s b, f ⟨q, (world q s).1⟩ = some b → p b) (d : Dialogue Q A α) (s : σ) :
    ∀ b ∈ (d.exchanges world s).filterMap f, p b := by
  intro b hb
  obtain ⟨e, he, hf⟩ := List.mem_filterMap.1 hb
  exact forall_mem_exchanges (p := fun e => ∀ b, f e = some b → p b) h d s e he b hf

/-- A dialogue can have a course, which ends in a result. -/
inductive Course : Dialogue Q A α → List ((q : Q) × A q) → α → Prop where
  | done (a : α) : Course (.done a) [] a
  | ask {q : Q} {next : A q → Dialogue Q A α} {answer : A q} {es : List ((q : Q) × A q)} {a : α}
      (rest : Course (next answer) es a) : Course (.ask q next) (⟨q, answer⟩ :: es) a

/-- Whoever a dialogue is held with, what is said is a course of it. -/
theorem course_hold (world : World Q A σ) (d : Dialogue Q A α) (s : σ) :
    Course d (d.exchanges world s) (d.hold world s).1 := by
  induction d generalizing s with
  | done a => exact .done a
  | ask q next ih => exact .ask (ih _ _)

theorem course_pure {a b : α} {es : List ((q : Q) × A q)}
    (h : Course (pure a : Dialogue Q A α) es b) : es = [] ∧ b = a := by
  cases h
  exact ⟨rfl, rfl⟩

theorem course_question {q : Q} {es : List ((q : Q) × A q)} {answer : A q}
    (h : Course (.ask q .done) es answer) : es = [⟨q, answer⟩] := by
  cases h with
  | ask rest => cases rest; rfl

/-- A course of one dialogue after the other splits where the first one ends. -/
theorem course_bind {d : Dialogue Q A α} {f : α → Dialogue Q A β} {es : List ((q : Q) × A q)}
    {b : β} (h : Course (d >>= f) es b) :
    ∃ before after a, es = before ++ after ∧ Course d before a ∧ Course (f a) after b := by
  change Course (d.bind f) es b at h
  induction d generalizing es with
  | done a => exact ⟨[], es, a, rfl, .done a, h⟩
  | ask q next ih =>
    cases h with
    | ask rest =>
      obtain ⟨before, after, a, rfl, h1, h2⟩ := ih _ rest
      exact ⟨_ :: before, after, a, rfl, .ask h1, h2⟩

/-- Two worlds that answer alike, in states that stay related, lead a dialogue to the same result if it
asks nothing else. -/
theorem hold_congr {world : World Q A σ} {world' : World Q A τ} {R : σ → τ → Prop} {p : Q → Prop}
    (hworld : ∀ q, p q → ∀ s t, R s t →
      (world' q t).1 = (world q s).1 ∧ R (world q s).2 (world' q t).2)
    {d : Dialogue Q A α} {s : σ} {t : τ} (hR : R s t) (hasks : ∀ e ∈ d.exchanges world s, p e.1) :
    (d.hold world' t).1 = (d.hold world s).1 ∧ R (d.hold world s).2 (d.hold world' t).2 := by
  induction d generalizing s t with
  | done a => exact ⟨rfl, hR⟩
  | ask q next ih =>
    rw [exchanges, List.forall_mem_cons] at hasks
    obtain ⟨hanswer, hnext⟩ := hworld q hasks.1 s t hR
    rw [hold_ask, hold_ask, hanswer]
    exact ih _ hnext hasks.2

end Dialogue

end PlaintextEquivalence
