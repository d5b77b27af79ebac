/-!
# Dialogues

A dialogue asks questions, and goes on according to the answers, until it has a result.  Who answers
is left open: a dialogue can be held with any world that has a state and answers every question, and
several dialogues can be held with one world at once, in any order of their questions.

Models how `PepCoordinator` and those that it calls take turns.

Principal results:
* `hold_bind` — a dialogue in two parts is held one part after the other.
-/

namespace PlaintextEquivalence

/-- A course of questions, each followed according to its answer, that ends in a result. -/
inductive Dialogue (Q : Type) (A : Q → Type) (α : Type) : Type where
  | done (result : α)
  | ask (question : Q) (next : A question → Dialogue Q A α)

/-- Whoever answers the questions of a dialogue, with a state of its own. -/
abbrev World (Q : Type) (A : Q → Type) (σ : Type) := (q : Q) → σ → A q × σ

namespace Dialogue

variable {Q : Type} {A : Q → Type} {α β σ : Type}

/-- One dialogue after the other, the second given the result of the first. -/
def bind (d : Dialogue Q A α) (f : α → Dialogue Q A β) : Dialogue Q A β :=
  match d with
  | .done a => f a
  | .ask q next => .ask q fun answer => (next answer).bind f

instance : Monad (Dialogue Q A) where
  pure := .done
  bind := bind

/-- The dialogue of a single question. -/
def question (q : Q) : Dialogue Q A (A q) := .ask q .done

/-- Holds a dialogue with a world. -/
def hold (world : World Q A σ) : Dialogue Q A α → σ → α × σ
  | .done a, s => (a, s)
  | .ask q next, s =>
    let (answer, s) := world q s
    hold world (next answer) s

@[simp] theorem hold_done (world : World Q A σ) (a : α) (s : σ) :
    hold world (.done a) s = (a, s) := rfl

@[simp] theorem hold_pure (world : World Q A σ) (a : α) (s : σ) :
    hold world (pure a : Dialogue Q A α) s = (a, s) := rfl

theorem hold_ask (world : World Q A σ) (q : Q) (next : A q → Dialogue Q A α) (s : σ) :
    hold world (.ask q next) s = hold world (next (world q s).1) (world q s).2 := rfl

@[simp] theorem hold_question (world : World Q A σ) (q : Q) (s : σ) :
    hold world (question q) s = world q s := rfl

/-- A dialogue in two parts is held one part after the other. -/
theorem hold_bind (world : World Q A σ) (d : Dialogue Q A α) (f : α → Dialogue Q A β) (s : σ) :
    hold world (d >>= f) s = hold world (f (hold world d s).1) (hold world d s).2 := by
  show hold world (d.bind f) s = _
  induction d generalizing s with
  | done a => rfl
  | ask q next ih => exact ih _ _

end Dialogue

end PlaintextEquivalence
