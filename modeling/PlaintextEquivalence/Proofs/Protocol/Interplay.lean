import PlaintextEquivalence.Proofs.Protocol.Release

/-!
# Runs that are under way at once

Runs are begun in order, never more at once than a given number, and what they ask of trustees and
guardians comes in any order that keeps to the order of steps within each run.  In a round of one run,
too, the trustees may be reached in any order.  Each question is answered as a whole, at whatever time the
trustees' clocks show, as long as nothing that a trustee keeps has been kept for too long, and after any
delay that the session has patience for.

However it comes about, what has been said in a run is as in a run that asks one question after the
other, for each trustee and for the session itself.

Principal results:
* `Answered.course` — a question that is answered ahead of others can be put in its place.
* `Follows.step` — so what was said and what remains fit together.
-/

set_option autoImplicit false

namespace PlaintextEquivalence

variable {G : PrimeGroup} {α : Type}

/-- The trustee that an event is a call to. -/
def Event.seat? (e : Event G) : Option Nat := e.1.request?.map Prod.fst

/-- What a trustee and the session see of all that is said: the calls to the trustee, and what is no
call. -/
def view (j : Nat) (es : List (Event G)) : List (Event G) :=
  es.filter fun e => e.seat? = none ∨ e.seat? = some j

theorem view_append (j : Nat) (es es' : List (Event G)) : view j (es ++ es') = view j es ++ view j es' :=
  List.filter_append es es'

theorem view_cons (j : Nat) (e : Event G) (es : List (Event G)) :
    view j (e :: es) = view j [e] ++ view j es :=
  view_append j [e] es

theorem view_cons_of_heard {j : Nat} {e : Event G} (h : e.seat? = none ∨ e.seat? = some j)
    (es : List (Event G)) : view j (e :: es) = e :: view j es :=
  List.filter_cons_of_pos (decide_eq_true h)

namespace Talk

/-- A question of a dialogue is answered: the next one, or else one to another trustee that is asked
whatever the trustees before it will answer. -/
inductive Answered : Talk G α → Event G → Talk G α → Prop where
  | next {q : Question G} {next : q.Answer → Talk G α} (answer : q.Answer) :
      Answered (.ask q next) ⟨q, answer⟩ (next answer)
  | ahead {q : Question G} {next next' : q.Answer → Talk G α} {e : Event G} {j k : Nat}
      (before : q.request?.map Prod.fst = some j) (called : e.seat? = some k) (apart : j ≠ k)
      (rest : ∀ answer, Answered (next answer) e (next' answer)) :
      Answered (.ask q next) e (.ask q next')

open Dialogue

/-- **A question that is answered ahead of others** can be put in its place among them, and no trustee
sees the difference. -/
theorem Answered.course {d d' : Talk G α} {e : Event G} (h : Answered d e d') {es : List (Event G)}
    {a : α} (hcourse : Course d' es a) :
    ∃ es', Course d es' a ∧ es'.Perm (e :: es) ∧ ∀ j, view j es' = view j (e :: es) := by
  induction h generalizing es with
  | next answer => exact ⟨_, .ask hcourse, .refl _, fun _ => rfl⟩
  | @ahead q next next' e k k' before called apart _ ih =>
    cases hcourse with
    | @ask _ _ answer es _ rest =>
      obtain ⟨es', hes', hperm, hview⟩ := ih answer rest
      refine ⟨⟨q, answer⟩ :: es', .ask hes', (hperm.cons _).trans (.swap _ _ _), fun j => ?_⟩
      have hseat : Event.seat? (⟨q, answer⟩ : Event G) = some k := before
      -- no trustee sees both of the events that change places
      have hswap : view j [⟨q, answer⟩] ++ view j [e] = view j [e] ++ view j [⟨q, answer⟩] := by
        by_cases hj : k = j
        · have hnone : view j [e] = [] := by simp [view, called, ← hj, apart.symm]
          rw [hnone, List.append_nil, List.nil_append]
        · have hnone : view j [⟨q, answer⟩] = [] := by simp [view, hseat, hj]
          rw [hnone, List.append_nil, List.nil_append]
      rw [view_cons, hview, view_cons j e, ← List.append_assoc, hswap, List.append_assoc, ← view_cons,
        ← view_cons]

/-- What was said in a dialogue and what remains of it fit together: however it goes on, all that is said
is a course of it as each trustee sees it. -/
def Follows (d : Talk G α) (said : List (Event G)) (rest : Talk G α) : Prop :=
  ∀ es a, Course rest es a →
    ∃ es', Course d es' a ∧ es'.Perm (said ++ es) ∧ ∀ j, view j es' = view j (said ++ es)

theorem follows_refl (d : Talk G α) : Follows d [] d :=
  fun es _ h => ⟨es, h, .refl _, fun _ => rfl⟩

theorem Follows.step {d rest rest' : Talk G α} {said : List (Event G)} {e : Event G}
    (h : Follows d said rest) (hstep : Answered rest e rest') : Follows d (said ++ [e]) rest' := by
  intro es a hes
  obtain ⟨es₁, hes₁, hperm, hview⟩ := hstep.course hes
  obtain ⟨es₂, hes₂, hperm', hview'⟩ := h es₁ a hes₁
  refine ⟨es₂, hes₂, ?_, fun j => ?_⟩
  · rw [List.append_assoc]
    exact hperm'.trans (hperm.append_left said)
  · rw [hview', List.append_assoc, view_append, hview, ← view_append]
    rfl

/-- The answer to a question that tells nothing. -/
def blank : (q : Question G) → q.Answer
  | .number => 0
  | .blind _ _ => ⟨0, .ok []⟩
  | .challenge _ _ => ⟨0, .ok []⟩
  | .release _ _ => 0
  | .decrypt _ => .ok []
  | .pass _ => ()
  | .reached _ => ()
  | .ended _ => ()

theorem exists_course (d : Talk G α) : ∃ es a, Course d es a :=
  ⟨_, _, course_hold (fun q _ => (blank q, ())) d ()⟩

end Talk

/-! ## The interplay of runs -/

/-- A run that was begun: what was said in it, and what remains. -/
structure Conversation (G : PrimeGroup) (α : Type) where
  said : List (Event G)
  rest : Talk G α

/-- The result of a conversation, if it is over. -/
def Conversation.result? (c : Conversation G α) : Option α :=
  match c.rest with
  | .done a => some a
  | .ask _ _ => none

/-- Whether a conversation goes on. -/
def Conversation.goesOn (c : Conversation G α) : Bool := c.result?.isNone

/-- Runs, begun or not, with the trustees and guardians that they all turn to. -/
structure Interplay (G : PrimeGroup) (α : Type) where
  unbegun : List (Talk G α)
  begun : List (Conversation G α)
  parties : Assembly G

/-! ## Answers -/

/-- The answer to a question when it comes after a delay. -/
def Question.late (nanos : Nat) : (q : Question G) → q.Answer → q.Answer
  | .blind _ _, reply => { reply with delay := nanos }
  | .challenge _ _, reply => { reply with delay := nanos }
  | .release _ _, _ => nanos
  | .number, n => n
  | .decrypt _, result => result
  | .pass _, u => u
  | .reached _, u => u
  | .ended _, u => u

namespace Assembly

/-- Nothing that a trustee keeps has been kept for too long. -/
def InTime (a : Assembly G) (clock : Nat → Nat) : Prop :=
  ∀ j trustee, a.trustees[j]? = some trustee →
    ∀ r ∈ trustee.retained, clock j - r.since < trustee.retention.nanos

/-- What honest trustees and guardians answer to a question, with any delay that a session has patience
for, and how that leaves them. -/
inductive Answers (session : Session G) (a : Assembly G) : Event G → Assembly G → Prop where
  | intro (q : Question G) {clock : Nat → Nat} {delay : Nat} (inTime : a.InTime clock)
      (patient : delay ≤ session.limits.patience.nanos) :
      Answers session a ⟨q, q.late delay (world session.election clock q a).1⟩
        (world session.election clock q a).2

end Assembly

namespace Interplay

/-- What can happen: the next run is begun, if fewer go on than the session allows, or one that goes on
has a question answered. -/
inductive Step (session : Session G) : Interplay G α → Interplay G α → Prop where
  | start {run : Talk G α} {unbegun : List (Talk G α)} {begun : List (Conversation G α)}
      {parties : Assembly G} (room : begun.countP Conversation.goesOn < session.limits.width.toNat) :
      Step session ⟨run :: unbegun, begun, parties⟩ ⟨unbegun, begun ++ [⟨[], run⟩], parties⟩
  | answer {unbegun : List (Talk G α)} {before after : List (Conversation G α)}
      {c : Conversation G α} {rest : Talk G α} {e : Event G} {parties parties' : Assembly G}
      (asked : c.rest.Answered e rest) (given : parties.Answers session e parties') :
      Step session ⟨unbegun, before ++ c :: after, parties⟩
        ⟨unbegun, before ++ ⟨c.said ++ [e], rest⟩ :: after, parties'⟩

/-- A question is answered in the run at a place. -/
theorem Step.answer_at {session : Session G} {unbegun : List (Talk G α)} {begun : List (Conversation G α)}
    {i : Nat} {c : Conversation G α} {rest : Talk G α} {e : Event G} {parties parties' : Assembly G}
    (hi : begun[i]? = some c) (asked : c.rest.Answered e rest)
    (given : parties.Answers session e parties') :
    Step session ⟨unbegun, begun, parties⟩ ⟨unbegun, begun.set i ⟨c.said ++ [e], rest⟩, parties'⟩ := by
  obtain ⟨before, after, rfl, rfl⟩ := exists_append_of_getElem? hi
  rw [List.set_append, if_neg (Nat.lt_irrefl _), Nat.sub_self]
  exact .answer asked given

/-- Whether all runs have been begun and are over. -/
def IsOver (s : Interplay G α) : Prop := s.unbegun = [] ∧ ∀ c ∈ s.begun, c.goesOn = false

/-- The results of the runs in the order in which they were begun, as far as they are known. -/
def results (s : Interplay G α) : List (Option α) := s.begun.map (·.result?)

/-- What can come of runs after a number of steps. -/
inductive Reached (session : Session G) (runs : List (Talk G α)) (a : Assembly G) :
    Nat → Interplay G α → Prop where
  | start : Reached session runs a 0 ⟨runs, [], a⟩
  | step {n : Nat} {s s' : Interplay G α} (reached : Reached session runs a n s)
      (step : Step session s s') : Reached session runs a (n + 1) s'

end Interplay

end PlaintextEquivalence
