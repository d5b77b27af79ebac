import PlaintextEquivalence.Proofs.Fault
import PlaintextEquivalence.Proofs.Lists
import PlaintextEquivalence.Protocol.Round

/-!
# How a round ends

A round with all trustees gives a list of each if every reply comes in time, is no failure and is of
the expected length; and those are the lists it gives.  Otherwise the earliest failure ends it, and of
several at one time that of the lowest index.

Principal results:
* `settle_eq_ok` — what a round that succeeds was answered.
* `settle_eq_error` — whose failure ends a round.
* `complaint?_of_settle` — the same if nobody takes any time.
-/

set_option autoImplicit false

namespace PlaintextEquivalence.Round

variable {α : Type} {limit : Duration} {expected : Nat}

/-- A reply that a round accepts, and the items in it. -/
structure Accepts (limit : Duration) (expected : Nat) (reply : Reply α) (items : List α) : Prop where
  inTime : reply.delay ≤ limit.nanos
  result : reply.result = .ok items
  length : items.length = expected

theorem settleOne_eq_ok {reply : Reply α} {items : List α} :
    (settleOne limit expected reply).2 = .ok items ↔ Accepts limit expected reply items := by
  unfold settleOne
  constructor
  · intro h
    split at h
    · cases h
    rename_i hlate
    simp only at h
    split at h
    · cases h
    · rename_i given hresult
      split at h
      · rename_i hlen
        cases h
        exact ⟨Nat.le_of_not_lt hlate, hresult, hlen⟩
      · cases h
  · rintro ⟨hdelay, hresult, hlen⟩
    rw [if_neg (Nat.not_lt.2 hdelay)]
    simp only [hresult, if_pos hlen]

/-- There is no first failure iff there is none. -/
theorem firstFailure?_eq_none :
    ∀ {ends : List (Nat × Except CallError (List α))} {index : Nat},
      firstFailure? index ends = none ↔ List.Forall₂ (fun e l => e.2 = .ok l) ends (items ends)
  | [], _ => by simp [firstFailure?, items]
  | (_, .ok _) :: rest, index => by
    simp only [firstFailure?, items, List.forall₂_cons, true_and]
    exact firstFailure?_eq_none
  | (time, .error e) :: rest, index => by
    have hnone : ¬ List.Forall₂ (fun e l => e.2 = .ok l) ((time, .error e) :: rest)
        (items ((time, .error e) :: rest)) := by
      intro h
      obtain ⟨_, _, hl, _⟩ := List.forall₂_cons_left_iff.1 h
      cases hl
    simp only [firstFailure?, hnone, iff_false]
    split
    · simp
    · split <;> simp

theorem items_eq {ends : List (Nat × Except CallError (List α))} {ls : List (List α)}
    (h : List.Forall₂ (fun e l => e.2 = .ok l) ends ls) : items ends = ls := by
  induction h with
  | nil => rfl
  | @cons e l ends ls he _ ih =>
    obtain ⟨time, result⟩ := e
    subst he
    simp [items, ih]

/-- **What a round that succeeds was answered.** -/
theorem settle_eq_ok {replies : List (Reply α)} {rows : List (List α)} :
    (settle limit expected replies).2 = .ok rows ↔
      List.Forall₂ (Accepts limit expected) replies rows := by
  have hends : ∀ {ls : List (List α)},
      List.Forall₂ (fun e l => e.2 = .ok l) (replies.map (settleOne limit expected)) ls ↔
        List.Forall₂ (Accepts limit expected) replies ls := by
    intro ls
    rw [List.forall₂_map_left_iff]
    simp only [settleOne_eq_ok]
  unfold settle
  simp only
  constructor
  · intro h
    split at h
    · cases h
    · rename_i hnone
      cases h
      exact hends.1 (firstFailure?_eq_none.1 hnone)
  · intro h
    have hall := hends.2 h
    obtain rfl := items_eq hall
    simp only [firstFailure?_eq_none.2 hall]

theorem mapError_settle_eq_ok {ε : Type} {f : Nat × CallError → ε} {replies : List (Reply α)}
    {rows : List (List α)} :
    (settle limit expected replies).2.mapError f = .ok rows ↔
      List.Forall₂ (Accepts limit expected) replies rows := by
  rw [← settle_eq_ok]
  cases (settle limit expected replies).2 <;> simp [Except.mapError]

theorem mapError_eq_error {β ε δ : Type} {f : ε → δ} {x : Except ε β} {e : δ} :
    x.mapError f = .error e ↔ ∃ e', x = .error e' ∧ f e' = e := by
  cases x <;> simp [Except.mapError]

/-- The lists that a round accepts are of the expected length. -/
theorem length_of_accepts {replies : List (Reply α)} {rows : List (List α)}
    (h : List.Forall₂ (Accepts limit expected) replies rows) : ∀ row ∈ rows, row.length = expected := by
  intro row hrow
  obtain ⟨_, _, hr⟩ := Paired.exists_left h hrow
  exact hr.length

/-- A reply without delay that gives the expected number of items is accepted. -/
theorem accepts_prompt {items : List α} (h : items.length = expected) :
    Accepts limit expected ⟨0, .ok items⟩ items :=
  ⟨Nat.zero_le _, rfl, h⟩

/-! ## Failures -/

/-- **The first failure** is the earliest, and of those at one time that of the lowest index. -/
theorem firstFailure?_eq_some :
    ∀ {ends : List (Nat × Except CallError (List α))} {index time k : Nat} {e : CallError},
      firstFailure? index ends = some (time, k, e) →
        ∃ j, k = index + j ∧ ends[j]? = some (time, .error e) ∧
          ∀ i end', ends[i]? = some end' →
            ∀ e', end'.2 = .error e' → time < end'.1 ∨ time = end'.1 ∧ j ≤ i
  | [], _, _, _, _, h => by cases h
  | (_, .ok _) :: rest, index, time, k, e, h => by
    rw [firstFailure?] at h
    obtain ⟨j, rfl, hj, hfirst⟩ := firstFailure?_eq_some h
    refine ⟨j + 1, by omega, hj, forall_getElem?_cons.2 ⟨nofun, fun i end' hi e' he' => ?_⟩⟩
    have hother := hfirst i end' hi e' he'
    omega
  | (now, .error e₀) :: rest, index, time, k, e, h => by
    rw [firstFailure?] at h
    cases hrest : firstFailure? (index + 1) rest with
    | none =>
      rw [hrest] at h
      cases h
      refine ⟨0, rfl, rfl, forall_getElem?_cons.2 ⟨by omega, fun i end' hi e' he' => ?_⟩⟩
      -- nobody after this one fails
      obtain ⟨_, _, hok⟩ := Paired.exists_right (firstFailure?_eq_none.1 hrest)
        (List.mem_of_getElem? hi)
      cases he'.symm.trans hok
    | some failure =>
      obtain ⟨later, k', e'⟩ := failure
      obtain ⟨j, rfl, hj, hfirst⟩ := firstFailure?_eq_some hrest
      rw [hrest] at h
      simp only at h
      split at h
      · cases h
        refine ⟨j + 1, by omega, hj, forall_getElem?_cons.2 ⟨by omega, fun i end' hi e' he' => ?_⟩⟩
        have hother := hfirst i end' hi e' he'
        omega
      · cases h
        refine ⟨0, rfl, rfl, forall_getElem?_cons.2 ⟨by omega, fun i end' hi e' he' => ?_⟩⟩
        have hother := hfirst i end' hi e' he'
        omega

/-- **Whose failure ends a round**: the earliest, and of those at one time that of the lowest index. -/
theorem settle_eq_error {replies : List (Reply α)} {j : Nat} {e : CallError}
    (h : (settle limit expected replies).2 = .error (j, e)) :
    ∃ reply, replies[j]? = some reply ∧ (settleOne limit expected reply).2 = .error e ∧
      ∀ i reply', replies[i]? = some reply' → ∀ e', (settleOne limit expected reply').2 = .error e' →
        (settleOne limit expected reply).1 < (settleOne limit expected reply').1 ∨
          (settleOne limit expected reply).1 = (settleOne limit expected reply').1 ∧ j ≤ i := by
  unfold settle at h
  simp only at h
  split at h
  · rename_i time index e' hfailure
    cases h
    obtain ⟨j, hindex, hj, hfirst⟩ := firstFailure?_eq_some hfailure
    obtain rfl := hindex.trans (Nat.zero_add j)
    rw [List.getElem?_map] at hj
    obtain ⟨reply, hreply, hend⟩ := Option.map_eq_some_iff.1 hj
    refine ⟨reply, hreply, by rw [hend], fun i reply' hreply' => ?_⟩
    rw [hend]
    exact hfirst i _ (by rw [List.getElem?_map, hreply', Option.map_some])
  · cases h

/-- What is wrong with a reply that comes in time. -/
def complaint? (expected : Nat) (reply : Reply α) : Option CallError :=
  match reply.result with
  | .error e => some e
  | .ok items =>
    if items.length = expected then none else some (.responseLength expected items.length)

/-- A reply without delay fails just if something is wrong with it, and at once. -/
theorem settleOne_of_prompt {reply : Reply α} (h : reply.delay = 0) :
    (settleOne limit expected reply).1 = 0 ∧
      ∀ e, (settleOne limit expected reply).2 = .error e ↔ complaint? expected reply = some e := by
  have hlate : ¬ limit.nanos < reply.delay := by omega
  unfold settleOne complaint?
  rw [if_neg hlate]
  refine ⟨h, fun e => ?_⟩
  cases reply.result with
  | error e' => simp
  | ok items => by_cases hlen : items.length = expected <;> simp [hlen]

/-- **If nobody takes any time**, the first trustee whose reply is amiss ends a round. -/
theorem complaint?_of_settle {replies : List (Reply α)} {j : Nat} {e : CallError}
    (hprompt : ∀ reply ∈ replies, reply.delay = 0)
    (h : (settle limit expected replies).2 = .error (j, e)) :
    ∃ reply, replies[j]? = some reply ∧ complaint? expected reply = some e ∧
      ∀ i < j, ∀ reply', replies[i]? = some reply' → complaint? expected reply' = none := by
  obtain ⟨reply, hreply, he, hfirst⟩ := settle_eq_error h
  have htime {i : Nat} {reply : Reply α} (hi : replies[i]? = some reply) :
      (settleOne limit expected reply).1 = 0 ∧
        ∀ e, (settleOne limit expected reply).2 = .error e ↔ complaint? expected reply = some e :=
    settleOne_of_prompt (hprompt reply (List.mem_of_getElem? hi))
  refine ⟨reply, hreply, ((htime hreply).2 e).1 he, fun i hi reply' hreply' => ?_⟩
  rw [Option.eq_none_iff_forall_ne_some]
  intro e' hcomplaint
  have hearlier := hfirst i reply' hreply' e' (((htime hreply').2 e').2 hcomplaint)
  rw [(htime hreply).1, (htime hreply').1] at hearlier
  omega

/-- Nothing is wrong with a reply that a round accepts. -/
theorem Accepts.complaint?_eq_none {reply : Reply α} {items : List α}
    (h : Accepts limit expected reply items) : complaint? expected reply = none := by
  rw [complaint?, h.result]
  exact if_pos h.length

end PlaintextEquivalence.Round
