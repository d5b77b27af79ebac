import Mathlib.Data.List.Forall2
import PlaintextEquivalence.Fault

/-!
# Computations that can end without an answer

What an answer of a computation in steps, or of one computation for each item of a list, says about
the parts.
-/

set_option autoImplicit false

namespace PlaintextEquivalence

variable {ε α β : Type}

theorem Except.bind_eq_ok {x : Except ε α} {f : α → Except ε β} {b : β} :
    x >>= f = .ok b ↔ ∃ a, x = .ok a ∧ f a = .ok b := by
  cases x with
  | error e => simp [bind, Except.bind]
  | ok a => simp [bind, Except.bind]

/-- One computation for each item answers with a list iff each answers with its item. -/
theorem Except.mapM_eq_ok {f : α → Except ε β} :
    ∀ {l : List α} {r : List β}, l.mapM f = .ok r ↔ List.Forall₂ (fun a b => f a = .ok b) l r
  | [], r => by
    rw [List.mapM_nil, List.forall₂_nil_left_iff]
    exact ⟨fun h => (Except.ok.inj h).symm, fun h => h ▸ rfl⟩
  | a :: l, r => by
    simp only [List.mapM_cons, Except.bind_eq_ok, Except.mapM_eq_ok, List.forall₂_cons_left_iff]
    constructor
    · rintro ⟨b, hb, r', hr', h⟩
      exact ⟨b, r', hb, hr', (Except.ok.inj h).symm⟩
    · rintro ⟨b, r', hb, hr', rfl⟩
      exact ⟨b, hb, r', hr', rfl⟩

theorem Except.mapM_of_forall {f : α → Except ε β} {g : α → β} {l : List α}
    (h : ∀ a ∈ l, f a = .ok (g a)) : l.mapM f = .ok (l.map g) := by
  rw [Except.mapM_eq_ok, List.forall₂_map_right_iff, List.forall₂_same]
  exact h

namespace Checked

theorem ofFault_eq_ok {x : Except Fault α} {a : α} :
    (ofFault x : Checked ε α) = .ok a ↔ x = .ok a := by
  cases x <;> simp [ofFault]

theorem ofExcept_eq_ok {x : Except ε α} {a : α} : ofExcept x = .ok a ↔ x = .ok a := by
  cases x <;> simp [ofExcept]

@[simp] theorem refuse_ne_ok (e : ε) (a : α) : (refuse e : Checked ε α) ≠ .ok a := nofun

/-- The computation meets no fault: it answers or reports an error. -/
def Faultless (x : Checked ε α) : Prop := ∀ f, x ≠ .error (.fault f)

@[simp] theorem faultless_ok (a : α) : Faultless (.ok a : Checked ε α) := fun _ => nofun

@[simp] theorem faultless_pure (a : α) : Faultless (pure a : Checked ε α) := faultless_ok a

@[simp] theorem faultless_refuse (e : ε) : Faultless (refuse e : Checked ε α) := fun _ => nofun

@[simp] theorem faultless_ofExcept (x : Except ε α) : Faultless (ofExcept x) := by
  cases x <;> exact fun _ => nofun

theorem faultless_ofFault {x : Except Fault α} {a : α} (h : x = .ok a) :
    Faultless (ofFault x : Checked ε α) := by
  subst h
  exact faultless_ok a

/-- Computations one after the other meet no fault if none of them does. -/
theorem Faultless.bind {x : Checked ε α} {f : α → Checked ε β} (hx : x.Faultless)
    (hf : ∀ a, x = .ok a → (f a).Faultless) : (x >>= f).Faultless := by
  cases x with
  | error e => exact fun fault h => hx fault (congrArg Except.error (Except.error.inj h))
  | ok a => exact hf a rfl

end Checked

theorem firstItems_of_le {n : Nat} {items : List α} (h : n ≤ items.length) :
    firstItems n items = .ok (items.take n) := if_pos h

end PlaintextEquivalence
