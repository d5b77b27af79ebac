import Mathlib.Algebra.Order.Ring.Nat
import Mathlib.Data.List.Forall2

/-!
# Lists paired item by item, and lists with one item apart

Principal results:
* `Paired.exists_getElem?` — what an item is paired with.
* `append_cons_unique` — the only item of a kind is at one place.
* `filterMap_mapIdx` — what is taken from one place only.
-/

set_option autoImplicit false

namespace PlaintextEquivalence

namespace Paired

variable {α β γ : Type} {R : α → β → Prop}

theorem exists_right {l : List α} {r : List β} (h : List.Forall₂ R l r) {a : α} (ha : a ∈ l) :
    ∃ b ∈ r, R a b := by
  induction h with
  | nil => cases ha
  | @cons a' b' l r hab _ ih =>
    rcases List.mem_cons.1 ha with rfl | ha
    · exact ⟨b', List.mem_cons_self, hab⟩
    · obtain ⟨b, hb, hR⟩ := ih ha
      exact ⟨b, List.mem_cons_of_mem _ hb, hR⟩

theorem exists_left {l : List α} {r : List β} (h : List.Forall₂ R l r) {b : β} (hb : b ∈ r) :
    ∃ a ∈ l, R a b := by
  obtain ⟨a, ha, hR⟩ := exists_right h.flip hb
  exact ⟨a, ha, hR⟩

theorem and_right {P : β → Prop} {l : List α} {r : List β} (h : List.Forall₂ R l r)
    (hr : ∀ b ∈ r, P b) : List.Forall₂ (fun a b => R a b ∧ P b) l r := by
  induction h with
  | nil => exact .nil
  | cons hab _ ih =>
    obtain ⟨hb, hr⟩ := List.forall_mem_cons.1 hr
    exact .cons ⟨hab, hb⟩ (ih hr)

theorem trans {S : β → γ → Prop} {T : α → γ → Prop} (hT : ∀ {a b c}, R a b → S b c → T a c)
    {l : List α} {m : List β} {r : List γ} (h : List.Forall₂ R l m) (h' : List.Forall₂ S m r) :
    List.Forall₂ T l r := by
  induction h generalizing r with
  | nil =>
    cases h'
    exact .nil
  | cons hab _ ih =>
    cases h' with
    | cons hbc h' => exact .cons (hT hab hbc) (ih h')

/-- An item on the right is paired with the item at its place on the left. -/
theorem exists_getElem? {l : List α} {r : List β} (h : List.Forall₂ R l r) {j : Nat} {b : β}
    (hb : r[j]? = some b) : ∃ a, l[j]? = some a ∧ R a b := by
  induction h generalizing j with
  | nil => simp at hb
  | @cons a b' l r hab _ ih =>
    cases j with
    | zero =>
      cases hb
      exact ⟨a, rfl, hab⟩
    | succ j => exact ih hb

/-- What is taken from the items at one place is the same on both sides. -/
theorem bind_getElem? {f : α → Option γ} {g : β → Option γ} {l : List α} {r : List β}
    (h : List.Forall₂ (fun a b => f a = g b) l r) (j : Nat) : l[j]?.bind f = r[j]?.bind g := by
  induction h generalizing j with
  | nil => rfl
  | cons hab _ ih =>
    cases j with
    | zero => exact hab
    | succ j => exact ih j

/-- An item on the right gives way to another. -/
theorem replace {b b' : β} {after : List β} (hb : ∀ a, R a b → R a b') :
    ∀ {l : List α} {before : List β}, List.Forall₂ R l (before ++ b :: after) →
      List.Forall₂ R l (before ++ b' :: after)
  | _, [], .cons hab h => .cons (hb _ hab) h
  | _, _ :: _, .cons hab h => .cons hab (replace hb h)

theorem forall₂_eq_map {f : α → β} {l : List α} {r : List β} :
    List.Forall₂ (fun a b => b = f a) l r ↔ r = l.map f := by
  rw [eq_comm (a := r), ← List.forall₂_eq_eq_eq, List.forall₂_map_left_iff]
  simp only [eq_comm]

end Paired

/-- The only item of a kind is at one place. -/
theorem append_cons_unique {α : Type} {p : α → Bool} {a b : α} (ha : p a = true) (hb : p b = true) :
    ∀ {l m l' m' : List α}, l ++ a :: m = l' ++ b :: m' → (∀ x ∈ l, p x = false) →
      (∀ x ∈ m, p x = false) → l = l' ∧ a = b
  | [], _, [], _, h, _, _ => ⟨rfl, (List.cons.inj h).1⟩
  | [], m, c :: l', m', h, _, hm => by
    obtain ⟨rfl, rfl⟩ := List.cons.inj h
    have := hm b (List.mem_append_right _ List.mem_cons_self)
    simp [this] at hb
  | c :: l, m, [], m', h, hl, _ => by
    obtain ⟨rfl, _⟩ := List.cons.inj h
    have := hl c List.mem_cons_self
    simp [this] at hb
  | c :: l, m, c' :: l', m', h, hl, hm => by
    obtain ⟨rfl, htail⟩ := List.cons.inj h
    obtain ⟨rfl, rfl⟩ :=
      append_cons_unique ha hb htail (fun x hx => hl x (List.mem_cons_of_mem _ hx)) hm
    exact ⟨rfl, rfl⟩

/-- What is taken from the item at one place only. -/
theorem filterMap_mapIdx {α β γ : Type} {f : β → Option γ} {g : α → Option γ} :
    ∀ {l : List α} {item : Nat → α → β} {j : Nat},
      (∀ k a, f (item k a) = if k = j then g a else none) →
        (l.mapIdx item).filterMap f = (l[j]?.bind g).toList
  | [], _, _, _ => rfl
  | a :: l, item, 0, hf => by
    have hothers : (l.mapIdx fun k => item (k + 1)).filterMap f = [] := by
      rw [List.filterMap_eq_nil_iff]
      intro b hb
      obtain ⟨k, _, rfl⟩ := List.mem_mapIdx.1 hb
      exact (hf (k + 1) _).trans (if_neg (Nat.succ_ne_zero k))
    rw [List.mapIdx_cons, List.filterMap_cons, hf 0 a, if_pos rfl, hothers]
    cases hg : g a with
    | none => exact congrArg Option.toList hg.symm
    | some c => exact congrArg Option.toList hg.symm
  | a :: l, item, j + 1, hf => by
    have hrest : (l.mapIdx fun k => item (k + 1)).filterMap f = (l[j]?.bind g).toList := by
      refine filterMap_mapIdx fun k a => (hf (k + 1) a).trans ?_
      simp only [Nat.add_right_cancel_iff]
    rw [List.mapIdx_cons, List.filterMap_cons, hf 0 a, if_neg (Nat.succ_ne_zero j).symm, hrest]
    rfl

/-- What is taken from every item, each at its place. -/
theorem filterMap_mapIdx_some {α β γ : Type} {f : β → Option γ} {item : Nat → α → β} {g : Nat → α → γ}
    (hf : ∀ k a, f (item k a) = some (g k a)) (l : List α) :
    (l.mapIdx item).filterMap f = l.mapIdx g := by
  induction l generalizing item g with
  | nil => rfl
  | cons a l ih =>
    rw [List.mapIdx_cons, List.filterMap_cons, hf 0 a, ih fun k a => hf (k + 1) a, List.mapIdx_cons]

theorem forall_getElem?_cons {α : Type} {P : Nat → α → Prop} {a : α} {l : List α} :
    (∀ i b, (a :: l)[i]? = some b → P i b) ↔ P 0 a ∧ ∀ i b, l[i]? = some b → P (i + 1) b := by
  constructor
  · exact fun h => ⟨h 0 a rfl, fun i b hb => h (i + 1) b hb⟩
  · rintro ⟨hhead, htail⟩ i b hb
    cases i with
    | zero =>
      cases hb
      exact hhead
    | succ i => exact htail i b hb

theorem filterMap_range {α β : Type} (g : α → Option β) (l : List α) :
    (List.range l.length).filterMap (fun j => l[j]?.bind g) = l.filterMap g := by
  induction l with
  | nil => rfl
  | cons a l ih =>
    have htail : ((fun j => (a :: l)[j]?.bind g) ∘ Nat.succ) = fun j => l[j]?.bind g := rfl
    rw [List.length_cons, List.range_succ_eq_map, List.filterMap_cons, List.filterMap_map,
      List.filterMap_cons, htail, ih]
    rfl

/-- A list around the item at a place. -/
theorem exists_append_of_getElem? {α : Type} {l : List α} {i : Nat} {a : α} (h : l[i]? = some a) :
    ∃ before after, l = before ++ a :: after ∧ before.length = i := by
  obtain ⟨hlt, rfl⟩ := List.getElem?_eq_some_iff.1 h
  refine ⟨l.take i, l.drop (i + 1), ?_, List.length_take_of_le (Nat.le_of_lt hlt)⟩
  rw [List.getElem_cons_drop, List.take_append_drop]

/-- If no item counts for more than a number, all items count for no more than that many times it. -/
theorem sum_map_le {α : Type} {f : α → Nat} {n : Nat} :
    ∀ {l : List α}, (∀ a ∈ l, f a ≤ n) → (l.map f).sum ≤ l.length * n
  | [], _ => Nat.zero_le _
  | a :: l, h => by
    obtain ⟨ha, hl⟩ := List.forall_mem_cons.1 h
    rw [List.map_cons, List.sum_cons, List.length_cons, Nat.succ_mul, Nat.add_comm]
    exact Nat.add_le_add (sum_map_le hl) ha

/-- If each item gives one thing at most, all items give no more than there are of them. -/
theorem length_flatMap_le {α β : Type} {f : α → List β} {l : List α}
    (h : ∀ a ∈ l, (f a).length ≤ 1) : (l.flatMap f).length ≤ l.length := by
  rw [List.length_flatMap]
  exact Nat.le_trans (sum_map_le h) (Nat.le_of_eq (Nat.mul_one _))

/-- A list of different numbers in order that can only hold one number holds just that. -/
theorem eq_singleton_of_forall {l : List Nat} {j : Nat} (hordered : l.Pairwise (· < ·)) (hne : l ≠ [])
    (honly : ∀ k ∈ l, k = j) : l = [j] := by
  cases l with
  | nil => exact absurd rfl hne
  | cons k l =>
    cases l with
    | nil => rw [honly k List.mem_cons_self]
    | cons k' l =>
      have hk := honly k List.mem_cons_self
      have hk' := honly k' (List.mem_cons_of_mem _ List.mem_cons_self)
      have hlt : k < k' := List.rel_of_pairwise_cons hordered List.mem_cons_self
      omega

end PlaintextEquivalence
