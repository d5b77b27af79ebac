import PlaintextEquivalence.Proofs.Lists
import PlaintextEquivalence.Protocol.Session

/-!
# Tables by rows and by columns

Trustees answer row by row, and a session goes on column by column: one column for each selection.  In a
table whose rows are all of one length, a column has an item of every row, so that the item at a place is
the same either way; and what a trustee is challenged with comes from its own row.

Principal results:
* `forall₂_column`, `getElem?_column` — the items of a column are those of the rows.
* `challengesFor_columns` — the challenges for a trustee, from what it contributed itself.
-/

set_option autoImplicit false

namespace PlaintextEquivalence.Session

variable {α : Type} {width : Nat} {rows : List (List α)}

/-- The items at a position, row by row. -/
def column (i : Nat) (rows : List (List α)) : List α := rows.filterMap (·[i]?)

/-- If all rows are long enough, each gives one item of a column. -/
theorem forall₂_column {i : Nat} (hi : i < width) (hlen : ∀ row ∈ rows, row.length = width) :
    List.Forall₂ (fun row a => row[i]? = some a) rows (column i rows) := by
  induction rows with
  | nil => exact .nil
  | cons row rows ih =>
    obtain ⟨hrow, hlen⟩ := List.forall_mem_cons.1 hlen
    have hitem : row[i]? = some (row.get ⟨i, hrow ▸ hi⟩) := by simp
    rw [column, List.filterMap_cons, hitem]
    exact .cons hitem (ih hlen)

/-- The items of a column, row by row. -/
theorem getElem?_column {i : Nat} (hi : i < width) (hlen : ∀ row ∈ rows, row.length = width) (j : Nat) :
    (column i rows)[j]? = rows[j]?.bind (·[i]?) := by
  rw [Paired.bind_getElem? (forall₂_column hi hlen) j, Option.bind_fun_some]

/-- The columns have the items of a row at its place. -/
theorem forall₂_columns (hlen : ∀ row ∈ rows, row.length = width) {j : Nat} {row : List α}
    (hrow : rows[j]? = some row) :
    List.Forall₂ (fun column a => column[j]? = some a) (columns width rows) row := by
  have hwidth : row.length = width := hlen row (List.mem_of_getElem? hrow)
  refine List.forall₂_iff_get.2 ⟨by simp [columns, hwidth], fun i _ hi => ?_⟩
  have hitem : (column i rows)[j]? = row[i]? := by
    rw [getElem?_column (hwidth ▸ hi) hlen, hrow, Option.bind_some]
  rw [List.getElem?_eq_getElem hi] at hitem
  simpa [columns, column] using hitem

variable {G : PrimeGroup}

/-- The challenges for the contributions in a row. -/
def challengesOn (challenges : List G.Scalar) (row : List (Contribution G)) : List (Challenge G) :=
  List.zipWith (fun c contribution => ⟨c, contribution.nonces⟩) challenges row

theorem challengesFor_eq {contributions : List (List (Contribution G))} {row : List (Contribution G)}
    {j : Nat} (h : List.Forall₂ (fun column a => column[j]? = some a) contributions row)
    (challenges : List G.Scalar) :
    challengesFor contributions challenges j = challengesOn challenges row := by
  induction h generalizing challenges with
  | nil => cases challenges <;> rfl
  | @cons column a contributions row hitem _ ih =>
    cases challenges with
    | nil => rfl
    | cons c challenges =>
      have hrest := ih challenges
      unfold challengesFor challengesOn at hrest ⊢
      rw [List.zip_cons_cons, List.filterMap_cons, List.zipWith_cons_cons, ← hrest]
      simp [hitem]

/-- **The challenges for a trustee are those for what it contributed itself**, and there are none for one
that is not there. -/
theorem challengesFor_columns {rows : List (List (Contribution G))}
    (hlen : ∀ row ∈ rows, row.length = width) (challenges : List G.Scalar) (j : Nat) :
    challengesFor (columns width rows) challenges j = challengesOn challenges (rows.getD j []) := by
  rw [List.getD_eq_getElem?_getD]
  cases hrow : rows[j]? with
  | some row => exact challengesFor_eq (forall₂_columns hlen hrow) challenges
  | none =>
    have hnone : ∀ x ∈ (columns width rows).zip challenges, x.1[j]? = none := by
      intro x hx
      obtain ⟨i, hi, hcolumn⟩ := List.mem_map.1 (List.of_mem_zip hx).1
      have hitem : (column i rows)[j]? = none := by
        rw [getElem?_column (List.mem_range.1 hi) hlen, hrow, Option.bind_none]
      rw [← hcolumn]
      exact hitem
    rw [Option.getD_none, challengesOn, List.zipWith_nil_right, challengesFor, List.filterMap_eq_nil_iff]
    intro x hx
    simp [hnone x hx]

end PlaintextEquivalence.Session
