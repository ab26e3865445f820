import Mathlib.Data.List.Nodup
import Mathlib.Data.List.Range

/-! The indices below a bound that pass a test, in order. -/

namespace Machine

/-- The selected indices. -/
def select (p : Nat → Bool) (n : Nat) : List Nat := (List.range n).filter p

variable {p q : Nat → Bool} {n k : Nat}

theorem mem_select {i : Nat} : i ∈ select p n ↔ i < n ∧ p i = true := by
  simp [select]

theorem select_nodup (p : Nat → Bool) (n : Nat) : (select p n).Nodup :=
  List.nodup_range.filter p

theorem select_length_le (p : Nat → Bool) (n : Nat) : (select p n).length ≤ n := by
  have shorter := List.length_filter_le p (List.range n)
  rwa [List.length_range] at shorter

/-- Tests that agree below the bound select the same indices. -/
theorem select_congr (agree : ∀ i, i < n → q i = p i) : select q n = select p n :=
  List.filter_congr fun i inside => agree i (List.mem_range.mp inside)

/-- Raising the bound adds the last index if it passes. -/
theorem select_succ (p : Nat → Bool) (n : Nat) :
    select p (n + 1) = select p n ++ if p n then [n] else [] := by
  rw [select, List.range_succ, List.filter_append, select]
  congr 1
  cases passes : p n <;> simp [passes]

/-- An index that no longer passes is taken out. -/
theorem select_erase (agree : ∀ i, i < n → i ≠ k → q i = p i) (without : q k = false) :
    select q n = (select p n).erase k := by
  rw [(select_nodup p n).erase_eq_filter, select, select, List.filter_filter]
  refine List.filter_congr fun i inside => ?_
  by_cases same : i = k
  · subst same; simp [without]
  · simp [agree i (List.mem_range.mp inside) same, same]

end Machine
