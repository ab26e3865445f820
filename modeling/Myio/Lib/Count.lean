import Mathlib.Data.Nat.Count
import Mathlib.Data.Finset.Card

/-! Counting the indices below a bound that satisfy a test, when the test changes at one index. -/

namespace Machine

/-- Two tests that agree below the bound select equally many indices. -/
theorem count_congr {p q : Nat → Prop} [DecidablePred p] [DecidablePred q] {n : Nat}
    (agree : ∀ i, i < n → (p i ↔ q i)) : Nat.count p n = Nat.count q n := by
  simp only [Nat.count_eq_card_filter_range]
  congr 1
  ext i
  simp only [Finset.mem_filter, Finset.mem_range]
  exact and_congr_right (agree i)

/-- Gaining one index adds one to the count. -/
theorem count_gain {p q : Nat → Prop} [DecidablePred p] [DecidablePred q] {n k : Nat}
    (inside : k < n) (without : ¬ p k) (gained : q k)
    (agree : ∀ i, i < n → i ≠ k → (p i ↔ q i)) : Nat.count q n = Nat.count p n + 1 := by
  -- The new selection is the old one with the single index inserted.
  simp only [Nat.count_eq_card_filter_range]
  have grown : Finset.filter q (Finset.range n) = insert k (Finset.filter p (Finset.range n)) := by
    ext i
    simp only [Finset.mem_filter, Finset.mem_range, Finset.mem_insert]
    by_cases same : i = k
    · subst same; simp [inside, gained]
    · simp only [same, false_or]; exact and_congr_right (fun below => (agree i below same).symm)
  rw [grown, Finset.card_insert_of_notMem (by simp [without])]

/-- A count is zero exactly when no index below the bound is selected. -/
theorem count_eq_zero {p : Nat → Prop} [DecidablePred p] {n : Nat} :
    Nat.count p n = 0 ↔ ∀ i, i < n → ¬ p i := by
  simp [Nat.count_eq_card_filter_range, Finset.card_eq_zero, Finset.filter_eq_empty_iff]

/-- One selected index makes the count positive. -/
theorem count_pos {p : Nat → Prop} [DecidablePred p] {n k : Nat} (inside : k < n)
    (selected : p k) : 0 < Nat.count p n := by
  rcases Nat.eq_zero_or_pos (Nat.count p n) with none | positive
  · exact absurd selected (count_eq_zero.mp none k inside)
  · exact positive

/-- A weaker test selects at least as many indices. -/
theorem count_le {p q : Nat → Prop} [DecidablePred p] [DecidablePred q] {n : Nat}
    (weaker : ∀ i, i < n → p i → q i) : Nat.count p n ≤ Nat.count q n := by
  simp only [Nat.count_eq_card_filter_range]
  refine Finset.card_le_card fun i selected => ?_
  simp only [Finset.mem_filter, Finset.mem_range] at selected ⊢
  exact ⟨selected.1, weaker i selected.1 selected.2⟩

/-- Changing the test at one index shifts the count by what is lost and gained there. -/
theorem count_shift {p q : Nat → Bool} {n k : Nat} (inside : k < n)
    (agree : ∀ i, i < n → i ≠ k → p i = q i) :
    Nat.count (q · = true) n + (p k).toNat = Nat.count (p · = true) n + (q k).toNat := by
  have same : ∀ i, i < n → i ≠ k → (p i = true ↔ q i = true) := fun i below other => by
    rw [agree i below other]
  by_cases equal : p k = q k
  · have unchanged : Nat.count (q · = true) n = Nat.count (p · = true) n :=
      count_congr fun i below => by
        by_cases here : i = k
        · rw [here, equal]
        · exact (same i below here).symm
    rw [unchanged, equal]
  · cases before : p k with
    | false =>
      have after : q k = true := by simpa [before] using equal
      simpa [after] using count_gain inside (by simp [before]) after same
    | true =>
      have after : q k = false := by simpa [before] using equal
      simpa [after] using (count_gain inside (by simp [after]) before fun i below other =>
        (same i below other).symm).symm

/-- Distinct selected indices below the bound are no more than there are. -/
theorem length_le_count {p : Nat → Prop} [DecidablePred p] {n : Nat} {l : List Nat}
    (nodup : l.Nodup) (selected : ∀ i ∈ l, i < n ∧ p i) : l.length ≤ Nat.count p n := by
  rw [Nat.count_eq_card_filter_range, ← List.toFinset_card_of_nodup nodup]
  refine Finset.card_le_card fun i inside => ?_
  rw [List.mem_toFinset] at inside
  simpa using selected i inside

end Machine
