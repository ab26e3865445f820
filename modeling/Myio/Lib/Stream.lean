import Mathlib.Data.List.Basic

/-! Streams put together from one piece for each index below a bound. -/

namespace Machine

variable {α : Type}

/-- The pieces in the order of their indices. -/
def stream (piece : Nat → List α) (n : Nat) : List α := (List.range n).flatMap piece

variable {piece piece' : Nat → List α} {n : Nat}

theorem stream_succ (piece : Nat → List α) (n : Nat) :
    stream piece (n + 1) = stream piece n ++ piece n := by
  simp [stream, List.range_succ]

/-- Equal pieces make equal streams. -/
theorem stream_congr (same : ∀ i, i < n → piece' i = piece i) :
    stream piece' n = stream piece n :=
  List.flatMap_congr fun i inside => same i (List.mem_range.mp inside)

/-- Empty pieces make an empty stream. -/
theorem stream_nil (empty : ∀ i, i < n → piece i = []) : stream piece n = [] :=
  List.flatMap_eq_nil_iff.mpr fun i inside => empty i (List.mem_range.mp inside)

/-- What is added to the last piece that is not empty is added to the stream. -/
theorem stream_grow {k : Nat} {more : List α} (inside : k < n)
    (same : ∀ i, i < n → i ≠ k → piece' i = piece i) (empty : ∀ i, k < i → i < n → piece i = [])
    (grown : piece' k = piece k ++ more) : stream piece' n = stream piece n ++ more := by
  -- On the bound: either the last index is the one that grows, or its piece is empty.
  induction n with
  | zero => cases inside
  | succ n ih =>
    rw [stream_succ, stream_succ]
    rcases Nat.lt_succ_iff_lt_or_eq.mp inside with below | rfl
    · have last : piece' n = [] :=
        (same n (Nat.lt_succ_self n) (Nat.ne_of_gt below)).trans (empty n below (Nat.lt_succ_self n))
      rw [ih below (fun i less => same i (Nat.lt_succ_of_lt less))
        (fun i above less => empty i above (Nat.lt_succ_of_lt less)), last,
        empty n below (Nat.lt_succ_self n)]
      simp
    · rw [grown, stream_congr fun i less => same i (Nat.lt_succ_of_lt less) (Nat.ne_of_lt less)]
      simp

end Machine
