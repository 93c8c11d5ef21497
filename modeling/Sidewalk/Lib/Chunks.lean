import Mathlib

/-!
# Lists in pieces

What is too long to be passed on at once is cut into pieces of one size, of which the last one may
be shorter.
-/

namespace Sidewalk.Lib

variable {α : Type} {size : Nat} {xs : List α}

/-- The pieces of a list. -/
def chunks (size : Nat) (xs : List α) : List (List α) :=
  (List.range ((xs.length + (size - 1)) / size)).map fun k => (xs.drop (size * k)).take size

@[simp] theorem chunks_nil : chunks size ([] : List α) = [] := by
  have hnone : (([] : List α).length + (size - 1)) / size = 0 := by
    cases size with
    | zero => exact Nat.div_zero _
    | succ n => exact Nat.div_eq_of_lt (by simp)
  rw [chunks, hnone, List.range_zero, List.map_nil]

/-- The first piece comes before those of the rest. -/
theorem chunks_cons (hsize : 0 < size) (h : xs ≠ []) :
    chunks size xs = xs.take size :: chunks size (xs.drop size) := by
  have hpos : 0 < xs.length := List.length_pos_iff.mpr h
  have hcount : (xs.length + (size - 1)) / size =
      ((xs.drop size).length + (size - 1)) / size + 1 := by
    rw [List.length_drop, ← Nat.add_div_right _ hsize]
    by_cases hlong : size ≤ xs.length
    · congr 1
      omega
    · have hnone : xs.length - size = 0 := by omega
      rw [hnone, Nat.div_eq_of_lt_le (k := 1) (by omega) (by omega),
        Nat.div_eq_of_lt_le (k := 1) (by omega) (by omega)]
  rw [chunks, hcount, List.range_succ_eq_map, List.map_cons, List.map_map, Nat.mul_zero,
    List.drop_zero, chunks]
  congr 1
  apply List.map_congr_left
  intro k _
  rw [Function.comp_apply, List.drop_drop, Nat.mul_succ, Nat.add_comm]

/-- One piece after the other. -/
theorem chunks_induction {P : List α → Prop} (hsize : 0 < size) (nil : P [])
    (cons : ∀ xs, xs ≠ [] → P (xs.drop size) → P xs) (xs : List α) : P xs := by
  induction hn : xs.length using Nat.strong_induction_on generalizing xs with
  | _ n ih =>
    by_cases h : xs = []
    · rw [h]
      exact nil
    · have hpos : 0 < xs.length := List.length_pos_iff.mpr h
      refine cons xs h (ih _ ?_ _ rfl)
      rw [List.length_drop]
      omega

/-- No piece is longer than the first one. -/
theorem exists_long_chunk {n : Nat} (hsize : 0 < size) (hn : 0 < n) :
    (∃ c ∈ chunks size xs, n ≤ c.length) ↔ n ≤ size ∧ n ≤ xs.length := by
  induction xs using chunks_induction hsize with
  | nil =>
    rw [chunks_nil, List.length_nil]
    simp only [List.not_mem_nil, false_and, exists_false, false_iff]
    omega
  | cons xs h ih =>
    rw [chunks_cons hsize h, List.exists_mem_cons_iff, ih, List.length_take, List.length_drop]
    omega

end Sidewalk.Lib
