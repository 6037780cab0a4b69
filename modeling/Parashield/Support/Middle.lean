import Mathlib.Algebra.Order.Ring.Int
import Mathlib.Data.List.GetD
import Mathlib.Data.List.Sort

/-!
# The median of a list of integers

The element in the middle of the sorted list, or the mean of the two in the
middle, rounded toward zero.  A value that makes up more than half of the list
is its median.
-/

namespace Support

variable {xs : List ℤ} {v : ℤ} {i : ℕ}

/-- The middle of a list that is sorted. -/
def middleOf (xs : List ℤ) : ℤ :=
  if xs.length % 2 = 1 then
    xs.getD (xs.length / 2) 0
  else
    (xs.getD (xs.length / 2 - 1) 0 + xs.getD (xs.length / 2) 0).tdiv 2

def median (xs : List ℤ) : ℤ :=
  middleOf (xs.insertionSort (· ≤ ·))

/-- A value that occurs more often than there are places before the one at `i`,
and after it, is at this place. -/
theorem sorted_getD_of_count (hsorted : xs.Pairwise (· ≤ ·))
    (hi : i < xs.length) (hbefore : i < xs.count v)
    (hafter : xs.length < xs.count v + (i + 1)) : xs.getD i 0 = v := by
  rw [List.getD_eq_getElem _ _ hi]
  rcases lt_trichotomy xs[i] v with hlt | heq | hgt
  · -- all of `v` comes after this place
    have hnone : (xs.take (i + 1)).count v = 0 := by
      rw [List.count_eq_zero]
      intro hmem
      obtain ⟨j, hj, hv⟩ := List.mem_iff_getElem.mp hmem
      rw [List.length_take] at hj
      rw [List.getElem_take] at hv
      have hle : xs[j] ≤ xs[i] := by
        rcases Nat.lt_or_ge j i with hji | hji
        · exact List.pairwise_iff_getElem.mp hsorted j i _ hi hji
        · obtain rfl : j = i := by omega
          exact le_rfl
      omega
    have hsplit := congrArg (List.count v) (List.take_append_drop (i + 1) xs)
    rw [List.count_append, hnone] at hsplit
    have hle := List.count_le_length (a := v) (l := xs.drop (i + 1))
    rw [List.length_drop] at hle
    omega
  · exact heq
  · -- all of `v` comes before this place
    have hnone : (xs.drop i).count v = 0 := by
      rw [List.count_eq_zero]
      intro hmem
      obtain ⟨j, hj, hv⟩ := List.mem_iff_getElem.mp hmem
      rw [List.length_drop] at hj
      rw [List.getElem_drop] at hv
      have hle : xs[i] ≤ xs[i + j] := by
        rcases Nat.eq_zero_or_pos j with rfl | hj'
        · exact le_rfl
        · exact List.pairwise_iff_getElem.mp hsorted i (i + j) hi _ (by omega)
      omega
    have hsplit := congrArg (List.count v) (List.take_append_drop i xs)
    rw [List.count_append, hnone] at hsplit
    have hle := List.count_le_length (a := v) (l := xs.take i)
    rw [List.length_take] at hle
    omega

/-- A majority decides the median. -/
theorem median_of_majority (h : xs.length < 2 * xs.count v) :
    median xs = v := by
  have hperm := List.perm_insertionSort (· ≤ ·) xs
  have hsorted := List.pairwise_insertionSort (· ≤ ·) xs
  have hlength := hperm.length_eq
  have hcount := hperm.count_eq v
  have hle := List.count_le_length (a := v) (l := xs)
  unfold median middleOf
  split_ifs with hodd
  · exact sorted_getD_of_count hsorted (by omega) (by omega) (by omega)
  · have hlow : (xs.insertionSort (· ≤ ·)).getD
        ((xs.insertionSort (· ≤ ·)).length / 2 - 1) 0 = v :=
      sorted_getD_of_count hsorted (by omega) (by omega) (by omega)
    have hhigh : (xs.insertionSort (· ≤ ·)).getD
        ((xs.insertionSort (· ≤ ·)).length / 2) 0 = v :=
      sorted_getD_of_count hsorted (by omega) (by omega) (by omega)
    rw [hlow, hhigh, ← two_mul]
    exact Int.mul_tdiv_cancel_left v (by decide)

theorem getD_nonneg (h : ∀ x ∈ xs, 0 ≤ x) (i : ℕ) : 0 ≤ xs.getD i 0 := by
  rw [List.getD_eq_getElem?_getD]
  cases hi : xs[i]? with
  | none => exact le_rfl
  | some x => exact h x (List.mem_of_getElem? hi)

theorem median_nonneg (h : ∀ x ∈ xs, 0 ≤ x) : 0 ≤ median xs := by
  have hsorted : ∀ x ∈ xs.insertionSort (· ≤ ·), 0 ≤ x := fun x hx =>
    h x ((List.mem_insertionSort _).mp hx)
  unfold median middleOf
  split_ifs
  · exact getD_nonneg hsorted _
  · exact Int.tdiv_nonneg
      (add_nonneg (getD_nonneg hsorted _) (getD_nonneg hsorted _)) (by decide)

end Support
