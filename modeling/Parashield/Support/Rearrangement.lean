import Mathlib.Algebra.BigOperators.Group.List.Basic
import Mathlib.Algebra.Order.BigOperators.Group.List
import Mathlib.Algebra.Ring.Int.Defs
import Mathlib.Data.List.Perm.Subperm

/-!
# Results that do not depend on the order of a list

Sorting forgets the order of a list up to ties, so what is cut off a sorted list
depends on the order only if the cut goes through ties.  A sum that is clamped
to a range does not depend on the order of its terms if they have one sign, or
if no order of them leaves the range.
-/

namespace Support

/-! ## Cutting a sorted list -/

section Cuts

variable {α : Type} {r : α → α → Prop} {L L' : List α} {n : ℕ}

/-- What comes before a cut is related to what comes after it. -/
theorem related_across_cut (h : L.Pairwise r) {x y : α} (hx : x ∈ L.take n)
    (hy : y ∈ L.drop n) : r x y := by
  rw [← List.take_append_drop n L] at h
  exact (List.pairwise_append.mp h).2.2 x hx y hy

/-- Sorted arrangements of the same elements are cut alike, if elements that tie
across the cut are the same. -/
theorem drop_perm (hsorted : L'.Pairwise r) (hperm : L.Perm L')
    (hties : ∀ x ∈ L.take n, ∀ y ∈ L.drop n, r y x → x = y) :
    (L.drop n).Perm (L'.drop n) := by
  classical
  have hsplit (a : α) : (L.take n).count a + (L.drop n).count a =
      (L'.take n).count a + (L'.drop n).count a := by
    rw [← List.count_append, ← List.count_append, List.take_append_drop,
      List.take_append_drop, hperm.count_eq]
  have hlength : (L.take n).length = (L'.take n).length := by
    rw [List.length_take, List.length_take, hperm.length_eq]
  have htake : (L.take n).Perm (L'.take n) := by
    by_contra hdiffer
    -- some `x` comes before the first cut more often, and some `y` before the
    -- second one, so both occur on both sides
    obtain ⟨x, hx⟩ : ∃ x, (L'.take n).count x < (L.take n).count x := by
      by_contra hle
      push Not at hle
      exact hdiffer ((List.subperm_ext_iff.mpr fun a _ => hle a).perm_of_length_le
        hlength.ge)
    obtain ⟨y, hy⟩ : ∃ y, (L.take n).count y < (L'.take n).count y := by
      by_contra hle
      push Not at hle
      exact hdiffer ((List.subperm_ext_iff.mpr fun a _ => hle a).perm_of_length_le
        hlength.le).symm
    have hx' := hsplit x
    have hy' := hsplit y
    have hxtake : x ∈ L.take n := List.count_pos_iff.mp (by omega)
    have hxdrop : x ∈ L'.drop n := List.count_pos_iff.mp (by omega)
    have hytake : y ∈ L'.take n := List.count_pos_iff.mp (by omega)
    have hydrop : y ∈ L.drop n := List.count_pos_iff.mp (by omega)
    obtain rfl := hties x hxtake y hydrop
      (related_across_cut hsorted hytake hxdrop)
    omega
  rw [← List.take_append_drop n L, ← List.take_append_drop n L'] at hperm
  exact (List.perm_append_left_iff _).mp
    (hperm.trans (htake.symm.append_right _))

/-- If nothing that is left out meets a condition, all that meets it is
there. -/
theorem filter_of_sublist [DecidableEq α] {p : α → Bool} (hsub : L'.Sublist L)
    (h : ∀ x ∈ L.diff L', p x = false) : L'.filter p = L.filter p := by
  refine (hsub.filter p).eq_of_length ?_
  have hperm : (L' ++ L.diff L').Perm L :=
    List.subperm_append_diff_self_of_count_le fun x _ => hsub.count_le x
  have hnone : (L.diff L').filter p = [] := by
    rw [List.filter_eq_nil_iff]
    intro x hx
    rw [h x hx]
    exact Bool.false_ne_true
  rw [← (hperm.filter p).length_eq, List.filter_append, hnone, List.append_nil]

end Cuts

/-! ## Clamped sums -/

section Clamped

variable {low high acc : ℤ} {xs ys : List ℤ}

theorem sum_nonpos (h : ∀ x ∈ xs, x ≤ 0) : xs.sum ≤ 0 := by
  simpa using List.sum_le_card_nsmul xs 0 h

/-- The sum from `acc` on, kept between `low` and `high` at every step. -/
def clampedSum (low high acc : ℤ) (xs : List ℤ) : ℤ :=
  xs.foldl (fun sum x => max low (min (sum + x) high)) acc

/-- Terms that are not negative. -/
theorem clampedSum_nonneg (hlow : low ≤ acc) (hhigh : acc ≤ high)
    (hxs : ∀ x ∈ xs, 0 ≤ x) :
    clampedSum low high acc xs = min (acc + xs.sum) high := by
  induction xs generalizing acc with
  | nil =>
      rw [List.sum_nil, add_zero, min_eq_left hhigh]
      rfl
  | cons x xs ih =>
      have hx := hxs x List.mem_cons_self
      have hrest : ∀ y ∈ xs, 0 ≤ y := fun y hy =>
        hxs y (List.mem_cons_of_mem x hy)
      have hsum := List.sum_nonneg hrest
      show clampedSum low high (max low (min (acc + x) high)) xs = _
      rw [ih (by omega) (by omega) hrest, List.sum_cons]
      omega

/-- Terms that are not positive. -/
theorem clampedSum_nonpos (hlow : low ≤ acc) (hhigh : acc ≤ high)
    (hxs : ∀ x ∈ xs, x ≤ 0) :
    clampedSum low high acc xs = max low (acc + xs.sum) := by
  induction xs generalizing acc with
  | nil =>
      rw [List.sum_nil, add_zero, max_eq_right hlow]
      rfl
  | cons x xs ih =>
      have hx := hxs x List.mem_cons_self
      have hrest : ∀ y ∈ xs, y ≤ 0 := fun y hy =>
        hxs y (List.mem_cons_of_mem x hy)
      have hsum := sum_nonpos hrest
      show clampedSum low high (max low (min (acc + x) high)) xs = _
      rw [ih (by omega) (by omega) hrest, List.sum_cons]
      omega

/-- The terms that are not negative, in their order. -/
def gains (xs : List ℤ) : List ℤ := xs.filter fun x => 0 ≤ x

/-- The negative terms, in their order. -/
def losses (xs : List ℤ) : List ℤ := xs.filter fun x => ¬ 0 ≤ x

theorem gains_nonneg (xs : List ℤ) : ∀ x ∈ gains xs, 0 ≤ x := by
  intro x hx
  exact of_decide_eq_true (List.mem_filter.mp hx).2

theorem losses_neg (xs : List ℤ) : ∀ x ∈ losses xs, x < 0 := by
  intro x hx
  exact not_le.mp (of_decide_eq_true (List.mem_filter.mp hx).2)

theorem gains_cons {x : ℤ} :
    (gains (x :: xs)).sum = max x 0 + (gains xs).sum := by
  unfold gains
  by_cases hx : 0 ≤ x
  · rw [List.filter_cons_of_pos (by simpa using hx), List.sum_cons]
    omega
  · rw [List.filter_cons_of_neg (by simpa using hx)]
    omega

theorem losses_cons {x : ℤ} :
    (losses (x :: xs)).sum = min x 0 + (losses xs).sum := by
  unfold losses
  by_cases hx : 0 ≤ x
  · rw [List.filter_cons_of_neg (by simpa using hx)]
    omega
  · rw [List.filter_cons_of_pos (by simpa using hx), List.sum_cons]
    omega

/-- No order of the terms leaves the range. -/
theorem clampedSum_eq (hlow : low ≤ acc + (losses xs).sum)
    (hhigh : acc + (gains xs).sum ≤ high) :
    clampedSum low high acc xs = acc + xs.sum := by
  induction xs generalizing acc with
  | nil => exact (add_zero acc).symm
  | cons x xs ih =>
      have hgain := List.sum_nonneg (gains_nonneg xs)
      have hloss := sum_nonpos fun y hy => (losses_neg xs y hy).le
      rw [gains_cons] at hhigh
      rw [losses_cons] at hlow
      have hstep : max low (min (acc + x) high) = acc + x := by omega
      show clampedSum low high (max low (min (acc + x) high)) xs = _
      rw [hstep, ih (by omega) (by omega), List.sum_cons]
      omega

/-- The terms have one sign, or no order of them leaves the range. -/
def Steady (low high : ℤ) (xs : List ℤ) : Prop :=
  (∀ x ∈ xs, 0 ≤ x) ∨ (∀ x ∈ xs, x ≤ 0) ∨
    low ≤ (losses xs).sum ∧ (gains xs).sum ≤ high

instance : Decidable (Steady low high xs) :=
  inferInstanceAs (Decidable (_ ∨ _))

variable (hlow : low ≤ 0) (hhigh : 0 ≤ high)
include hlow hhigh

theorem Steady.clampedSum_perm (h : Steady low high xs) (hperm : xs.Perm ys) :
    clampedSum low high 0 xs = clampedSum low high 0 ys := by
  rcases h with hpos | hneg | ⟨hloss, hgain⟩
  · rw [clampedSum_nonneg hlow hhigh hpos, clampedSum_nonneg hlow hhigh
      fun y hy => hpos y (hperm.mem_iff.mpr hy), hperm.sum_eq]
  · rw [clampedSum_nonpos hlow hhigh hneg, clampedSum_nonpos hlow hhigh
      fun y hy => hneg y (hperm.mem_iff.mpr hy), hperm.sum_eq]
  · have hloss' : (losses ys).sum = (losses xs).sum :=
      (hperm.symm.filter _).sum_eq
    have hgain' : (gains ys).sum = (gains xs).sum :=
      (hperm.symm.filter _).sum_eq
    rw [clampedSum_eq (by omega) (by omega), clampedSum_eq (by omega) (by omega),
      hperm.sum_eq]

end Clamped

end Support
