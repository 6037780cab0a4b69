import Mathlib.Algebra.BigOperators.Group.List.Lemmas
import Mathlib.Algebra.Order.Group.Unbundled.Int
import Mathlib.Algebra.Order.BigOperators.Group.List
import Mathlib.Data.List.Perm.Basic
import Mathlib.Tactic.Ring

/-!
# Weights up to a common factor

Two weightings of the same items are proportional if one factor turns each
weight of the first into the corresponding weight of the second.  Proportional
weightings order the items alike, split a list at the same half of the total
weight, and give the same weighted mean.
-/

namespace Support

variable {ι : Type*}

/-- `a · w = b · w'` on all items of `L`, for fixed positive `a` and `b`. -/
structure Scaled (a b : ℕ) (L : List ι) (w w' : ι → ℕ) : Prop where
  left_pos : 0 < a
  right_pos : 0 < b
  scale : ∀ x ∈ L, a * w x = b * w' x

/-- The weightings differ by one factor. -/
def Proportional (L : List ι) (w w' : ι → ℕ) : Prop :=
  ∃ a b, Scaled a b L w w'

namespace Scaled

variable {a b : ℕ} {L M : List ι} {w w' : ι → ℕ}

theorem mono (h : Scaled a b L w w') (hsub : ∀ x ∈ M, x ∈ L) :
    Scaled a b M w w' where
  left_pos := h.left_pos
  right_pos := h.right_pos
  scale x hx := h.scale x (hsub x hx)

theorem le_iff (h : Scaled a b L w w') {x y : ι} (hx : x ∈ L) (hy : y ∈ L) :
    w x ≤ w y ↔ w' x ≤ w' y := by
  have hscaled : a * w x ≤ a * w y ↔ b * w' x ≤ b * w' y := by
    rw [h.scale x hx, h.scale y hy]
  rwa [Nat.mul_le_mul_left_iff h.left_pos,
    Nat.mul_le_mul_left_iff h.right_pos] at hscaled

theorem sum (h : Scaled a b L w w') :
    a * (L.map w).sum = b * (L.map w').sum := by
  induction L with
  | nil => simp
  | cons x xs ih =>
      have hx := h.scale x List.mem_cons_self
      have hxs := ih (h.mono fun y hy => List.mem_cons_of_mem x hy)
      simp only [List.map_cons, List.sum_cons, Nat.mul_add, hx, hxs]

theorem weightedSum (h : Scaled a b L w w') (v : ι → ℤ) :
    (a : ℤ) * (L.map fun x => v x * w x).sum =
      b * (L.map fun x => v x * w' x).sum := by
  induction L with
  | nil => simp
  | cons x xs ih =>
      have hx : (a : ℤ) * w x = b * w' x := by
        exact_mod_cast h.scale x List.mem_cons_self
      have hxs := ih (h.mono fun y hy => List.mem_cons_of_mem x hy)
      simp only [List.map_cons, List.sum_cons, mul_add, hxs]
      congr 1
      calc
        (a : ℤ) * (v x * w x) = v x * (a * w x) := by ring
        _ = v x * (b * w' x) := by rw [hx]
        _ = b * (v x * w' x) := by ring

/-- The weighted mean, rounded towards zero, does not see the factor. -/
theorem weightedMean (h : Scaled a b L w w') (v : ι → ℤ) :
    (L.map fun x => v x * w x).sum.tdiv (L.map w).sum =
      (L.map fun x => v x * w' x).sum.tdiv (L.map w').sum := by
  have ha : (0 : ℤ) < a := by exact_mod_cast h.left_pos
  have hb : (0 : ℤ) < b := by exact_mod_cast h.right_pos
  have htotal : (a : ℤ) * (L.map w).sum = b * (L.map w').sum := by
    exact_mod_cast h.sum
  calc
    (L.map fun x => v x * w x).sum.tdiv (L.map w).sum =
        ((a : ℤ) * (L.map fun x => v x * w x).sum).tdiv
          ((a : ℤ) * (L.map w).sum) :=
      (Int.mul_tdiv_mul_of_pos _ _ ha).symm
    _ = ((b : ℤ) * (L.map fun x => v x * w' x).sum).tdiv
          ((b : ℤ) * (L.map w').sum) := by
      rw [h.weightedSum v, htotal]
    _ = (L.map fun x => v x * w' x).sum.tdiv (L.map w').sum :=
      Int.mul_tdiv_mul_of_pos _ _ hb

end Scaled

/-! ## Halves of a total -/

section Halves

variable {a b t t' r r' : ℕ}

/-- Passing the half of the total does not depend on the scale. -/
theorem half_lt_iff (ha : 0 < a) (hb : 0 < b) (ht : a * t = b * t')
    (hr : a * r = b * r') : t / 2 < r ↔ t' / 2 < r' := by
  have hleft : t / 2 < r ↔ t < 2 * r := by omega
  have hright : t' / 2 < r' ↔ t' < 2 * r' := by omega
  have hscaled : a * t < a * (2 * r) ↔ b * t' < b * (2 * r') := by
    have h₁ : a * (2 * r) = 2 * (a * r) := by ring
    have h₂ : b * (2 * r') = 2 * (b * r') := by ring
    rw [h₁, h₂, ht, hr]
  rw [Nat.mul_lt_mul_left ha, Nat.mul_lt_mul_left hb] at hscaled
  rw [hleft, hright, hscaled]

/-- Hitting the half of an even total exactly does not depend on the
scale. -/
theorem exact_half_iff (ha : 0 < a) (hb : 0 < b) (ht : a * t = b * t')
    (hr : a * r = b * r') :
    (r = t / 2 ∧ t % 2 = 0) ↔ (r' = t' / 2 ∧ t' % 2 = 0) := by
  have hleft : (r = t / 2 ∧ t % 2 = 0) ↔ 2 * r = t := by omega
  have hright : (r' = t' / 2 ∧ t' % 2 = 0) ↔ 2 * r' = t' := by omega
  have hscaled : a * (2 * r) = a * t ↔ b * (2 * r') = b * t' := by
    have h₁ : a * (2 * r) = 2 * (a * r) := by ring
    have h₂ : b * (2 * r') = 2 * (b * r') := by ring
    rw [h₁, h₂, ht, hr]
  rw [Nat.mul_right_inj ha.ne', Nat.mul_right_inj hb.ne'] at hscaled
  rw [hleft, hright, hscaled]

end Halves

end Support
