import Mathlib.Algebra.Order.Ring.Nat
import Mathlib.Data.Nat.Notation

/-!
# Ramps and best offers

A ramp stays at its base up to a threshold and rises from there in equal steps,
one for each whole unit, up to a cap.  The best of several offers is found by a
loop that keeps the best one so far.
-/

namespace Support

/-! ## Ramps -/

section Ramp

variable {base cap threshold unit slope u v : ℕ}

def ramp (base cap threshold unit slope u : ℕ) : ℕ :=
  if u ≤ threshold then
    base
  else
    min (base + (u - threshold) / unit * slope) cap

/-- Below the threshold there is no step to add. -/
theorem ramp_eq (h : base ≤ cap) :
    ramp base cap threshold unit slope u =
      min (base + (u - threshold) / unit * slope) cap := by
  unfold ramp
  split
  · next hu =>
      rw [Nat.sub_eq_zero_of_le hu, Nat.zero_div, Nat.zero_mul, Nat.add_zero,
        min_eq_left h]
  · rfl

theorem le_ramp (h : base ≤ cap) :
    base ≤ ramp base cap threshold unit slope u := by
  rw [ramp_eq h]
  exact le_min (Nat.le_add_right _ _) h

theorem ramp_le (h : base ≤ cap) :
    ramp base cap threshold unit slope u ≤ cap := by
  rw [ramp_eq h]
  exact min_le_right _ _

theorem ramp_mono (h : base ≤ cap) (huv : u ≤ v) :
    ramp base cap threshold unit slope u ≤
      ramp base cap threshold unit slope v := by
  rw [ramp_eq h, ramp_eq h]
  have hsteps : (u - threshold) / unit ≤ (v - threshold) / unit :=
    Nat.div_le_div_right (Nat.sub_le_sub_right huv _)
  exact min_le_min_right _
    (Nat.add_le_add_left (Nat.mul_le_mul_right _ hsteps) _)

theorem div_le_div_add {a b : ℕ} (hunit : 0 < unit) (hab : a ≤ b) :
    b / unit ≤ a / unit + ((b - a) / unit + 1) := by
  obtain ⟨d, rfl⟩ := Nat.exists_eq_add_of_le hab
  rw [Nat.add_div hunit, Nat.add_sub_cancel_left]
  split <;> omega

/-- Each unit begun takes the ramp one step up at most. -/
theorem ramp_le_add (h : base ≤ cap) (hunit : 0 < unit) (huv : u ≤ v) :
    ramp base cap threshold unit slope v ≤
      ramp base cap threshold unit slope u +
        ((v - u) / unit + 1) * slope := by
  rw [ramp_eq h, ramp_eq h]
  have hsub : u - threshold ≤ v - threshold := Nat.sub_le_sub_right huv _
  have hrise : v - threshold - (u - threshold) ≤ v - u := by omega
  have hsteps : (v - threshold) / unit ≤
      (u - threshold) / unit + ((v - u) / unit + 1) := by
    refine (div_le_div_add hunit hsub).trans ?_
    have hdiv := Nat.div_le_div_right (c := unit) hrise
    omega
  have hscaled := Nat.mul_le_mul_right slope hsteps
  rw [Nat.add_mul] at hscaled
  omega

end Ramp

/-! ## Best offers -/

section Best

variable {α : Type*} {f : ℕ → α → ℕ} {value : α → ℕ}

/-- What a loop keeps that takes an offer where it is better. -/
theorem foldl_best (hf : ∀ b x, f b x = max b (value x)) (xs : List α)
    (b : ℕ) :
    b ≤ xs.foldl f b ∧ (∀ x ∈ xs, value x ≤ xs.foldl f b) ∧
      (xs.foldl f b = b ∨ ∃ x ∈ xs, xs.foldl f b = value x) := by
  induction xs generalizing b with
  | nil => exact ⟨le_rfl, fun x hx => absurd hx List.not_mem_nil, .inl rfl⟩
  | cons x xs ih =>
      obtain ⟨hstart, hall, hfound⟩ := ih (f b x)
      rw [List.foldl_cons]
      have hb : b ≤ f b x := hf b x ▸ le_max_left _ _
      have hx : value x ≤ f b x := hf b x ▸ le_max_right _ _
      refine ⟨hb.trans hstart, ?_, ?_⟩
      · rw [List.forall_mem_cons]
        exact ⟨hx.trans hstart, hall⟩
      · rcases hfound with hkept | ⟨y, hy, hvalue⟩
        · rcases max_choice b (value x) with hmax | hmax
          · exact .inl (hkept.trans ((hf b x).trans hmax))
          · exact .inr ⟨x, List.mem_cons_self,
              hkept.trans ((hf b x).trans hmax)⟩
        · exact .inr ⟨y, List.mem_cons_of_mem x hy, hvalue⟩

end Best

end Support
