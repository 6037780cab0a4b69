import Mathlib.Algebra.BigOperators.Group.List.Lemmas
import Mathlib.Algebra.Order.Group.Unbundled.Int
import Mathlib.Algebra.Order.BigOperators.Group.List
import Mathlib.Data.Finset.Max
import Mathlib.Data.List.Perm.Basic
import Mathlib.Tactic.Ring

/-!
# Weighted lists

The items of a list carry weights, and the mass of a property is the weight of
the items that have it.  A central value has at most half of the mass on either
side, so that it lies in every interval that holds more than half.  A weighted
mean, rounded toward zero, lies in every interval that holds all of the values.
-/

namespace Support

variable {ι : Type*} {β : Type*} [LinearOrder β]

/-! ## Mass -/

/-- The weight of the items of `L` with property `p`. -/
def mass (w : ι → ℕ) (p : ι → Prop) [DecidablePred p] (L : List ι) : ℕ :=
  ((L.filter fun x => decide (p x)).map w).sum

section Mass

variable {w : ι → ℕ} {p q : ι → Prop} [DecidablePred p] [DecidablePred q]
  {L M : List ι} {x : ι}

@[simp] theorem mass_nil : mass w p [] = 0 := rfl

theorem mass_cons :
    mass w p (x :: L) = (if p x then w x else 0) + mass w p L := by
  by_cases hx : p x
  · simp [mass, hx]
  · simp [mass, hx]

theorem mass_perm (h : L.Perm M) : mass w p L = mass w p M :=
  ((h.filter _).map w).sum_eq

theorem mass_mono (h : ∀ x ∈ L, p x → q x) : mass w p L ≤ mass w q L := by
  induction L with
  | nil => exact le_rfl
  | cons x xs ih =>
      have hxs := ih fun y hy => h y (List.mem_cons_of_mem x hy)
      rw [mass_cons, mass_cons]
      by_cases hp : p x
      · rw [if_pos hp, if_pos (h x List.mem_cons_self hp)]
        omega
      · rw [if_neg hp]
        omega

theorem mass_le_sum : mass w p L ≤ (L.map w).sum := by
  induction L with
  | nil => exact le_rfl
  | cons x xs ih =>
      rw [mass_cons, List.map_cons, List.sum_cons]
      split_ifs <;> omega

theorem mass_eq_zero (h : ∀ x ∈ L, ¬ p x) : mass w p L = 0 := by
  have hnil : (L.filter fun x => decide (p x)) = [] := by
    rw [List.filter_eq_nil_iff]
    intro x hx
    simpa using h x hx
  rw [mass, hnil]
  rfl

end Mass

/-! ## Central values -/

/-- At most half of the mass lies below `m`, and at most half above. -/
structure Central (v : ι → β) (w : ι → ℕ) (L : List ι) (m : β) : Prop where
  below : 2 * mass w (fun x => v x < m) L ≤ (L.map w).sum
  above : 2 * mass w (fun x => m < v x) L ≤ (L.map w).sum

section Central

variable {v : ι → β} {w : ι → ℕ} {L M : List ι} {m a b : β}

theorem Central.perm (h : Central v w L m) (hperm : L.Perm M) :
    Central v w M m := by
  obtain ⟨hbelow, habove⟩ := h
  rw [mass_perm hperm, (hperm.map w).sum_eq] at hbelow habove
  exact ⟨hbelow, habove⟩

/-- More than half of the mass pins a central value, whatever the rest. -/
theorem Central.between (h : Central v w L m)
    (hmajority : (L.map w).sum < 2 * mass w (fun x => a ≤ v x ∧ v x ≤ b) L) :
    a ≤ m ∧ m ≤ b := by
  constructor
  · by_contra hlow
    have hsub := mass_mono (w := w) (L := L)
      (p := fun x => a ≤ v x ∧ v x ≤ b) (q := fun x => m < v x)
      fun x _ hx => (not_le.mp hlow).trans_le hx.1
    have habove := h.above
    omega
  · by_contra hhigh
    have hsub := mass_mono (w := w) (L := L)
      (p := fun x => a ≤ v x ∧ v x ≤ b) (q := fun x => v x < m)
      fun x _ hx => hx.2.trans_lt (not_le.mp hhigh)
    have hbelow := h.below
    omega

end Central

/-! ## Means -/

section WeightedSum

variable {R : Type*} [Semiring R] [PartialOrder R] [IsOrderedRing R]
  {L : List ι} {v d : ι → R} {low high : R}

/-- Values within bounds have a weighted sum within the bounds of the total
weight. -/
theorem weightedSum_between (hd : ∀ x ∈ L, 0 ≤ d x)
    (hv : ∀ x ∈ L, low ≤ v x ∧ v x ≤ high) :
    low * (L.map d).sum ≤ (L.map fun x => v x * d x).sum ∧
      (L.map fun x => v x * d x).sum ≤ high * (L.map d).sum := by
  induction L with
  | nil => simp
  | cons x xs ih =>
      obtain ⟨hlow, hhigh⟩ := hv x List.mem_cons_self
      have hx := hd x List.mem_cons_self
      obtain ⟨ihlow, ihhigh⟩ := ih
        (fun y hy => hd y (List.mem_cons_of_mem x hy))
        fun y hy => hv y (List.mem_cons_of_mem x hy)
      simp only [List.map_cons, List.sum_cons, mul_add]
      exact ⟨add_le_add (mul_le_mul_of_nonneg_right hlow hx) ihlow,
        add_le_add (mul_le_mul_of_nonneg_right hhigh hx) ihhigh⟩

end WeightedSum

/-- A weighted mean of naturals, rounded down, lies between bounds of the
values. -/
theorem weightedMean_between {L : List ι} {v d : ι → ℕ} {low high : ℕ}
    (hpos : 0 < (L.map d).sum) (hv : ∀ x ∈ L, low ≤ v x ∧ v x ≤ high) :
    low ≤ (L.map fun x => v x * d x).sum / (L.map d).sum ∧
      (L.map fun x => v x * d x).sum / (L.map d).sum ≤ high := by
  obtain ⟨hlow, hhigh⟩ := weightedSum_between
    (fun x _ => Nat.zero_le (d x)) hv
  refine ⟨(Nat.le_div_iff_mul_le hpos).mpr hlow, Nat.div_le_of_le_mul ?_⟩
  rwa [Nat.mul_comm]

section Mean

variable {low high : ℤ}

/-- A quotient between two integers stays between them when it is rounded
toward zero. -/
theorem tdiv_between {s t : ℤ} (ht : 0 < t) (hlow : low * t ≤ s)
    (hhigh : s ≤ high * t) : low ≤ s.tdiv t ∧ s.tdiv t ≤ high := by
  have hne : t ≠ 0 := ht.ne'
  constructor
  · calc
      low = (low * t).tdiv t := (Int.mul_tdiv_cancel low hne).symm
      _ ≤ s.tdiv t := Int.tdiv_le_tdiv ht hlow
  · calc
      s.tdiv t ≤ (high * t).tdiv t := Int.tdiv_le_tdiv ht hhigh
      _ = high := Int.mul_tdiv_cancel high hne

theorem mul_le_of_le_tdiv {c s t : ℤ} (ht : 0 < t) (h : c ≤ s.tdiv t) :
    c * t ≤ max s 0 := by
  rcases le_total 0 s with hs | hs
  · rw [Int.tdiv_eq_ediv_of_nonneg hs, Int.le_ediv_iff_mul_le ht] at h
    exact h.trans (le_max_left _ _)
  · have hneg : s.tdiv t ≤ 0 := by
      have hquot := Int.tdiv_le_tdiv ht hs
      rwa [Int.zero_tdiv] at hquot
    exact (Int.mul_nonpos_of_nonpos_of_nonneg (h.trans hneg) ht.le).trans
      (le_max_right _ _)

theorem le_mul_of_tdiv_le {c s t : ℤ} (ht : 0 < t) (h : s.tdiv t ≤ c) :
    min s 0 ≤ c * t := by
  have hneg : -c ≤ (-s).tdiv t := by
    rw [Int.neg_tdiv]
    exact neg_le_neg h
  have hmul := mul_le_of_le_tdiv ht hneg
  rw [neg_mul] at hmul
  omega

end Mean

/-! ## Extremes -/

theorem exists_least {values : List ℤ} (h : values ≠ []) :
    ∃ x ∈ values, ∀ y ∈ values, x ≤ y := by
  obtain ⟨v, hv⟩ := List.exists_mem_of_ne_nil values h
  obtain ⟨x, hx, hleast⟩ := Finset.exists_min_image values.toFinset id
    ⟨v, List.mem_toFinset.mpr hv⟩
  exact ⟨x, List.mem_toFinset.mp hx, fun y hy =>
    hleast y (List.mem_toFinset.mpr hy)⟩

theorem exists_greatest {values : List ℤ} (h : values ≠ []) :
    ∃ x ∈ values, ∀ y ∈ values, y ≤ x := by
  obtain ⟨v, hv⟩ := List.exists_mem_of_ne_nil values h
  obtain ⟨x, hx, hgreatest⟩ := Finset.exists_max_image values.toFinset id
    ⟨v, List.mem_toFinset.mpr hv⟩
  exact ⟨x, List.mem_toFinset.mp hx, fun y hy =>
    hgreatest y (List.mem_toFinset.mpr hy)⟩

/-- The running minimum is the least of the start and the values. -/
theorem foldl_min_isLeast {β : Type*} [LinearOrder β] (f : ι → β) (a : β)
    (L : List ι) :
    IsLeast {b | b = a ∨ ∃ x ∈ L, f x = b}
      (L.foldl (fun b x => min b (f x)) a) := by
  induction L generalizing a with
  | nil =>
      refine ⟨.inl rfl, ?_⟩
      rintro b (rfl | ⟨x, hx, -⟩)
      · exact le_rfl
      · cases hx
  | cons x xs ih =>
      obtain ⟨hmem, hlow⟩ := ih (min a (f x))
      have hstart := hlow (.inl rfl)
      refine ⟨?_, ?_⟩
      · rcases hmem with heq | ⟨y, hy, hvalue⟩
        · rcases min_choice a (f x) with hleft | hright
          · exact .inl (heq.trans hleft)
          · exact .inr ⟨x, List.mem_cons_self, (heq.trans hright).symm⟩
        · exact .inr ⟨y, List.mem_cons_of_mem x hy, hvalue⟩
      · rintro b (rfl | ⟨y, hy, rfl⟩)
        · exact hstart.trans (min_le_left _ _)
        · rcases List.mem_cons.mp hy with rfl | hmem
          · exact hstart.trans (min_le_right _ _)
          · exact hlow (.inr ⟨y, hmem, rfl⟩)

/-- A start that exceeds no value does not count. -/
theorem foldl_min_isLeast_of_le {β : Type*} [LinearOrder β] {f : ι → β} {a : β}
    {L : List ι} (hne : L ≠ []) (ha : ∀ x ∈ L, f x ≤ a) :
    IsLeast {b | ∃ x ∈ L, f x = b}
      (L.foldl (fun b x => min b (f x)) a) := by
  obtain ⟨hmem, hlow⟩ := foldl_min_isLeast f a L
  refine ⟨?_, fun b hb => hlow (.inr hb)⟩
  rcases hmem with heq | hmem
  · obtain ⟨x, hx⟩ := List.exists_mem_of_ne_nil L hne
    refine ⟨x, hx, le_antisymm ?_ (hlow (.inr ⟨x, hx, rfl⟩))⟩
    exact (ha x hx).trans heq.ge
  · exact hmem

theorem foldl_max_isGreatest_of_le {β : Type*} [LinearOrder β] {f : ι → β}
    {a : β} {L : List ι} (hne : L ≠ []) (ha : ∀ x ∈ L, a ≤ f x) :
    IsGreatest {b | ∃ x ∈ L, f x = b}
      (L.foldl (fun b x => max b (f x)) a) :=
  foldl_min_isLeast_of_le (β := βᵒᵈ) hne ha

end Support
