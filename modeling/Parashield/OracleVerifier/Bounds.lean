import Parashield.OracleVerifier.Agreement

/-!
# Aggregates stay within the range of their readings

The aggregation uses checked, saturating and wrapping steps side by side.  As
long as every value is within the accepted magnitude and the weights add up to
a 32-bit number, no checked step fails, and every aggregate is within that
magnitude again.
-/

namespace Parashield.OracleVerifier

open Support Check

/-! ## Saturating sums -/

theorem abs_satI128_le (x : ℤ) : |satI128 x| ≤ |x| := by
  rw [abs_le]
  have hneg := neg_abs_le x
  have hle := le_abs_self x
  have hpos := abs_nonneg x
  unfold satI128
  simp only [maxI128, minI128]
  omega

theorem abs_satI128_le_two_pow (x : ℤ) : |satI128 x| ≤ 2 ^ 127 := by
  rw [abs_le]
  unfold satI128
  simp only [maxI128, minI128]
  omega

theorem satI128_nonneg {x : ℤ} (h : 0 ≤ x) : 0 ≤ satI128 x := by
  unfold satI128
  simp only [maxI128, minI128]
  omega

theorem abs_foldl_sat_le (xs : List ℤ) (acc : ℤ) :
    |xs.foldl (fun sum x => satI128 (sum + x)) acc| ≤
      |acc| + (xs.map fun x => |x|).sum := by
  induction xs generalizing acc with
  | nil => simp
  | cons x xs ih =>
      have hrest := ih (satI128 (acc + x))
      have hsat := abs_satI128_le (acc + x)
      have htriangle := abs_add_le acc x
      simp only [List.foldl_cons, List.map_cons, List.sum_cons]
      omega

theorem abs_satSum_le (xs : List ℤ) :
    |satSum xs| ≤ (xs.map fun x => |x|).sum := by
  have hfold := abs_foldl_sat_le xs 0
  rw [abs_zero, zero_add] at hfold
  exact hfold

theorem abs_foldl_sat_le_two_pow (xs : List ℤ) {acc : ℤ}
    (hacc : |acc| ≤ 2 ^ 127) :
    |xs.foldl (fun sum x => satI128 (sum + x)) acc| ≤ 2 ^ 127 := by
  induction xs generalizing acc with
  | nil => exact hacc
  | cons x xs ih => exact ih (abs_satI128_le_two_pow _)

/-- A saturating sum of terms that are not negative is the sum, or the largest
number. -/
theorem foldl_sat_nonneg {xs : List ℤ} {acc : ℤ} (hacc : 0 ≤ acc)
    (hxs : ∀ x ∈ xs, 0 ≤ x) (hfits : acc ≤ maxI128) :
    xs.foldl (fun sum x => satI128 (sum + x)) acc =
      min (acc + xs.sum) maxI128 := by
  induction xs generalizing acc with
  | nil =>
      simp only [List.foldl_nil, List.sum_nil]
      omega
  | cons x xs ih =>
      have hx := hxs x List.mem_cons_self
      have hrest : 0 ≤ xs.sum := List.sum_nonneg fun y hy =>
        hxs y (List.mem_cons_of_mem x hy)
      have hsat : satI128 (acc + x) = min (acc + x) maxI128 := by
        unfold satI128
        simp only [maxI128, minI128]
        omega
      have hnext : 0 ≤ min (acc + x) maxI128 := by
        simp only [maxI128]
        omega
      rw [List.foldl_cons, hsat, List.sum_cons,
        ih hnext (fun y hy => hxs y (List.mem_cons_of_mem x hy))
          (min_le_right _ _)]
      simp only [maxI128]
      omega

theorem satSum_nonneg_eq {xs : List ℤ} (hxs : ∀ x ∈ xs, 0 ≤ x) :
    satSum xs = min xs.sum maxI128 := by
  have hfold := foldl_sat_nonneg le_rfl hxs (by simp [maxI128])
  rw [zero_add] at hfold
  exact hfold

/-- A quotient whose numerator is within `bound` denominators is within
`bound`. -/
theorem abs_tdiv_le {a b bound : ℤ} (hb : 0 ≤ b) (hbound : 0 ≤ bound)
    (h : |a| ≤ bound * b) : |a.tdiv b| ≤ bound := by
  rcases hb.eq_or_lt with rfl | hpos
  · simpa using hbound
  · have habs : |a.tdiv b| = |a| / b := by
      rw [Int.abs_eq_natAbs, Int.natAbs_tdiv, Int.abs_eq_natAbs a]
      show ((a.natAbs / b.natAbs : ℕ) : ℤ) = _
      rw [Int.natCast_ediv, Int.natAbs_of_nonneg hb]
    rw [habs]
    exact Int.ediv_le_of_le_mul hpos h

/-! ## The methods -/

/-- Every sample is within the accepted magnitude. -/
def Capped (samples : List Sample) : Prop :=
  ∀ x ∈ samples, |x.value| ≤ maxDataValue

theorem Capped.mono {samples kept : List Sample} (h : Capped samples)
    (hsub : ∀ x ∈ kept, x ∈ samples) : Capped kept :=
  fun x hx => h x (hsub x hx)

/-- The middle of two values within a bound. -/
theorem midpoint_le {x y bound : ℤ} (hx : |x| ≤ bound) (hy : |y| ≤ bound) :
    |(x + y).tdiv 2| ≤ bound := by
  have hbound : 0 ≤ bound := (abs_nonneg x).trans hx
  have htriangle := abs_add_le x y
  exact abs_tdiv_le (by decide) hbound (by omega)

theorem medianScan_le {total cumulative : ℕ} {samples : List Sample} {v : ℤ}
    (hcap : Capped samples)
    (h : medianScan total cumulative samples = .ok v) :
    |v| ≤ maxDataValue := by
  induction samples generalizing cumulative with
  | nil => cases h
  | cons x rest ih =>
      have hx := hcap x List.mem_cons_self
      simp only [medianScan, bind_ok, unsigned_ok] at h
      obtain ⟨_, ⟨-, rfl⟩, h⟩ := h
      split_ifs at h with hpast hexact
      · rw [pure_ok.mp h]
        exact hx
      · cases rest with
        | nil =>
            rw [pure_ok.mp h]
            exact hx
        | cons y ys =>
            simp only [bind_ok, i128_ok, pure_ok] at h
            obtain ⟨_, ⟨-, rfl⟩, rfl⟩ := h
            exact midpoint_le hx (hcap y (by simp))
      · cases rest with
        | nil =>
            rw [pure_ok.mp h]
            exact hx
        | cons y ys =>
            exact ih (fun z hz => hcap z (List.mem_cons_of_mem x hz)) h

theorem capped_weighted_le {samples : List Sample} (hcap : Capped samples) :
    ((samples.map fun x => satI128 (x.value * x.weight)).map
        fun x => |x|).sum ≤
      maxDataValue * (samples.map Sample.weight).sum := by
  induction samples with
  | nil => simp
  | cons x xs ih =>
      have hx := hcap x List.mem_cons_self
      have hxs := ih fun y hy => hcap y (List.mem_cons_of_mem x hy)
      have hterm : |satI128 (x.value * x.weight)| ≤
          maxDataValue * x.weight := by
        refine (abs_satI128_le _).trans ?_
        rw [abs_mul, Nat.abs_cast]
        exact Int.mul_le_mul_of_nonneg_right hx (Int.natCast_nonneg _)
      simp only [List.map_cons, List.sum_cons, Nat.cast_add, mul_add]
      exact Int.add_le_add hterm hxs

theorem weightedAverage_le {samples : List Sample} (hcap : Capped samples) :
    |weightedAverage samples (samples.map Sample.weight).sum| ≤
      maxDataValue := by
  refine abs_tdiv_le (Int.natCast_nonneg _) (by decide) ?_
  exact (abs_satSum_le _).trans (capped_weighted_le hcap)

theorem mean_le {samples : List Sample} (hcap : Capped samples) :
    |mean samples| ≤ maxDataValue := by
  refine abs_tdiv_le (Int.natCast_nonneg _) (by decide) ?_
  refine (abs_satSum_le _).trans ?_
  have hbound : ∀ v ∈ samples.map Sample.value, |v| ≤ maxDataValue := by
    intro v hv
    obtain ⟨x, hx, rfl⟩ := List.mem_map.mp hv
    exact hcap x hx
  have hsum := sum_abs_le hbound
  rw [List.length_map, mul_comm] at hsum
  exact hsum

/-! ## Time weighting -/

theorem weightedDurations_mem {now : ℕ} {samples : List Sample} {r : ℤ × ℤ}
    (hr : r ∈ weightedDurations now samples) :
    0 ≤ r.2 ∧ ∃ x ∈ samples, r.1 = x.value := by
  induction samples with
  | nil => cases hr
  | cons x rest ih =>
      simp only [weightedDurations, List.mem_cons] at hr
      rcases hr with rfl | hr
      · refine ⟨satI128_nonneg ?_, x, List.mem_cons_self, rfl⟩
        exact Int.mul_nonneg (Int.natCast_nonneg _) (Int.natCast_nonneg _)
      · obtain ⟨hnonneg, y, hy, hvalue⟩ := ih hr
        exact ⟨hnonneg, y, List.mem_cons_of_mem x hy, hvalue⟩

theorem durations_weighted_le {rows : List (ℤ × ℤ)}
    (hrows : ∀ r ∈ rows, |r.1| ≤ maxDataValue ∧ 0 ≤ r.2) :
    ((rows.map fun r => satI128 (r.1 * r.2)).map fun x => |x|).sum ≤
      maxDataValue * (rows.map Prod.snd).sum := by
  induction rows with
  | nil => simp
  | cons r rows ih =>
      obtain ⟨hvalue, hduration⟩ := hrows r List.mem_cons_self
      have hrest := ih fun q hq => hrows q (List.mem_cons_of_mem r hq)
      have hterm : |satI128 (r.1 * r.2)| ≤ maxDataValue * r.2 := by
        refine (abs_satI128_le _).trans ?_
        rw [abs_mul, abs_of_nonneg hduration]
        exact Int.mul_le_mul_of_nonneg_right hvalue hduration
      simp only [List.map_cons, List.sum_cons, mul_add]
      exact Int.add_le_add hterm hrest

/-- The weighted sum may be cut off, and the total duration too; the quotient
stays within range either way. -/
theorem durations_quotient_le {rows : List (ℤ × ℤ)}
    (hrows : ∀ r ∈ rows, |r.1| ≤ maxDataValue ∧ 0 ≤ r.2) :
    |(satSum (rows.map fun r => satI128 (r.1 * r.2))).tdiv
        (satSum (rows.map Prod.snd))| ≤ maxDataValue := by
  have hnonneg : ∀ d ∈ rows.map Prod.snd, 0 ≤ d := by
    intro d hd
    obtain ⟨r, hr, rfl⟩ := List.mem_map.mp hd
    exact (hrows r hr).2
  have hsum : 0 ≤ (rows.map Prod.snd).sum := List.sum_nonneg hnonneg
  have hweighted := (abs_satSum_le _).trans (durations_weighted_le hrows)
  have hcut : |satSum (rows.map fun r => satI128 (r.1 * r.2))| ≤ 2 ^ 127 :=
    abs_foldl_sat_le_two_pow _ (by decide)
  rw [satSum_nonneg_eq hnonneg]
  refine abs_tdiv_le (le_min hsum (by decide)) (by decide) ?_
  rcases le_total (rows.map Prod.snd).sum maxI128 with hle | hle
  · rw [min_eq_left hle]
    exact hweighted
  · rw [min_eq_right hle]
    refine hcut.trans ?_
    decide

theorem timeWeightedAverage_le {now : ℕ} {samples : List Sample}
    (hcap : Capped samples) :
    |timeWeightedAverage now samples| ≤ maxDataValue := by
  unfold timeWeightedAverage
  split
  · next x => exact hcap x List.mem_cons_self
  · have hsorted : ∀ x ∈ samples.insertionSort
        (fun a b => a.timestamp ≤ b.timestamp), |x.value| ≤ maxDataValue :=
      fun x hx => hcap x ((List.mem_insertionSort _).mp hx)
    dsimp only
    split_ifs
    · cases hlast : (samples.insertionSort
        (fun a b => a.timestamp ≤ b.timestamp)).getLast? with
      | none => decide
      | some x => exact hsorted x (List.mem_of_getLast? hlast)
    · apply durations_quotient_le
      intro r hr
      obtain ⟨hduration, x, hx, hvalue⟩ := weightedDurations_mem hr
      rw [hvalue]
      exact ⟨hsorted x hx, hduration⟩

theorem aggregate_le {method : AggregationMethod} {now : ℕ}
    {samples : List Sample} {v : ℤ} (hcap : Capped samples)
    (h : aggregate method now samples (samples.map Sample.weight).sum =
      .ok v) : |v| ≤ maxDataValue := by
  cases method with
  | weightedMedian =>
      exact medianScan_le
        (hcap.mono fun x hx => (List.mem_insertionSort _).mp hx) h
  | weightedAverage =>
      rw [pure_ok.mp h]
      exact weightedAverage_le hcap
  | mean =>
      rw [pure_ok.mp h]
      exact mean_le hcap
  | timeWeightedAverage =>
      rw [pure_ok.mp h]
      exact timeWeightedAverage_le hcap

/-! ## No checked step fails -/

/-- A failure that no error code of the contract stands for. -/
def Undeclared (f : Fault Error) : Prop := ∀ e, f ≠ .error e

@[simp] theorem not_undeclared_error {e : Error} :
    ¬ Undeclared (.error e) :=
  fun h => h e rfl

theorem inI128_of_abs_lt {x : ℤ} (h : |x| < 2 ^ 127) : Contract.InI128 x := by
  have hbounds := abs_lt.mp h
  exact ⟨by omega, hbounds.2⟩

theorem getD_le {xs : List ℤ} {bound : ℤ} (hbound : 0 ≤ bound)
    (h : ∀ x ∈ xs, |x| ≤ bound) (i : ℕ) : |xs.getD i 0| ≤ bound := by
  rw [List.getD_eq_getElem?_getD]
  cases hi : xs[i]? with
  | none => simpa using hbound
  | some x => exact h x (List.mem_of_getElem? hi)

theorem middle_fits {xs : List ℤ} {bound : ℤ} (hbound : 0 ≤ bound)
    (hsmall : bound < 2 ^ 126) (h : ∀ x ∈ xs, |x| ≤ bound) :
    Contract.InI128
      (xs.getD (xs.length / 2 - 1) 0 + xs.getD (xs.length / 2) 0) := by
  have hlow := getD_le hbound h (xs.length / 2 - 1)
  have hhigh := getD_le hbound h (xs.length / 2)
  have htriangle := abs_add_le (xs.getD (xs.length / 2 - 1) 0)
    (xs.getD (xs.length / 2) 0)
  exact inI128_of_abs_lt (by omega)

theorem middle_avoids {xs : List ℤ} {bound : ℤ} (hbound : 0 ≤ bound)
    (hsmall : bound < 2 ^ 126) (h : ∀ x ∈ xs, |x| ≤ bound) :
    (middle xs).Avoids Undeclared := by
  unfold middle
  rw [avoids_ite]
  refine ⟨fun _ => avoids_pure _, fun _ => ?_⟩
  rw [avoids_bind, avoids_i128]
  exact ⟨fun _ => middle_fits hbound hsmall h, fun _ _ => avoids_pure _⟩

theorem middle_le {xs : List ℤ} {bound v : ℤ} (hbound : 0 ≤ bound)
    (h : ∀ x ∈ xs, |x| ≤ bound) (hv : middle xs = .ok v) : |v| ≤ bound := by
  unfold middle at hv
  split_ifs at hv
  · rw [pure_ok.mp hv]
    exact getD_le hbound h _
  · simp only [bind_ok, i128_ok, pure_ok] at hv
    obtain ⟨_, ⟨-, rfl⟩, rfl⟩ := hv
    exact midpoint_le (getD_le hbound h _) (getD_le hbound h _)

theorem deviation_avoids {median value : ℤ} (hm : |median| ≤ maxDataValue)
    (hv : |value| ≤ maxDataValue) :
    (deviation median value).Avoids Undeclared := by
  have hdiff := abs_sub value median
  simp only [maxDataValue] at hm hv
  have hsub : Contract.InI128 (value - median) := inI128_of_abs_lt (by omega)
  have habs : Contract.InI128 |value - median| :=
    inI128_of_abs_lt (by rw [abs_abs]; omega)
  simp [deviation, hsub, habs]

theorem deviation_le {median value d : ℤ} (hm : |median| ≤ maxDataValue)
    (hv : |value| ≤ maxDataValue) (h : deviation median value = .ok d) :
    |d| ≤ 2 * maxDataValue := by
  simp only [deviation, bind_ok, i128_ok] at h
  obtain ⟨_, ⟨-, rfl⟩, -, rfl⟩ := h
  have hdiff := abs_sub value median
  rw [abs_abs]
  omega

theorem mapM_avoids {f : ℤ → View ℤ} {xs : List ℤ}
    (h : ∀ x ∈ xs, (f x).Avoids Undeclared) :
    (xs.mapM f).Avoids Undeclared := by
  induction xs with
  | nil => exact avoids_pure []
  | cons x xs ih =>
      rw [List.mapM_cons, avoids_bind]
      refine ⟨h x List.mem_cons_self, fun y _ => ?_⟩
      rw [avoids_bind]
      exact ⟨ih fun z hz => h z (List.mem_cons_of_mem x hz),
        fun _ _ => avoids_pure _⟩

theorem mapM_mem {f : ℤ → View ℤ} {xs ys : List ℤ} (h : xs.mapM f = .ok ys)
    {y : ℤ} (hy : y ∈ ys) : ∃ x ∈ xs, f x = .ok y := by
  induction xs generalizing ys with
  | nil =>
      rw [List.mapM_nil, pure_ok] at h
      subst h
      cases hy
  | cons x xs ih =>
      simp only [List.mapM_cons, bind_ok, pure_ok] at h
      obtain ⟨z, hz, zs, hzs, rfl⟩ := h
      rcases List.mem_cons.mp hy with rfl | hy
      · exact ⟨x, List.mem_cons_self, hz⟩
      · obtain ⟨x', hx', hfx⟩ := ih hzs hy
        exact ⟨x', List.mem_cons_of_mem x hx', hfx⟩

theorem outlierBounds_avoids {config : OutlierConfig} {values : List ℤ}
    (h : ∀ v ∈ values, |v| ≤ maxDataValue) :
    (outlierBounds config values).Avoids Undeclared := by
  have hsorted : ∀ v ∈ values.insertionSort (· ≤ ·), |v| ≤ maxDataValue :=
    fun v hv => h v ((List.mem_insertionSort _).mp hv)
  unfold outlierBounds
  rw [avoids_bind]
  refine ⟨middle_avoids (by decide) (by decide) hsorted,
    fun median hmedian => ?_⟩
  have hm := middle_le (by decide) hsorted hmedian
  rw [avoids_bind]
  refine ⟨mapM_avoids fun v hv => deviation_avoids hm (h v hv),
    fun deviations hdeviations => ?_⟩
  rw [avoids_bind]
  have hbound : (0 : ℤ) ≤ 2 * maxDataValue := by decide
  refine ⟨middle_avoids hbound (by decide) ?_, fun mad _ => avoids_pure _⟩
  intro d hd
  obtain ⟨v, hv, hdev⟩ :=
    mapM_mem hdeviations ((List.mem_insertionSort _).mp hd)
  exact deviation_le hm (h v hv) hdev

theorem filterOutliers_avoids {config : OutlierConfig}
    {samples : List Sample} (hcap : Capped samples) :
    (filterOutliers config samples).Avoids Undeclared := by
  have hvalues : ∀ v ∈ samples.map Sample.value, |v| ≤ maxDataValue := by
    intro v hv
    obtain ⟨x, hx, rfl⟩ := List.mem_map.mp hv
    exact hcap x hx
  unfold filterOutliers
  rw [avoids_ite]
  refine ⟨fun _ => ?_, fun _ => avoids_pure _⟩
  rw [avoids_bind]
  exact ⟨outlierBounds_avoids hvalues, fun _ _ => avoids_pure _⟩

theorem dropOutliers_sublist (median : ℤ) (count : ℕ)
    (samples : List Sample) :
    (dropOutliers median count samples).Sublist samples := by
  have hzip : samples.zipIdx.map Prod.fst = samples :=
    List.zipIdx_map_fst 0 samples
  conv_rhs => rw [← hzip]
  exact List.filter_sublist.map Prod.fst

/-- What survives the filter is part of what went in. -/
theorem filterOutliers_sublist {config : OutlierConfig}
    {samples kept : List Sample}
    (h : filterOutliers config samples = .ok kept) :
    kept.Sublist samples := by
  unfold filterOutliers at h
  split_ifs at h
  · simp only [bind_ok, pure_ok] at h
    obtain ⟨⟨median, limit⟩, -, rfl⟩ := h
    exact dropOutliers_sublist median _ samples
  · rw [pure_ok.mp h]

theorem medianScan_avoids {bad : Fault Error → Prop} {total cumulative : ℕ}
    {samples : List Sample} (hcap : Capped samples) (hne : samples ≠ [])
    (hfits : cumulative + (samples.map Sample.weight).sum < 2 ^ 32) :
    (medianScan total cumulative samples).Avoids bad := by
  induction samples generalizing cumulative with
  | nil => exact absurd rfl hne
  | cons x rest ih =>
      have hx := hcap x List.mem_cons_self
      simp only [List.map_cons, List.sum_cons] at hfits
      simp only [medianScan, avoids_bind]
      refine ⟨avoids_unsigned.mpr fun _ => by omega, fun reached hreached => ?_⟩
      obtain ⟨-, rfl⟩ := unsigned_ok.mp hreached
      rw [avoids_ite]
      refine ⟨fun _ => avoids_pure _, fun _ => ?_⟩
      rw [avoids_ite]
      refine ⟨fun _ => ?_, fun _ => ?_⟩
      · cases rest with
        | nil => exact avoids_pure _
        | cons y ys =>
            have hy := hcap y (by simp)
            have htriangle := abs_add_le x.value y.value
            simp only [maxDataValue] at hx hy
            have hsum : Contract.InI128 (x.value + y.value) :=
              inI128_of_abs_lt (by omega)
            rw [avoids_bind, avoids_i128]
            exact ⟨fun _ => hsum, fun _ _ => avoids_pure _⟩
      · cases rest with
        | nil => exact avoids_pure _
        | cons y ys =>
            refine ih (fun z hz => hcap z (List.mem_cons_of_mem x hz))
              (List.cons_ne_nil y ys) ?_
            omega

theorem weightedMedian_avoids {bad : Fault Error → Prop}
    {samples : List Sample} {total : ℕ} (hcap : Capped samples)
    (hne : samples ≠ [])
    (hfits : (samples.map Sample.weight).sum < 2 ^ 32) :
    (weightedMedian samples total).Avoids bad := by
  have hperm := samples.perm_insertionSort ByValue
  refine medianScan_avoids
    (hcap.mono fun x hx => (List.mem_insertionSort _).mp hx) ?_ ?_
  · intro hnil
    rw [hnil] at hperm
    exact hne hperm.nil_eq.symm
  · rw [zero_add, (hperm.map Sample.weight).sum_eq]
    exact hfits

theorem aggregate_avoids {method : AggregationMethod} {now : ℕ}
    {samples : List Sample} {total : ℕ} (hcap : Capped samples)
    (hne : samples ≠ [])
    (hfits : (samples.map Sample.weight).sum < 2 ^ 32) :
    (aggregate method now samples total).Avoids Undeclared := by
  cases method with
  | weightedMedian => exact weightedMedian_avoids hcap hne hfits
  | weightedAverage => exact avoids_pure _
  | mean => exact avoids_pure _
  | timeWeightedAverage => exact avoids_pure _

section Pipelines

variable {s : State} {now : ℕ} {dataType : Symbol} {samples : List Sample}

theorem aggregateSamples_avoids (hcap : Capped samples)
    (hfits : (samples.map Sample.weight).sum < 2 ^ 32) :
    (s.aggregateSamples now dataType samples).Avoids Undeclared := by
  unfold State.aggregateSamples
  rw [avoids_bind]
  refine ⟨filterOutliers_avoids hcap, fun kept hkept => ?_⟩
  have hsub := filterOutliers_sublist hkept
  have hsum : (kept.map Sample.weight).sum < 2 ^ 32 :=
    ((hsub.map Sample.weight).sum_le_sum fun _ _ => Nat.zero_le _).trans_lt
      hfits
  rw [avoids_bind, avoids_unsigned]
  refine ⟨fun _ => hsum, fun total _ => ?_⟩
  rw [avoids_bind]
  refine ⟨by simp, fun _ hrequire => ?_⟩
  obtain ⟨-, hne, -⟩ := require_ok.mp hrequire
  rw [avoids_bind]
  exact ⟨aggregate_avoids (hcap.mono fun x hx => hsub.subset hx) hne hsum,
    fun _ _ => avoids_pure _⟩

theorem aggregateSamples_le {kept : List Sample} {total : ℕ} {v : ℤ}
    (hcap : Capped samples)
    (h : s.aggregateSamples now dataType samples = .ok (kept, total, v)) :
    |v| ≤ maxDataValue := by
  simp only [State.aggregateSamples, bind_ok, unsigned_ok, require_ok,
    pure_ok, Prod.mk.injEq] at h
  obtain ⟨_, hkept, _, ⟨-, rfl⟩, _, -, _, hvalue, rfl, rfl, rfl⟩ := h
  exact aggregate_le
    (hcap.mono fun x hx => (filterOutliers_sublist hkept).subset hx) hvalue

end Pipelines

end Parashield.OracleVerifier
