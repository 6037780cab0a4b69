import Parashield.OracleVerifier.Orderings
import Parashield.Support.Middle

/-!
# What the outlier filter removes

The filter ranks the samples by their deviation from the unweighted median and
removes them from the top, as long as they lie beyond the threshold and enough
are left.  So it removes outliers only, and the worst of them; what a majority
reports is no outlier.
-/

namespace Parashield.OracleVerifier

open Support Check

variable {config : OutlierConfig} {samples kept : List Sample}
  {values : List ℤ} {median limit : ℤ} {minKeep live : ℕ}

/-! ## The bounds -/

/-- The median of the deviations from the median. -/
def medianDeviation (values : List ℤ) : ℤ :=
  Support.median (values.map fun v => |v - Support.median values|)

theorem medianDeviation_nonneg (values : List ℤ) :
    0 ≤ medianDeviation values := by
  refine median_nonneg fun d hd => ?_
  obtain ⟨v, -, rfl⟩ := List.mem_map.mp hd
  exact abs_nonneg _

theorem middle_total {xs : List ℤ} {bound : ℤ} (hbound : 0 ≤ bound)
    (hsmall : bound < 2 ^ 126) (h : ∀ x ∈ xs, |x| ≤ bound) :
    middle xs = .ok (middleOf xs) := by
  unfold middle middleOf
  split_ifs
  · rfl
  · simp only [bind_ok, i128_ok, pure_ok]
    exact ⟨_, ⟨middle_fits hbound hsmall h, rfl⟩, rfl⟩

theorem median_capped (h : ∀ v ∈ values, |v| ≤ maxDataValue) :
    |Support.median values| ≤ maxDataValue := by
  have hsorted : ∀ v ∈ values.insertionSort (· ≤ ·), |v| ≤ maxDataValue :=
    fun v hv => h v ((List.mem_insertionSort _).mp hv)
  exact middle_le (by decide) hsorted
    (middle_total (by decide) (by decide) hsorted)

/-- Values of the accepted magnitude deviate within the range. -/
theorem deviates_of_capped {v : ℤ} (hm : |median| ≤ maxDataValue)
    (hv : |v| ≤ maxDataValue) : Deviates median v := by
  have hdiff := abs_sub v median
  simp only [maxDataValue] at hm hv
  have hsub : Contract.InI128 (v - median) := inI128_of_abs_lt (by omega)
  have habs : Contract.InI128 |v - median| :=
    inI128_of_abs_lt (by rw [abs_abs]; omega)
  exact ⟨hsub, habs⟩

/-- Values of the accepted magnitude have bounds. -/
theorem outlierBounds_total (h : ∀ v ∈ values, |v| ≤ maxDataValue) :
    outlierBounds config values = .ok (Support.median values,
      satI128 (config.thresholdBps * medianDeviation values)) := by
  have hsorted : ∀ v ∈ values.insertionSort (· ≤ ·), |v| ≤ maxDataValue :=
    fun v hv => h v ((List.mem_insertionSort _).mp hv)
  have hmiddle := middle_total (by decide) (by decide) hsorted
  have hm := median_capped h
  have hdeviates : ∀ v ∈ values, Deviates (Support.median values) v :=
    fun v hv => deviates_of_capped hm (h v hv)
  have hdeviations : values.mapM (deviation (Support.median values)) =
      .ok (values.map fun v => |v - Support.median values|) := by
    rw [mapM_deviation, if_pos hdeviates]
  have hbound : (0 : ℤ) ≤ 2 * maxDataValue := by decide
  have hsmall : ∀ d ∈ (values.map fun v =>
      |v - Support.median values|).insertionSort (· ≤ ·),
        |d| ≤ 2 * maxDataValue := by
    intro d hd
    obtain ⟨v, hv, rfl⟩ := List.mem_map.mp ((List.mem_insertionSort _).mp hd)
    exact deviation_le hm (h v hv) (deviation_of_fits (hdeviates v hv))
  have hmad := middle_total hbound (by decide) hsmall
  simp only [outlierBounds, bind_ok, pure_ok]
  exact ⟨_, hmiddle, _, hdeviations, _, hmad, rfl⟩

/-! ## The cut -/

/-- The cut leaves at least `minKeep` of the live values. -/
theorem outlierCount_le (vs : List ℤ) :
    outlierCount median limit minKeep live vs ≤ live - minKeep := by
  induction vs generalizing live with
  | nil => exact Nat.zero_le _
  | cons v vs ih =>
      unfold outlierCount
      split_ifs with hfew hbeyond
      · exact Nat.zero_le _
      · have hrest : outlierCount median limit minKeep (live - 1) vs ≤
            live - 1 - minKeep := ih
        omega
      · exact Nat.zero_le _

/-- What comes before the cut lies beyond the limit. -/
theorem outlierCount_beyond {vs : List ℤ} {v : ℤ}
    (hv : v ∈ vs.take (outlierCount median limit minKeep live vs)) :
    limit < satI128 (|v - median| * 10000) := by
  induction vs generalizing live with
  | nil => cases hv
  | cons u vs ih =>
      unfold outlierCount at hv
      split_ifs at hv with hfew hbeyond
      · cases hv
      · rw [List.take_succ_cons] at hv
        rcases List.mem_cons.mp hv with rfl | hv
        · exact hbeyond
        · exact ih hv
      · cases hv

theorem ranked_values (median : ℤ) (samples : List Sample) :
    (removalOrder median samples).map (fun p => p.1.value) =
      (ranked median samples).map Sample.value := by
  rw [ranked, List.map_map]
  rfl

/-- Samples before the cut lie beyond the limit. -/
theorem outliersOf_beyond {x : Sample}
    (hx : x ∈ (ranked median samples).take
      (outliersOf config median limit samples)) :
    limit < satI128 (|x.value - median| * 10000) := by
  have hmem : x.value ∈ ((ranked median samples).map Sample.value).take
      (outliersOf config median limit samples) := by
    rw [← List.map_take]
    exact List.mem_map_of_mem hx
  unfold outliersOf at hmem
  rw [ranked_values] at hmem
  exact outlierCount_beyond hmem

theorem outliersOf_le :
    outliersOf config median limit samples ≤
      samples.length - max config.minSampleSize 1 :=
  outlierCount_le _

theorem dropOutliers_length (median : ℤ) (count : ℕ) (samples : List Sample) :
    (dropOutliers median count samples).length = samples.length - count := by
  rw [(dropOutliers_perm median count samples).length_eq, List.length_drop,
    (ranked_perm median samples).length_eq]

/-- What is dropped deviates at least as much as what stays. -/
theorem dropped_worse {count : ℕ} {x y : Sample}
    (hx : x ∈ samples.diff (dropOutliers median count samples))
    (hy : y ∈ dropOutliers median count samples) :
    |y.value - median| ≤ |x.value - median| := by
  have hworse := related_across_cut (ranked_sorted median samples)
    ((dropped_perm median count samples).mem_iff.mp hx)
    ((dropOutliers_perm median count samples).mem_iff.mp hy)
  simp only [Worse] at hworse
  omega

/-- Below the largest number, nothing is saturated. -/
theorem lt_of_lt_satI128 {a b : ℤ} (h : satI128 a < satI128 b)
    (hb : b ≤ maxI128) : a < b := by
  unfold satI128 minI128 maxI128 at *
  omega

/-! ## The filter -/

/-- What the filter should do with `samples`. -/
structure Filters (config : OutlierConfig) (samples kept : List Sample) :
    Prop where
  length_ge : min samples.length (max 1 config.minSampleSize) ≤ kept.length
  length_le : kept.length ≤ samples.length
  sublist : kept.Sublist samples
  outlying : ∀ x ∈ samples.diff kept,
    config.thresholdBps * medianDeviation (samples.map Sample.value) <
      |x.value - Support.median (samples.map Sample.value)| * 10000
  worst : ∀ x ∈ samples.diff kept, ∀ y ∈ kept,
    |y.value - Support.median (samples.map Sample.value)| ≤
      |x.value - Support.median (samples.map Sample.value)|
  majority : ∀ v, samples.length < 2 * (samples.map Sample.value).count v →
    (kept.filter fun x => x.value = v) = samples.filter fun x => x.value = v

theorem diff_self_eq_nil : samples.diff samples = [] := by
  have h : (samples ++ []).diff samples = [] := append_diff_self
  rwa [List.append_nil] at h

theorem Filters.refl (config : OutlierConfig) (samples : List Sample) :
    Filters config samples samples where
  length_ge := min_le_left _ _
  length_le := le_rfl
  sublist := .refl _
  outlying := by simp [diff_self_eq_nil]
  worst := by simp [diff_self_eq_nil]
  majority _ _ := rfl

/-- The samples before the cut lie beyond the threshold. -/
theorem dropped_outlying (hcap : Capped samples) {x : Sample}
    (hm : |median| ≤ maxDataValue)
    (hx : x ∈ samples.diff
      (dropOutliers median (outliersOf config median (satI128 limit) samples)
        samples)) :
    limit < |x.value - median| * 10000 := by
  have hmem := (dropped_perm median _ samples).mem_iff.mp hx
  have hsample : x ∈ samples :=
    (ranked_perm median samples).mem_iff.mp (List.mem_of_mem_take hmem)
  have hdiff := abs_sub x.value median
  have hvalue := hcap x hsample
  refine lt_of_lt_satI128 (outliersOf_beyond hmem) ?_
  simp only [maxDataValue] at hm hvalue
  unfold maxI128
  omega

/-- The samples after the cut are what the filter should keep. -/
theorem filters_dropOutliers (config : OutlierConfig) (hcap : Capped samples) :
    Filters config samples
      (dropOutliers (Support.median (samples.map Sample.value))
        (outliersOf config (Support.median (samples.map Sample.value))
          (satI128 (config.thresholdBps *
            medianDeviation (samples.map Sample.value))) samples)
        samples) := by
  have hvalues : ∀ v ∈ samples.map Sample.value, |v| ≤ maxDataValue := by
    intro v hv
    obtain ⟨x, hx, rfl⟩ := List.mem_map.mp hv
    exact hcap x hx
  have hm := median_capped hvalues
  have hle : outliersOf config (Support.median (samples.map Sample.value))
      (satI128 (config.thresholdBps *
        medianDeviation (samples.map Sample.value))) samples ≤
      samples.length - max config.minSampleSize 1 := outliersOf_le
  constructor
  case length_ge =>
    rw [dropOutliers_length]
    omega
  case length_le =>
    rw [dropOutliers_length]
    exact Nat.sub_le _ _
  case sublist => exact dropOutliers_sublist _ _ _
  case outlying => exact fun x hx => dropped_outlying hcap hm hx
  case worst => exact fun x hx y hy => dropped_worse hx hy
  case majority =>
    intro v hv
    rw [← List.length_map (f := Sample.value)] at hv
    refine filter_of_sublist (dropOutliers_sublist _ _ _) fun x hx => ?_
    have houtlying := dropped_outlying hcap hm hx
    have hnonneg := medianDeviation_nonneg (samples.map Sample.value)
    rw [decide_eq_false_iff_not]
    rintro rfl
    rw [median_of_majority hv, sub_self, abs_zero, zero_mul] at houtlying
    exact absurd houtlying
      (not_lt.mpr (mul_nonneg (Int.natCast_nonneg _) hnonneg))

/-- Samples within the accepted magnitude are filtered without a failure, in all
configurations: enough of them are left, in their order; what is removed lies
further from the median than the threshold allows and nothing that stays lies
further away; and what more than half of the samples report stays. -/
theorem filter_removes_outliers (config : OutlierConfig)
    (samples : List Sample) (hcap : Capped samples) :
    ∃ kept, filterOutliers config samples = .ok kept ∧
      Filters config samples kept := by
  by_cases happlies : config.applies samples.length
  · have hvalues : ∀ v ∈ samples.map Sample.value, |v| ≤ maxDataValue := by
      intro v hv
      obtain ⟨x, hx, rfl⟩ := List.mem_map.mp hv
      exact hcap x hx
    refine ⟨_, ?_, filters_dropOutliers config hcap⟩
    rw [filterOutliers, if_pos happlies, outlierBounds_total hvalues]
    rfl
  · refine ⟨samples, ?_, .refl config samples⟩
    rw [filterOutliers, if_neg happlies]
    rfl

namespace Scenario

/-- Four stations agree, two are far off, and four samples have to stay. -/
def scattered : List Sample :=
  [⟨900, 10, 1⟩, ⟨20, 10, 2⟩, ⟨20, 30, 3⟩, ⟨-300, 10, 4⟩, ⟨20, 10, 5⟩,
    ⟨20, 10, 6⟩]

def vigilant : OutlierConfig := ⟨true, 50000, 4⟩

end Scenario

open Scenario in
/-- The two are dropped. -/
theorem filter_removes_outliers_scattered :
    filterOutliers vigilant scattered =
        .ok [⟨20, 10, 2⟩, ⟨20, 30, 3⟩, ⟨20, 10, 5⟩, ⟨20, 10, 6⟩] ∧
      ∃ kept, filterOutliers vigilant scattered = .ok kept ∧
        Filters vigilant scattered kept :=
  ⟨by decide +kernel, filter_removes_outliers vigilant scattered
    (by unfold Capped; decide)⟩

end Parashield.OracleVerifier
