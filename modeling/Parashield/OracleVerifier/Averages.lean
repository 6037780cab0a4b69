import Parashield.OracleVerifier.Median
import Mathlib.Algebra.BigOperators.Ring.Finset

/-!
# Averages between the extremes

The three averages divide one saturating sum by another.  Where the sum of the
weights fits, the quotient lies between the smallest and the largest value
exactly if it would do so at the cost of saturation: the smallest value times
the sum of the weights is not too large, nor the largest times it too small.
Registered weights are small enough for that, and prevailing times are not.
-/

namespace Parashield.OracleVerifier

open Support Check

/-- `v` lies between the smallest and the largest of the values. -/
def Between (values : List ℤ) (v : ℤ) : Prop :=
  (∃ x ∈ values, x ≤ v) ∧ ∃ x ∈ values, v ≤ x

instance (values : List ℤ) (v : ℤ) : Decidable (Between values v) :=
  inferInstanceAs (Decidable (_ ∧ _))

/-- The smallest value times `total` is not too large for a 128-bit number, and
the largest times `total` not too small. -/
def Fits (values : List ℤ) (total : ℤ) : Prop :=
  (∃ x ∈ values, x * total ≤ maxI128) ∧ ∃ x ∈ values, minI128 ≤ x * total

instance (values : List ℤ) (total : ℤ) : Decidable (Fits values total) :=
  inferInstanceAs (Decidable (_ ∧ _))

/-! ## Saturating weighted sums -/

theorem le_satI128 {c x : ℤ} (h : c ≤ x) (hc : c ≤ maxI128) :
    c ≤ satI128 x := by
  unfold satI128
  simp only [maxI128, minI128] at *
  omega

theorem satI128_le {c x : ℤ} (h : x ≤ c) (hc : minI128 ≤ c) :
    satI128 x ≤ c := by
  unfold satI128
  simp only [maxI128, minI128] at *
  omega

/-- A multiple that fits, fits with a smaller factor. -/
theorem mul_le_of_le {c t total bound : ℤ} (ht : 0 ≤ t) (hle : t ≤ total)
    (hbound : 0 ≤ bound) (h : c * total ≤ bound) : c * t ≤ bound := by
  rcases le_total 0 c with hc | hc
  · exact (Int.mul_le_mul_of_nonneg_left hle hc).trans h
  · exact (Int.mul_nonpos_of_nonpos_of_nonneg hc ht).trans hbound

theorem le_mul_of_le {c t total bound : ℤ} (ht : 0 ≤ t) (hle : t ≤ total)
    (hbound : bound ≤ 0) (h : bound ≤ c * total) : bound ≤ c * t := by
  rw [← neg_le_neg_iff, ← neg_mul] at h ⊢
  exact mul_le_of_le ht hle (by omega) h

section Rows

variable {rows : List (ℤ × ℤ)} {acc t : ℤ}

/-- The products of values and weights, added up with saturation. -/
def weightedSum (rows : List (ℤ × ℤ)) (acc : ℤ) : ℤ :=
  (rows.map fun r => satI128 (r.1 * r.2)).foldl
    (fun sum x => satI128 (sum + x)) acc

theorem weightedSum_ge (low : ℤ)
    (hrows : ∀ r ∈ rows, 0 ≤ r.2 ∧ low ≤ r.1) (ht : 0 ≤ t)
    (hacc : low * t ≤ acc)
    (hfits : low * (t + (rows.map Prod.snd).sum) ≤ maxI128) :
    low * (t + (rows.map Prod.snd).sum) ≤ weightedSum rows acc := by
  induction rows generalizing acc t with
  | nil => simpa [weightedSum] using hacc
  | cons r rows ih =>
      obtain ⟨hweight, hvalue⟩ := hrows r List.mem_cons_self
      have hrest : ∀ q ∈ rows, 0 ≤ q.2 ∧ low ≤ q.1 :=
        fun q hq => hrows q (List.mem_cons_of_mem r hq)
      have hsum : 0 ≤ (rows.map Prod.snd).sum := List.sum_nonneg fun d hd => by
        obtain ⟨q, hq, rfl⟩ := List.mem_map.mp hd
        exact (hrest q hq).1
      rw [List.map_cons, List.sum_cons, ← add_assoc] at hfits ⊢
      have hfit : low * r.2 ≤ maxI128 :=
        mul_le_of_le hweight (by omega) (by decide) hfits
      have hfit' : low * (t + r.2) ≤ maxI128 :=
        mul_le_of_le (by omega) (by omega) (by decide) hfits
      have hterm : low * r.2 ≤ satI128 (r.1 * r.2) :=
        le_satI128 (Int.mul_le_mul_of_nonneg_right hvalue hweight) hfit
      refine ih (t := t + r.2) hrest (by omega) (le_satI128 ?_ hfit') hfits
      rw [mul_add]
      exact Int.add_le_add hacc hterm

theorem weightedSum_le (high : ℤ)
    (hrows : ∀ r ∈ rows, 0 ≤ r.2 ∧ r.1 ≤ high) (ht : 0 ≤ t)
    (hacc : acc ≤ high * t)
    (hfits : minI128 ≤ high * (t + (rows.map Prod.snd).sum)) :
    weightedSum rows acc ≤ high * (t + (rows.map Prod.snd).sum) := by
  induction rows generalizing acc t with
  | nil => simpa [weightedSum] using hacc
  | cons r rows ih =>
      obtain ⟨hweight, hvalue⟩ := hrows r List.mem_cons_self
      have hrest : ∀ q ∈ rows, 0 ≤ q.2 ∧ q.1 ≤ high :=
        fun q hq => hrows q (List.mem_cons_of_mem r hq)
      have hsum : 0 ≤ (rows.map Prod.snd).sum := List.sum_nonneg fun d hd => by
        obtain ⟨q, hq, rfl⟩ := List.mem_map.mp hd
        exact (hrest q hq).1
      rw [List.map_cons, List.sum_cons, ← add_assoc] at hfits ⊢
      have hfit : minI128 ≤ high * r.2 :=
        le_mul_of_le hweight (by omega) (by decide) hfits
      have hfit' : minI128 ≤ high * (t + r.2) :=
        le_mul_of_le (by omega) (by omega) (by decide) hfits
      have hterm : satI128 (r.1 * r.2) ≤ high * r.2 :=
        satI128_le (Int.mul_le_mul_of_nonneg_right hvalue hweight) hfit
      refine ih (t := t + r.2) hrest (by omega) (satI128_le ?_ hfit') hfits
      rw [mul_add]
      exact Int.add_le_add hacc hterm

theorem weightedSum_mem (hacc : minI128 ≤ acc ∧ acc ≤ maxI128) :
    minI128 ≤ weightedSum rows acc ∧ weightedSum rows acc ≤ maxI128 := by
  induction rows generalizing acc with
  | nil => exact hacc
  | cons r rows ih =>
      refine ih (?_ : _ ≤ satI128 (acc + satI128 (r.1 * r.2)) ∧ _)
      unfold satI128
      simp only [maxI128, minI128]
      omega

/-- The quotient lies between the extremes exactly if the extremes fit. -/
theorem quotient_between_iff (hrows : ∀ r ∈ rows, 0 ≤ r.2)
    (hpos : 0 < (rows.map Prod.snd).sum) :
    Between (rows.map Prod.fst)
        ((weightedSum rows 0).tdiv (rows.map Prod.snd).sum) ↔
      Fits (rows.map Prod.fst) (rows.map Prod.snd).sum := by
  have hzero : minI128 ≤ 0 ∧ 0 ≤ maxI128 := by decide
  obtain ⟨hmin, hmax⟩ :
      minI128 ≤ weightedSum rows 0 ∧ weightedSum rows 0 ≤ maxI128 :=
    weightedSum_mem hzero
  constructor
  · rintro ⟨⟨x, hx, hlow⟩, y, hy, hhigh⟩
    have hx' := mul_le_of_le_tdiv hpos hlow
    have hy' := le_mul_of_tdiv_le hpos hhigh
    simp only [maxI128, minI128] at hmin hmax
    refine ⟨⟨x, hx, ?_⟩, y, hy, ?_⟩
    · simp only [maxI128]
      omega
    · simp only [minI128]
      omega
  · rintro ⟨⟨x, hx, hlow⟩, y, hy, hhigh⟩
    obtain ⟨least, hleast, hall⟩ := exists_least (List.ne_nil_of_mem hx)
    obtain ⟨greatest, hgreatest, hall'⟩ :=
      exists_greatest (List.ne_nil_of_mem hx)
    have hfits := (Int.mul_le_mul_of_nonneg_right (hall x hx) hpos.le).trans
      hlow
    have hfits' := hhigh.trans
      (Int.mul_le_mul_of_nonneg_right (hall' y hy) hpos.le)
    rw [← zero_add (rows.map Prod.snd).sum] at hfits hfits'
    have hge := weightedSum_ge least
      (fun r hr => ⟨hrows r hr, hall r.1 (List.mem_map_of_mem hr)⟩) le_rfl
      (mul_zero least).le hfits
    have hle := weightedSum_le greatest
      (fun r hr => ⟨hrows r hr, hall' r.1 (List.mem_map_of_mem hr)⟩) le_rfl
      (mul_zero greatest).ge hfits'
    rw [zero_add] at hge hle
    obtain ⟨hlow', hhigh'⟩ := tdiv_between hpos hge hle
    exact ⟨⟨least, hleast, hlow'⟩, greatest, hgreatest, hhigh'⟩

theorem fits_of_small {values : List ℤ} {total bound : ℤ}
    (hne : values ≠ []) (hvalues : ∀ x ∈ values, |x| ≤ bound)
    (htotal : 0 ≤ total) (h : bound * total ≤ maxI128) : Fits values total := by
  obtain ⟨x, hx⟩ := List.exists_mem_of_ne_nil values hne
  obtain ⟨hneg, hle⟩ := abs_le.mp (hvalues x hx)
  have hupper := Int.mul_le_mul_of_nonneg_right hle htotal
  have hlower := Int.mul_le_mul_of_nonneg_right hneg htotal
  rw [neg_mul] at hlower
  simp only [maxI128] at h
  refine ⟨⟨x, hx, ?_⟩, x, hx, ?_⟩
  · simp only [maxI128]
    omega
  · simp only [minI128]
    omega

end Rows

/-! ## Prevailing times -/

section Durations

variable {now : ℕ} {samples : List Sample}

theorem weightedDurations_values :
    (weightedDurations now samples).map Prod.fst =
      samples.map Sample.value := by
  induction samples with
  | nil => rfl
  | cons x rest ih => simp [weightedDurations, ih]

/-- Times and weights as the contract has them. -/
def Timed (now : ℕ) (samples : List Sample) : Prop :=
  now ≤ maxU64 ∧ ∀ x ∈ samples, x.timestamp ≤ maxU64 ∧
    1 ≤ x.weight ∧ x.weight ≤ 100000

instance (now : ℕ) (samples : List Sample) : Decidable (Timed now samples) :=
  inferInstanceAs (Decidable (_ ∧ _))

theorem satI128_mul_bounds {d w : ℕ} (hd : 1 ≤ d ∧ d ≤ 2 ^ 64)
    (hw : 1 ≤ w ∧ w ≤ 100000) :
    1 ≤ satI128 (d * w) ∧ satI128 (d * w) ≤ 2 ^ 64 * 100000 := by
  have hpos : 1 ≤ d * w := Nat.mul_pos hd.1 hw.1
  have hle : d * w ≤ 2 ^ 64 * 100000 := Nat.mul_le_mul hd.2 hw.2
  rw [← Nat.cast_mul]
  unfold satI128
  simp only [maxI128, minI128]
  omega

theorem held_le {start finish : ℕ} (h : finish ≤ maxU64) :
    max (finish - start) 1 ≤ 2 ^ 64 := by
  simp only [maxU64] at h
  omega

theorem weightedDurations_bounds (h : Timed now samples) :
    ∀ r ∈ weightedDurations now samples,
      1 ≤ r.2 ∧ r.2 ≤ 2 ^ 64 * 100000 := by
  induction samples with
  | nil => nofun
  | cons x rest ih =>
      obtain ⟨hnow, hsamples⟩ := h
      obtain ⟨htime, hweight⟩ := hsamples x List.mem_cons_self
      have hrest : Timed now rest :=
        ⟨hnow, fun y hy => hsamples y (List.mem_cons_of_mem x hy)⟩
      intro r hr
      simp only [weightedDurations, List.mem_cons] at hr
      rcases hr with rfl | hr
      · cases rest with
        | nil =>
            have hfinish : max now x.timestamp ≤ maxU64 := max_le hnow htime
            exact satI128_mul_bounds ⟨le_max_right _ _, held_le hfinish⟩
              hweight
        | cons y ys =>
            have hfinish := (hrest.2 y List.mem_cons_self).1
            exact satI128_mul_bounds ⟨le_max_right _ _, held_le hfinish⟩
              hweight
      · exact ih hrest r hr

/-- The samples in the order of their timestamps. -/
def byTime (samples : List Sample) : List Sample :=
  samples.insertionSort fun a b => a.timestamp ≤ b.timestamp

/-- The seconds that the samples prevailed for, each times its weight. -/
def prevailing (now : ℕ) (samples : List Sample) : ℤ :=
  ((weightedDurations now (byTime samples)).map Prod.snd).sum

theorem byTime_perm : (byTime samples).Perm samples :=
  List.perm_insertionSort _ _

theorem Timed.byTime (h : Timed now samples) : Timed now (byTime samples) :=
  ⟨h.1, fun x hx => h.2 x (byTime_perm.mem_iff.mp hx)⟩

theorem weightedDurations_length :
    (weightedDurations now samples).length = samples.length := by
  rw [← List.length_map (f := Prod.fst), weightedDurations_values,
    List.length_map]

theorem prevailing_bounds (h : Timed now samples) (hne : samples ≠ [])
    (hlen : samples.length ≤ maxDataPoints) :
    0 < prevailing now samples ∧ prevailing now samples ≤ maxI128 := by
  have hrows := weightedDurations_bounds h.byTime
  constructor
  · have hpos : ∀ d ∈ (weightedDurations now (byTime samples)).map Prod.snd,
        0 < d := by
      intro d hd
      obtain ⟨r, hr, rfl⟩ := List.mem_map.mp hd
      exact (hrows r hr).1
    refine List.sum_pos _ hpos ?_
    intro hnil
    have hlength := congrArg List.length hnil
    rw [List.length_map, weightedDurations_length, byTime_perm.length_eq]
      at hlength
    exact hne (List.length_eq_zero_iff.mp hlength)
  · have hsum := List.sum_le_card_nsmul
      ((weightedDurations now (byTime samples)).map Prod.snd)
      (2 ^ 64 * 100000) fun d hd => by
        obtain ⟨r, hr, rfl⟩ := List.mem_map.mp hd
        exact (hrows r hr).2
    rw [List.length_map, weightedDurations_length, byTime_perm.length_eq,
      nsmul_eq_mul] at hsum
    simp only [maxDataPoints] at hlen
    show ((weightedDurations now (byTime samples)).map Prod.snd).sum ≤ _
    simp only [maxI128]
    omega

theorem timeWeightedAverage_eq (h : Timed now samples)
    (hlen : samples.length ≤ maxDataPoints) (hlong : 2 ≤ samples.length) :
    timeWeightedAverage now samples =
      (weightedSum (weightedDurations now (byTime samples)) 0).tdiv
        (prevailing now samples) := by
  have hne : samples ≠ [] := by
    rintro rfl
    cases hlong
  obtain ⟨hpos, hfits⟩ := prevailing_bounds h hne hlen
  have htotal : satSum ((weightedDurations now (byTime samples)).map
      Prod.snd) = prevailing now samples := by
    rw [satSum_nonneg_eq]
    · exact min_eq_left hfits
    · intro d hd
      obtain ⟨r, hr, rfl⟩ := List.mem_map.mp hd
      have := (weightedDurations_bounds h.byTime r hr).1
      omega
  unfold timeWeightedAverage
  split
  · simp at hlong
  · show (if satSum ((weightedDurations now (byTime samples)).map
      Prod.snd) = 0 then _ else _) = _
    rw [if_neg (by omega)]
    show (weightedSum _ 0).tdiv (satSum ((weightedDurations now
      (byTime samples)).map Prod.snd)) = _
    rw [htotal]
    rfl

end Durations

/-! ## The averages -/

section Averages

variable {samples : List Sample}

theorem between_perm {values values' : List ℤ} {v : ℤ}
    (h : values.Perm values') : Between values v ↔ Between values' v := by
  simp only [Between, h.mem_iff]

theorem fits_perm {values values' : List ℤ} {total : ℤ}
    (h : values.Perm values') : Fits values total ↔ Fits values' total := by
  simp only [Fits, h.mem_iff]

/-- An average under registered weights. -/
theorem weightedAverage_between (hne : samples ≠ [])
    (hlen : samples.length ≤ maxDataPoints)
    (hweight : ∀ x ∈ samples, 1 ≤ x.weight ∧ x.weight ≤ 100000)
    (hcap : ∀ v ∈ samples.map Sample.value, |v| ≤ maxDataValue) :
    Between (samples.map Sample.value)
      (weightedAverage samples (samples.map Sample.weight).sum) := by
  let rows := samples.map fun x => (x.value, (x.weight : ℤ))
  have hvalues : rows.map Prod.fst = samples.map Sample.value := by
    simp [rows, Function.comp_def]
  have hweights : (rows.map Prod.snd).sum =
      ((samples.map Sample.weight).sum : ℕ) := by
    simp [rows, Function.comp_def, Nat.cast_list_sum]
  have hrows : ∀ r ∈ rows, 0 ≤ r.2 := by
    intro r hr
    obtain ⟨x, -, rfl⟩ := List.mem_map.mp hr
    exact Int.natCast_nonneg _
  have hpos : 0 < (samples.map Sample.weight).sum := by
    refine List.sum_pos _ (fun w hw => ?_) (by simpa using hne)
    obtain ⟨x, hx, rfl⟩ := List.mem_map.mp hw
    exact (hweight x hx).1
  have hsum := List.sum_le_card_nsmul (samples.map Sample.weight) 100000
    fun w hw => by
      obtain ⟨x, hx, rfl⟩ := List.mem_map.mp hw
      exact (hweight x hx).2
  rw [List.length_map, Nat.nsmul_eq_mul] at hsum
  have haverage := (quotient_between_iff hrows (by omega)).mpr
    (fits_of_small (by simpa [hvalues] using hne) (hvalues ▸ hcap) (by omega)
      (by
        simp only [maxDataPoints] at hlen
        simp only [maxDataValue, maxI128]
        omega))
  have hproducts : weightedSum rows 0 =
      satSum (samples.map fun x => satI128 (x.value * x.weight)) := by
    simp [weightedSum, satSum, rows, Function.comp_def]
  rwa [hvalues, hweights, hproducts] at haverage

/-- An average in which every value counts once. -/
theorem mean_between (hne : samples ≠ [])
    (hlen : samples.length ≤ maxDataPoints)
    (hcap : ∀ v ∈ samples.map Sample.value, |v| ≤ maxDataValue) :
    Between (samples.map Sample.value) (mean samples) := by
  let rows := samples.map fun x => (x.value, (1 : ℤ))
  have hvalues : rows.map Prod.fst = samples.map Sample.value := by
    simp [rows, Function.comp_def]
  have hcount : (rows.map Prod.snd).sum = samples.length := by
    simp [rows, Function.comp_def]
  have hrows : ∀ r ∈ rows, 0 ≤ r.2 := by
    intro r hr
    obtain ⟨x, -, rfl⟩ := List.mem_map.mp hr
    exact zero_le_one
  have hpos : 0 < samples.length := List.length_pos_iff.mpr hne
  have haverage := (quotient_between_iff hrows (by omega)).mpr
    (fits_of_small (by simpa [hvalues] using hne) (hvalues ▸ hcap) (by omega)
      (by
        simp only [maxDataPoints] at hlen
        simp only [maxDataValue, maxI128]
        omega))
  have hterms : weightedSum rows 0 = satSum (samples.map Sample.value) := by
    have hsame : (rows.map fun r => satI128 (r.1 * r.2)) =
        samples.map Sample.value := by
      rw [List.map_map]
      refine List.map_congr_left fun x hx => ?_
      have hx' := hcap x.value (List.mem_map_of_mem hx)
      simp only [maxDataValue] at hx'
      show satI128 (x.value * 1) = x.value
      rw [mul_one]
      exact satI128_of_abs_le (by simp only [maxI128]; omega)
    rw [weightedSum, hsame, satSum]
  rwa [hvalues, hcount, hterms] at haverage

end Averages

/-- Every average of samples that the contract can hold lies between the
extremes, with one exception: two or more samples are weighted by time, and
already the smallest value held all the time is too large for a 128-bit
number, or the largest one too small. -/
theorem averages_between_iff (now : ℕ) (samples : List Sample)
    (hne : samples ≠ []) (hlen : samples.length ≤ maxDataPoints)
    (htimed : Timed now samples)
    (hcap : ∀ x ∈ samples, |x.value| ≤ maxDataValue) :
    (Between (samples.map Sample.value)
        (weightedAverage samples (samples.map Sample.weight).sum) ∧
      Between (samples.map Sample.value) (mean samples)) ∧
      (Between (samples.map Sample.value) (timeWeightedAverage now samples) ↔
        samples.length = 1 ∨
          Fits (samples.map Sample.value) (prevailing now samples)) := by
  have hvalues : ∀ v ∈ samples.map Sample.value, |v| ≤ maxDataValue := by
    intro v hv
    obtain ⟨x, hx, rfl⟩ := List.mem_map.mp hv
    exact hcap x hx
  have hne' : samples.map Sample.value ≠ [] := by simpa using hne
  refine ⟨⟨?_, ?_⟩, ?_⟩
  · exact weightedAverage_between hne hlen
      (fun x hx => (htimed.2 x hx).2) hvalues
  · exact mean_between hne hlen hvalues
  · by_cases hlong : 2 ≤ samples.length
    · rw [timeWeightedAverage_eq htimed hlen hlong]
      have hrows : ∀ r ∈ weightedDurations now (byTime samples), 0 ≤ r.2 :=
        fun r hr => by
          have := (weightedDurations_bounds htimed.byTime r hr).1
          omega
      have hiff := quotient_between_iff hrows
        (prevailing_bounds htimed hne hlen).1
      rw [weightedDurations_values, between_perm (byTime_perm.map _),
        fits_perm (byTime_perm.map _)] at hiff
      rw [or_iff_right (by omega)]
      exact hiff
    · have hpos : 0 < samples.length := List.length_pos_iff.mpr hne
      have hone : samples.length = 1 := by omega
      rw [iff_true_right (.inl hone)]
      obtain ⟨x, rfl⟩ := List.length_eq_one_iff.mp hone
      simp [Between, timeWeightedAverage]

/-- Two readings of the largest value, one second apart. -/
def steady : List Sample :=
  [⟨maxDataValue, 100000, 0⟩, ⟨maxDataValue, 100000, 1⟩]

theorem averages_between_iff_steady :
    Between (steady.map Sample.value) (timeWeightedAverage 100000 steady) :=
  (averages_between_iff 100000 steady (by decide) (by decide) (by decide)
    (by decide)).2.mpr (.inr (by decide))

/-- Held for three years, the same value all the time averages to less. -/
theorem average_below_steady :
    ¬ Between (steady.map Sample.value)
      (timeWeightedAverage 100000000 steady) := by
  decide

end Parashield.OracleVerifier
