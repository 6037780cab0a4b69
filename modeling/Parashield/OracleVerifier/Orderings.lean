import Parashield.OracleVerifier.Median
import Parashield.Support.Rearrangement

/-!
# Rearranged samples

The filter and the methods sort what they are given, or add it up.  The order of
the samples does not matter to the weighted median, which sorts by all it looks
at, nor to a sum that does not saturate.  The filter does not look at times, so
the order decides which of two outliers of one value and weight is dropped.
-/

namespace Parashield.OracleVerifier

open Support Check

/-! ## The filter -/

/-- What the filter and the weighted median look at. -/
def Sample.say (x : Sample) : ℤ × ℕ := (x.value, x.weight)

theorem say_eq {x y : Sample} :
    x.say = y.say ↔ x.value = y.value ∧ x.weight = y.weight :=
  Prod.mk_inj

section Filter

variable {samples samples' kept : List Sample} {values values' : List ℤ}

theorem sort_values (h : values.Perm values') :
    values.insertionSort (· ≤ ·) = values'.insertionSort (· ≤ ·) :=
  List.Perm.eq_of_pairwise (fun _ _ _ _ => le_antisymm)
    (List.pairwise_insertionSort _ _) (List.pairwise_insertionSort _ _)
    ((List.perm_insertionSort _ _).trans
      (h.trans (List.perm_insertionSort _ _).symm))

/-- The deviation fits. -/
def Deviates (median v : ℤ) : Prop :=
  Contract.InI128 (v - median) ∧ Contract.InI128 |v - median|

instance (median v : ℤ) : Decidable (Deviates median v) :=
  inferInstanceAs (Decidable (_ ∧ _))

theorem deviation_of_fits {median v : ℤ} (h : Deviates median v) :
    deviation median v = .ok |v - median| := by
  simp only [deviation, bind_ok, i128_ok]
  exact ⟨_, ⟨h.1, rfl⟩, h.2, rfl⟩

theorem i128_of_not_fits {x : ℤ} {e : Fault Error}
    (h : ¬ Contract.InI128 x) : (Check.i128 x e : View ℤ) = .error e := by
  simp only [Check.i128, Check.require, if_neg h]
  rfl

theorem deviation_of_not_fits {median v : ℤ} (h : ¬ Deviates median v) :
    deviation median v = .error (.overflow none) := by
  by_cases hsub : Contract.InI128 (v - median)
  · have habs : ¬ Contract.InI128 |v - median| := fun habs => h ⟨hsub, habs⟩
    have hfits : (Check.i128 (v - median) (.overflow none) : View ℤ) =
        .ok (v - median) := i128_ok.mpr ⟨hsub, rfl⟩
    rw [deviation, hfits]
    exact i128_of_not_fits habs
  · rw [deviation, i128_of_not_fits hsub]
    rfl

/-- All deviations fit, or one that does not is reported as any other. -/
theorem mapM_deviation (median : ℤ) (values : List ℤ) :
    values.mapM (deviation median) =
      if ∀ v ∈ values, Deviates median v then
        .ok (values.map fun v => |v - median|)
      else
        .error (.overflow none) := by
  induction values with
  | nil => rfl
  | cons v values ih =>
      rw [List.mapM_cons, ih]
      by_cases hv : Deviates median v
      · rw [deviation_of_fits hv]
        simp only [List.forall_mem_cons, hv, true_and]
        split_ifs
        · rfl
        · rfl
      · have hnot : ¬ ∀ u ∈ v :: values, Deviates median u :=
          fun h => hv (h v List.mem_cons_self)
        rw [deviation_of_not_fits hv, if_neg hnot]
        rfl

theorem outlierBounds_perm (config : OutlierConfig)
    (h : values.Perm values') :
    outlierBounds config values = outlierBounds config values' := by
  unfold outlierBounds
  rw [sort_values h]
  refine congrArg _ (funext fun median => ?_)
  simp only [mapM_deviation, h.mem_iff]
  split_ifs
  · show (do let mad ← middle _; pure _) = (do let mad ← middle _; pure _)
    rw [sort_values (h.map fun v => |v - median|)]
  · rfl

/-- The samples in the order in which they are considered for removal. -/
def ranked (median : ℤ) (samples : List Sample) : List Sample :=
  (removalOrder median samples).map Prod.fst

theorem removalOrder_perm (median : ℤ) (samples : List Sample) :
    (removalOrder median samples).Perm samples.zipIdx :=
  List.perm_insertionSort _ _

theorem ranked_perm (median : ℤ) (samples : List Sample) :
    (ranked median samples).Perm samples := by
  have h := (removalOrder_perm median samples).map Prod.fst
  rwa [List.zipIdx_map_fst] at h

theorem ranked_sorted (median : ℤ) (samples : List Sample) :
    (ranked median samples).Pairwise fun x y =>
      Worse median (x, 0) (y, 0) := by
  have : Std.Total (Worse median) := ⟨worse_total median⟩
  have : IsTrans (Sample × ℕ) (Worse median) := ⟨fun _ _ _ => worse_trans⟩
  rw [ranked, List.pairwise_map]
  exact List.pairwise_insertionSort (Worse median) samples.zipIdx

/-- Samples that tie for removal have the same say. -/
theorem worse_say {median : ℤ} {x y : Sample}
    (h : Worse median (x, 0) (y, 0)) (h' : Worse median (y, 0) (x, 0)) :
    x.say = y.say := by
  rw [say_eq]
  simp only [Worse] at h h'
  omega

/-- The removal order, as far as it looks at the samples. -/
def WorseSay (median : ℤ) (u v : ℤ × ℕ) : Prop :=
  |v.1 - median| < |u.1 - median| ∨
    (|u.1 - median| = |v.1 - median| ∧
      (u.1 < v.1 ∨ (u.1 = v.1 ∧ u.2 ≤ v.2)))

theorem worseSay_antisymm {median : ℤ} {u v : ℤ × ℕ}
    (h : WorseSay median u v) (h' : WorseSay median v u) : u = v := by
  unfold WorseSay at h h'
  exact Prod.ext (by omega) (by omega)

theorem ranked_say (median : ℤ) (h : samples.Perm samples') :
    (ranked median samples).map Sample.say =
      (ranked median samples').map Sample.say := by
  have hsorted (samples : List Sample) :
      ((ranked median samples).map Sample.say).Pairwise (WorseSay median) :=
    List.pairwise_map.mpr (ranked_sorted median samples)
  refine List.Perm.eq_of_pairwise (fun _ _ _ _ => worseSay_antisymm)
    (hsorted samples) (hsorted samples') (List.Perm.map _ ?_)
  exact (ranked_perm median samples).trans
    (h.trans (ranked_perm median samples').symm)

theorem dropOutliers_perm (median : ℤ) (count : ℕ) (samples : List Sample) :
    (dropOutliers median count samples).Perm
      ((ranked median samples).drop count) := by
  rw [ranked, ← List.map_drop]
  exact unflagged_perm (removalOrder_perm median samples) count

/-- How many samples are dropped. -/
def outliersOf (config : OutlierConfig) (median limit : ℤ)
    (samples : List Sample) : ℕ :=
  outlierCount median limit (max config.minSampleSize 1) samples.length
    ((removalOrder median samples).map fun p => p.1.value)

theorem outliersOf_perm (config : OutlierConfig) (median limit : ℤ)
    (h : samples.Perm samples') :
    outliersOf config median limit samples =
      outliersOf config median limit samples' := by
  have hvalues (samples : List Sample) :
      ((removalOrder median samples).map fun p => p.1.value) =
        ((ranked median samples).map Sample.say).map Prod.fst := by
    rw [ranked, List.map_map, List.map_map]
    rfl
  rw [outliersOf, outliersOf, hvalues, hvalues, ranked_say median h,
    h.length_eq]

/-- No dropped sample has the say of a kept one of another time. -/
def CleanCut (samples kept : List Sample) : Prop :=
  ∀ x ∈ samples.diff kept, ∀ y ∈ kept, x.say = y.say →
    x.timestamp = y.timestamp

instance (samples kept : List Sample) : Decidable (CleanCut samples kept) :=
  inferInstanceAs (Decidable (∀ x ∈ samples.diff kept, ∀ y ∈ kept, _ → _))

theorem dropOutliers_say (median : ℤ) (count : ℕ)
    (h : samples.Perm samples') :
    ((dropOutliers median count samples).map Sample.say).Perm
      ((dropOutliers median count samples').map Sample.say) := by
  have hdrop := congrArg (List.drop count) (ranked_say median h)
  rw [← List.map_drop, ← List.map_drop] at hdrop
  refine ((dropOutliers_perm median count samples).map _).trans ?_
  rw [hdrop]
  exact ((dropOutliers_perm median count samples').map _).symm

theorem append_diff_self : (samples ++ samples').diff samples = samples' := by
  induction samples with
  | nil => rfl
  | cons x samples ih =>
      rw [List.cons_append, List.diff_cons, List.erase_cons_head, ih]

/-- What is dropped, is dropped from the front of the removal order. -/
theorem dropped_perm (median : ℤ) (count : ℕ) (samples : List Sample) :
    (samples.diff (dropOutliers median count samples)).Perm
      ((ranked median samples).take count) := by
  have hkept := dropOutliers_perm median count samples
  have hall : samples.Perm (dropOutliers median count samples ++
      (ranked median samples).take count) := by
    refine ((ranked_perm median samples).symm.trans ?_).trans
      (hkept.symm.append_right _)
    conv_lhs => rw [← List.take_append_drop count (ranked median samples)]
    exact List.perm_append_comm
  exact (hall.diff_right _).trans (.of_eq append_diff_self)

theorem dropOutliers_clean {median : ℤ} {count : ℕ}
    (h : samples.Perm samples')
    (hclean : CleanCut samples (dropOutliers median count samples)) :
    (dropOutliers median count samples).Perm
      (dropOutliers median count samples') := by
  refine (dropOutliers_perm median count samples).trans
    (.trans ?_ (dropOutliers_perm median count samples').symm)
  have hperm := (ranked_perm median samples).trans
    (h.trans (ranked_perm median samples').symm)
  refine drop_perm (ranked_sorted median samples') hperm
    fun x hx y hy hyx => ?_
  have hxy := related_across_cut (ranked_sorted median samples) hx hy
  have hsay := worse_say hxy hyx
  have htime := hclean x ((dropped_perm median count samples).mem_iff.mpr hx) y
    ((dropOutliers_perm median count samples).mem_iff.mpr hy) hsay
  obtain ⟨hvalue, hweight⟩ := say_eq.mp hsay
  cases x
  cases y
  simp_all

/-- The filter fails for both arrangements or for neither, and keeps the same
values and weights. -/
theorem filterOutliers_perm (config : OutlierConfig)
    (h : samples.Perm samples') :
    (∃ e, filterOutliers config samples = .error e ∧
        filterOutliers config samples' = .error e) ∨
      ∃ kept kept', filterOutliers config samples = .ok kept ∧
        filterOutliers config samples' = .ok kept' ∧
        (kept.map Sample.say).Perm (kept'.map Sample.say) ∧
        (CleanCut samples kept → kept.Perm kept') := by
  have hbounds := outlierBounds_perm config (h.map Sample.value)
  by_cases happlies : config.applies samples.length
  · have happlies' : config.applies samples'.length := h.length_eq ▸ happlies
    rw [filterOutliers, filterOutliers, if_pos happlies, if_pos happlies',
      hbounds]
    cases outlierBounds config (samples'.map Sample.value) with
    | error e => exact .inl ⟨e, rfl, rfl⟩
    | ok bounds =>
        obtain ⟨median, limit⟩ := bounds
        refine .inr ⟨dropOutliers median
            (outliersOf config median limit samples) samples,
          dropOutliers median (outliersOf config median limit samples')
            samples', rfl, rfl, ?_, fun hclean => ?_⟩
        · rw [outliersOf_perm config median limit h]
          exact dropOutliers_say median _ h
        · rw [← outliersOf_perm config median limit h]
          exact dropOutliers_clean h hclean
  · have happlies' : ¬ config.applies samples'.length :=
      h.length_eq ▸ happlies
    rw [filterOutliers, filterOutliers, if_neg happlies, if_neg happlies']
    exact .inr ⟨samples, samples', rfl, rfl, h.map _, fun _ => h⟩

end Filter

/-! ## The methods that do not look at times -/

section Methods

variable {samples samples' : List Sample}

theorem medianScan_cons {total cumulative : ℕ} {x y : Sample}
    {ys : List Sample} :
    medianScan total cumulative (x :: y :: ys) = (do
      let reached ← unsigned 32 (cumulative + x.weight) .trap
      if total / 2 < reached then
        pure x.value
      else if reached = total / 2 ∧ total % 2 = 0 then do
        let sum ← i128 (x.value + y.value) (.overflow none)
        pure (sum.tdiv 2)
      else
        medianScan total reached (y :: ys)) :=
  rfl

theorem medianScan_say {total cumulative : ℕ}
    (h : samples.map Sample.say = samples'.map Sample.say) :
    medianScan total cumulative samples =
      medianScan total cumulative samples' := by
  induction samples generalizing samples' cumulative with
  | nil =>
      obtain rfl := List.map_eq_nil_iff.mp h.symm
      rfl
  | cons x rest ih =>
      obtain ⟨x', rest', rfl, hx, hrest⟩ := List.map_eq_cons_iff.mp h.symm
      obtain ⟨hvalue, hweight⟩ := say_eq.mp hx
      cases rest with
      | nil =>
          obtain rfl := List.map_eq_nil_iff.mp hrest
          simp only [medianScan, hvalue, hweight]
      | cons y ys =>
          obtain ⟨y', ys', rfl, hy, -⟩ := List.map_eq_cons_iff.mp hrest
          have hscan : ∀ reached, medianScan total reached (y :: ys) =
              medianScan total reached (y' :: ys') := fun _ => ih hrest.symm
          simp only [medianScan_cons, hvalue, hweight, (say_eq.mp hy).1, hscan]

/-- The order of the weighted median, as far as it looks at the samples. -/
def BySay (u v : ℤ × ℕ) : Prop :=
  u.1 < v.1 ∨ (u.1 = v.1 ∧ u.2 ≤ v.2)

theorem bySay_antisymm {u v : ℤ × ℕ} (h : BySay u v) (h' : BySay v u) :
    u = v := by
  unfold BySay at h h'
  exact Prod.ext (by omega) (by omega)

theorem weightedMedian_say {total : ℕ}
    (h : (samples.map Sample.say).Perm (samples'.map Sample.say)) :
    weightedMedian samples total = weightedMedian samples' total := by
  have : Std.Total ByValue := ⟨byValue_total⟩
  have : IsTrans Sample ByValue := ⟨fun _ _ _ => byValue_trans⟩
  have hsorted (samples : List Sample) :
      ((samples.insertionSort ByValue).map Sample.say).Pairwise BySay :=
    List.pairwise_map.mpr (List.pairwise_insertionSort ByValue samples)
  have hperm (samples : List Sample) :
      ((samples.insertionSort ByValue).map Sample.say).Perm
        (samples.map Sample.say) :=
    (List.perm_insertionSort ByValue samples).map _
  refine medianScan_say (List.Perm.eq_of_pairwise
    (fun _ _ _ _ => bySay_antisymm) (hsorted samples) (hsorted samples') ?_)
  exact (hperm samples).trans (h.trans (hperm samples').symm)

/-- A saturating sum is a sum clamped to 128 bits. -/
theorem satSum_perm {xs ys : List ℤ} (hsteady : Steady minI128 maxI128 xs)
    (h : xs.Perm ys) : satSum xs = satSum ys :=
  hsteady.clampedSum_perm (by decide) (by decide) h

theorem weightedAverage_say {total : ℕ}
    (hsteady : Steady minI128 maxI128
      (samples.map fun x => satI128 (x.value * x.weight)))
    (h : (samples.map Sample.say).Perm (samples'.map Sample.say)) :
    weightedAverage samples total = weightedAverage samples' total := by
  have hterms (samples : List Sample) :
      (samples.map fun x => satI128 (x.value * x.weight)) =
        (samples.map Sample.say).map fun u => satI128 (u.1 * u.2) := by
    rw [List.map_map]
    rfl
  have hperm := h.map fun u => satI128 (u.1 * u.2)
  rw [← hterms, ← hterms] at hperm
  rw [weightedAverage, weightedAverage, satSum_perm hsteady hperm]

theorem mean_say
    (hsteady : Steady minI128 maxI128 (samples.map Sample.value))
    (h : (samples.map Sample.say).Perm (samples'.map Sample.say)) :
    mean samples = mean samples' := by
  have hvalues (samples : List Sample) :
      samples.map Sample.value = (samples.map Sample.say).map Prod.fst := by
    rw [List.map_map]
    rfl
  have hperm := h.map Prod.fst
  rw [← hvalues, ← hvalues] at hperm
  have hlength : samples.length = samples'.length := by
    simpa using h.length_eq
  rw [mean, mean, satSum_perm hsteady hperm, hlength]

end Methods

end Parashield.OracleVerifier
