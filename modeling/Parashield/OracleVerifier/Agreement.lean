import Parashield.OracleVerifier.Calls
import Parashield.OracleVerifier.Reweighting
import Mathlib.Algebra.Order.Ring.Abs
import Mathlib.Algebra.Order.Ring.Int

/-!
# The reported and the evaluated aggregate

`get_aggregated` weights readings by registered weights, the verdict of
`verify_trigger` by effective weights.  They agree when the two weightings have
the same say under the configured method, and can disagree otherwise.
-/

namespace Parashield.OracleVerifier

open Support Check

/-! ## Sums that do not saturate -/

theorem satI128_of_abs_le {x : ℤ} (h : |x| ≤ maxI128) : satI128 x = x := by
  have hbounds := abs_le.mp h
  unfold satI128
  simp only [maxI128, minI128] at *
  omega

theorem foldl_sat_eq {xs : List ℤ} {acc : ℤ}
    (h : |acc| + (xs.map fun x => |x|).sum ≤ maxI128) :
    xs.foldl (fun sum x => satI128 (sum + x)) acc = acc + xs.sum := by
  induction xs generalizing acc with
  | nil => simp
  | cons x xs ih =>
      simp only [List.map_cons, List.sum_cons] at h
      have htriangle : |acc + x| ≤ |acc| + |x| := abs_add_le acc x
      have hrest : 0 ≤ (xs.map fun x => |x|).sum := by
        apply List.sum_nonneg
        intro y hy
        obtain ⟨z, -, rfl⟩ := List.mem_map.mp hy
        exact abs_nonneg z
      have hfits : satI128 (acc + x) = acc + x :=
        satI128_of_abs_le (by omega)
      rw [List.foldl_cons, hfits, ih (by omega), List.sum_cons]
      omega

/-- A sum whose terms are small enough is not clamped. -/
theorem satSum_eq_sum {xs : List ℤ}
    (h : (xs.map fun x => |x|).sum ≤ maxI128) : satSum xs = xs.sum := by
  rw [satSum, foldl_sat_eq]
  · simp
  · simpa using h

/-- Bounded terms add up to at most their number times the bound. -/
theorem sum_abs_le {xs : List ℤ} {bound : ℤ} (h : ∀ x ∈ xs, |x| ≤ bound) :
    (xs.map fun x => |x|).sum ≤ xs.length * bound := by
  induction xs with
  | nil => simp
  | cons x xs ih =>
      have hx := h x List.mem_cons_self
      have hxs := ih fun y hy => h y (List.mem_cons_of_mem x hy)
      simp only [List.map_cons, List.sum_cons, List.length_cons, Nat.cast_add,
        Nat.cast_one, add_mul, one_mul]
      omega

/-! ## The methods under two weightings -/

section Methods

variable {a b : ℕ} {L M : List Row} {w w' : Row → ℕ}

theorem medianScan_congr (h : Scaled a b M w w') {t t' c c' : ℕ}
    (ht : a * t = b * t') (hc : a * c = b * c') {v v' : ℤ}
    (hv : medianScan t c (M.map (Row.sample w)) = .ok v)
    (hv' : medianScan t' c' (M.map (Row.sample w')) = .ok v') :
    v = v' := by
  induction M generalizing c c' with
  | nil => cases hv
  | cons x xs ih =>
      simp only [List.map_cons, medianScan, bind_ok, unsigned_ok,
        Row.sample_weight, Row.sample_value] at hv hv'
      obtain ⟨_, ⟨-, rfl⟩, hv⟩ := hv
      obtain ⟨_, ⟨-, rfl⟩, hv'⟩ := hv'
      have hreached : a * (c + w x) = b * (c' + w' x) := by
        rw [Nat.mul_add, Nat.mul_add, hc, h.scale x List.mem_cons_self]
      have hpast := half_lt_iff h.left_pos h.right_pos ht hreached
      have hexact := exact_half_iff h.left_pos h.right_pos ht hreached
      by_cases hlt : t / 2 < c + w x
      · rw [if_pos hlt, pure_ok] at hv
        rw [if_pos (hpast.mp hlt), pure_ok] at hv'
        rw [hv, hv']
      · rw [if_neg hlt] at hv
        rw [if_neg (mt hpast.mpr hlt)] at hv'
        by_cases heq : c + w x = t / 2 ∧ t % 2 = 0
        · rw [if_pos heq] at hv
          rw [if_pos (hexact.mp heq)] at hv'
          cases xs with
          | nil =>
              simp only [List.map_nil, pure_ok] at hv hv'
              rw [hv, hv']
          | cons y ys =>
              simp only [List.map_cons, bind_ok, i128_ok, pure_ok,
                Row.sample_value] at hv hv'
              obtain ⟨_, ⟨-, rfl⟩, rfl⟩ := hv
              obtain ⟨_, ⟨-, rfl⟩, rfl⟩ := hv'
              rfl
        · rw [if_neg heq] at hv
          rw [if_neg (mt hexact.mpr heq)] at hv'
          cases xs with
          | nil =>
              simp only [List.map_nil, pure_ok] at hv hv'
              rw [hv, hv']
          | cons y ys =>
              have htail : Scaled a b (y :: ys) w w' :=
                h.mono fun z hz => List.mem_cons_of_mem x hz
              exact ih htail hreached hv hv'

theorem weightedMedian_congr (h : Scaled a b M w w') {v v' : ℤ}
    (hv : weightedMedian (M.map (Row.sample w)) (M.map w).sum = .ok v)
    (hv' : weightedMedian (M.map (Row.sample w')) (M.map w').sum =
      .ok v') : v = v' := by
  rw [weightedMedian, insertionSort_map] at hv hv'
  have hsort :
      M.insertionSort (fun x y => ByValue (x.sample w) (y.sample w)) =
        M.insertionSort fun x y => ByValue (x.sample w') (y.sample w') :=
    insertionSort_congr fun x hx y hy => byValue_iff h hx hy
  rw [hsort] at hv
  have hsorted : Scaled a b
      (M.insertionSort fun x y => ByValue (x.sample w') (y.sample w')) w w' :=
    h.mono fun x hx => (List.mem_insertionSort _).mp hx
  exact medianScan_congr hsorted h.sum (by simp) hv hv'

/-- Readings within the accepted range. -/
def Bounded (L : List Row) : Prop := ∀ x ∈ L, |x.1.value| ≤ maxDataValue

instance (L : List Row) : Decidable (Bounded L) :=
  inferInstanceAs (Decidable (∀ x ∈ L, |x.1.value| ≤ maxDataValue))

/-- The weighted sum of readings within range is at most the total weight
times the range. -/
theorem weighted_abs_le (hM : Bounded M) :
    ((M.map fun x => x.1.value * w x).map fun x => |x|).sum ≤
      maxDataValue * (M.map w).sum := by
  induction M with
  | nil => simp
  | cons x xs ih =>
      have hx := hM x List.mem_cons_self
      have hxs := ih fun y hy => hM y (List.mem_cons_of_mem x hy)
      simp only [List.map_cons, List.sum_cons, Nat.cast_add, mul_add, abs_mul,
        Nat.abs_cast]
      exact Int.add_le_add
        (Int.mul_le_mul_of_nonneg_right hx (Int.natCast_nonneg _)) hxs

theorem weightedAverage_eq (hM : Bounded M) (htotal : (M.map w).sum < 2 ^ 32) :
    weightedAverage (M.map (Row.sample w)) (M.map w).sum =
      (M.map fun x => x.1.value * w x).sum.tdiv (M.map w).sum := by
  have hsum := weighted_abs_le (w := w) hM
  have hfits : maxDataValue * ((M.map w).sum : ℤ) ≤ maxI128 := by
    simp only [maxDataValue, maxI128]
    omega
  have hterms :
      ((M.map (Row.sample w)).map fun x => satI128 (x.value * x.weight)) =
        M.map fun x => x.1.value * w x := by
    rw [List.map_map]
    apply List.map_congr_left
    intro x hx
    apply satI128_of_abs_le
    have hmem : |x.1.value * w x| ≤
        ((M.map fun x => x.1.value * w x).map fun x => |x|).sum := by
      apply List.single_le_sum
      · intro y hy
        obtain ⟨z, -, rfl⟩ := List.mem_map.mp hy
        exact abs_nonneg z
      · exact List.mem_map_of_mem (List.mem_map_of_mem hx)
    exact hmem.trans (hsum.trans hfits)
  rw [weightedAverage, hterms, satSum_eq_sum (hsum.trans hfits)]

theorem weightedAverage_congr (h : Scaled a b M w w') (hM : Bounded M)
    (htotal : (M.map w).sum < 2 ^ 32) (htotal' : (M.map w').sum < 2 ^ 32) :
    weightedAverage (M.map (Row.sample w)) (M.map w).sum =
      weightedAverage (M.map (Row.sample w')) (M.map w').sum := by
  rw [weightedAverage_eq hM htotal, weightedAverage_eq hM htotal']
  exact h.weightedMean fun x => x.1.value

theorem mean_eq (hM : Bounded M) (hlen : M.length ≤ maxDataPoints) :
    mean (M.map (Row.sample w)) =
      (M.map fun x : Row => x.1.value).sum.tdiv M.length := by
  have hbound : ∀ v ∈ M.map (fun x : Row => x.1.value), |v| ≤ maxDataValue := by
    intro v hv
    obtain ⟨x, hx, rfl⟩ := List.mem_map.mp hv
    exact hM x hx
  have hsum := sum_abs_le hbound
  rw [mean, map_sample_value, satSum_eq_sum, List.length_map]
  rw [List.length_map] at hsum
  simp only [maxDataValue, maxDataPoints, maxI128] at *
  omega

theorem mean_congr {M' : List Row} (hM : Bounded M) (hM' : Bounded M')
    (hlen : M.length ≤ maxDataPoints) (hlen' : M'.length ≤ maxDataPoints)
    (hvalues : (M.map fun x => x.1.value).Perm (M'.map fun x => x.1.value)) :
    mean (M.map (Row.sample w)) = mean (M'.map (Row.sample w')) := by
  have hlength : M.length = M'.length := by
    simpa using hvalues.length_eq
  rw [mean_eq hM hlen, mean_eq hM' hlen', hvalues.sum_eq, hlength]

/-! ## Weightings with the same say -/

/-- The two weightings lead to the same aggregate of the rows `L`. -/
inductive SameSay (s : State) (dataType : Symbol) (L : List Row)
    (w w' : Row → ℕ) : Prop
  | equal : (∀ x ∈ L, w x = w' x) → SameSay s dataType L w w'
  | shares : s.aggregationMethod dataType = .weightedMedian →
      Proportional L w w' → SameSay s dataType L w w'
  | average : s.aggregationMethod dataType = .weightedAverage →
      Proportional L w w' → Bounded L → SameSay s dataType L w w'
  | unweighted : s.aggregationMethod dataType = .mean →
      (s.outlierConfig dataType).enabled = false ∨ Bounded L →
      SameSay s dataType L w w'

theorem aggregateSamples_spec {s : State} {now : ℕ} {dataType : Symbol}
    {kept : List Sample} {total : ℕ} {v : ℤ}
    (h : s.aggregateSamples now dataType (L.map (Row.sample w)) =
      .ok (kept, total, v)) :
    ∃ M, filterRows (s.outlierConfig dataType) w L = .ok M ∧
      (M.map w).sum < 2 ^ 32 ∧
      aggregate (s.aggregationMethod dataType) now (M.map (Row.sample w))
        (M.map w).sum = .ok v := by
  simp only [State.aggregateSamples, bind_ok, unsigned_ok, require_ok,
    pure_ok, Prod.mk.injEq] at h
  obtain ⟨_, hfilter, _, ⟨htotal, rfl⟩, _, -, _, hvalue, rfl, rfl, rfl⟩ := h
  obtain ⟨M, hM, rfl⟩ := filterOutliers_ok hfilter
  rw [map_sample_weight] at htotal hvalue
  exact ⟨M, hM, htotal, hvalue⟩

theorem filterRows_disabled {config : OutlierConfig}
    (h : config.enabled = false) (w : Row → ℕ) (L : List Row) :
    filterRows config w L = .ok L := by
  unfold filterRows
  rw [if_neg]
  · rfl
  · rintro ⟨henabled, -⟩
    rw [h] at henabled
    cases henabled

/-- Weightings with the same say yield the same aggregate. -/
theorem aggregateSamples_congr {s : State} {now : ℕ} {dataType : Symbol}
    (hsay : SameSay s dataType L w w') (hlen : L.length ≤ maxDataPoints)
    {kept kept' : List Sample} {total total' : ℕ} {v v' : ℤ}
    (h : s.aggregateSamples now dataType (L.map (Row.sample w)) =
      .ok (kept, total, v))
    (h' : s.aggregateSamples now dataType (L.map (Row.sample w')) =
      .ok (kept', total', v')) : v = v' := by
  cases hsay with
  | equal heq =>
      have hsamples : L.map (Row.sample w) = L.map (Row.sample w') := by
        apply List.map_congr_left
        intro x hx
        rw [Row.sample, Row.sample, heq x hx]
      rw [hsamples, h'] at h
      simp only [Except.ok.injEq, Prod.mk.injEq] at h
      exact h.2.2.symm
  | shares hmethod hprop =>
      obtain ⟨a, b, hscaled⟩ := hprop
      obtain ⟨M, hM, -, hv⟩ := aggregateSamples_spec h
      obtain ⟨M', hM', -, hv'⟩ := aggregateSamples_spec h'
      rw [filterRows_congr hscaled] at hM
      obtain rfl : M = M' := by simpa [hM] using hM'
      rw [hmethod] at hv hv'
      exact weightedMedian_congr (hscaled.mono (filterRows_subset hM)) hv hv'
  | average hmethod hprop hbounded =>
      obtain ⟨a, b, hscaled⟩ := hprop
      obtain ⟨M, hM, htotal, hv⟩ := aggregateSamples_spec h
      obtain ⟨M', hM', htotal', hv'⟩ := aggregateSamples_spec h'
      rw [filterRows_congr hscaled] at hM
      obtain rfl : M = M' := by simpa [hM] using hM'
      have hsub := filterRows_subset hM
      rw [hmethod] at hv hv'
      rw [pure_ok.mp hv, pure_ok.mp hv']
      exact weightedAverage_congr (hscaled.mono hsub)
        (fun x hx => hbounded x (hsub x hx)) htotal htotal'
  | unweighted hmethod hcase =>
      obtain ⟨M, hM, -, hv⟩ := aggregateSamples_spec h
      obtain ⟨M', hM', -, hv'⟩ := aggregateSamples_spec h'
      rw [hmethod] at hv hv'
      rw [pure_ok.mp hv, pure_ok.mp hv']
      rcases hcase with hoff | hbounded
      · rw [filterRows_disabled hoff] at hM hM'
        obtain rfl := Except.ok.inj hM
        obtain rfl := Except.ok.inj hM'
        simp only [mean, map_sample_value, List.length_map]
      · have hlenM := (filterRows_length hM).trans hlen
        have hlenM' := (filterRows_length hM').trans hlen
        exact mean_congr
          (fun x hx => hbounded x (filterRows_subset hM x hx))
          (fun x hx => hbounded x (filterRows_subset hM' x hx))
          hlenM hlenM' (filterRows_values hM hM')

end Methods

/-! ## The two pipelines -/

namespace State

/-- The readings of a key that count, with the oracles' registrations. -/
def eligible (s : State) (now : ℕ) (dataType key : Symbol) : List Row :=
  (((s.dataPoints (dataType, key)).getD []).take maxDataPoints).filterMap
    fun p =>
      if s.isFresh now dataType p then
        (s.liveEntry now dataType p).map fun entry => (p, entry)
      else
        none

/-- The weight a verdict gives an oracle: scaled by its reputation. -/
def effective (s : State) (dataType : Symbol) (x : Row) : ℕ :=
  x.2.effectiveWeight (s.getReputation x.1.oracle dataType)

theorem eligible_length (s : State) (now : ℕ) (dataType key : Symbol) :
    (s.eligible now dataType key).length ≤ maxDataPoints := by
  unfold eligible
  refine (List.length_filterMap_le _ _).trans ?_
  rw [List.length_take]
  exact Nat.min_le_left _ _

/-- The readings that count, as both aggregates collect them. -/
theorem eligible_eq {s : State} {now : ℕ} {dataType key : Symbol}
    {points : List OracleDataPoint}
    (h : s.dataPoints (dataType, key) = some points) :
    ((points.take maxDataPoints).filterMap fun p =>
      if s.isFresh now dataType p then
        (s.liveEntry now dataType p).map fun entry => (p, entry)
      else
        none) = s.eligible now dataType key := by
  rw [eligible, h]
  rfl

/-- Sorting out by registration first and by freshness second comes to the
same as the other way round. -/
theorem filter_filterMap_fresh (s : State) (now : ℕ) (dataType : Symbol)
    (points : List OracleDataPoint) :
    (points.filterMap fun p =>
        (s.liveEntry now dataType p).map fun entry => (p, entry)).filter
        (fun x => s.isFresh now dataType x.1) =
      points.filterMap fun p =>
        if s.isFresh now dataType p then
          (s.liveEntry now dataType p).map fun entry => (p, entry)
        else
          none := by
  induction points with
  | nil => rfl
  | cons p ps ih =>
      cases hlive : s.liveEntry now dataType p with
      | none => simp [hlive, ih]
      | some entry =>
          cases hfresh : s.isFresh now dataType p with
          | false => simp [hlive, hfresh, ih]
          | true => simp [hlive, hfresh, ih]

/-- A verdict evaluates the eligible readings under effective weights. -/
theorem getMedianValue_spec {s : State} {now : ℕ} {dataType key : Symbol}
    {v : ℤ} (h : s.getMedianValue now dataType key = .ok v) :
    ∃ kept total,
      s.aggregateSamples now dataType
          ((s.eligible now dataType key).map
            (Row.sample (s.effective dataType))) =
        .ok (kept, total, v) := by
  simp only [getMedianValue, bind_ok, unwrap_ok, require_ok, unsigned_ok,
    pure_ok] at h
  obtain ⟨points, hpoints, _, -, _, -, ⟨kept, total, _⟩, hagg, rfl⟩ := h
  refine ⟨kept, total, ?_⟩
  rw [eligible, hpoints]
  exact hagg

/-- The report aggregates the eligible readings under registered weights. -/
theorem getAggregated_spec {s : State} {now : ℕ} {dataType key : Symbol}
    {agg : AggregatedData} (h : s.getAggregated now dataType key = .ok agg) :
    ∃ kept total,
      s.aggregateSamples now dataType
          ((s.eligible now dataType key).map
            (Row.sample fun x => x.2.weight)) =
        .ok (kept, total, agg.medianValue) := by
  simp only [getAggregated, bind_ok, unwrap_ok, require_ok, unsigned_ok,
    pure_ok] at h
  obtain ⟨_, -, points, hpoints, _, -, _, -, ⟨kept, total, _⟩, hagg, rfl⟩ := h
  refine ⟨kept, total, ?_⟩
  rw [eligible, hpoints, Option.getD_some, ← filter_filterMap_fresh]
  exact hagg

end State

/-- Where effective and registered weights have the same say, the reported
aggregate is the one a verdict is evaluated on, and both verdicts agree. -/
theorem reported_eq_evaluated {env : Env} {m : Machine State}
    {dataType key : Symbol}
    (hsay : SameSay m.store dataType (m.store.eligible env.now dataType key)
      (m.store.effective dataType) fun x => x.2.weight) :
    (∀ agg v, m.store.getAggregated env.now dataType key = .ok agg →
      m.store.getMedianValue env.now dataType key = .ok v →
      agg.medianValue = v) ∧
    ∀ condition b b' agg m₁ m₂,
      verifyTrigger env dataType key condition m = .ok (b, m₁) →
      verifyTriggerWithConfidence env dataType key condition m =
        .ok ((b', agg), m₂) → b' = b := by
  have hvalues : ∀ agg v,
      m.store.getAggregated env.now dataType key = .ok agg →
      m.store.getMedianValue env.now dataType key = .ok v →
      agg.medianValue = v := by
    intro agg v hagg hv
    obtain ⟨kept, total, hreported⟩ := State.getAggregated_spec hagg
    obtain ⟨kept', total', hevaluated⟩ := State.getMedianValue_spec hv
    exact (aggregateSamples_congr hsay
      (State.eligible_length m.store env.now dataType key) hevaluated
      hreported).symm
  refine ⟨hvalues, ?_⟩
  intro condition b b' agg m₁ m₂ hverify hreport
  obtain ⟨v, hv, hb, -⟩ := verifyTrigger_spec hverify
  obtain ⟨hagg, hb', -⟩ := verifyTriggerWithConfidence_spec hreport
  rw [hvalues agg v hagg hv, hb] at hb'
  exact (Except.ok.inj hb').symm

/-! ## Two oracles of nearly equal weight -/

namespace Scenario

def verifier : Address := .contract 3
def admin : Address := .account 1
def oracleA : Address := .contract 10
def oracleB : Address := .contract 11
def rain : Symbol := ⟨['r', 'a', 'i', 'n']⟩

/-- More than 16 units of rain. -/
def wet : TriggerCondition where
  dataType := Symbols.weather
  key := rain
  threshold := 16
  comparison := .greaterThan
  tolerance := 5

def genesis : World State where
  now := 1000000
  machine := { store := State.deployed, bank := ⟨fun _ => none, []⟩ }

/-- Two oracles of weight 100 and 101 report 10 and 20. -/
def readingRun : List (Label Entry) :=
  [.call [admin] (.initializeVerifier admin),
    .call [admin] (.addOracle admin oracleA Symbols.weather 100),
    .call [admin] (.addOracle admin oracleB Symbols.weather 101),
    .call [oracleA] (.submitData oracleA Symbols.weather rain 10 90 1000000),
    .call [oracleB] (.submitData oracleB Symbols.weather rain 20 90 1000000)]

/-- The same with full reputation for both. -/
def trustedRun : List (Label Entry) :=
  readingRun ++
    [.call [admin] (.setReputation admin oracleA Symbols.weather 1000),
      .call [admin] (.setReputation admin oracleB Symbols.weather 1000)]

def reported : World State :=
  (TransitionSystem.execute (step exec verifier) readingRun genesis).get
    (by decide +kernel)

def trusted : World State :=
  (TransitionSystem.execute (step exec verifier) trustedRun genesis).get
    (by decide +kernel)

theorem reported_reachable : (system verifier).Reachable reported :=
  TransitionSystem.reachable_of_execute (fun _ _ _ => step_sound)
    ⟨rfl, rfl⟩ (Option.some_get _).symm

/-- What the aggregate of both readings is reported as. -/
def report : AggregatedData where
  medianValue := 20
  oracleCount := 2
  activeOracleCount := 2
  confidence := 90
  minConfidence := 90
  lastUpdated := 1000000
  confidenceIntervalLower := -5
  confidenceIntervalUpper := 45

end Scenario

open Scenario in
/-- At full reputation the report is what a verdict is evaluated on. -/
theorem reported_eq_evaluated_trusted :
    trusted.machine.store.getAggregated trusted.now Symbols.weather rain =
        .ok report ∧
      trusted.machine.store.getMedianValue trusted.now Symbols.weather rain =
        .ok 20 ∧
      report.medianValue = 20 := by
  have hagg :
      trusted.machine.store.getAggregated trusted.now Symbols.weather rain =
        .ok report := by
    decide +kernel
  have hmedian :
      trusted.machine.store.getMedianValue trusted.now Symbols.weather rain =
        .ok 20 := by
    decide +kernel
  have hweights : ∀ x ∈ trusted.machine.store.eligible trusted.now
      Symbols.weather rain,
      trusted.machine.store.effective Symbols.weather x = x.2.weight := by
    decide +kernel
  exact ⟨hagg, hmedian,
    (@reported_eq_evaluated (callEnv verifier trusted []) trusted.machine
      Symbols.weather rain (.equal hweights)).1 report 20 hagg hmedian⟩

open Scenario in
/-- At default reputation the weights round to the same 50, and the report
names the second reading where the verdict is evaluated on the midpoint. -/
theorem reported_ne_evaluated :
    (system verifier).Reachable reported ∧
      reported.machine.store.getAggregated reported.now Symbols.weather
          rain = .ok report ∧
      reported.machine.store.getMedianValue reported.now Symbols.weather
          rain = .ok 15 ∧
      report.medianValue ≠ 15 ∧
      (verifyTriggerWithConfidence (callEnv verifier reported [])
        Symbols.weather rain wet reported.machine).map Prod.fst =
          .ok (true, report) ∧
      (verifyTrigger (callEnv verifier reported []) Symbols.weather rain wet
        reported.machine).map Prod.fst = .ok false := by
  refine ⟨reported_reachable, ?_, ?_, ?_, ?_, ?_⟩ <;> decide +kernel

end Parashield.OracleVerifier
