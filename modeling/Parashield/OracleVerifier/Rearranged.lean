import Parashield.OracleVerifier.Prevailing
import Parashield.OracleVerifier.Retention

/-!
# Aggregates of rearranged readings

Two stores that hold the same readings of a key in different orders are
evaluated alike under the weighted median.  Under the other methods they are if
no sum saturates and no two of the readings that count compete for a duration or
a place.
-/

namespace Parashield.OracleVerifier

open Support Check

namespace State

/-- What the readings of a key contribute to a verdict. -/
def samples (s : State) (now : ℕ) (dataType key : Symbol) : List Sample :=
  (s.eligible now dataType key).map (Row.sample (s.effective dataType))

/-- The aggregate of the samples that survived the filter. -/
def concluded (s : State) (now : ℕ) (dataType : Symbol) (kept : List Sample) :
    View ℤ := do
  let totalWeight ← unsigned 32 (kept.map Sample.weight).sum .trap
  require (s.minOracleCount ≤ kept.length ∧ kept ≠ [] ∧ totalWeight ≠ 0)
    (.error .noDataAvailable)
  aggregate (s.aggregationMethod dataType) now kept totalWeight

end State

/-- The stores hold the same readings of the key in some order, and judge them
alike. -/
structure Rearranged (now : ℕ) (dataType key : Symbol) (s s' : State) :
    Prop where
  points : (s.readings dataType key).Perm (s'.readings dataType key)
  fresh : ∀ p ∈ s.readings dataType key,
    s.isFresh now dataType p = s'.isFresh now dataType p
  live : ∀ p ∈ s.readings dataType key,
    s.liveEntry now dataType p = s'.liveEntry now dataType p
  reputation : ∀ p ∈ s.readings dataType key,
    s.getReputation p.oracle dataType = s'.getReputation p.oracle dataType
  outliers : s.outlierConfig dataType = s'.outlierConfig dataType
  method : s.aggregationMethod dataType = s'.aggregationMethod dataType
  minimum : s.minOracleCount = s'.minOracleCount

/-- The method does not look at the order of the samples that are kept. -/
def OrderFree (method : AggregationMethod) (now : ℕ)
    (samples kept : List Sample) : Prop :=
  match method with
  | .weightedMedian => True
  | .weightedAverage =>
      Steady minI128 maxI128
        (kept.map fun x => satI128 (x.value * x.weight))
  | .mean => Steady minI128 maxI128 (kept.map Sample.value)
  | .timeWeightedAverage => CleanCut samples kept ∧ Timely now kept

section Pipeline

variable {s s' : State} {now : ℕ} {dataType key : Symbol}

theorem getMedianValue_of_nil (h : s.readings dataType key = []) :
    s.getMedianValue now dataType key = .error (.error .noDataAvailable) := by
  unfold State.readings at h
  unfold State.getMedianValue
  cases hpoints : s.dataPoints (dataType, key) with
  | none => rfl
  | some points =>
      rw [hpoints] at h
      obtain rfl : points = [] := h
      rfl

theorem getMedianValue_of_ne (h : s.readings dataType key ≠ []) :
    s.getMedianValue now dataType key = (do
      let _ ← unsigned 32
        ((s.eligible now dataType key).map fun x => x.2.weight).sum .trap
      let kept ← filterOutliers (s.outlierConfig dataType)
        (s.samples now dataType key)
      s.concluded now dataType kept) := by
  unfold State.readings at h
  unfold State.getMedianValue
  cases hpoints : s.dataPoints (dataType, key) with
  | none =>
      rw [hpoints] at h
      exact absurd rfl h
  | some points =>
      rw [hpoints] at h
      have hne : points ≠ [] := h
      have hopen : (Check.require (points ≠ [])
          (Fault.error Error.noDataAvailable) : View Unit) = .ok () :=
        if_pos hne
      show (Check.require (points ≠ []) (Fault.error Error.noDataAvailable) >>=
        fun _ => _) = _
      rw [hopen]
      simp only [State.eligible_eq hpoints, State.aggregateSamples, bind_assoc,
        pure_bind, bind_pure]
      rfl

theorem samples_weight : ∀ x ∈ s.samples now dataType key, 1 ≤ x.weight := by
  intro x hx
  obtain ⟨row, -, rfl⟩ := List.mem_map.mp hx
  exact le_max_right _ 1

theorem Rearranged.eligible_perm (h : Rearranged now dataType key s s')
    (hlen : (s.readings dataType key).length ≤ maxDataPoints) :
    (s.eligible now dataType key).Perm (s'.eligible now dataType key) := by
  have hlen' : (s'.readings dataType key).length ≤ maxDataPoints :=
    h.points.length_eq ▸ hlen
  unfold State.readings at hlen hlen'
  unfold State.eligible
  rw [List.take_of_length_le hlen, List.take_of_length_le hlen']
  refine .trans (.of_eq (List.filterMap_congr fun p hp => ?_))
    (h.points.filterMap _)
  rw [h.fresh p hp, h.live p hp]

theorem Rearranged.samples_perm (h : Rearranged now dataType key s s')
    (hlen : (s.readings dataType key).length ≤ maxDataPoints) :
    (s.samples now dataType key).Perm (s'.samples now dataType key) := by
  refine .trans (.of_eq (List.map_congr_left fun x hx => ?_))
    ((h.eligible_perm hlen).map _)
  have hmem : x.1 ∈ s.readings dataType key := by
    obtain ⟨p, hp, hrow⟩ := List.mem_filterMap.mp hx
    split_ifs at hrow
    obtain ⟨entry, -, rfl⟩ := Option.map_eq_some_iff.mp hrow
    exact List.mem_of_mem_take hp
  rw [Row.sample, Row.sample, State.effective, State.effective,
    h.reputation x.1 hmem]

theorem aggregate_perm {method : AggregationMethod} {total : ℕ}
    {samples kept kept' : List Sample}
    (hfree : OrderFree method now samples kept)
    (hweight : ∀ x ∈ kept, 1 ≤ x.weight)
    (hsay : (kept.map Sample.say).Perm (kept'.map Sample.say))
    (hclean : CleanCut samples kept → kept.Perm kept') :
    aggregate method now kept total = aggregate method now kept' total := by
  cases method with
  | weightedMedian => exact weightedMedian_say hsay
  | weightedAverage => exact congrArg pure (weightedAverage_say hfree hsay)
  | mean => exact congrArg pure (mean_say hfree hsay)
  | timeWeightedAverage =>
      exact congrArg pure
        (timeWeightedAverage_perm hfree.2 hweight (hclean hfree.1))

theorem Rearranged.concluded_eq (h : Rearranged now dataType key s s')
    {kept kept' : List Sample}
    (hsay : (kept.map Sample.say).Perm (kept'.map Sample.say))
    (haggregate : ∀ total,
      aggregate (s.aggregationMethod dataType) now kept total =
        aggregate (s.aggregationMethod dataType) now kept' total) :
    s.concluded now dataType kept = s'.concluded now dataType kept' := by
  have hweights (kept : List Sample) :
      kept.map Sample.weight = (kept.map Sample.say).map Prod.snd := by
    rw [List.map_map]
    rfl
  have hsum : (kept.map Sample.weight).sum =
      (kept'.map Sample.weight).sum := by
    rw [hweights, hweights, (hsay.map Prod.snd).sum_eq]
  have hlength : kept.length = kept'.length := by
    simpa using hsay.length_eq
  have hnil : kept ≠ [] ↔ kept' ≠ [] := by
    rw [← List.length_pos_iff, ← List.length_pos_iff, hlength]
  rw [h.method] at haggregate
  simp only [State.concluded, hsum, hlength, hnil, h.minimum, h.method,
    haggregate]

end Pipeline

variable {self : Address} {w : World State} {s' : State} {dataType key : Symbol}

/-- Reachable stores with the same readings in different orders are evaluated
alike, unless sums saturate or times compete. -/
theorem aggregate_order_free (hreach : (system self).Reachable w)
    (h : Rearranged w.now dataType key w.machine.store s')
    (hfree : ∀ kept,
      filterOutliers (w.machine.store.outlierConfig dataType)
          (w.machine.store.samples w.now dataType key) = .ok kept →
        OrderFree (w.machine.store.aggregationMethod dataType) w.now
          (w.machine.store.samples w.now dataType key) kept) :
    w.machine.store.getMedianValue w.now dataType key =
      s'.getMedianValue w.now dataType key := by
  have hlen := readings_bounded hreach dataType key
  by_cases hnil : w.machine.store.readings dataType key = []
  · have hnil' := (h.points.symm.trans (.of_eq hnil)).eq_nil
    rw [getMedianValue_of_nil hnil, getMedianValue_of_nil hnil']
  · have hnil' : s'.readings dataType key ≠ [] :=
      fun hnil' => hnil (h.points.trans (.of_eq hnil')).eq_nil
    rw [getMedianValue_of_ne hnil, getMedianValue_of_ne hnil',
      ((h.eligible_perm hlen).map fun x => x.2.weight).sum_eq]
    refine congrArg _ (funext fun _ => ?_)
    rcases filterOutliers_perm (w.machine.store.outlierConfig dataType)
        (h.samples_perm hlen) with
      ⟨e, hfails, hfails'⟩ | ⟨kept, kept', hkept, hkept', hsay, hclean⟩
    · rw [← h.outliers, hfails, hfails']
      rfl
    · rw [← h.outliers, hkept, hkept']
      refine h.concluded_eq hsay fun total => ?_
      refine aggregate_perm (hfree kept hkept) (fun x hx => ?_) hsay hclean
      exact samples_weight x ((filterOutliers_sublist hkept).subset hx)

/-! ## Two readings of one time -/

namespace Scenario

/-- Both oracles report at one time, the first one first, and the aggregate is
weighted by time. -/
def firstRun : List (Label Entry) :=
  readingRun ++
    [.call [admin] (.setAggregationMethod admin Symbols.weather
      .timeWeightedAverage)]

/-- The same with the second oracle first. -/
def secondRun : List (Label Entry) :=
  readingRun.take 3 ++
    [.call [oracleB] (.submitData oracleB Symbols.weather rain 20 90 1000000),
      .call [oracleA] (.submitData oracleA Symbols.weather rain 10 90 1000000),
      .call [admin] (.setAggregationMethod admin Symbols.weather
        .timeWeightedAverage)]

def firstOrder : World State :=
  (TransitionSystem.execute (step exec verifier) firstRun genesis).get
    (by decide +kernel)

def secondOrder : World State :=
  (TransitionSystem.execute (step exec verifier) secondRun genesis).get
    (by decide +kernel)

/-- A minute later. -/
def firstLater : World State :=
  (TransitionSystem.execute (step exec verifier) (firstRun ++ [.tick 60])
    genesis).get (by decide +kernel)

def secondLater : World State :=
  (TransitionSystem.execute (step exec verifier) (secondRun ++ [.tick 60])
    genesis).get (by decide +kernel)

theorem firstOrder_reachable : (system verifier).Reachable firstOrder :=
  TransitionSystem.reachable_of_execute (fun _ _ _ => step_sound)
    ⟨rfl, rfl⟩ (Option.some_get _).symm

theorem firstLater_reachable : (system verifier).Reachable firstLater :=
  TransitionSystem.reachable_of_execute (fun _ _ _ => step_sound)
    ⟨rfl, rfl⟩ (Option.some_get _).symm

theorem secondLater_reachable : (system verifier).Reachable secondLater :=
  TransitionSystem.reachable_of_execute (fun _ _ _ => step_sound)
    ⟨rfl, rfl⟩ (Option.some_get _).symm

/-- The samples of both oracles. -/
def together : List Sample := [⟨10, 50, 1000000⟩, ⟨20, 50, 1000000⟩]

end Scenario

open Scenario in
/-- While both readings are fresh to the second, either may be first. -/
theorem aggregate_order_free_together :
    firstOrder.machine.store.getMedianValue firstOrder.now Symbols.weather
        rain =
      secondOrder.machine.store.getMedianValue firstOrder.now Symbols.weather
        rain := by
  have hsamples : firstOrder.machine.store.samples firstOrder.now
      Symbols.weather rain = together := by decide +kernel
  have hfilter : filterOutliers
      (firstOrder.machine.store.outlierConfig Symbols.weather) together =
        .ok together := by decide +kernel
  have hmethod : firstOrder.machine.store.aggregationMethod Symbols.weather =
      .timeWeightedAverage := by decide +kernel
  have hnow : firstOrder.now = 1000000 := by decide +kernel
  have hrearranged : Rearranged firstOrder.now Symbols.weather rain
      firstOrder.machine.store secondOrder.machine.store := by
    refine ⟨?_, ?_, ?_, ?_, ?_, ?_, ?_⟩ <;> decide +kernel
  refine aggregate_order_free firstOrder_reachable hrearranged
    fun kept hkept => ?_
  rw [hsamples, hfilter] at hkept
  obtain rfl := Except.ok.inj hkept
  rw [hsamples, hmethod, hnow]
  exact ⟨by decide, by decide⟩

open Scenario in
/-- Later the one that came last has prevailed. -/
theorem aggregate_order_matters :
    (system verifier).Reachable firstLater ∧
      (system verifier).Reachable secondLater ∧
      firstLater.now = secondLater.now ∧
      Rearranged firstLater.now Symbols.weather rain firstLater.machine.store
        secondLater.machine.store ∧
      firstLater.machine.store.getMedianValue firstLater.now Symbols.weather
          rain = .ok 19 ∧
      secondLater.machine.store.getMedianValue secondLater.now
          Symbols.weather rain = .ok 10 := by
  refine ⟨firstLater_reachable, secondLater_reachable, by decide +kernel,
    ⟨?_, ?_, ?_, ?_, ?_, ?_, ?_⟩, ?_, ?_⟩ <;> decide +kernel

end Parashield.OracleVerifier
