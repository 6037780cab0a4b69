import Parashield.OracleVerifier.Registry
import Mathlib.Data.List.Sort

/-!
# Oracle verifier: aggregation

The outlier filter and the four aggregation methods, on the readings that are
eligible for a key.  The code keeps them in parallel buffers of values,
weights and timestamps; a `Sample` is one row of these.
-/

namespace Parashield.OracleVerifier

open Support Check

structure Sample where
  value : ℤ
  weight : ℕ
  timestamp : ℕ
  deriving DecidableEq, Repr

/-! ## Outlier filter -/

/-- The middle of a sorted list, or the mean of its two middle elements. -/
def middle (xs : List ℤ) : View ℤ :=
  if xs.length % 2 = 1 then
    pure (xs.getD (xs.length / 2) 0)
  else do
    let sum ← i128
      (xs.getD (xs.length / 2 - 1) 0 + xs.getD (xs.length / 2) 0)
      (.overflow none)
    pure (sum.tdiv 2)

/-- Distance of a value from the median. -/
def deviation (median value : ℤ) : View ℤ := do
  let d ← i128 (value - median) (.overflow none)
  i128 |d| (.overflow none)

/-- The order in which samples are considered for removal: by deviation,
worst first, ties by value and then by weight. -/
def Worse (median : ℤ) (a b : Sample × ℕ) : Prop :=
  |b.1.value - median| < |a.1.value - median| ∨
    (|a.1.value - median| = |b.1.value - median| ∧
      (a.1.value < b.1.value ∨
        (a.1.value = b.1.value ∧ a.1.weight ≤ b.1.weight)))

instance (median : ℤ) : DecidableRel (Worse median) := fun _ _ =>
  inferInstanceAs (Decidable (_ ∨ _))

/-- How many of the values, worst first, lie beyond `limit`, when at least
`minKeep` of the `live` ones must stay. -/
def outlierCount (median limit : ℤ) (minKeep : ℕ) : ℕ → List ℤ → ℕ
  | _, [] => 0
  | live, v :: vs =>
      if live ≤ minKeep then
        0
      else if limit < satI128 (|v - median| * 10000) then
        outlierCount median limit minKeep (live - 1) vs + 1
      else
        0

/-- Whether the filter looks at `n` samples at all. -/
def OutlierConfig.applies (config : OutlierConfig) (n : ℕ) : Prop :=
  config.enabled = true ∧ 3 ≤ n ∧ config.minSampleSize ≤ n

instance (config : OutlierConfig) (n : ℕ) : Decidable (config.applies n) :=
  inferInstanceAs (Decidable (_ ∧ _))

/-- The samples with their positions, worst first. -/
def removalOrder (median : ℤ) (samples : List Sample) : List (Sample × ℕ) :=
  samples.zipIdx.insertionSort (Worse median)

/-- The median of the values and the largest deviation, in units of `1/10000`,
that is not an outlier. -/
def outlierBounds (config : OutlierConfig) (values : List ℤ) :
    View (ℤ × ℤ) := do
  let median ← middle (values.insertionSort (· ≤ ·))
  let deviations ← values.mapM (deviation median)
  let mad ← middle (deviations.insertionSort (· ≤ ·))
  pure (median, satI128 (config.thresholdBps * mad))

/-- Drop the samples at the first `count` positions of the removal order. -/
def dropOutliers (median : ℤ) (count : ℕ) (samples : List Sample) :
    List Sample :=
  let flagged := ((removalOrder median samples).take count).map Prod.snd
  (samples.zipIdx.filter fun p => decide (p.2 ∉ flagged)).map Prod.fst

/-- Drop outliers by their deviation from the median, measured against the
median deviation. -/
def filterOutliers (config : OutlierConfig) (samples : List Sample) :
    View (List Sample) :=
  if config.applies samples.length then do
    let (median, limit) ← outlierBounds config (samples.map Sample.value)
    let ranked := (removalOrder median samples).map fun p => p.1.value
    let count :=
      outlierCount median limit (max config.minSampleSize 1) samples.length
        ranked
    pure (dropOutliers median count samples)
  else
    pure samples

/-! ## Aggregation methods -/

/-- Order of the weighted median: by value, then by weight. -/
def ByValue (a b : Sample) : Prop :=
  a.value < b.value ∨ (a.value = b.value ∧ a.weight ≤ b.weight)

instance : DecidableRel ByValue := fun _ _ =>
  inferInstanceAs (Decidable (_ ∨ _))

/-- Walk up the sorted samples to the middle of the cumulative weight. -/
def medianScan (totalWeight : ℕ) : ℕ → List Sample → View ℤ
  | _, [] => .error .trap
  | cumulative, x :: rest => do
      let reached ← unsigned 32 (cumulative + x.weight) .trap
      if totalWeight / 2 < reached then
        pure x.value
      else if reached = totalWeight / 2 ∧ totalWeight % 2 = 0 then
        match rest with
        | y :: _ => do
            let sum ← i128 (x.value + y.value) (.overflow none)
            pure (sum.tdiv 2)
        | [] => pure x.value
      else
        match rest with
        | [] => pure x.value
        | _ :: _ => medianScan totalWeight reached rest

def weightedMedian (samples : List Sample) (totalWeight : ℕ) : View ℤ :=
  medianScan totalWeight 0 (samples.insertionSort ByValue)

/-- Saturating sum, in the order of the list. -/
def satSum (xs : List ℤ) : ℤ :=
  xs.foldl (fun sum x => satI128 (sum + x)) 0

def weightedAverage (samples : List Sample) (totalWeight : ℕ) : ℤ :=
  (satSum (samples.map fun x => satI128 (x.value * x.weight))).tdiv
    totalWeight

def mean (samples : List Sample) : ℤ :=
  (satSum (samples.map Sample.value)).tdiv samples.length

/-- Each sample's value and the weighted duration it prevailed for, until the
next sample's timestamp or until now; at least one second. -/
def weightedDurations (now : ℕ) : List Sample → List (ℤ × ℤ)
  | [] => []
  | x :: rest =>
      let finish :=
        match rest with
        | y :: _ => y.timestamp
        | [] => max now x.timestamp
      let duration := max (finish - x.timestamp) 1
      (x.value, satI128 (duration * x.weight)) :: weightedDurations now rest

/-- The code sorts by time with an unstable sort, which is stable on the ten
samples a data type can have. -/
def timeWeightedAverage (now : ℕ) (samples : List Sample) : ℤ :=
  match samples with
  | [x] => x.value
  | _ =>
      let active :=
        samples.insertionSort fun a b => a.timestamp ≤ b.timestamp
      let rows := weightedDurations now active
      let weightedSum := satSum (rows.map fun r => satI128 (r.1 * r.2))
      let totalWeightedDuration := satSum (rows.map Prod.snd)
      if totalWeightedDuration = 0 then
        (active.getLast?.map Sample.value).getD 0
      else
        weightedSum.tdiv totalWeightedDuration

/-- Dispatch on the configured method. -/
def aggregate (method : AggregationMethod) (now : ℕ) (samples : List Sample)
    (totalWeight : ℕ) : View ℤ :=
  match method with
  | .weightedMedian => weightedMedian samples totalWeight
  | .weightedAverage => pure (weightedAverage samples totalWeight)
  | .mean => pure (mean samples)
  | .timeWeightedAverage => pure (timeWeightedAverage now samples)

/-- Saturating sum of squared deviations from the aggregate. -/
def sumSquaredDeviations (center : ℤ) (samples : List Sample) : ℤ :=
  satSum (samples.map fun x =>
    satI128 (satI128 (x.value - center) * satI128 (x.value - center)))

/-- Interval around the aggregate, wider for fewer samples. -/
def calculateConfidenceInterval (samples : List Sample) (totalWeight : ℕ)
    (center : ℤ) : ℤ × ℤ :=
  let spread := sumSquaredDeviations center samples
  if samples = [] ∨ totalWeight = 0 ∨ spread = 0 ∨ samples.length ≤ 1 then
    (center, center)
  else
    let variance := spread.tdiv samples.length
    let margin :=
      if samples.length < 10 then variance.tdiv 2
      else if samples.length < 50 then variance.tdiv 4
      else variance.tdiv 8
    (satI128 (center - margin), satI128 (center + margin))

/-! ## Eligible readings -/

namespace State

/-- Recent enough, and confident enough, to be evaluated. -/
def isFresh (s : State) (now : ℕ) (dataType : Symbol)
    (p : OracleDataPoint) : Bool :=
  decide (now - p.timestamp ≤ s.effectiveMaxAge dataType) &&
    decide (s.minConfidence ≤ p.confidence)

/-- The registration of a reading's oracle, if it is active and online. -/
def liveEntry (s : State) (now : ℕ) (dataType : Symbol)
    (p : OracleDataPoint) : Option OracleEntry :=
  match s.oracles (dataType, p.oracle) with
  | some entry =>
      if entry.active = true ∧
          s.oracleOffline now dataType p.oracle = false then
        some entry
      else
        none
  | none => none

end State

/-- Weight of an oracle scaled by its reputation, at least 1. -/
def OracleEntry.effectiveWeight (entry : OracleEntry)
    (rep : OracleReputation) : ℕ :=
  max (entry.weight * rep.score / 1000 % 2 ^ 32) 1

def State.getEffectiveWeight (s : State) (oracle : Address)
    (dataType : Symbol) : View ℕ := do
  let entry ← unwrap (s.oracles (dataType, oracle))
    (.error .oracleNotRegistered)
  pure (entry.effectiveWeight (s.getReputation oracle dataType))

/-- The common end of both aggregations: filter, check participation, and
dispatch.  Returns the samples that survived, their weight and the value. -/
def State.aggregateSamples (s : State) (now : ℕ) (dataType : Symbol)
    (samples : List Sample) : View (List Sample × ℕ × ℤ) := do
  let kept ← filterOutliers (s.outlierConfig dataType) samples
  let totalWeight ← unsigned 32 (kept.map Sample.weight).sum .trap
  require (s.minOracleCount ≤ kept.length ∧ kept ≠ [] ∧ totalWeight ≠ 0)
    (.error .noDataAvailable)
  let value ← aggregate (s.aggregationMethod dataType) now kept totalWeight
  pure (kept, totalWeight, value)

/-- The value a trigger is evaluated against: the aggregate under effective
weights. -/
def State.getMedianValue (s : State) (now : ℕ) (dataType key : Symbol) :
    View ℤ := do
  let points ← unwrap (s.dataPoints (dataType, key))
    (.error .noDataAvailable)
  require (points ≠ []) (.error .noDataAvailable)
  let eligible := (points.take maxDataPoints).filterMap fun p =>
    if s.isFresh now dataType p then
      (s.liveEntry now dataType p).map fun entry => (p, entry)
    else
      none
  let _ ← unsigned 32 (eligible.map fun x => x.2.weight).sum .trap
  -- the entry is in storage, so `get_effective_weight` finds it
  let samples := eligible.map fun x =>
    { value := x.1.value
      weight := x.2.effectiveWeight (s.getReputation x.1.oracle dataType)
      timestamp := x.1.timestamp : Sample }
  let (_, _, value) ← s.aggregateSamples now dataType samples
  pure value

/-- Aggregated statistics of a key, under registered weights. -/
def State.getAggregated (s : State) (now : ℕ) (dataType key : Symbol) :
    View AggregatedData := do
  require (s.encryptionRequired dataType = false) (.error .noDataAvailable)
  let points ← unwrap (s.dataPoints (dataType, key))
    (.error .noDataAvailable)
  require (points ≠ []) (.error .noDataAvailable)
  let counted := (points.take maxDataPoints).filterMap fun p =>
    (s.liveEntry now dataType p).map fun entry => (p, entry)
  let eligible := counted.filter fun x => s.isFresh now dataType x.1
  let _ ← unsigned 32 (eligible.map fun x => x.2.weight).sum .trap
  let samples := eligible.map fun x =>
    { value := x.1.value
      weight := x.2.weight
      timestamp := x.1.timestamp : Sample }
  let (kept, totalWeight, value) ← s.aggregateSamples now dataType samples
  let weightSum := (counted.map fun x => x.2.weight).sum
  let confidenceSum := (counted.map fun x => x.1.confidence * x.2.weight).sum
  let interval := calculateConfidenceInterval kept totalWeight value
  pure
    { medianValue := value
      oracleCount := counted.length
      activeOracleCount := (s.oracleList dataType).length
      confidence :=
        if weightSum = 0 then 0
        else min (confidenceSum / weightSum) (2 ^ 32 - 1)
      minConfidence := counted.foldl (fun c x => min c x.1.confidence) 100
      lastUpdated := counted.foldl (fun t x => max t x.1.timestamp) 0
      confidenceIntervalLower := interval.1
      confidenceIntervalUpper := interval.2 }

end Parashield.OracleVerifier
