import Parashield.OracleVerifier.Calls

/-!
# Oracle verifier: read paths

What the plaintext readings of a key are reported as.  Some of the read paths
refuse a data type that requires encryption, others report whatever is stored.
-/

namespace Parashield.OracleVerifier

open Support Check

namespace State

/-! ## Readings -/

/-- The reading with the newest timestamp, the first of these. -/
def latestPoint (first : OracleDataPoint) (points : List OracleDataPoint) :
    OracleDataPoint :=
  points.foldl
    (fun latest p => if latest.timestamp < p.timestamp then p else latest)
    first

/-- The most recent submission, if it is recent enough. -/
def getData (s : State) (now : ℕ) (dataType key : Symbol) :
    View OracleDataPoint := do
  let points ← unwrap (s.dataPoints (dataType, key))
    (.error .noDataAvailable)
  match points with
  | [] => .error (.error .noDataAvailable)
  | first :: rest => do
      let latest := latestPoint first rest
      require (now - latest.timestamp ≤ s.effectiveMaxAge dataType)
        (.error .noDataAvailable)
      pure latest

def getDataPoints (s : State) (dataType key : Symbol) :
    List OracleDataPoint :=
  (s.dataPoints (dataType, key)).getD []

def resolveConflictingReadings (s : State) (now : ℕ)
    (dataType key : Symbol) : View ℤ :=
  s.getMedianValue now dataType key

/-! ## Age of the readings -/

/-- Age of the newest of the readings, the largest age if there are none. -/
def newestAge (now : ℕ) (points : List OracleDataPoint) : ℕ :=
  points.foldl (fun age p => min age (now - p.timestamp)) maxU64

def checkFreshness (s : State) (now : ℕ) (dataType key : Symbol) :
    FreshnessReport :=
  let points := s.getDataPoints dataType key
  let maxAge := s.effectiveMaxAge dataType
  let freshCount :=
    (points.filter fun p => decide (now - p.timestamp ≤ maxAge)).length
  { dataType := dataType
    key := key
    isFresh := decide (max s.minOracleCount 1 ≤ freshCount)
    newestAge := newestAge now points
    freshCount := freshCount
    totalCount := points.length
    maxAge := maxAge }

def checkStaleness (s : State) (now : ℕ) (dataType key : Symbol) :
    StalenessReport :=
  let points := s.getDataPoints dataType key
  let maxAge := s.effectiveMaxAge dataType
  let fresh := points.filter fun p => decide (now - p.timestamp ≤ maxAge)
  let staleCount := points.length - fresh.length
  { dataType := dataType
    key := key
    isStale := decide (points = [] ∨ points.length / 2 < staleCount)
    oldestFreshAge := fresh.foldl (fun age p => max age (now - p.timestamp)) 0
    newestAge := newestAge now points
    staleCount := staleCount
    totalCount := points.length
    maxAge := maxAge
    freshnessRatioBps := fresh.length * 10000 / points.length }

/-! ## Regional aggregate -/

/-- Basis points, 10000 where nothing is configured. -/
def getOracleGeoWeight (s : State) (oracle : Address)
    (dataType region : Symbol) : ℕ :=
  (s.geoWeight (dataType, oracle, region)).getD 10000

/-- Weight of an oracle within a region, at least 1. -/
def regionalWeight (s : State) (entry : OracleEntry) (oracle : Address)
    (dataType region : Symbol) : ℕ :=
  max (entry.weight * s.getOracleGeoWeight oracle dataType region / 10000 %
    2 ^ 32) 1

/-- The readings young enough for the caller, with their regional weights.
Oracles that have gone offline count as well. -/
def regionalRows (s : State) (now : ℕ) (dataType : Symbol)
    (maxAgeSeconds : ℕ) (region : Symbol) (points : List OracleDataPoint) :
    List (OracleDataPoint × ℕ) :=
  points.filterMap fun p =>
    if now - p.timestamp ≤ maxAgeSeconds ∧ s.minConfidence ≤ p.confidence then
      match s.oracles (dataType, p.oracle) with
      | some entry =>
          if entry.active = true then
            some (p, s.regionalWeight entry p.oracle dataType region)
          else
            none
      | none => none
    else
      none

/-- The first value at which the accumulated weight reaches half, or the
fallback. -/
def regionalMedian (half : ℕ) (fallback : ℤ) : ℕ → List Sample → ℤ
  | _, [] => fallback
  | accum, x :: rest =>
      if half ≤ accum + x.weight then
        x.value
      else
        regionalMedian half fallback (accum + x.weight) rest

def getAggregatedForRegion (s : State) (now : ℕ) (dataType key : Symbol)
    (maxAgeSeconds : ℕ) (targetRegion : Symbol) : View AggregatedData := do
  let points ← unwrap (s.dataPoints (dataType, key))
    (.error .noDataAvailable)
  require (points ≠ []) (.error .noDataAvailable)
  let rows := s.regionalRows now dataType maxAgeSeconds targetRegion points
  let totalWeight ← unsigned 32 (rows.map Prod.snd).sum .trap
  let confidenceSum ←
    unsigned 64 (rows.map fun r => r.1.confidence * r.2).sum .trap
  let samples := (rows.take 100).map fun r =>
    { value := r.1.value
      weight := r.2
      timestamp := r.1.timestamp : Sample }
  match samples.insertionSort fun a b => a.value ≤ b.value with
  | [] => .error (.error .noDataAvailable)
  | lowest :: rest => do
      let slice := lowest :: rest
      let median := regionalMedian (totalWeight / 2) lowest.value 0 slice
      let interval := calculateConfidenceInterval slice totalWeight median
      pure
        { medianValue := median
          oracleCount := slice.length
          activeOracleCount := slice.length
          confidence := confidenceSum / totalWeight % 2 ^ 32
          minConfidence := rows.foldl (fun c r => min c r.1.confidence) 100
          lastUpdated := rows.foldl (fun t r => max t r.1.timestamp) 0
          confidenceIntervalLower := interval.1
          confidenceIntervalUpper := interval.2 }

/-! ## Confidence -/

/-- Saturating sum of unsigned 64-bit integers, in the order of the list. -/
def satSumU64 (xs : List ℕ) : ℕ :=
  xs.foldl satAddU64 0

def reputationWeightedConfidence (s : State) (now : ℕ)
    (dataType key : Symbol) : View ℕ := do
  let points ← unwrap (s.dataPoints (dataType, key))
    (.error .noDataAvailable)
  require (points ≠ []) (.error .noDataAvailable)
  let rows := (points.take 100).filterMap fun p =>
    if s.isFresh now dataType p then
      (s.liveEntry now dataType p).map fun entry =>
        (p, entry.effectiveWeight (s.getReputation p.oracle dataType))
    else
      none
  let weightedSum := satSumU64 (rows.map fun r => r.1.confidence * r.2)
  let totalWeight := satSumU64 (rows.map Prod.snd)
  pure
    (if totalWeight = 0 then 0
    else min (weightedSum / totalWeight % 2 ^ 32) 1000)

end State

/-! ## All read paths -/

/-- The read paths over the plaintext readings, with their arguments. -/
inductive Query where
  | getData (dataType key : Symbol)
  | getDataPoints (dataType key : Symbol)
  | getAggregated (dataType key : Symbol)
  | getAggregatedForRegion (dataType key : Symbol) (maxAgeSeconds : ℕ)
      (targetRegion : Symbol)
  | resolveConflictingReadings (dataType key : Symbol)
  | reputationWeightedConfidence (dataType key : Symbol)
  | checkFreshness (dataType key : Symbol)
  | checkStaleness (dataType key : Symbol)
  | verifyTrigger (dataType key : Symbol) (condition : TriggerCondition)
  | verifyTriggerFresh (dataType key : Symbol) (condition : TriggerCondition)
      (maxAgeSeconds : ℕ)
  | verifyTriggerWithConfidence (dataType key : Symbol)
      (condition : TriggerCondition)
  | batchVerifyFresh (queries : List OracleReadingQuery)

inductive Answer where
  | point (p : OracleDataPoint)
  | points (ps : List OracleDataPoint)
  | aggregated (agg : AggregatedData)
  | value (v : ℤ)
  | confidence (c : ℕ)
  | freshness (report : FreshnessReport)
  | staleness (report : StalenessReport)
  | verdict (result : Bool)
  | verdictWithConfidence (result : Bool × AggregatedData)
  | verdicts (results : List Bool)
  deriving DecidableEq, Repr

open Contract Invocation in
def ask (env : Env) : Query → Call Answer
  | .getData dataType key => do
      let s ← load
      Answer.point <$> check (s.getData env.now dataType key)
  | .getDataPoints dataType key => do
      let s ← load
      pure (.points (s.getDataPoints dataType key))
  | .getAggregated dataType key => do
      let s ← load
      Answer.aggregated <$> check (s.getAggregated env.now dataType key)
  | .getAggregatedForRegion dataType key maxAgeSeconds targetRegion => do
      let s ← load
      Answer.aggregated <$> check
        (s.getAggregatedForRegion env.now dataType key maxAgeSeconds
          targetRegion)
  | .resolveConflictingReadings dataType key => do
      let s ← load
      Answer.value <$> check
        (s.resolveConflictingReadings env.now dataType key)
  | .reputationWeightedConfidence dataType key => do
      let s ← load
      Answer.confidence <$> check
        (s.reputationWeightedConfidence env.now dataType key)
  | .checkFreshness dataType key => do
      let s ← load
      pure (.freshness (s.checkFreshness env.now dataType key))
  | .checkStaleness dataType key => do
      let s ← load
      pure (.staleness (s.checkStaleness env.now dataType key))
  | .verifyTrigger dataType key condition =>
      Answer.verdict <$> verifyTrigger env dataType key condition
  | .verifyTriggerFresh dataType key condition maxAgeSeconds =>
      Answer.verdict <$>
        verifyTriggerFresh env dataType key condition maxAgeSeconds
  | .verifyTriggerWithConfidence dataType key condition =>
      Answer.verdictWithConfidence <$>
        verifyTriggerWithConfidence env dataType key condition
  | .batchVerifyFresh queries =>
      Answer.verdicts <$> batchVerifyFresh env queries

end Parashield.OracleVerifier
