import Parashield.OracleVerifier.Aggregation

/-!
# Oracle verifier: verification

Evaluation of trigger conditions, and the reputation update that follows it.
-/

namespace Parashield.OracleVerifier

open Support Support.Contract Invocation

/-- Compare the aggregate with the threshold. -/
def TriggerCondition.holds (condition : TriggerCondition) (median : ℤ) :
    View Bool :=
  match condition.comparison with
  | .lessThan => pure (decide (median < condition.threshold))
  | .greaterThan => pure (decide (condition.threshold < median))
  | .equal => pure (decide (median = condition.threshold))
  | .equalWithTolerance => do
      let diff ← Check.i128 |satI128 (median - condition.threshold)| .trap
      pure (decide (diff ≤ condition.tolerance))

/-- How many readings count towards the minimum participation. -/
def State.eligibleCount (s : State) (now : ℕ) (dataType : Symbol)
    (points : List OracleDataPoint) : ℕ :=
  (points.filter fun p =>
    s.isFresh now dataType p && (s.liveEntry now dataType p).isSome).length

def updateReputation (env : Env) (oracle : Address) (dataType : Symbol)
    (accurate : Bool) : Call Unit := do
  let s ← load
  let rep := s.getReputation oracle dataType
  let total ← unsigned 64 (rep.totalSubmissions + 1) .trap
  let accurateCount ←
    unsigned 64 (rep.accurateSubmissions + accurate.toNat) .trap
  let scaled ← unsigned 64 (accurateCount * 1000) .trap
  storeReputation oracle dataType
    { rep with
      totalSubmissions := total
      accurateSubmissions := accurateCount
      score := scaled / total % 2 ^ 32
      lastUpdated := env.now }

/-- Score the oracle of one reading against the aggregate. -/
def scoreReading (env : Env) (dataType : Symbol) (median tolerance : ℤ)
    (p : OracleDataPoint) : Call Unit := do
  let s ← load
  whenever (s.isFresh env.now dataType p = true) do
    match s.oracles (dataType, p.oracle) with
    | none => pure ()
    | some entry =>
        whenever (entry.active = true) do
          let diff ← check (deviation median p.value)
          updateReputation env p.oracle dataType (decide (diff ≤ tolerance))

def verifyTrigger (env : Env) (dataType key : Symbol)
    (condition : TriggerCondition) : Call Bool := do
  requireDataTypeActive dataType
  let s ← load
  ensure (s.encryptionRequired dataType = false) .noDataAvailable
  let points ← unwrap (s.dataPoints (dataType, key))
    (.error .noDataAvailable)
  ensure
    (s.effectiveMinOracleCount dataType ≤
      s.eligibleCount env.now dataType points) .noDataAvailable
  let median ← check (s.getMedianValue env.now dataType key)
  let result ← check (condition.holds median)
  forEach points (scoreReading env dataType median condition.tolerance)
  pure result

/-- The verdict from the reported aggregate, without any bookkeeping. -/
def verifyTriggerWithConfidence (env : Env) (dataType key : Symbol)
    (condition : TriggerCondition) : Call (Bool × AggregatedData) := do
  requireDataTypeActive dataType
  let s ← load
  let agg ← check (s.getAggregated env.now dataType key)
  let result ← check (condition.holds agg.medianValue)
  pure (result, agg)

/-- The newest timestamp among the readings. -/
def latestTimestamp (points : List OracleDataPoint) : ℕ :=
  points.foldl (fun t p => max t p.timestamp) 0

def verifyTriggerFresh (env : Env) (dataType key : Symbol)
    (condition : TriggerCondition) (maxAgeSeconds : ℕ) : Call Bool := do
  requireDataTypeActive dataType
  let s ← load
  ensure (s.encryptionRequired dataType = false) .noDataAvailable
  let points ← unwrap (s.dataPoints (dataType, key))
    (.error .noDataAvailable)
  ensure (points ≠ []) .noDataAvailable
  ensure
    (s.effectiveMinOracleCount dataType ≤
      s.eligibleCount env.now dataType points) .noDataAvailable
  ensure (env.now - latestTimestamp points ≤ maxAgeSeconds) .staleData
  let median ← check (s.getMedianValue env.now dataType key)
  let result ← check (condition.holds median)
  forEach points (scoreReading env dataType median condition.tolerance)
  pure result

def batchVerifyFresh (env : Env) (queries : List OracleReadingQuery) :
    Call (List Bool) :=
  collect queries fun q =>
    verifyTriggerFresh env q.dataType q.key q.condition q.stalenessThreshold

end Parashield.OracleVerifier
