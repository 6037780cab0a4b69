import Parashield.OracleVerifier.Aggregation
import Parashield.OracleVerifier.Staking

/-!
# Oracle verifier: submission

The three plaintext submission paths and the encrypted one.  Each checks the
reading in its own way; they share the rate limit, the ordering of readings
and the stale-submission gate.
-/

namespace Parashield.OracleVerifier

open Support Support.Contract Invocation

/-! ## Shared gates -/

/-- The oracle is registered for the data type and active. -/
def requireActiveOracle (dataType : Symbol) (oracle : Address) :
    Call Unit := do
  let s ← load
  let entry ← unwrap (s.oracles (dataType, oracle))
    (.error .oracleNotRegistered)
  ensure (entry.active = true) .unauthorized

def enforceRateLimit (env : Env) (dataType : Symbol) (oracle : Address) :
    Call Unit := do
  let s ← load
  ensure
    (∀ last ∈ s.lastSubmission (dataType, oracle),
      s.minSubmitInterval ≤ env.now - last) .rateLimited
  update fun s =>
    { s with
      lastSubmission :=
        Function.update s.lastSubmission (dataType, oracle)
          (some env.now) }

def requireStrictlyNewerReading (dataType key : Symbol) (oracle : Address)
    (newTimestamp : ℕ) : Call Unit := do
  let s ← load
  ensure
    (∀ last ∈ s.lastReadingTimestamp (dataType, key, oracle),
      last < newTimestamp) .staleReadingTimestamp

def recordReadingTimestamp (dataType key : Symbol) (oracle : Address)
    (timestamp : ℕ) : Call Unit :=
  update fun s =>
    { s with
      lastReadingTimestamp :=
        Function.update s.lastReadingTimestamp (dataType, key, oracle)
          (some timestamp) }

/-- A timestamp may lie slightly in the future and not too far back. -/
def requireTimestampInRange (env : Env) (timestamp : ℕ) : Call Unit := do
  let s ← load
  ensure (timestamp ≤ satAddU64 env.now s.timestampFutureBuffer)
    .invalidTimestamp
  ensure (env.now - s.maxTimestampAge ≤ timestamp) .invalidTimestamp

/-- Whether an earlier reading stays next to a new one of `oracle`. -/
def State.retains (s : State) (now : ℕ) (dataType : Symbol)
    (oracle other : Address) (timestamp : ℕ) : Bool :=
  decide (other ≠ oracle) &&
    decide (now - timestamp ≤ s.effectiveMaxAge dataType) &&
    (match s.oracles (dataType, other) with
    | some entry => entry.active
    | none => false)

/-- Keep the newest entries so that one more stays within the cap. -/
def makeRoom {α : Type} (xs : List α) : List α :=
  xs.drop (xs.length - (maxDataPoints - 1))

/-- Replace the oracle's previous reading, keeping only fresh readings of
active oracles. -/
def storePlainReading (dataType key : Symbol) (newPoint : OracleDataPoint)
    (now : ℕ) : Call Unit :=
  update fun s =>
    let points := (s.dataPoints (dataType, key)).getD []
    let retained := points.filter fun p =>
      s.retains now dataType newPoint.oracle p.oracle p.timestamp
    { s with
      dataPoints :=
        Function.update s.dataPoints (dataType, key)
          (some (makeRoom retained ++ [newPoint])) }

/-! ## Cross-validation -/

/-- Compare the aggregate of the source with the one of a target. -/
def crossValidate (s : State) (now : ℕ) (sourceType key : Symbol)
    (sourceValue : ℤ) (targetType : Symbol) : Call Unit :=
  match s.crossValidationRule (sourceType, targetType),
      s.dataPoints (targetType, key) with
  | some rule, some (_ :: _) => do
      let targetValue ← check (s.getMedianValue now targetType key)
      let variance ← i128 |satI128 (sourceValue - targetValue)| .trap
      ensure (variance ≤ rule.maxVariance) .crossValidationFailed
  | _, _ => pure ()

def checkCrossValidation (env : Env) (sourceType key : Symbol) :
    Call Unit := do
  let s ← load
  let targets := s.crossValidationTargets sourceType
  whenever (targets ≠ []) do
    let sourceValue ← check (s.getMedianValue env.now sourceType key)
    forEach targets (crossValidate s env.now sourceType key sourceValue)

/-! ## Plaintext submission -/

def submitData (env : Env) (oracle : Address) (dataType key : Symbol)
    (value : ℤ) (confidence timestamp : ℕ) : Call Unit := do
  requireAuth env oracle
  validateSymbolLen dataType
  requireDataTypeActive dataType
  let s ← load
  ensure (s.encryptionRequired dataType = false) .encryptionRequiredForType
  validateKeyLen key
  ensure (confidence ≠ 0 ∧ confidence ≤ 100) .invalidConfidence
  ensure (value ≤ maxDataValue ∧ -maxDataValue ≤ value) .invalidInput
  ensure (|value| ≤ s.getDataTypeMax dataType) .invalidInput
  ensure (timestamp ≠ 0) .invalidTimestamp
  requireTimestampInRange env timestamp
  requireActiveOracle dataType oracle
  enforceRateLimit env dataType oracle
  requireStrictlyNewerReading dataType key oracle timestamp
  if s.effectiveMaxAge dataType < env.now - timestamp then
    handleStaleSubmission env oracle dataType
  else do
    storePlainReading dataType key
      { oracle := oracle
        value := value
        confidence := confidence
        timestamp := timestamp } env.now
    recordReadingTimestamp dataType key oracle timestamp
    checkCrossValidation env dataType key
    resetStaleCount oracle dataType

/-- The checks both batch paths make once per call. -/
def openBatch (env : Env) (oracle : Address) (dataType : Symbol) :
    Call Unit := do
  requireAuth env oracle
  requireDataTypeActive dataType
  let s ← load
  ensure (s.encryptionRequired dataType = false) .encryptionRequiredForType
  validateSymbolLen dataType
  requireActiveOracle dataType oracle
  enforceRateLimit env dataType oracle

/-- What both batch paths do with a reading that passed their checks. -/
def acceptBatchReading (env : Env) (oracle : Address) (dataType : Symbol)
    (sub : OracleDataSubmission) : Call Unit := do
  requireTimestampInRange env sub.timestamp
  requireStrictlyNewerReading dataType sub.key oracle sub.timestamp
  let s ← load
  if s.effectiveMaxAge dataType < env.now - sub.timestamp then
    handleStaleSubmission env oracle dataType
  else do
    storePlainReading dataType sub.key
      { oracle := oracle
        value := sub.value
        confidence := sub.confidence
        timestamp := sub.timestamp } env.now
    recordReadingTimestamp dataType sub.key oracle sub.timestamp

/-- Bounds the values, but accepts a timestamp of zero. -/
def batchSubmitData (env : Env) (oracle : Address) (dataType : Symbol)
    (submissions : List OracleDataSubmission) : Call Unit := do
  openBatch env oracle dataType
  forEach submissions fun sub => do
    validateKeyLen sub.key
    ensure (sub.confidence ≠ 0 ∧ sub.confidence ≤ 100) .invalidConfidence
    ensure (sub.value ≤ maxDataValue ∧ -maxDataValue ≤ sub.value)
      .invalidInput
    acceptBatchReading env oracle dataType sub

/-- Rejects a timestamp of zero, but does not bound the values. -/
def submitDataBatch (env : Env) (oracle : Address) (dataType : Symbol)
    (submissions : List OracleDataSubmission) : Call Unit := do
  openBatch env oracle dataType
  forEach submissions fun sub => do
    validateKeyLen sub.key
    ensure (sub.confidence ≠ 0 ∧ sub.confidence ≤ 100) .invalidConfidence
    ensure (sub.timestamp ≠ 0) .invalidTimestamp
    acceptBatchReading env oracle dataType sub
  resetStaleCount oracle dataType

def invalidateData (env : Env) (admin : Address) (dataType key : Symbol) :
    Call Unit := do
  requireAdmin env admin
  update fun s =>
    { s with
      dataPoints := Function.update s.dataPoints (dataType, key) none }

/-! ## Encrypted submission -/

def submitEncryptedData (env : Env) (oracle : Address)
    (dataType key : Symbol) (ciphertext nonce : Bytes)
    (confidence timestamp : ℕ) : Call Unit := do
  requireAuth env oracle
  requireDataTypeActive dataType
  ensure (confidence ≠ 0 ∧ confidence ≤ 100) .invalidConfidence
  validateSymbolLen dataType
  validateKeyLen key
  ensure (timestamp ≠ 0) .invalidTimestamp
  ensure (timestamp ≤ env.now) .invalidTimestamp
  ensure (env.now - 90 * 24 * 60 * 60 ≤ timestamp) .invalidTimestamp
  requireActiveOracle dataType oracle
  enforceRateLimit env dataType oracle
  let s ← load
  if s.effectiveMaxAge dataType < env.now - timestamp then
    handleStaleSubmission env oracle dataType
  else do
    let retained := (s.encryptedDataPoints (dataType, key)).filter fun p =>
      s.retains env.now dataType oracle p.oracle p.timestamp
    update fun s =>
      { s with
        encryptedDataPoints :=
          Function.update s.encryptedDataPoints (dataType, key)
            (makeRoom retained ++
              [{ oracle := oracle
                 ciphertext := ciphertext
                 nonce := nonce
                 confidence := confidence
                 timestamp := timestamp }]) }
    resetStaleCount oracle dataType

end Parashield.OracleVerifier
