import Parashield.Host

/-!
# Oracle verifier: data model

Oracles, their readings and the storage of the oracle verifier.  As for the
policy engine, an entry the code reads with a fallback carries that fallback
as its initial value, and an entry whose absence matters is an option.
-/

namespace Parashield.OracleVerifier

/-- Track record of an oracle for one data type. -/
structure OracleReputation where
  oracle : Address
  dataType : Symbol
  totalSubmissions : ℕ
  accurateSubmissions : ℕ
  /-- Reputation score between 0 and 1000. -/
  score : ℕ
  lastUpdated : ℕ
  deriving DecidableEq, Repr

/-- How the eligible readings of a key become one value. -/
inductive AggregationMethod where
  | weightedMedian
  | weightedAverage
  | mean
  | timeWeightedAverage
  deriving DecidableEq, Repr

inductive TriggerComparison where
  | lessThan
  | greaterThan
  | equal
  | equalWithTolerance
  deriving DecidableEq, Repr

structure TriggerCondition where
  dataType : Symbol
  key : Symbol
  threshold : ℤ
  comparison : TriggerComparison
  tolerance : ℤ
  deriving DecidableEq, Repr

structure OracleDataSubmission where
  key : Symbol
  value : ℤ
  confidence : ℕ
  timestamp : ℕ
  deriving DecidableEq, Repr

/-- One stored reading. -/
structure OracleDataPoint where
  oracle : Address
  value : ℤ
  confidence : ℕ
  timestamp : ℕ
  deriving DecidableEq, Repr

structure EncryptedOracleDataPoint where
  oracle : Address
  ciphertext : Bytes
  nonce : Bytes
  confidence : ℕ
  timestamp : ℕ
  deriving DecidableEq, Repr

/-- What `get_aggregated` reports about a key. -/
structure AggregatedData where
  medianValue : ℤ
  oracleCount : ℕ
  activeOracleCount : ℕ
  confidence : ℕ
  minConfidence : ℕ
  lastUpdated : ℕ
  confidenceIntervalLower : ℤ
  confidenceIntervalUpper : ℤ
  deriving DecidableEq, Repr

/-- What `check_freshness` reports about a key. -/
structure FreshnessReport where
  dataType : Symbol
  key : Symbol
  isFresh : Bool
  newestAge : ℕ
  freshCount : ℕ
  totalCount : ℕ
  maxAge : ℕ
  deriving DecidableEq, Repr

/-- What `check_staleness` reports about a key. -/
structure StalenessReport where
  dataType : Symbol
  key : Symbol
  isStale : Bool
  oldestFreshAge : ℕ
  newestAge : ℕ
  staleCount : ℕ
  totalCount : ℕ
  maxAge : ℕ
  freshnessRatioBps : ℕ
  deriving DecidableEq, Repr

/-- Registration of an oracle for a data type. -/
structure OracleEntry where
  oracle : Address
  dataType : Symbol
  weight : ℕ
  active : Bool
  deriving DecidableEq, Repr

structure PendingAdminChange where
  newAdmin : Address
  approvals : List Address
  deriving DecidableEq, Repr

structure OutlierConfig where
  enabled : Bool
  thresholdBps : ℕ
  minSampleSize : ℕ
  deriving DecidableEq, Repr

structure CrossValidationRule where
  sourceType : Symbol
  targetType : Symbol
  maxVariance : ℤ
  description : Bytes
  deriving DecidableEq, Repr

structure StakeWithdrawalRequest where
  oracle : Address
  dataType : Symbol
  amount : ℤ
  requestedAt : ℕ
  unlockAt : ℕ
  deriving DecidableEq, Repr

/-- One reading a batch verification asks about. -/
structure OracleReadingQuery where
  dataType : Symbol
  key : Symbol
  condition : TriggerCondition
  stalenessThreshold : ℕ
  deriving DecidableEq, Repr

inductive Error where
  | alreadyInitialized
  | notInitialized
  | unauthorized
  | oracleNotRegistered
  | oracleAlreadyExists
  | noDataAvailable
  | invalidConfidence
  | invalidWeight
  | staleData
  | tooManyOracles
  | invalidTimestamp
  | invalidAddress
  | rateLimited
  | insufficientStake
  | stakeTokenNotSet
  | noStake
  | invalidStakeAmount
  | oracleStillActive
  | notGuardian
  | alreadyApprovedAction
  | noPendingUpgrade
  | invalidThreshold
  | adminTimelockNotExpired
  | invalidMaxAge
  | encryptionRequiredForType
  | timestampOutOfRange
  | invalidOutlierConfig
  | invalidInput
  | crossValidationFailed
  | adminTransferPending
  | invalidSymbolLength
  | dataTypePaused
  | challengePeriodNotElapsed
  | noStakeWithdrawalRequest
  | withdrawalAlreadyRequested
  | invalidReputation
  | staleReadingTimestamp
  deriving DecidableEq, Repr

/-! ## Constants -/

def maxOracles : ℕ := 100

def maxOraclesPerKey : ℕ := 10

def maxDataPoints : ℕ := 100

def maxKeyLen : ℕ := 32

def maxWeight : ℕ := 100000

def defaultOutlierThresholdBps : ℕ := 50000

def defaultOutlierMinSampleSize : ℕ := 4

def maxDataValue : ℤ := 10 ^ 27

def defaultChallengePeriod : ℕ := 7 * 24 * 60 * 60

def defaultMinSubmitInterval : ℕ := 30

def defaultWeatherMax : ℤ := 10000000000
def defaultFlightMax : ℤ := 172800000000
def defaultOnchainMax : ℤ := 1000000000000000000000
def defaultDefiMax : ℤ := 1000000000000000000000
def defaultDisasterMax : ℤ := 100000000
def defaultHealthMax : ℤ := 1000000000

/-! ## Storage -/

structure State where
  initialized : Bool
  admin : Option Address
  oracles : Symbol × Address → Option OracleEntry
  dataPoints : Symbol × Symbol → Option (List OracleDataPoint)
  oracleList : Symbol → List Address
  minConfidence : ℕ
  maxDataAge : ℕ
  pendingAdmin : Option Address
  pendingAdminSince : Option ℕ
  minOracleCount : ℕ
  minSubmitInterval : ℕ
  lastSubmission : Symbol × Address → Option ℕ
  lastReadingTimestamp : Symbol × Symbol × Address → Option ℕ
  stakeToken : Option Address
  minStake : ℤ
  oracleStakeAmt : Symbol × Address → ℤ
  slashTreasury : Option Address
  guardians : List Address
  guardianThreshold : ℕ
  pendingAdminChange : Option PendingAdminChange
  reputation : Symbol × Address → Option OracleReputation
  dataTypeMaxAge : Symbol → Option ℕ
  aggregationMethod : Symbol → AggregationMethod
  encryptionRequired : Symbol → Bool
  encryptedDataPoints : Symbol × Symbol → List EncryptedOracleDataPoint
  maxTimestampAge : ℕ
  timestampFutureBuffer : ℕ
  dataTypeMinOracleCount : Symbol → Option ℕ
  outlierConfig : Symbol → OutlierConfig
  crossValidationRule : Symbol × Symbol → Option CrossValidationRule
  crossValidationTargets : Symbol → List Symbol
  geoWeight : Symbol × Address × Symbol → Option ℕ
  dataTypePaused : Symbol → Bool
  staleCount : Symbol × Address → ℕ
  staleThreshold : ℕ
  staleSlashAmount : ℤ
  staleReputationPenalty : ℕ
  oracleInactivityLimit : ℕ
  dataTypeRange : Symbol → Option (ℤ × ℤ)
  challengePeriod : ℕ
  stakeWithdrawalReq : Symbol × Address → Option StakeWithdrawalRequest
  globalOracle : Address → Bool

/-- Storage of a freshly deployed verifier. -/
def State.deployed : State where
  initialized := false
  admin := none
  oracles _ := none
  dataPoints _ := none
  oracleList _ := []
  minConfidence := 0
  maxDataAge := 604800
  pendingAdmin := none
  pendingAdminSince := none
  minOracleCount := 1
  minSubmitInterval := defaultMinSubmitInterval
  lastSubmission _ := none
  lastReadingTimestamp _ := none
  stakeToken := none
  minStake := 0
  oracleStakeAmt _ := 0
  slashTreasury := none
  guardians := []
  guardianThreshold := 0
  pendingAdminChange := none
  reputation _ := none
  dataTypeMaxAge _ := none
  aggregationMethod _ := .weightedMedian
  encryptionRequired _ := false
  encryptedDataPoints _ := []
  maxTimestampAge := 90 * 24 * 60 * 60
  timestampFutureBuffer := 60
  dataTypeMinOracleCount _ := none
  outlierConfig _ :=
    { enabled := false
      thresholdBps := defaultOutlierThresholdBps
      minSampleSize := defaultOutlierMinSampleSize }
  crossValidationRule _ := none
  crossValidationTargets _ := []
  geoWeight _ := none
  dataTypePaused _ := false
  staleCount _ := 0
  staleThreshold := 0
  staleSlashAmount := 0
  staleReputationPenalty := 0
  oracleInactivityLimit := 0
  dataTypeRange _ := none
  challengePeriod := defaultChallengePeriod
  stakeWithdrawalReq _ := none
  globalOracle _ := false

end Parashield.OracleVerifier
