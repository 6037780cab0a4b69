import Parashield.OracleVerifier.Types

/-!
# Oracle verifier: registry and settings

Registration of oracles, administrator rotation, and the settings that govern
freshness, aggregation, cross-validation and staking.
-/

namespace Parashield.OracleVerifier

open Support Support.Contract Invocation

abbrev Call (α : Type) := Invocation Error State α

/-- A read-only computation of the verifier. -/
abbrev View (α : Type) := Check (Fault Error) α

/-! ## Internal helpers -/

def requireAdmin (env : Env) (caller : Address) : Call Unit := do
  let s ← load
  let admin ← unwrap s.admin (.error .notInitialized)
  ensure (caller = admin) .unauthorized
  requireAuth env caller

/-- Contract addresses start with `C`, account keys with `G`. -/
def validateContractAddress (a : Address) : Call Unit :=
  ensure (a.isContract = true) .invalidAddress

def validateSymbolLen (symbol : Symbol) : Call Unit :=
  ensure (symbol.chars ≠ [] ∧ symbol.chars.length ≤ 32) .invalidSymbolLength

def validateKeyLen (key : Symbol) : Call Unit :=
  ensure (key.chars ≠ [] ∧ key.chars.length ≤ maxKeyLen)
    .invalidSymbolLength

def requireDataTypeActive (dataType : Symbol) : Call Unit := do
  let s ← load
  ensure (s.dataTypePaused dataType = false) .dataTypePaused

namespace State

def effectiveMaxAge (s : State) (dataType : Symbol) : ℕ :=
  (s.dataTypeMaxAge dataType).getD s.maxDataAge

def effectiveMinOracleCount (s : State) (dataType : Symbol) : ℕ :=
  (s.dataTypeMinOracleCount dataType).getD s.minOracleCount

/-- Offline detection is on and the last accepted submission is too old. -/
def oracleOffline (s : State) (now : ℕ) (dataType : Symbol)
    (oracle : Address) : Bool :=
  if s.oracleInactivityLimit = 0 then
    false
  else
    match s.lastSubmission (dataType, oracle) with
    | some last => decide (s.oracleInactivityLimit < now - last)
    | none => false

/-- Largest absolute value accepted for a data type. -/
def getDataTypeMax (s : State) (dataType : Symbol) : ℤ :=
  match s.dataTypeRange dataType with
  | some (_, max) => max
  | none =>
      if dataType = Symbols.weather then defaultWeatherMax
      else if dataType = Symbols.flight then defaultFlightMax
      else if dataType = Symbols.onchain then defaultOnchainMax
      else if dataType = Symbols.defi then defaultDefiMax
      else if dataType = Symbols.disaster then defaultDisasterMax
      else if dataType = Symbols.health then defaultHealthMax
      else maxDataValue

/-- The reputation record of an oracle, a fresh one if it has none. -/
def getReputation (s : State) (oracle : Address) (dataType : Symbol) :
    OracleReputation :=
  (s.reputation (dataType, oracle)).getD
    { oracle := oracle
      dataType := dataType
      totalSubmissions := 0
      accurateSubmissions := 0
      score := 500
      lastUpdated := 0 }

end State

def storeOracle (dataType : Symbol) (oracle : Address) (entry : OracleEntry) :
    Call Unit :=
  update fun s =>
    { s with
      oracles := Function.update s.oracles (dataType, oracle) (some entry) }

def storeReputation (oracle : Address) (dataType : Symbol)
    (rep : OracleReputation) : Call Unit :=
  update fun s =>
    { s with
      reputation :=
        Function.update s.reputation (dataType, oracle) (some rep) }

/-- Drop an oracle from the list of its data type. -/
def pruneOracleList (dataType : Symbol) (oracle : Address) : Call Unit :=
  update fun s =>
    { s with
      oracleList :=
        Function.update s.oracleList dataType
          ((s.oracleList dataType).filter fun a => decide (a ≠ oracle)) }

def deactivateOracle (dataType : Symbol) (oracle : Address) : Call Unit := do
  let s ← load
  let entry ← unwrap (s.oracles (dataType, oracle))
    (.error .oracleNotRegistered)
  storeOracle dataType oracle { entry with active := false }
  pruneOracleList dataType oracle
  update fun s =>
    { s with globalOracle := Function.update s.globalOracle oracle false }

/-! ## Lifecycle and oracle management -/

def initializeVerifier (env : Env) (admin : Address) : Call Unit := do
  let s ← load
  ensure (s.initialized = false) .alreadyInitialized
  requireAuth env admin
  update fun s => { s with initialized := true, admin := some admin }

def addOracle (env : Env) (admin oracle : Address) (dataType : Symbol)
    (weight : ℕ) : Call Unit := do
  requireAdmin env admin
  validateContractAddress oracle
  ensure (weight ≠ 0 ∧ weight ≤ maxWeight) .invalidWeight
  validateSymbolLen dataType
  let s ← load
  ensure (s.oracles (dataType, oracle) = none) .oracleAlreadyExists
  ensure (s.globalOracle oracle = false) .oracleAlreadyExists
  update fun s =>
    { s with globalOracle := Function.update s.globalOracle oracle true }
  ensure ((s.oracleList dataType).length < maxOraclesPerKey) .tooManyOracles
  let staked := s.oracleStakeAmt (dataType, oracle)
  ensure (0 < s.minStake → 0 < staked ∧ s.minStake ≤ staked)
    .insufficientStake
  storeOracle dataType oracle
    { oracle := oracle, dataType := dataType, weight := weight, active := true }
  whenever (oracle ∉ s.oracleList dataType) do
    ensure ((s.oracleList dataType).length < maxOracles) .tooManyOracles
    update fun s =>
      { s with
        oracleList :=
          Function.update s.oracleList dataType
            (s.oracleList dataType ++ [oracle]) }

def updateOracleWeight (env : Env) (admin oracle : Address)
    (dataType : Symbol) (weight : ℕ) : Call Unit := do
  requireAdmin env admin
  ensure (weight ≠ 0 ∧ weight ≤ maxWeight) .invalidWeight
  let s ← load
  let entry ← unwrap (s.oracles (dataType, oracle))
    (.error .oracleNotRegistered)
  storeOracle dataType oracle { entry with weight := weight }

def removeOracle (env : Env) (admin oracle : Address) (dataType : Symbol) :
    Call Unit := do
  requireAdmin env admin
  deactivateOracle dataType oracle

def setDataTypePaused (env : Env) (admin : Address) (dataType : Symbol)
    (paused : Bool) : Call Unit := do
  requireAdmin env admin
  update fun s =>
    { s with
      dataTypePaused := Function.update s.dataTypePaused dataType paused }

def pauseDataType (env : Env) (admin : Address) (dataType : Symbol) :
    Call Unit :=
  setDataTypePaused env admin dataType true

def resumeDataType (env : Env) (admin : Address) (dataType : Symbol) :
    Call Unit :=
  setDataTypePaused env admin dataType false

/-- Anyone may drop the oracles that have gone offline. -/
def deactivateInactiveOracles (env : Env) (dataType : Symbol) :
    Call (List Address) := do
  let s ← load
  let flags ← collect (s.oracleList dataType) fun oracle => do
    let t ← load
    if t.oracleOffline env.now dataType oracle then do
      deactivateOracle dataType oracle
      pure [oracle]
    else
      pure []
  pure flags.flatten

/-! ## Settings -/

/-- The shape of a setter: the admin writes the storage if `valid`. -/
def setting (env : Env) (admin : Address) (valid : Prop) [Decidable valid]
    (error : Error) (f : State → State) : Call Unit := do
  requireAdmin env admin
  ensure valid error
  update f

def setOracleInactivityLimit (env : Env) (admin : Address) (seconds : ℕ) :
    Call Unit := do
  requireAdmin env admin
  update fun s => { s with oracleInactivityLimit := seconds }

def setMinConfidence (env : Env) (admin : Address) (threshold : ℕ) :
    Call Unit :=
  setting env admin (threshold ≤ 100) .invalidConfidence fun s =>
    { s with minConfidence := threshold }

def setMaxDataAge (env : Env) (admin : Address) (maxAge : ℕ) : Call Unit := do
  requireAdmin env admin
  update fun s => { s with maxDataAge := maxAge }

def setMaxTimestampAge (env : Env) (admin : Address) (maxTimestampAge : ℕ) :
    Call Unit := do
  requireAdmin env admin
  update fun s => { s with maxTimestampAge := maxTimestampAge }

def setTimestampFutureBuffer (env : Env) (admin : Address) (seconds : ℕ) :
    Call Unit := do
  requireAdmin env admin
  update fun s => { s with timestampFutureBuffer := seconds }

/-- Zero clears the override. -/
def setDataTypeMaxAge (env : Env) (admin : Address) (dataType : Symbol)
    (maxAge : ℕ) : Call Unit := do
  requireAdmin env admin
  update fun s =>
    { s with
      dataTypeMaxAge :=
        Function.update s.dataTypeMaxAge dataType
          (if maxAge = 0 then none else some maxAge) }

def setAggregationMethod (env : Env) (admin : Address) (dataType : Symbol)
    (method : AggregationMethod) : Call Unit := do
  requireAdmin env admin
  update fun s =>
    { s with
      aggregationMethod :=
        Function.update s.aggregationMethod dataType method }

def setOutlierConfig (env : Env) (admin : Address) (dataType : Symbol)
    (enabled : Bool) (thresholdBps minSampleSize : ℕ) : Call Unit :=
  setting env admin (thresholdBps ≠ 0 ∧ 3 ≤ minSampleSize)
    .invalidOutlierConfig fun s =>
      { s with
        outlierConfig :=
          Function.update s.outlierConfig dataType
            { enabled := enabled
              thresholdBps := thresholdBps
              minSampleSize := minSampleSize } }

/-- A range of zero clears the override. -/
def setDataTypeRange (env : Env) (admin : Address) (dataType : Symbol)
    (lower upper : ℤ) : Call Unit :=
  setting env admin
    (0 ≤ lower ∧ 0 ≤ upper ∧ lower ≤ upper ∧ upper ≤ maxDataValue)
    .invalidInput fun s =>
      { s with
        dataTypeRange :=
          Function.update s.dataTypeRange dataType
            (if lower = 0 ∧ upper = 0 then none else some (lower, upper)) }

def setMinOracleCount (env : Env) (admin : Address) (minCount : ℕ) :
    Call Unit :=
  setting env admin (minCount ≠ 0) .invalidThreshold fun s =>
    { s with minOracleCount := minCount }

/-- Zero clears the override. -/
def setDataTypeMinOracleCount (env : Env) (admin : Address)
    (dataType : Symbol) (minCount : ℕ) : Call Unit := do
  requireAdmin env admin
  update fun s =>
    { s with
      dataTypeMinOracleCount :=
        Function.update s.dataTypeMinOracleCount dataType
          (if minCount = 0 then none else some minCount) }

def setCrossValidationRule (env : Env) (admin : Address)
    (sourceType targetType : Symbol) (maxVariance : ℤ)
    (description : Bytes) : Call Unit :=
  setting env admin (0 ≤ maxVariance ∧ sourceType ≠ targetType)
    .invalidInput fun s =>
      { s with
        crossValidationRule :=
          Function.update s.crossValidationRule (sourceType, targetType)
            (some
              { sourceType := sourceType
                targetType := targetType
                maxVariance := maxVariance
                description := description })
        crossValidationTargets :=
          Function.update s.crossValidationTargets sourceType
            (if targetType ∈ s.crossValidationTargets sourceType then
              s.crossValidationTargets sourceType
            else
              s.crossValidationTargets sourceType ++ [targetType]) }

def removeCrossValidationRule (env : Env) (admin : Address)
    (sourceType targetType : Symbol) : Call Unit := do
  requireAdmin env admin
  let s ← load
  ensure ((s.crossValidationRule (sourceType, targetType)).isSome = true)
    .invalidInput
  update fun s =>
    { s with
      crossValidationRule :=
        Function.update s.crossValidationRule (sourceType, targetType) none
      crossValidationTargets :=
        Function.update s.crossValidationTargets sourceType
          ((s.crossValidationTargets sourceType).filter fun t =>
            decide (t ≠ targetType)) }

def setMinSubmitInterval (env : Env) (admin : Address) (seconds : ℕ) :
    Call Unit :=
  setting env admin (seconds ≠ 0) .invalidInput fun s =>
    { s with minSubmitInterval := seconds }

def setStakeToken (env : Env) (admin token : Address) : Call Unit := do
  requireAdmin env admin
  update fun s => { s with stakeToken := some token }

def setMinStake (env : Env) (admin : Address) (minStake : ℤ) : Call Unit :=
  setting env admin (0 ≤ minStake) .invalidStakeAmount fun s =>
    { s with minStake := minStake }

def setSlashTreasury (env : Env) (admin treasury : Address) :
    Call Unit := do
  requireAdmin env admin
  update fun s => { s with slashTreasury := some treasury }

/-- Weight of an oracle within a region, in basis points. -/
def setOracleGeoWeight (env : Env) (admin oracle : Address)
    (dataType region : Symbol) (geoWeightBps : ℕ) : Call Unit :=
  setting env admin (geoWeightBps ≠ 0) .invalidConfidence fun s =>
    { s with
      geoWeight :=
        Function.update s.geoWeight (dataType, oracle, region)
          (some geoWeightBps) }

def setChallengePeriod (env : Env) (admin : Address) (periodSeconds : ℕ) :
    Call Unit := do
  requireAdmin env admin
  update fun s => { s with challengePeriod := periodSeconds }

def setStaleThreshold (env : Env) (admin : Address) (threshold : ℕ) :
    Call Unit := do
  requireAdmin env admin
  update fun s => { s with staleThreshold := threshold }

def setStaleSlashAmount (env : Env) (admin : Address) (amount : ℤ) :
    Call Unit :=
  setting env admin (0 ≤ amount) .invalidStakeAmount fun s =>
    { s with staleSlashAmount := amount }

def setStaleReputationPenalty (env : Env) (admin : Address)
    (reputationLost : ℕ) : Call Unit :=
  setting env admin (reputationLost ≤ 1000) .invalidReputation fun s =>
    { s with staleReputationPenalty := reputationLost }

def setReputation (env : Env) (admin oracle : Address) (dataType : Symbol)
    (score : ℕ) : Call Unit := do
  requireAdmin env admin
  ensure (score ≤ 1000) .invalidReputation
  let s ← load
  storeReputation oracle dataType
    { s.getReputation oracle dataType with
      score := score, lastUpdated := env.now }

def setEncryptionRequired (env : Env) (admin : Address) (dataType : Symbol)
    (required : Bool) : Call Unit := do
  requireAdmin env admin
  update fun s =>
    { s with
      encryptionRequired :=
        Function.update s.encryptionRequired dataType required }

def setGuardians (env : Env) (admin : Address) (guardians : List Address)
    (threshold : ℕ) : Call Unit :=
  setting env admin (threshold ≤ guardians.length) .invalidThreshold fun s =>
    { s with guardians := guardians, guardianThreshold := threshold }

/-! ## Administrator rotation -/

def proposeNewAdmin (env : Env) (admin newAdmin : Address) : Call Unit := do
  requireAdmin env admin
  let s ← load
  ensure (s.pendingAdmin = none) .adminTransferPending
  if s.guardianThreshold = 0 then
    update fun s =>
      { s with
        pendingAdmin := some newAdmin
        pendingAdminSince := some env.now }
  else
    update fun s =>
      { s with
        pendingAdminChange :=
          some { newAdmin := newAdmin, approvals := [] } }

def approveAdminChange (env : Env) (guardian newAdmin : Address) :
    Call Unit := do
  requireAuth env guardian
  let s ← load
  ensure (guardian ∈ s.guardians) .notGuardian
  let pending ← unwrap s.pendingAdminChange (.error .noPendingUpgrade)
  ensure (pending.newAdmin = newAdmin) .noPendingUpgrade
  ensure (guardian ∉ pending.approvals) .alreadyApprovedAction
  let approvals := pending.approvals ++ [guardian]
  if s.guardianThreshold ≤ approvals.length then
    update fun s =>
      { s with
        pendingAdminChange := none
        pendingAdmin := some newAdmin
        pendingAdminSince := some (s.pendingAdminSince.getD env.now) }
  else
    update fun s =>
      { s with
        pendingAdminChange := some { pending with approvals := approvals } }

def acceptAdmin (env : Env) (admin : Address) : Call Unit := do
  let s ← load
  let pendingAdmin ← unwrap s.pendingAdmin (.error .unauthorized)
  ensure (admin = pendingAdmin) .unauthorized
  requireAuth env admin
  ensure (s.initialized = true) .notInitialized
  ensure
    (satAddU64 (s.pendingAdminSince.getD 0) adminTransferTimelock ≤ env.now)
    .adminTimelockNotExpired
  update fun s =>
    { s with
      admin := some admin
      pendingAdmin := none
      pendingAdminSince := none }

end Parashield.OracleVerifier
