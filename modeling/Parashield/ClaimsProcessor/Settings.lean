import Parashield.ClaimsProcessor.Resolution

/-!
# Claims processor: set-up and settings

Initialization, keepers, guardians, administrator rotation and the settings.
An address the host hands over is well formed, so the format check on
addresses always passes and is left out.
-/

namespace Parashield.ClaimsProcessor

open Support Support.Contract Invocation

def initializeProcessor (env : Context)
    (admin policyEngine riskPool oracleVerifier : Address)
    (stalenessThreshold : ℕ) : Call Unit := do
  let s ← loadClaims
  ensure (s.initialized = false) .alreadyInitialized
  requireAuth env.toEnv admin
  updateClaims fun s =>
    { s with
      initialized := true
      admin := some admin
      policyEngine := some policyEngine
      riskPool := some riskPool
      oracleVerifier := some oracleVerifier
      stalenessThreshold := stalenessThreshold
      nextClaimId := 1
      pendingClaims := []
      paused := false
      claimDeadline := defaultClaimDeadline
      escalationThreshold := defaultEscalationThreshold
      disputeWindow := defaultDisputeWindow }

/-- An administrator's setting: `f` once `valid` holds. -/
def setting (env : Context) (admin : Address) (valid : Prop)
    [Decidable valid] (error : Error) (f : State → State) : Call Unit := do
  requireAdmin env admin
  ensure valid error
  updateClaims f

@[simp] theorem setting_ok {env : Context} {admin : Address} {valid : Prop}
    [Decidable valid] {error : Error} {f : State → State}
    {m m' : Machine Network} {u : Unit} :
    setting env admin valid error f m = .ok (u, m') ↔
      (m.store.claims.admin = some admin ∧ admin ∈ env.signers) ∧ valid ∧
        m' =
          { m with store :=
            { m.store with claims := f m.store.claims } } := by
  simp [setting]

/-! ## Keepers and attesters -/

def addKeeper (env : Context) (admin keeper : Address) : Call Unit := do
  requireAdmin env admin
  updateClaims fun s =>
    { s with keeper := Function.update s.keeper keeper true }

def removeKeeper (env : Context) (admin keeper : Address) : Call Unit := do
  requireAdmin env admin
  updateClaims fun s =>
    { s with keeper := Function.update s.keeper keeper false }

def addAuthorizedAttester (env : Context) (admin attester : Address) :
    Call Unit := do
  requireAdmin env admin
  updateClaims fun s =>
    { s with
      authorizedAttesters :=
        if attester ∈ s.authorizedAttesters then
          s.authorizedAttesters
        else
          s.authorizedAttesters ++ [attester] }

def removeAuthorizedAttester (env : Context) (admin attester : Address) :
    Call Unit := do
  requireAdmin env admin
  updateClaims fun s =>
    { s with authorizedAttesters := s.authorizedAttesters.erase attester }

def requireIdentityForCategory (env : Context) (admin : Address)
    (productId : ℕ) (idType : Symbol) : Call Unit := do
  requireAdmin env admin
  updateClaims fun s =>
    { s with
      identityRequirement :=
        Function.update s.identityRequirement productId (some idType) }

def removeIdentityRequirement (env : Context) (admin : Address)
    (productId : ℕ) : Call Unit := do
  requireAdmin env admin
  updateClaims fun s =>
    { s with
      identityRequirement :=
        Function.update s.identityRequirement productId none }

/-! ## Windows, thresholds and delays -/

def setDisputeWindow (env : Context) (admin : Address) (seconds : ℕ) :
    Call Unit :=
  setting env admin (minDisputeWindow ≤ seconds ∧ seconds ≤ maxDisputeWindow)
    .invalidDisputeWindow fun s => { s with disputeWindow := seconds }

def setDisputeDeadline (env : Context) (admin : Address)
    (claimId deadline : ℕ) : Call Unit := do
  requireAdmin env admin
  ensure (env.now < deadline) .invalidDisputeDeadline
  let _ ← loadClaim claimId
  updateClaims fun s =>
    { s with
      claimDisputeDeadline :=
        Function.update s.claimDisputeDeadline claimId (some deadline) }

def setEscalationThreshold (env : Context) (admin : Address)
    (threshold : ℕ) : Call Unit :=
  setting env admin
    (minEscalationThreshold ≤ threshold ∧
      threshold ≤ maxEscalationThreshold) .invalidThresholdValue
    fun s => { s with escalationThreshold := threshold }

def setCategoryEscalation (env : Context) (admin : Address)
    (category : Symbol) (threshold : ℕ) : Call Unit :=
  setting env admin
    (minEscalationThreshold ≤ threshold ∧
      threshold ≤ maxEscalationThreshold) .invalidThresholdValue
    fun s =>
      { s with
        categoryEscalationThreshold :=
          Function.update s.categoryEscalationThreshold category
            (some threshold) }

def setClaimDeadline (env : Context) (admin : Address) (deadline : ℕ) :
    Call Unit :=
  setting env admin
    ((deadline = 0 ∨ minEscalationThreshold ≤ deadline) ∧
      deadline ≤ maxClaimDeadline) .invalidThresholdValue
    fun s => { s with claimDeadline := deadline }

def setPayoutDelay (env : Context) (admin : Address) (delaySeconds : ℤ) :
    Call Unit := do
  requireAdmin env admin
  ensure (0 ≤ delaySeconds) .invalidInput
  ensure (delaySeconds ≤ maxPayoutDelay) .payoutDelayTooLong
  updateClaims fun s => { s with payoutDelay := delaySeconds.toNat }

def setFraudConfig (env : Context) (admin : Address) (config : FraudConfig) :
    Call Unit :=
  setting env admin (config.fraudThresholdScore ≤ maxFraudScore) .invalidInput
    fun s => { s with fraudConfig := some config }

def pause (env : Context) (admin : Address) : Call Unit := do
  requireAdmin env admin
  updateClaims fun s => { s with paused := true }

def resume (env : Context) (admin : Address) : Call Unit := do
  requireAdmin env admin
  updateClaims fun s => { s with paused := false }

/-! ## Guardians and administrator rotation -/

def setGuardians (env : Context) (admin : Address)
    (guardians : List Address) (threshold : ℕ) : Call Unit :=
  setting env admin
    (¬ (guardians ≠ [] ∧ threshold = 0) ∧ threshold ≤ guardians.length ∧
      ¬ (guardians = [] ∧ 0 < threshold)) .invalidThreshold
    fun s =>
      { s with guardians := guardians, guardianThreshold := threshold }

def setGuardianThreshold (env : Context) (admin : Address)
    (threshold : ℕ) : Call Unit := do
  requireAdmin env admin
  let s ← loadClaims
  ensure (threshold ≤ s.guardians.length) .invalidThreshold
  ensure (¬ (s.guardians ≠ [] ∧ threshold = 0)) .invalidThreshold
  updateClaims fun s => { s with guardianThreshold := threshold }

def proposeNewAdmin (env : Context) (admin newAdmin : Address) :
    Call Unit := do
  requireAdmin env admin
  let s ← loadClaims
  ensure (s.pendingAdmin = none) .adminTransferPending
  if s.guardianThreshold = 0 then
    updateClaims fun s =>
      { s with
        pendingAdmin := some newAdmin
        pendingAdminSince := some env.now }
  else
    updateClaims fun s =>
      { s with
        pendingAdminChange :=
          some { newAdmin := newAdmin, approvals := [] } }

/-- A timelock that is already running is not started again. -/
def approveAdminChange (env : Context) (guardian newAdmin : Address) :
    Call Unit := do
  requireAuth env.toEnv guardian
  let s ← loadClaims
  ensure (guardian ∈ s.guardians) .notGuardian
  let pending ← unwrap s.pendingAdminChange (.error .noPendingUpgrade)
  ensure (pending.newAdmin = newAdmin) .noPendingUpgrade
  ensure (guardian ∉ pending.approvals) .alreadyApprovedAction
  let approvals := pending.approvals ++ [guardian]
  if s.guardianThreshold ≤ approvals.length then
    updateClaims fun s =>
      { s with
        pendingAdminChange := none
        pendingAdmin := some newAdmin
        pendingAdminSince := some (s.pendingAdminSince.getD env.now) }
  else
    updateClaims fun s =>
      { s with
        pendingAdminChange := some { pending with approvals := approvals } }

def acceptAdmin (env : Context) (admin : Address) : Call Unit := do
  let s ← loadClaims
  ensure (s.pendingAdmin = some admin) .unauthorized
  requireAuth env.toEnv admin
  ensure
    (satAddU64 (s.pendingAdminSince.getD 0) adminTransferTimelock ≤ env.now)
    .adminTimelockNotExpired
  updateClaims fun s =>
    { s with
      admin := some admin
      pendingAdmin := none
      pendingAdminSince := none }

end Parashield.ClaimsProcessor
