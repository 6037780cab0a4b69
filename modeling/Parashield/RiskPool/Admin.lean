import Parashield.RiskPool.Positions

/-!
# Risk pool: administration

Initialisation, settings, the timelocked withdrawal and parameter change, the
guardian committee and administrator rotation.
-/

namespace Parashield.RiskPool

open Support Support.Contract Invocation

/-! ## Initialisation and status -/

def initializePool (env : Env)
    (admin usdcToken treasury backstop : Address) (category : Symbol)
    (policyEngine claimsProcessor : Address) : Call Unit := do
  let s ← load
  ensure (s.initialized = false) .alreadyInitialized
  ensure (category.chars ≠ []) .invalidCategory
  requireNotZeroAddress admin
  let m ← get
  ensure ((m.bank.ledger usdcToken).isSome = true) .invalidToken
  ensure (usdcToken.isContract = true) .invalidAddress
  ensure (treasury.isContract = true) .invalidAddress
  requireAuth env admin
  update fun s =>
    { s with
      initialized := true
      admin := some admin
      usdcToken := some usdcToken
      treasury := some treasury
      backstop := some backstop
      category := some category
      policyEngine := some policyEngine
      claimsProcessor := some claimsProcessor
      totalDeposited := 0
      totalLocked := 0
      totalShares := 0
      accumulatedPremium := 0
      accumulatedBackstop := 0
      accumulatedPerShare := 0
      status := .active
      lpCount := 0 }

/-- The shape of a setter: the admin writes the storage if `valid`. -/
def setting (env : Env) (admin : Address) (valid : Prop) [Decidable valid]
    (error : Error) (f : State → State) : Call Unit := do
  requireAdmin env admin
  ensure valid error
  update f

def setCapacity (env : Env) (admin : Address) (maxTotalDeposited : ℤ)
    (maxUtilizationBps : ℕ) : Call Unit :=
  setting env admin
    (0 < maxTotalDeposited ∧ maxUtilizationBps ≠ 0 ∧
      maxUtilizationBps ≤ 10000)
    .invalidCapacity fun s =>
      { s with
        capacity :=
          { maxTotalDeposited := maxTotalDeposited
            maxUtilizationBps := maxUtilizationBps } }

def setExitDelay (env : Env) (admin : Address) (delaySeconds : ℕ) :
    Call Unit :=
  setting env admin (delaySeconds ≤ maxExitDelay) .exitDelayTooLong fun s =>
    { s with exitDelay := delaySeconds }

def pause (env : Env) (admin : Address) : Call Unit := do
  requireAdmin env admin
  update fun s => { s with status := .paused }

def resume (env : Env) (admin : Address) : Call Unit := do
  requireAdmin env admin
  update fun s => { s with status := .active }

def startWindingDown (env : Env) (admin : Address) : Call Unit := do
  requireAdmin env admin
  assertActive
  update fun s => { s with status := .windingDown }

/-! ## The premium split -/

/-- Three parts of the whole, in basis points. -/
def PremiumSplit.Valid (p : PremiumSplit) : Prop :=
  (0 ≤ p.lpBps ∧ p.lpBps ≤ 10000) ∧ (0 ≤ p.treasBps ∧ p.treasBps ≤ 10000) ∧
    (0 ≤ p.backstopBps ∧ p.backstopBps ≤ 10000) ∧
    p.lpBps + p.treasBps + p.backstopBps = 10000

instance (p : PremiumSplit) : Decidable p.Valid :=
  inferInstanceAs (Decidable (_ ∧ _))

def updatePremiumSplit (env : Env) (admin : Address)
    (lpBps treasBps backstopBps : ℤ) : Call Unit :=
  let split : PremiumSplit :=
    { lpBps := lpBps, treasBps := treasBps, backstopBps := backstopBps }
  setting env admin split.Valid .invalidSplit fun s =>
    { s with premiumSplit := split }

def proposeParameterChange (env : Env) (admin : Address)
    (lpBps treasBps backstopBps : ℤ) : Call Unit := do
  requireAdmin env admin
  let split : PremiumSplit :=
    { lpBps := lpBps, treasBps := treasBps, backstopBps := backstopBps }
  ensure split.Valid .invalidSplit
  let s ← load
  ensure (s.pendingParameterChange = none) .parameterChangePending
  let executableAfter ← unsigned 64 (env.now + parameterTimelockSeconds) .trap
  update fun s =>
    { s with
      pendingParameterChange :=
        some
          { newLpBps := lpBps
            newTreasBps := treasBps
            newBackstopBps := backstopBps
            proposedAt := env.now
            executableAfter := executableAfter
            executed := false } }

def executeParameterChange (env : Env) (admin : Address) : Call Unit := do
  requireAdmin env admin
  let s ← load
  let pending ← unwrap s.pendingParameterChange
    (.error .noPendingParameterChange)
  ensure (pending.executed = false) .alreadyReleased
  ensure (pending.executableAfter ≤ env.now) .parameterChangeNotReady
  let split : PremiumSplit :=
    { lpBps := pending.newLpBps
      treasBps := pending.newTreasBps
      backstopBps := pending.newBackstopBps }
  ensure
    (0 ≤ split.lpBps ∧ 0 ≤ split.treasBps ∧ 0 ≤ split.backstopBps ∧
      split.lpBps + split.treasBps + split.backstopBps = 10000)
    .invalidSplit
  update fun s =>
    { s with
      premiumSplit := split
      pendingParameterChange := some { pending with executed := true } }

def cancelParameterChange (env : Env) (admin : Address) : Call Unit := do
  requireAdmin env admin
  let s ← load
  ensure (s.pendingParameterChange.isSome = true) .noPendingParameterChange
  update fun s => { s with pendingParameterChange := none }

/-! ## The timelocked withdrawal -/

def requestAdminWithdrawal (env : Env) (admin : Address) (amount : ℤ) :
    Call Unit := do
  requireAdmin env admin
  ensure (0 < amount) .zeroAmount
  let s ← load
  ensure (amount ≤ s.getAvailableLiquidity) .undercollateralized
  ensure (s.adminWithdrawalRequest = none) .timelockPending
  ensure (s.guardians = [] ∨ s.guardianThreshold ≠ 0) .invalidThreshold
  let executeAfter ← unsigned 64 (env.now + timelockSeconds) .trap
  update fun s =>
    { s with
      adminWithdrawalApprovals := 0
      adminWithdrawalRequest :=
        some
          { amount := amount
            requestedAt := env.now
            executeAfter := executeAfter
            executed := false } }

def approveAdminWithdrawal (env : Env) (guardian : Address) : Call Unit := do
  requireAuth env guardian
  let s ← load
  ensure (guardian ∈ s.guardians) .notGuardian
  let approvals ← unsigned 32 (s.adminWithdrawalApprovals + 1) .trap
  update fun s => { s with adminWithdrawalApprovals := approvals }

def executeAdminWithdrawal (env : Env) (admin : Address) : Call Unit := do
  requireAdmin env admin
  let s ← load
  let req ← unwrap s.adminWithdrawalRequest (.error .noPendingWithdrawal)
  ensure (req.executed = false) .alreadyReleased
  ensure
    (0 < s.guardianThreshold →
      s.guardianThreshold ≤ s.adminWithdrawalApprovals)
    .unauthorized
  ensure (req.executeAfter ≤ env.now) .timelockNotReady
  ensure (req.amount ≤ s.getAvailableLiquidity) .undercollateralized
  update fun s =>
    { s with
      adminWithdrawalRequest := some { req with executed := true }
      totalDeposited := satI128 (s.totalDeposited - req.amount) }
  let usdc ← unwrap s.usdcToken .trap
  let treasury ← unwrap s.treasury .trap
  transferToken env usdc env.self treasury req.amount

def cancelAdminWithdrawal (env : Env) (admin : Address) : Call Unit := do
  requireAdmin env admin
  let s ← load
  ensure (s.adminWithdrawalRequest.isSome = true) .noPendingWithdrawal
  update fun s => { s with adminWithdrawalRequest := none }

/-! ## The guardian committee -/

/-- The committee may grow, but no member is dropped here. -/
def setGuardians (env : Env) (admin : Address) (guardians : List Address)
    (threshold : ℕ) : Call Unit := do
  requireAdmin env admin
  ensure (threshold ≤ guardians.length) .invalidThreshold
  let s ← load
  ensure (∀ g ∈ s.guardians, g ∈ guardians) .guardianRemoveBlocked
  update fun s =>
    { s with guardians := guardians, guardianThreshold := threshold }

def proposeRemoveGuardian (env : Env) (admin guardianToRemove : Address) :
    Call Unit := do
  requireAdmin env admin
  let s ← load
  ensure (s.guardianThreshold ≠ 0 ∧ s.guardians ≠ []) .noPendingUpgrade
  ensure (guardianToRemove ∈ s.guardians) .notGuardian
  ensure (minGuardians < s.guardians.length) .minGuardiansUnmet
  ensure (s.pendingGuardianRemoval = none) .adminTransferPending
  update fun s =>
    { s with
      pendingGuardianRemoval :=
        some { guardianToRemove := guardianToRemove, approvals := [] } }

def approveRemoveGuardian (env : Env) (guardian : Address) : Call Unit := do
  requireAuth env guardian
  let s ← load
  ensure (guardian ∈ s.guardians) .notGuardian
  let pending ← unwrap s.pendingGuardianRemoval (.error .noPendingUpgrade)
  ensure (guardian ≠ pending.guardianToRemove) .unauthorized
  ensure (guardian ∉ pending.approvals) .alreadyApprovedAction
  let approvals := pending.approvals ++ [guardian]
  if s.guardianThreshold ≤ approvals.length then do
    let newSet := s.guardians.filter fun g =>
      decide (g ≠ pending.guardianToRemove)
    ensure (minGuardians ≤ newSet.length) .minGuardiansUnmet
    update fun s =>
      { s with
        pendingGuardianRemoval := none
        guardians := newSet
        guardianThreshold := min s.guardianThreshold newSet.length }
  else
    update fun s =>
      { s with
        pendingGuardianRemoval := some { pending with approvals := approvals } }

def cancelPendingGuardianRemoval (env : Env) (admin : Address) :
    Call Unit := do
  requireAdmin env admin
  let s ← load
  ensure (s.pendingGuardianRemoval.isSome = true) .noPendingUpgrade
  update fun s => { s with pendingGuardianRemoval := none }

/-! ## Administrator rotation -/

def proposeNewAdmin (env : Env) (admin newAdmin : Address) : Call Unit := do
  requireAdmin env admin
  requireNotZeroAddress newAdmin
  let s ← load
  ensure (s.pendingAdmin = none) .adminTransferPending
  if s.guardianThreshold = 0 then
    update fun s =>
      { s with
        pendingAdmin := some newAdmin
        pendingAdminSince := some env.now }
  else
    update fun s =>
      { s with
        pendingAdminChange :=
          some { newAdmin := newAdmin, approvals := [] } }

def approveAdminChange (env : Env) (guardian newAdmin : Address) :
    Call Unit := do
  requireAuth env guardian
  let s ← load
  ensure (guardian ∈ s.guardians) .notGuardian
  let pending ← unwrap s.pendingAdminChange (.error .noPendingUpgrade)
  ensure (pending.newAdmin = newAdmin) .noPendingUpgrade
  ensure (guardian ∉ pending.approvals) .alreadyApprovedAction
  let approvals := pending.approvals ++ [guardian]
  if s.guardianThreshold ≤ approvals.length then
    update fun s =>
      { s with
        pendingAdminChange := none
        pendingAdmin := some newAdmin
        pendingAdminSince := some (s.pendingAdminSince.getD env.now) }
  else
    update fun s =>
      { s with
        pendingAdminChange := some { pending with approvals := approvals } }

def acceptAdmin (env : Env) (admin : Address) : Call Unit := do
  let s ← load
  let pendingAdmin ← unwrap s.pendingAdmin (.error .unauthorized)
  ensure (admin = pendingAdmin) .unauthorized
  requireAuth env admin
  requireNotZeroAddress admin
  ensure
    (satAddU64 (s.pendingAdminSince.getD 0) adminTransferTimelock ≤ env.now)
    .adminTimelockNotExpired
  update fun s =>
    { s with
      admin := some admin
      pendingAdmin := none
      pendingAdminSince := none }

end Parashield.RiskPool
