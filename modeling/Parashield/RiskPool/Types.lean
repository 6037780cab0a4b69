import Parashield.Host

/-!
# Risk pool: data model

Liquidity positions, capital locks, exit requests and the storage of the risk
pool.
-/

namespace Parashield.RiskPool

inductive PoolStatus where
  | active
  | paused
  | windingDown
  deriving DecidableEq, Repr

/-- How a premium is split, in basis points. -/
structure PremiumSplit where
  lpBps : ℤ
  treasBps : ℤ
  backstopBps : ℤ
  deriving DecidableEq, Repr

/-- The position of a liquidity provider. -/
structure LpPosition where
  provider : Address
  deposited : ℤ
  shares : ℤ
  yieldClaimed : ℤ
  yieldDebt : ℤ
  depositedAt : ℕ
  lastYieldClaim : ℕ
  compoundEnabled : Bool
  insuranceEnabled : Bool
  insurancePaid : ℤ
  deriving DecidableEq, Repr

/-- The soulbound token of a position. -/
structure LpNft where
  tokenId : ℕ
  provider : Address
  category : Symbol
  mintedAt : ℕ
  shares : ℤ
  deposited : ℤ
  active : Bool
  deriving DecidableEq, Repr

/-- Capital earmarked for one policy. -/
structure CapitalLock where
  policyId : ℕ
  amount : ℤ
  lockedAt : ℕ
  released : Bool
  deriving DecidableEq, Repr

structure PoolCapacity where
  maxTotalDeposited : ℤ
  maxUtilizationBps : ℕ
  deriving DecidableEq, Repr

/-- A queued withdrawal. -/
structure ExitRequest where
  provider : Address
  shares : ℤ
  requestedAt : ℕ
  claimableAt : ℕ
  deriving DecidableEq, Repr

structure AdminWithdrawalRequest where
  amount : ℤ
  requestedAt : ℕ
  executeAfter : ℕ
  executed : Bool
  deriving DecidableEq, Repr

structure PendingAdminChange where
  newAdmin : Address
  approvals : List Address
  deriving DecidableEq, Repr

structure PendingGuardianRemoval where
  guardianToRemove : Address
  approvals : List Address
  deriving DecidableEq, Repr

structure PendingParameterChange where
  newLpBps : ℤ
  newTreasBps : ℤ
  newBackstopBps : ℤ
  proposedAt : ℕ
  executableAfter : ℕ
  executed : Bool
  deriving DecidableEq, Repr

/-- The arrangement with an external reinsurer. -/
structure ReinsuranceConfig where
  reinsurer : Address
  attachmentPoint : ℤ
  coverageLimit : ℤ
  active : Bool
  deriving DecidableEq, Repr

structure CollateralizationInfo where
  provider : Address
  positionValue : ℤ
  positionLiability : ℤ
  collateralizationBps : ℕ
  deriving DecidableEq, Repr

structure LiquidationResult where
  provider : Address
  sharesSeized : ℤ
  amountRecovered : ℤ
  previousRatioBps : ℕ
  deriving DecidableEq, Repr

inductive Error where
  | alreadyInitialized
  | notInitialized
  | unauthorized
  | insufficientFunds
  | zeroAmount
  | poolNotActive
  | noShares
  | alreadyLocked
  | lockNotFound
  | alreadyReleased
  | undercollateralized
  | poolCapExceeded
  | invalidToken
  | timelockPending
  | timelockNotReady
  | noPendingWithdrawal
  | insufficientShares
  | depositTooSmall
  | overflow
  | invalidAddress
  | invalidVersion
  | invalidSplit
  | notGuardian
  | alreadyApprovedAction
  | noPendingUpgrade
  | invalidThreshold
  | parameterChangePending
  | noPendingParameterChange
  | parameterChangeNotReady
  | adminTimelockNotExpired
  | utilizationCapExceeded
  | invalidCapacity
  | exitAlreadyQueued
  | noExitRequest
  | exitDelayNotElapsed
  | reinsuranceNotConfigured
  | invalidReinsuranceConfig
  | invalidParameter
  | invalidFeeTier
  | adminTransferPending
  | invalidCategory
  | invalidAmount
  | providerAlreadyHasNft
  | adminCannotBeLp
  | exitDelayTooLong
  | poolDrained
  | reentrancy
  | nameTooLong
  | guardianRemoveBlocked
  | minGuardiansUnmet
  deriving DecidableEq, Repr

/-! ## Constants -/

def defaultPremiumLpBps : ℤ := 8000
def defaultPremiumTreasBps : ℤ := 1000
def defaultPremiumBackstopBps : ℤ := 1000

def maxTotalDeposited : ℤ := 10 ^ 15

def minDeposit : ℤ := 1000000

def minShares : ℤ := 1

def defaultMaxUtilizationBps : ℕ := 10000

def maxExitDelay : ℕ := 30 * 24 * 60 * 60

/-- Most slots one sweep inspects. -/
def maxAutoExitScan : ℕ := 5

def timelockSeconds : ℕ := 7 * 24 * 60 * 60

def parameterTimelockSeconds : ℕ := 2 * 24 * 60 * 60

def minGuardians : ℕ := 2

/-- Scale of the accumulated premium per share. -/
def perShareScale : ℤ := 1000000000000

/-- Shares of the first deposit that nobody holds. -/
def lockedShares : ℤ := 1000

def maxU32 : ℕ := 2 ^ 32 - 1

/-! ## Storage -/

structure State where
  initialized : Bool
  admin : Option Address
  treasury : Option Address
  backstop : Option Address
  usdcToken : Option Address
  category : Option Symbol
  totalDeposited : ℤ
  totalLocked : ℤ
  totalShares : ℤ
  accumulatedPremium : ℤ
  accumulatedBackstop : ℤ
  accumulatedPerShare : ℤ
  status : PoolStatus
  lpPosition : Address → Option LpPosition
  lpCount : ℕ
  lpAddress : ℕ → Option Address
  lock : ℕ → Option CapitalLock
  adminWithdrawalRequest : Option AdminWithdrawalRequest
  adminWithdrawalApprovals : ℕ
  pendingAdmin : Option Address
  pendingAdminSince : Option ℕ
  policyEngine : Option Address
  claimsProcessor : Option Address
  premiumSplit : PremiumSplit
  guardians : List Address
  guardianThreshold : ℕ
  pendingAdminChange : Option PendingAdminChange
  pendingGuardianRemoval : Option PendingGuardianRemoval
  pendingParameterChange : Option PendingParameterChange
  nextNftId : ℕ
  lpNft : ℕ → Option LpNft
  providerNft : Address → Option ℕ
  capacity : PoolCapacity
  exitDelay : ℕ
  exitReq : Address → Option ExitRequest
  queuedExitShares : ℤ
  exitCursor : ℕ
  reinsurance : Option ReinsuranceConfig
  reinsurancePremiumPaid : ℤ
  reinsuranceRecovered : ℤ

/-- Storage of a freshly deployed pool. -/
def State.deployed : State where
  initialized := false
  admin := none
  treasury := none
  backstop := none
  usdcToken := none
  category := none
  totalDeposited := 0
  totalLocked := 0
  totalShares := 0
  accumulatedPremium := 0
  accumulatedBackstop := 0
  accumulatedPerShare := 0
  status := .active
  lpPosition _ := none
  lpCount := 0
  lpAddress _ := none
  lock _ := none
  adminWithdrawalRequest := none
  adminWithdrawalApprovals := 0
  pendingAdmin := none
  pendingAdminSince := none
  policyEngine := none
  claimsProcessor := none
  premiumSplit :=
    { lpBps := defaultPremiumLpBps
      treasBps := defaultPremiumTreasBps
      backstopBps := defaultPremiumBackstopBps }
  guardians := []
  guardianThreshold := 0
  pendingAdminChange := none
  pendingGuardianRemoval := none
  pendingParameterChange := none
  nextNftId := 1
  lpNft _ := none
  providerNft _ := none
  capacity :=
    { maxTotalDeposited := maxTotalDeposited
      maxUtilizationBps := defaultMaxUtilizationBps }
  exitDelay := 0
  exitReq _ := none
  queuedExitShares := 0
  exitCursor := 0
  reinsurance := none
  reinsurancePremiumPaid := 0
  reinsuranceRecovered := 0

end Parashield.RiskPool
