import Parashield.OracleVerifier.Verification
import Parashield.PolicyEngine.Policies
import Parashield.RiskPool.Capital

/-!
# Claims processor: data model

Claims and the storage of the claims processor, next to the storages of the
three contracts it calls.
-/

namespace Parashield.ClaimsProcessor

open Support Support.Contract

inductive ClaimStatus where
  | pending
  | paid
  | rejected
  | disputed
  | expired
  | partiallyPaid
  | escalated
  deriving DecidableEq, Repr

inductive ClaimResult where
  | paid
  | rejected
  | expired
  | alreadyClaimed
  | policyNotActive
  | alreadyProcessed
  | partiallyPaid
  | oracleUnavailable
  deriving DecidableEq, Repr

structure InstallmentSchedule where
  totalAmount : ℤ
  amountPerInstallment : ℤ
  numInstallments : ℕ
  intervalSeconds : ℕ
  firstInstallmentAt : ℕ
  paidCount : ℕ
  deriving DecidableEq, Repr

structure Claim where
  id : ℕ
  policyId : ℕ
  claimant : Address
  coverageAmount : ℤ
  observedValue : Option ℤ
  triggerMet : Bool
  status : ClaimStatus
  submittedAt : ℕ
  processedAt : Option ℕ
  disputeReason : Option Symbol
  paidAmount : Option ℤ
  partialPayoutBps : Option ℕ
  installments : List InstallmentSchedule
  identityVerified : Bool
  verificationType : Option Symbol
  verificationTime : Option ℕ
  payoutReadyAt : Option ℕ
  deriving DecidableEq, Repr

structure PendingAdminChange where
  newAdmin : Address
  approvals : List Address
  deriving DecidableEq, Repr

/-- What happens to a submission whose fraud score is too high. -/
inductive FraudMode where
  | block
  | flagOnly
  deriving DecidableEq, Repr

structure FraudConfig where
  rateWindowSecs : ℕ
  rateScore : ℕ
  burstWindowSecs : ℕ
  burstCount : ℕ
  burstScore : ℕ
  coverageAnomalyMultiplier : ℕ
  coverageScore : ℕ
  fraudThresholdScore : ℕ
  mode : FraudMode
  deriving DecidableEq, Repr

/-- Aggregate of a claimant's submissions. -/
structure ClaimantHistory where
  lastSubmissionAt : ℕ
  burstBucketStart : ℕ
  burstCount : ℕ
  maxCoverageEver : ℤ
  totalSubmissions : ℕ
  deriving DecidableEq, Repr

structure FraudRecord where
  claimId : ℕ
  score : ℕ
  flags : ℕ
  checkedAt : ℕ
  deriving DecidableEq, Repr

inductive Error where
  | alreadyInitialized
  | notInitialized
  | unauthorized
  | claimNotFound
  | policyNotActive
  | alreadyClaimed
  | alreadyProcessed
  | invalidAddress
  | paused
  | policyExpired
  | invalidVersion
  | notGuardian
  | alreadyApprovedAction
  | noPendingUpgrade
  | invalidThreshold
  | adminTimelockNotExpired
  | notEscalatable
  | invalidThresholdValue
  | claimDeadlinePassed
  | payoutDelayNotElapsed
  | identityVerificationRequired
  | invalidInput
  | fraudSuspected
  | adminTransferPending
  | rateLimitExceeded
  | payoutExceedsCoverage
  | unauthorizedAttester
  | claimOutsideCoveragePeriod
  | adminCannotBeClaimant
  | payoutDelayTooLong
  | emptyDisputeReason
  | coverageMismatch
  | invalidClaimAmount
  | disputeReasonTooLong
  | invalidDisputeWindow
  | disputeWindowExpired
  | duplicateClaimReference
  | invalidDisputeDeadline
  | invalidClaimType
  | evidenceLimitExceeded
  | invalidEvidence
  | invalidToken
  deriving DecidableEq, Repr

/-! ## Constants -/

/-- Most claims one batch call handles. -/
def maxBatchSize : ℕ := 50

def maxEvidenceFiles : ℕ := 10

def maxInstallments : ℕ := 12

def maxDisputeReasonLen : ℕ := 32

def minDisputeWindow : ℕ := 60 * 60

def maxDisputeWindow : ℕ := 30 * 24 * 60 * 60

def defaultDisputeWindow : ℕ := 7 * 24 * 60 * 60

def defaultEscalationThreshold : ℕ := 7 * 24 * 60 * 60

def minEscalationThreshold : ℕ := 60 * 60

def maxEscalationThreshold : ℕ := 90 * 24 * 60 * 60

def defaultClaimDeadline : ℕ := 30 * 24 * 60 * 60

def maxClaimDeadline : ℕ := 365 * 24 * 60 * 60

def maxFutureSubmissionWindow : ℕ := 60 * 60

def maxPayoutDelay : ℤ := 365 * 24 * 60 * 60

def userClaimCooldownSeconds : ℕ := 60

def defaultAutoProcessCooldown : ℕ := 300

def defaultStalenessThreshold : ℕ := 604800

def maxFraudScore : ℕ := 100

def fraudFlagRate : ℕ := 1
def fraudFlagBurst : ℕ := 2
def fraudFlagCoverage : ℕ := 4

/-! ## Storage -/

structure State where
  initialized : Bool
  admin : Option Address
  policyEngine : Option Address
  riskPool : Option Address
  oracleVerifier : Option Address
  stalenessThreshold : ℕ
  claim : ℕ → Option Claim
  /-- The claim of a policy: at most one is ever filed. -/
  policyClaim : ℕ → Option ℕ
  nextClaimId : ℕ
  pendingClaims : List ℕ
  keeper : Address → Bool
  paused : Bool
  pendingAdmin : Option Address
  pendingAdminSince : Option ℕ
  pendingAdminChange : Option PendingAdminChange
  guardians : List Address
  guardianThreshold : ℕ
  escalationThreshold : ℕ
  categoryEscalationThreshold : Symbol → Option ℕ
  claimDeadline : ℕ
  payoutDelay : ℕ
  identityRequirement : ℕ → Option Symbol
  fraudConfig : Option FraudConfig
  claimantHistory : Address → ClaimantHistory
  fraudRecord : ℕ → Option FraudRecord
  autoProcessLastTime : ℕ → Option ℕ
  /-- Read by `autoProcess`; no entry point writes it. -/
  autoProcessCooldown : ℕ
  authorizedAttesters : List Address
  disputeWindow : ℕ
  claimReference : Symbol → Option ℕ
  claimDisputeDeadline : ℕ → Option ℕ
  userLastClaim : Address → Option ℕ
  registeredClaimType : Symbol → Bool
  claimEvidence : ℕ → List Bytes

/-- Storage of a freshly deployed processor. -/
def State.deployed : State where
  initialized := false
  admin := none
  policyEngine := none
  riskPool := none
  oracleVerifier := none
  stalenessThreshold := defaultStalenessThreshold
  claim _ := none
  policyClaim _ := none
  nextClaimId := 1
  pendingClaims := []
  keeper _ := false
  paused := false
  pendingAdmin := none
  pendingAdminSince := none
  pendingAdminChange := none
  guardians := []
  guardianThreshold := 0
  escalationThreshold := defaultEscalationThreshold
  categoryEscalationThreshold _ := none
  claimDeadline := defaultClaimDeadline
  payoutDelay := 0
  identityRequirement _ := none
  fraudConfig := none
  claimantHistory _ :=
    { lastSubmissionAt := 0
      burstBucketStart := 0
      burstCount := 0
      maxCoverageEver := 0
      totalSubmissions := 0 }
  fraudRecord _ := none
  autoProcessLastTime _ := none
  autoProcessCooldown := defaultAutoProcessCooldown
  authorizedAttesters := []
  disputeWindow := defaultDisputeWindow
  claimReference _ := none
  claimDisputeDeadline _ := none
  userLastClaim _ := none
  registeredClaimType _ := false
  claimEvidence _ := []

/-! ## The contracts around the processor -/

/-- The storages a call of the processor can reach. -/
structure Network where
  claims : State
  engine : PolicyEngine.State
  pool : RiskPool.State
  oracle : OracleVerifier.State

def Network.deployed : Network where
  claims := .deployed
  engine := .deployed
  pool := .deployed
  oracle := .deployed

/-- The environment of a call of the processor: where the other contracts are
deployed, and whether the host admits a second `require_auth` of one address
in one call frame. -/
structure Context extends Env where
  engine : Address
  pool : Address
  oracle : Address
  repeatedAuth : Bool
  deriving DecidableEq

/-- The rest of a frame in which `a` has been authorized once. -/
def Context.authorized (env : Context) (a : Address) : Context :=
  if env.repeatedAuth = true then
    env
  else
    { env with signers := env.signers.filter fun signer => signer ≠ a }

/-- The environment of a call the processor makes to itself. -/
def Context.enterSelf (env : Context) : Context :=
  { env with signers := env.self :: env.signers }

section Parts

variable {S : Type}

/-- The machine of one contract within the network. -/
def part (get : Network → S) (put : S → Network → Network)
    (get_put : ∀ s n, get (put s n) = s) (put_get : ∀ n, put (get n) n = n)
    (put_put : ∀ s s' n, put s (put s' n) = put s n) :
    Part (Machine Network) (Machine S) where
  get m := ⟨get m.store, m.bank⟩
  put t m := ⟨put t.store m.store, t.bank⟩
  get_put t m := by rw [get_put]
  put_get m := by rw [put_get]
  put_put t t' m := by rw [put_put]

end Parts

def enginePart : Part (Machine Network) (Machine PolicyEngine.State) :=
  part Network.engine (fun s n => { n with engine := s })
    (fun _ _ => rfl) (fun _ => rfl) (fun _ _ _ => rfl)

def poolPart : Part (Machine Network) (Machine RiskPool.State) :=
  part Network.pool (fun s n => { n with pool := s })
    (fun _ _ => rfl) (fun _ => rfl) (fun _ _ _ => rfl)

def oraclePart : Part (Machine Network) (Machine OracleVerifier.State) :=
  part Network.oracle (fun s n => { n with oracle := s })
    (fun _ _ => rfl) (fun _ => rfl) (fun _ _ _ => rfl)

end Parashield.ClaimsProcessor
