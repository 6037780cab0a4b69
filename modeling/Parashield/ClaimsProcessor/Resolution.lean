import Parashield.ClaimsProcessor.Processing

/-!
# Claims processor: after the evaluation

Delayed payouts, disputes, rejections and escalations, installments, and the
attestations attached to a claim.
-/

namespace Parashield.ClaimsProcessor

open Support Support.Contract Invocation

/-! ## Payouts after the delay -/

def claimPayout (env : Context) (claimId : ℕ) : Call ℤ := do
  requireNotPaused
  let claim ← loadClaim claimId
  let payoutReadyAt ←
    unwrap claim.payoutReadyAt (.error .payoutDelayNotElapsed)
  ensure (payoutReadyAt ≤ env.now) .payoutDelayNotElapsed
  let paidAmount ← unwrap claim.paidAmount (.error .claimNotFound)
  ensure (paidAmount ≤ claim.coverageAmount) .payoutExceedsCoverage
  storeClaim claimId { claim with payoutReadyAt := none }
  let engine ← policyEngine
  let s ← loadClaims
  let pool ← unwrap s.riskPool (.error .notInitialized)
  releasePayout env engine pool claim.policyId
  pure paidAmount

def claimPayoutTo (env : Context) (claimId : ℕ) (recipient : Address) :
    Call ℤ := do
  let claim ← loadClaim claimId
  ensure (recipient = claim.claimant) .unauthorized
  claimPayout env claimId

def claimPayoutWithToken (env : Context) (claimId : ℕ)
    (payoutToken : Address) : Call ℤ := do
  requireNotPaused
  let claim ← loadClaim claimId
  let engine ← policyEngine
  let policy ← getPolicy env engine claim.policyId
  let product ← getProduct env engine policy.productId
  ensure (payoutToken = product.expectedToken) .invalidToken
  claimPayout env claimId

/-! ## Disputes and escalation -/

/-- A decision may be disputed for `disputeWindow` seconds. -/
def State.disputable (s : State) (now claimId : ℕ) (claim : Claim) : Bool :=
  decide
    ((∀ deadline ∈ s.claimDisputeDeadline claimId, now ≤ deadline) ∧
      (claim.status ≠ .pending →
        ∀ processedAt ∈ claim.processedAt,
          now ≤ satAddU64 processedAt s.disputeWindow))

def disputeClaim (env : Context) (caller : Address) (claimId : ℕ)
    (reason : Symbol) : Call Unit := do
  requireAuth env.toEnv caller
  let claim ← loadClaim claimId
  let engine ← policyEngine
  let policy ← getPolicy env engine claim.policyId
  ensure (caller = claim.claimant ∨ caller = policy.policyholder)
    .unauthorized
  ensure
    (claim.status = .pending ∨ claim.status = .rejected ∨
      claim.status = .partiallyPaid) .alreadyProcessed
  let s ← loadClaims
  ensure (s.disputable env.now claimId claim = true) .disputeWindowExpired
  ensure (reason.chars ≠ []) .emptyDisputeReason
  ensure (reason.chars.length ≤ maxDisputeReasonLen) .disputeReasonTooLong
  storeClaim claimId
    { claim with status := .disputed, disputeReason := some reason }
  removeFromPending claimId

def resolveDispute (env : Context) (admin : Address) (claimId : ℕ) :
    Call Unit := do
  requireAdmin env admin
  let claim ← loadClaim claimId
  ensure (claim.status = .disputed) .alreadyProcessed
  storeClaim claimId { claim with status := .pending, disputeReason := none }
  pushPending claimId

/-- The status of the claim is not looked at. -/
def rejectClaim (env : Context) (admin : Address) (claimId : ℕ) :
    Call Unit := do
  requireAdmin env admin
  let claim ← loadClaim claimId
  storeClaim claimId { claim with status := .rejected }
  removeFromPending claimId

/-- The threshold of a category, or the one for all. -/
def State.thresholdFor (s : State) (category : Symbol) : ℕ :=
  (s.categoryEscalationThreshold category).getD s.escalationThreshold

def escalateClaim (env : Context) (caller : Address) (claimId : ℕ) :
    Call Unit := do
  requireAuth env.toEnv caller
  requireNotPaused
  let claim ← loadClaim claimId
  ensure (claim.status = .pending) .notEscalatable
  let engine ← policyEngine
  let policy ← getPolicy env engine claim.policyId
  let product ← getProduct env engine policy.productId
  let s ← loadClaims
  ensure (s.thresholdFor product.category ≤ env.now - claim.submittedAt)
    .notEscalatable
  ensure (env.now ≤ satAddU64 policy.endTime s.claimDeadline)
    .notEscalatable
  storeClaim claimId { claim with status := .escalated }
  removeFromPending claimId

/-- How long a claim waits, and whether it is past its threshold. -/
structure ClaimAgeInfo where
  claimId : ℕ
  status : ClaimStatus
  submittedAt : ℕ
  pendingFor : ℕ
  escalationThreshold : ℕ
  escalatable : Bool
  secondsUntilEscalatable : ℕ
  deriving DecidableEq

def Claim.ageInfo (claim : Claim) (now claimId threshold : ℕ) :
    ClaimAgeInfo :=
  let isPending := decide (claim.status = .pending)
  let pendingFor := if isPending then now - claim.submittedAt else 0
  { claimId := claimId
    status := claim.status
    submittedAt := claim.submittedAt
    pendingFor := pendingFor
    escalationThreshold := threshold
    escalatable := isPending && decide (threshold ≤ pendingFor)
    secondsUntilEscalatable := if !isPending then 0 else threshold - pendingFor }

def getClaimAge (env : Context) (claimId : ℕ) : Call ClaimAgeInfo := do
  let claim ← loadClaim claimId
  let engine ← policyEngine
  let policy ← getPolicy env engine claim.policyId
  let product ← getProduct env engine policy.productId
  let s ← loadClaims
  pure (claim.ageInfo env.now claimId (s.thresholdFor product.category))

/-- The claim, if it is pending and past its threshold. -/
def inspectPending (env : Context) (engine : Address) (claimId : ℕ) :
    Call (List ℕ) := do
  let s ← loadClaims
  match s.claim claimId with
  | none => pure []
  | some claim =>
      if claim.status = .pending then do
        let policy ← getPolicy env engine claim.policyId
        let product ← getProduct env engine policy.productId
        if s.thresholdFor product.category ≤ env.now - claim.submittedAt then
          pure [claimId]
        else
          pure []
      else
        pure []

def getEscalatableClaims (env : Context) : Call (List ℕ) := do
  let s ← loadClaims
  let engine ← policyEngine
  let overdue ← collect s.pendingClaims (inspectPending env engine)
  pure overdue.flatten

/-! ## Installments -/

def scheduleInstallments (env : Context) (caller : Address) (claimId : ℕ)
    (amountPerInstallment : ℤ) (numInstallments intervalSeconds : ℕ) :
    Call Unit := do
  requireKeeper env caller
  requireNotPaused
  ensure (0 < amountPerInstallment) .invalidClaimAmount
  ensure (numInstallments ≠ 0 ∧ numInstallments ≤ maxInstallments)
    .invalidInput
  let claim ← loadClaim claimId
  ensure (claim.status = .paid ∨ claim.status = .partiallyPaid) .invalidInput
  let totalAmount := satI128 (amountPerInstallment * numInstallments)
  ensure (totalAmount ≤ claim.coverageAmount) .invalidInput
  storeClaim claimId
    { claim with
      installments :=
        [{ totalAmount := totalAmount
           amountPerInstallment := amountPerInstallment
           numInstallments := numInstallments
           intervalSeconds := intervalSeconds
           firstInstallmentAt := satAddU64 env.now intervalSeconds
           paidCount := 0 }] }

/-- Installments that are due; the interval is a divisor. -/
def InstallmentSchedule.available (schedule : InstallmentSchedule)
    (now : ℕ) : Check (Fault Error) ℕ :=
  if schedule.firstInstallmentAt ≤ now then do
    Check.require (schedule.intervalSeconds ≠ 0) .trap
    let elapsed :=
      (now - schedule.firstInstallmentAt) / schedule.intervalSeconds
    pure (min (satAddU64 elapsed 1) schedule.numInstallments)
  else
    pure 0

/-- The capital of the policy is released; no token is transferred. -/
def claimInstallment (env : Context) (claimant : Address) (claimId : ℕ) :
    Call ℤ := do
  requireAuth env.toEnv claimant
  requireNotPaused
  let claim ← loadClaim claimId
  ensure (claim.claimant = claimant) .unauthorized
  let schedule ← unwrap claim.installments.head? (.error .invalidInput)
  ensure (schedule.paidCount < schedule.numInstallments) .invalidInput
  let available ← check (schedule.available env.now)
  ensure (schedule.paidCount < available) .invalidInput
  let amountToPay :=
    satI128
      (schedule.amountPerInstallment *
        ((available - schedule.paidCount : ℕ) : ℤ))
  let s ← loadClaims
  let pool ← unwrap s.riskPool (.error .notInitialized)
  callPool env pool fun e =>
    RiskPool.releaseForClaim e env.self claim.policyId
  storeClaim claimId
    { claim with
      installments :=
        { schedule with paidCount := available } :: claim.installments.tail }
  pure amountToPay

/-! ## Attestations -/

def requireAdminOrAttester (caller : Address) : Call Unit := do
  let s ← loadClaims
  let admin ← unwrap s.admin (.error .notInitialized)
  ensure (caller = admin ∨ caller ∈ s.authorizedAttesters)
    .unauthorizedAttester

def verifyClaimantIdentity (env : Context) (attester : Address)
    (claimId : ℕ) (idType : Symbol) : Call Unit := do
  requireAuth env.toEnv attester
  requireAdminOrAttester attester
  let claim ← loadClaim claimId
  storeClaim claimId
    { claim with
      identityVerified := true
      verificationType := some idType
      verificationTime := some env.now }

/-- Hashes may neither be empty nor all zero. -/
def submitClaimEvidence (env : Context) (claimId : ℕ) (claimant : Address)
    (evidenceHashes : List Bytes) : Call Unit := do
  requireNotPaused
  requireAuth env.toEnv claimant
  let claim ← loadClaim claimId
  ensure (claim.claimant = claimant) .unauthorized
  ensure (evidenceHashes.length ≤ maxEvidenceFiles) .evidenceLimitExceeded
  ensure (∀ hash ∈ evidenceHashes, ∃ byte ∈ hash, byte ≠ 0) .invalidEvidence
  updateClaims fun s =>
    { s with
      claimEvidence :=
        Function.update s.claimEvidence claimId evidenceHashes }

end Parashield.ClaimsProcessor
