import Parashield.ClaimsProcessor.Filing

/-!
# Claims processor: processing

Evaluation of claims against the oracle, their settlement, and the keeper
entry points that lead to it.
-/

namespace Parashield.ClaimsProcessor

open Support Support.Contract Invocation
open PolicyEngine (Policy)
open OracleVerifier (TriggerCondition OracleReadingQuery)

/-! ## Settlement -/

/-- The oracle's name for a comparison. -/
def mapComparison :
    PolicyEngine.TriggerComparison → OracleVerifier.TriggerComparison
  | .lessThan => .lessThan
  | .greaterThan => .greaterThan
  | .equal => .equal

/-- The condition a policy is insured against. -/
def triggerCondition (policy : Policy) : TriggerCondition where
  dataType := policy.oracleDataType
  key := policy.oracleKey
  threshold := policy.triggerThreshold
  comparison := mapComparison policy.triggerComparison
  tolerance := 0

/-- The claim once its trigger is met: paid in full from 10000 basis points
on, in proportion below. -/
def Claim.approve (claim : Claim) (effectiveBps : ℕ) :
    Check (Fault Error) Claim :=
  if 10000 ≤ effectiveBps then
    pure
      { claim with
        status := .paid
        paidAmount := some claim.coverageAmount
        partialPayoutBps := some 10000 }
  else do
    let v ← Check.i128 (claim.coverageAmount * effectiveBps) (.overflow none)
    let paid := v.tdiv 10000
    Check.require (paid ≤ claim.coverageAmount)
      (.error .payoutExceedsCoverage)
    pure
      { claim with
        status := .partiallyPaid
        paidAmount := some paid
        partialPayoutBps := some effectiveBps }

/-- Have the policy paid and its capital released. -/
def releasePayout (env : Context) (engine pool : Address) (policyId : ℕ) :
    Call Unit := do
  callEngine env engine fun e => PolicyEngine.payClaim e env.self policyId
  callPool env pool fun e => RiskPool.releaseForClaim e env.self policyId

/-- Pay an approved claim now, or hold it for the payout delay. -/
def disburse (env : Context) (engine pool : Address) (claim : Claim) :
    Call Claim := do
  let s ← loadClaims
  if 0 < s.payoutDelay then
    pure
      { claim with payoutReadyAt := some (satAddU64 env.now s.payoutDelay) }
  else do
    releasePayout env engine pool claim.policyId
    pure claim

def settleClaimWithTriggerResult (env : Context) (claim : Claim)
    (policy : Policy) (triggerMet : Bool) (partialPayoutBps : Option ℕ) :
    Call ClaimResult := do
  ensure (claim.status = .pending) .alreadyProcessed
  ensure (claim.claimant = policy.policyholder) .unauthorized
  let engine ← policyEngine
  let s ← loadClaims
  let pool ← unwrap s.riskPool (.error .notInitialized)
  let evaluated :=
    { claim with triggerMet := triggerMet, processedAt := some env.now }
  if triggerMet = true then do
    let approved ←
      check (evaluated.approve (min (partialPayoutBps.getD 10000) 10000))
    let settled ← disburse env engine pool approved
    storeClaim claim.id settled
    removeFromPending claim.id
    pure (if approved.status = .paid then .paid else .partiallyPaid)
  else do
    storeClaim claim.id { evaluated with status := .rejected }
    removeFromPending claim.id
    pure .rejected

def evaluateAndSettle (env : Context) (claim : Claim) (policy : Policy)
    (partialPayoutBps : Option ℕ) : Call ClaimResult := do
  ensure (claim.status = .pending) .alreadyProcessed
  ensure (claim.claimant = policy.policyholder) .unauthorized
  let s ← loadClaims
  let oracle ← unwrap s.oracleVerifier (.error .notInitialized)
  let triggerMet ← callOracle env oracle fun e =>
    OracleVerifier.verifyTriggerFresh e policy.oracleDataType
      policy.oracleKey (triggerCondition policy) s.stalenessThreshold
  settleClaimWithTriggerResult env claim policy triggerMet partialPayoutBps

/-! ## Claims that were filed -/

def processClaim (env : Context) (keeper : Address) (claimId : ℕ)
    (partialPayoutBps : Option ℕ) : Call ClaimResult := do
  requireKeeper env keeper
  requireNotPaused
  let claim ← loadClaim claimId
  if claim.status ≠ .pending then
    pure .alreadyProcessed
  else do
    let engine ← policyEngine
    let policy ← getPolicy env engine claim.policyId
    ensure (claim.coverageAmount = policy.coverageAmount) .coverageMismatch
    evaluateAndSettle env claim policy partialPayoutBps

/-- Each claim authorizes the keeper again, in the frame of the batch. -/
def batchProcessClaims (env : Context) (keeper : Address)
    (claimIds : List ℕ) (partialPayoutBps : Option ℕ) :
    Call (List (ℕ × ClaimResult)) := do
  requireKeeper env keeper
  requireNotPaused
  collect (claimIds.take maxBatchSize) fun claimId => do
    let result ←
      processClaim (env.authorized keeper) keeper claimId partialPayoutBps
    pure (claimId, result)

def batchVerifyOracleReadings (env : Context)
    (queries : List OracleReadingQuery) : Call (List Bool) := do
  let s ← loadClaims
  let oracle ← unwrap s.oracleVerifier (.error .notInitialized)
  callOracle env oracle fun e => OracleVerifier.batchVerifyFresh e queries

def verifyReadingsIndividual (env : Context)
    (queries : List OracleReadingQuery) : Call (List Bool) := do
  let s ← loadClaims
  let oracle ← unwrap s.oracleVerifier (.error .notInitialized)
  collect queries fun q =>
    callOracle env oracle fun e =>
      OracleVerifier.verifyTriggerFresh e q.dataType q.key q.condition
        q.stalenessThreshold

def processMultiReadingClaim (env : Context) (keeper : Address)
    (claimId : ℕ) (queries : List OracleReadingQuery) (requireAll : Bool)
    (partialPayoutBps : Option ℕ) : Call ClaimResult := do
  requireKeeper env keeper
  requireNotPaused
  ensure (queries ≠ []) .invalidInput
  let claim ← loadClaim claimId
  if claim.status ≠ .pending then
    pure .alreadyProcessed
  else do
    let engine ← policyEngine
    let policy ← getPolicy env engine claim.policyId
    ensure (claim.coverageAmount = policy.coverageAmount) .coverageMismatch
    let results ← batchVerifyOracleReadings env queries
    let triggerMet := if requireAll then results.all id else results.any id
    settleClaimWithTriggerResult env claim policy triggerMet partialPayoutBps

/-! ## Policies -/

/-- The policy ran out: expire it and free its capital. -/
def closeExpired (env : Context) (engine : Address) (policyId : ℕ) :
    Call ClaimResult := do
  let s ← loadClaims
  let pool ← unwrap s.riskPool (.error .notInitialized)
  callEngine env engine fun e => PolicyEngine.expirePolicy e env.self policyId
  callPool env pool fun e => RiskPool.releaseForExpiry e env.self policyId
  pure .expired

/-- The claim of a policy, filed for its holder if there is none. -/
def claimOfPolicy (env : Context) (policy : Policy) (policyId : ℕ) :
    Call ℕ := do
  let s ← loadClaims
  match s.policyClaim policyId with
  | some claimId => pure claimId
  | none => do
      let claimId ← nextClaimId
      recordClaim
        (.fresh claimId policyId policy.policyholder policy.coverageAmount
          env.now)
      pure claimId

/-- The claim recorded for a policy has left `Pending`. -/
def State.evaluated (s : State) (policyId : ℕ) : Bool :=
  match s.policyClaim policyId with
  | none => false
  | some claimId =>
      match s.claim claimId with
      | none => false
      | some c => decide (c.status ≠ .pending)

/-- The part of `autoProcess` behind its cooldown. -/
def processPolicy (env : Context) (policyId : ℕ)
    (partialPayoutBps : Option ℕ) : Call ClaimResult := do
  let s ← loadClaims
  if s.evaluated policyId = true then
    pure .alreadyProcessed
  else do
    let engine ← policyEngine
    let policy ← getPolicy env engine policyId
    ensure (0 < policy.coverageAmount) .invalidClaimAmount
    match policy.status with
    | .claimed => pure .alreadyClaimed
    | .expired => pure .expired
    | .cancelled => pure .policyNotActive
    | .active =>
        if policy.endTime < env.now then
          closeExpired env engine policyId
        else do
          let claimId ← claimOfPolicy env policy policyId
          let s ← loadClaims
          let claim ← unwrap (s.claim claimId) .trap
          if claim.status ≠ .pending then
            pure .alreadyProcessed
          else
            evaluateAndSettle env claim policy partialPayoutBps

def autoProcess (env : Context) (keeper : Address) (policyId : ℕ)
    (partialPayoutBps : Option ℕ) : Call ClaimResult := do
  requireKeeper env keeper
  requireNotPaused
  let s ← loadClaims
  ensure
    (∀ last ∈ s.autoProcessLastTime policyId,
      satAddU64 last s.autoProcessCooldown ≤ env.now) .rateLimitExceeded
  updateClaims fun s =>
    { s with
      autoProcessLastTime :=
        Function.update s.autoProcessLastTime policyId (some env.now) }
  processPolicy env policyId partialPayoutBps

/-! ## The pending queue -/

/-- One pass of the bubble sort over the first `k` neighbours. -/
def bubble : ℕ → List (ℕ × ℕ) → List (ℕ × ℕ)
  | _, [] => []
  | _, [x] => [x]
  | 0, xs => xs
  | k + 1, x :: y :: xs =>
      if y.2 < x.2 then y :: bubble k (x :: xs) else x :: bubble k (y :: xs)

/-- Bubble sort by submission time, oldest first. -/
def bubbleSort (xs : List (ℕ × ℕ)) : List (ℕ × ℕ) :=
  (List.range xs.length).foldl
    (fun ys i => bubble (xs.length - i - 1) ys) xs

/-- The stored claims of the queue with their submission times. -/
def State.claimTimestamps (s : State) : List (ℕ × ℕ) :=
  s.pendingClaims.filterMap fun claimId =>
    (s.claim claimId).map fun c => (claimId, c.submittedAt)

/-- One claim of the batch, in a call of the processor to itself: a failure
skips the claim. -/
def autoProcessPending (env : Context) (caller : Address) (claimId : ℕ) :
    Call (Option (ℕ × ClaimResult)) := do
  let s ← loadClaims
  match s.claim claimId with
  | none => pure none
  | some c =>
      if c.status ≠ .pending ∨ c.processedAt.isSome then
        pure none
      else do
        let outcome : Except (Fault Error) ClaimResult ← attempt
          (autoProcess env.enterSelf caller c.policyId none)
        match outcome with
        | .ok result => pure (some (claimId, result))
        | .error _ => pure none

def batchAutoProcess (env : Context) (caller : Address) (limit : ℕ) :
    Call (List (ℕ × ClaimResult)) := do
  requireKeeper env caller
  requireNotPaused
  ensure (limit ≠ 0) .invalidInput
  let s ← loadClaims
  let sortedPending := (bubbleSort s.claimTimestamps).map Prod.fst
  updateClaims fun s => { s with pendingClaims := sortedPending }
  let results ←
    collect (sortedPending.take (min limit maxBatchSize))
      (autoProcessPending env caller)
  pure (results.filterMap id)

end Parashield.ClaimsProcessor
