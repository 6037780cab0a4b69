import Parashield.ClaimsProcessor.Types

/-!
# Claims processor: filing

The checks shared by all entry points, the calls into the other contracts,
and the filing of claims with its fraud detector.
-/

namespace Parashield.ClaimsProcessor

open Support Support.Contract Invocation
open PolicyEngine (Policy InsuranceProduct PolicyStatus)

abbrev Call (α : Type) := Invocation Error Network α

variable {α : Type}

/-! ## Own storage -/

def loadClaims : Call State := do
  let n ← load
  pure n.claims

def updateClaims (f : State → State) : Call Unit :=
  update fun n => { n with claims := f n.claims }

@[simp] theorem loadClaims_ok {m m' : Machine Network} {s : State} :
    loadClaims m = .ok (s, m') ↔ s = m.store.claims ∧ m' = m := by
  simp [loadClaims]
  tauto

@[simp] theorem updateClaims_ok {f : State → State}
    {m m' : Machine Network} {u : Unit} :
    updateClaims f m = .ok (u, m') ↔
      m' =
        { m with store := { m.store with claims := f m.store.claims } } := by
  simp [updateClaims]

def requireAdmin (env : Context) (caller : Address) : Call Unit := do
  let s ← loadClaims
  let admin ← unwrap s.admin (.error .notInitialized)
  ensure (caller = admin) .unauthorized
  requireAuth env.toEnv caller

@[simp] theorem requireAdmin_ok {env : Context} {caller : Address}
    {m m' : Machine Network} {u : Unit} :
    requireAdmin env caller m = .ok (u, m') ↔
      (m.store.claims.admin = some caller ∧ caller ∈ env.signers) ∧
        m' = m := by
  simp [requireAdmin]
  aesop

def requireKeeper (env : Context) (caller : Address) : Call Unit := do
  let s ← loadClaims
  ensure (s.keeper caller = true) .unauthorized
  requireAuth env.toEnv caller

@[simp] theorem requireKeeper_ok {env : Context} {caller : Address}
    {m m' : Machine Network} {u : Unit} :
    requireKeeper env caller m = .ok (u, m') ↔
      (m.store.claims.keeper caller = true ∧ caller ∈ env.signers) ∧
        m' = m := by
  simp [requireKeeper]
  tauto

def requireNotPaused : Call Unit := do
  let s ← loadClaims
  ensure (s.paused = false) .paused

@[simp] theorem requireNotPaused_ok {m m' : Machine Network} {u : Unit} :
    requireNotPaused m = .ok (u, m') ↔
      m.store.claims.paused = false ∧ m' = m := by
  simp [requireNotPaused]
  exact and_comm

def requireNotAdmin (caller : Address) : Call Unit := do
  let s ← loadClaims
  ensure (s.admin ≠ some caller) .adminCannotBeClaimant

@[simp] theorem requireNotAdmin_ok {caller : Address}
    {m m' : Machine Network} {u : Unit} :
    requireNotAdmin caller m = .ok (u, m') ↔
      m.store.claims.admin ≠ some caller ∧ m' = m := by
  simp [requireNotAdmin]
  exact and_comm

def requireNotZeroAddress (caller : Address) : Call Unit :=
  ensure (caller ≠ .zero) .invalidAddress

@[simp] theorem requireNotZeroAddress_ok {caller : Address}
    {m m' : Machine Network} {u : Unit} :
    requireNotZeroAddress caller m = .ok (u, m') ↔
      caller ≠ .zero ∧ m' = m := by
  simp [requireNotZeroAddress]

def loadClaim (claimId : ℕ) : Call Claim := do
  let s ← loadClaims
  unwrap (s.claim claimId) (.error .claimNotFound)

@[simp] theorem loadClaim_ok {claimId : ℕ} {c : Claim}
    {m m' : Machine Network} :
    loadClaim claimId m = .ok (c, m') ↔
      m.store.claims.claim claimId = some c ∧ m' = m := by
  simp [loadClaim]
  exact and_comm

def storeClaim (claimId : ℕ) (c : Claim) : Call Unit :=
  updateClaims fun s =>
    { s with claim := Function.update s.claim claimId (some c) }

@[simp] theorem storeClaim_ok {claimId : ℕ} {c : Claim}
    {m m' : Machine Network} {u : Unit} :
    storeClaim claimId c m = .ok (u, m') ↔
      m' =
        { m with store :=
          { m.store with claims :=
            { m.store.claims with
              claim :=
                Function.update m.store.claims.claim claimId (some c) } } } := by
  simp [storeClaim]

def pushPending (claimId : ℕ) : Call Unit :=
  updateClaims fun s =>
    { s with pendingClaims := s.pendingClaims ++ [claimId] }

/-- Remove the first occurrence of a claim from the queue. -/
def removeFromPending (claimId : ℕ) : Call Unit :=
  updateClaims fun s =>
    { s with pendingClaims := s.pendingClaims.erase claimId }

def nextClaimId : Call ℕ := do
  let s ← loadClaims
  let next ← unsigned 128 (s.nextClaimId + 1) .trap
  updateClaims fun s => { s with nextClaimId := next }
  pure s.nextClaimId

/-! ## Calls into the other contracts -/

/-- Call the policy engine at `address`; its failure is a trap here. -/
def callEngine (env : Context) (address : Address)
    (call : Env → PolicyEngine.Call α) : Call α := do
  require (address = env.engine) .trap
  zoom enginePart (fun _ => .trap) (call (env.enter env.engine))

def callPool (env : Context) (address : Address)
    (call : Env → RiskPool.Call α) : Call α := do
  require (address = env.pool) .trap
  zoom poolPart (fun _ => .trap) (call (env.enter env.pool))

def callOracle (env : Context) (address : Address)
    (call : Env → OracleVerifier.Call α) : Call α := do
  require (address = env.oracle) .trap
  zoom oraclePart (fun _ => .trap) (call (env.enter env.oracle))

section Calls

variable {env : Context} {address : Address} {m m' : Machine Network} {a : α}

@[simp] theorem callEngine_ok {call : Env → PolicyEngine.Call α} :
    callEngine env address call m = .ok (a, m') ↔
      address = env.engine ∧ ∃ s B,
        call (env.enter env.engine) ⟨m.store.engine, m.bank⟩ =
          .ok (a, ⟨s, B⟩) ∧
        m' = { store := { m.store with engine := s }, bank := B } := by
  simp only [callEngine, bind_ok, require_ok, zoom_ok]
  constructor
  · rintro ⟨_, _, ⟨rfl, rfl⟩, t, h, rfl⟩
    exact ⟨rfl, t.store, t.bank, h, rfl⟩
  · rintro ⟨rfl, s, B, h, rfl⟩
    exact ⟨(), m, ⟨rfl, rfl⟩, ⟨s, B⟩, h, rfl⟩

@[simp] theorem callPool_ok {call : Env → RiskPool.Call α} :
    callPool env address call m = .ok (a, m') ↔
      address = env.pool ∧ ∃ s B,
        call (env.enter env.pool) ⟨m.store.pool, m.bank⟩ = .ok (a, ⟨s, B⟩) ∧
        m' = { store := { m.store with pool := s }, bank := B } := by
  simp only [callPool, bind_ok, require_ok, zoom_ok]
  constructor
  · rintro ⟨_, _, ⟨rfl, rfl⟩, t, h, rfl⟩
    exact ⟨rfl, t.store, t.bank, h, rfl⟩
  · rintro ⟨rfl, s, B, h, rfl⟩
    exact ⟨(), m, ⟨rfl, rfl⟩, ⟨s, B⟩, h, rfl⟩

@[simp] theorem callOracle_ok {call : Env → OracleVerifier.Call α} :
    callOracle env address call m = .ok (a, m') ↔
      address = env.oracle ∧ ∃ s B,
        call (env.enter env.oracle) ⟨m.store.oracle, m.bank⟩ =
          .ok (a, ⟨s, B⟩) ∧
        m' = { store := { m.store with oracle := s }, bank := B } := by
  simp only [callOracle, bind_ok, require_ok, zoom_ok]
  constructor
  · rintro ⟨_, _, ⟨rfl, rfl⟩, t, h, rfl⟩
    exact ⟨rfl, t.store, t.bank, h, rfl⟩
  · rintro ⟨rfl, s, B, h, rfl⟩
    exact ⟨(), m, ⟨rfl, rfl⟩, ⟨s, B⟩, h, rfl⟩

end Calls

/-- The engine's address, once the processor is set up. -/
def policyEngine : Call Address := do
  let s ← loadClaims
  unwrap s.policyEngine (.error .notInitialized)

@[simp] theorem policyEngine_ok {m m' : Machine Network} {a : Address} :
    policyEngine m = .ok (a, m') ↔
      m.store.claims.policyEngine = some a ∧ m' = m := by
  simp [policyEngine]
  exact and_comm

def getPolicy (env : Context) (engine : Address) (policyId : ℕ) :
    Call Policy :=
  callEngine env engine fun _ => PolicyEngine.loadPolicy policyId

@[simp] theorem getPolicy_ok {env : Context} {engine : Address} {id : ℕ}
    {p : Policy} {m m' : Machine Network} :
    getPolicy env engine id m = .ok (p, m') ↔
      engine = env.engine ∧ m.store.engine.policies id = some p ∧
        m' = m := by
  simp only [getPolicy, callEngine_ok, PolicyEngine.loadPolicy_ok,
    Machine.mk.injEq]
  constructor
  · rintro ⟨rfl, s, B, ⟨h, rfl, rfl⟩, rfl⟩
    exact ⟨rfl, h, rfl⟩
  · rintro ⟨rfl, h, rfl⟩
    exact ⟨rfl, _, _, ⟨h, rfl, rfl⟩, rfl⟩

def getProduct (env : Context) (engine : Address) (productId : ℕ) :
    Call InsuranceProduct :=
  callEngine env engine fun _ => PolicyEngine.loadProduct productId

@[simp] theorem getProduct_ok {env : Context} {engine : Address} {id : ℕ}
    {p : InsuranceProduct} {m m' : Machine Network} :
    getProduct env engine id m = .ok (p, m') ↔
      engine = env.engine ∧ m.store.engine.products id = some p ∧
        m' = m := by
  simp only [getProduct, callEngine_ok, PolicyEngine.loadProduct_ok,
    Machine.mk.injEq]
  constructor
  · rintro ⟨rfl, s, B, ⟨h, rfl, rfl⟩, rfl⟩
    exact ⟨rfl, h, rfl⟩
  · rintro ⟨rfl, h, rfl⟩
    exact ⟨rfl, _, _, ⟨h, rfl, rfl⟩, rfl⟩

/-! ## Fraud detector -/

/-- `saturating_add` on unsigned 32-bit integers. -/
def satAddU32 (a b : ℕ) : ℕ := min (a + b) (2 ^ 32 - 1)

/-- The burst rule counts the submission being scored. -/
def ClaimantHistory.projectedBurst (h : ClaimantHistory) (now window : ℕ) :
    ℕ :=
  if 0 < h.burstBucketStart ∧ now - h.burstBucketStart < window then
    satAddU32 h.burstCount 1
  else
    1

/-- Score and flags of a submission. -/
def scoreSubmission (cfg : FraudConfig) (now : ℕ) (history : ClaimantHistory)
    (coverageAmount : ℤ) : ℕ × ℕ :=
  let rate : Bool := decide
    (0 < cfg.rateWindowSecs ∧ 0 < cfg.rateScore ∧
      0 < history.lastSubmissionAt ∧
      now - history.lastSubmissionAt < cfg.rateWindowSecs)
  let burst : Bool := decide
    (0 < cfg.burstWindowSecs ∧ 0 < cfg.burstCount ∧ 0 < cfg.burstScore ∧
      cfg.burstCount ≤ history.projectedBurst now cfg.burstWindowSecs)
  let coverage : Bool := decide
    (0 < cfg.coverageAnomalyMultiplier ∧ 0 < cfg.coverageScore ∧
      0 < history.maxCoverageEver ∧
      satI128 (history.maxCoverageEver * cfg.coverageAnomalyMultiplier) <
        coverageAmount)
  let score := if rate then satAddU32 0 cfg.rateScore else 0
  let score := if burst then satAddU32 score cfg.burstScore else score
  let score := if coverage then satAddU32 score cfg.coverageScore else score
  (score,
    (if rate then fraudFlagRate else 0) +
      (if burst then fraudFlagBurst else 0) +
      (if coverage then fraudFlagCoverage else 0))

/-- Fold an admitted submission into the claimant's history. -/
def updateClaimantHistory (claimant : Address) (now : ℕ)
    (coverageAmount : ℤ) (burstWindowSecs : ℕ) : Call Unit :=
  updateClaims fun s =>
    let prev := s.claimantHistory claimant
    let bucket :=
      if burstWindowSecs = 0 then
        (0, 0)
      else if prev.burstBucketStart = 0 ∨
          burstWindowSecs ≤ now - prev.burstBucketStart then
        (now, 1)
      else
        (prev.burstBucketStart, satAddU32 prev.burstCount 1)
    { s with
      claimantHistory :=
        Function.update s.claimantHistory claimant
          { lastSubmissionAt := now
            burstBucketStart := bucket.1
            burstCount := bucket.2
            maxCoverageEver := max prev.maxCoverageEver coverageAmount
            totalSubmissions := satAddU64 prev.totalSubmissions 1 } }

def evaluateFraud (env : Context) (claimId : ℕ) (claimant : Address)
    (coverageAmount : ℤ) : Call Unit := do
  let s ← loadClaims
  match s.fraudConfig with
  | none => pure ()
  | some cfg =>
      let (score, flags) :=
        scoreSubmission cfg env.now (s.claimantHistory claimant)
          coverageAmount
      whenever
        (cfg.fraudThresholdScore ≤ score ∧ 0 < cfg.fraudThresholdScore) do
        ensure (cfg.mode = .flagOnly) .fraudSuspected
        updateClaims fun s =>
          { s with
            fraudRecord :=
              Function.update s.fraudRecord claimId
                (some
                  { claimId := claimId
                    score := score
                    flags := flags
                    checkedAt := env.now }) }

/-! ## Filing -/

/-- A claim nobody has evaluated yet. -/
def Claim.fresh (id policyId : ℕ) (claimant : Address) (coverageAmount : ℤ)
    (now : ℕ) : Claim where
  id := id
  policyId := policyId
  claimant := claimant
  coverageAmount := coverageAmount
  observedValue := none
  triggerMet := false
  status := .pending
  submittedAt := now
  processedAt := none
  disputeReason := none
  paidAmount := none
  partialPayoutBps := none
  installments := []
  identityVerified := false
  verificationType := none
  verificationTime := none
  payoutReadyAt := none

/-- Store a new claim, tie it to its policy and queue it. -/
def recordClaim (c : Claim) : Call Unit :=
  updateClaims fun s =>
    { s with
      claim := Function.update s.claim c.id (some c)
      policyClaim := Function.update s.policyClaim c.policyId (some c.id)
      pendingClaims := s.pendingClaims ++ [c.id] }

@[simp] theorem recordClaim_ok {c : Claim} {m m' : Machine Network}
    {u : Unit} :
    recordClaim c m = .ok (u, m') ↔
      m' =
        { m with store :=
          { m.store with claims :=
            { m.store.claims with
              claim := Function.update m.store.claims.claim c.id (some c)
              policyClaim :=
                Function.update m.store.claims.policyClaim c.policyId
                  (some c.id)
              pendingClaims := m.store.claims.pendingClaims ++ [c.id] } } } := by
  simp [recordClaim]

def fileClaim (env : Context) (claimant : Address) (policyId : ℕ) :
    Call ℕ := do
  let s ← loadClaims
  ensure (s.policyClaim policyId = none) .alreadyClaimed
  let engine ← policyEngine
  let policy ← getPolicy env engine policyId
  let product ← getProduct env engine policy.productId
  ensure (product.category.chars ≠ []) .invalidClaimType
  ensure (0 < policy.coverageAmount) .invalidClaimAmount
  ensure (policy.policyholder = claimant) .unauthorized
  ensure (policy.status ≠ .cancelled) .policyNotActive
  ensure (policy.status = .active) .policyNotActive
  ensure (policy.startTime ≤ env.now) .claimOutsideCoveragePeriod
  let cutoff := satAddU64 policy.endTime s.claimDeadline
  ensure (env.now ≤ policy.endTime ∨ env.now ≤ cutoff) .claimDeadlinePassed
  ensure
    (policy.startTime ≤ satAddU64 env.now maxFutureSubmissionWindow)
    .claimOutsideCoveragePeriod
  ensure (0 < policy.endTime → env.now ≤ cutoff) .claimDeadlinePassed
  ensure (policy.endTime = 0 → env.now ≤ policy.endTime)
    .claimOutsideCoveragePeriod
  ensure
    (∀ last ∈ s.userLastClaim claimant,
      satAddU64 last userClaimCooldownSeconds ≤ env.now) .rateLimitExceeded
  updateClaims fun s =>
    { s with
      userLastClaim :=
        Function.update s.userLastClaim claimant (some env.now) }
  let claimId ← nextClaimId
  evaluateFraud env claimId claimant policy.coverageAmount
  recordClaim
    (.fresh claimId policyId claimant policy.coverageAmount env.now)
  let burstWindow :=
    match s.fraudConfig with
    | some cfg => cfg.burstWindowSecs
    | none => 0
  updateClaimantHistory claimant env.now policy.coverageAmount burstWindow
  pure claimId

/-- What every submission checks first. -/
def requireClaimant (env : Context) (claimant : Address) : Call Unit := do
  requireAuth env.toEnv claimant
  requireNotPaused
  requireNotAdmin claimant
  requireNotZeroAddress claimant

@[simp] theorem requireClaimant_ok {env : Context} {claimant : Address}
    {m m' : Machine Network} {u : Unit} :
    requireClaimant env claimant m = .ok (u, m') ↔
      (claimant ∈ env.signers ∧ m.store.claims.paused = false ∧
        m.store.claims.admin ≠ some claimant ∧ claimant ≠ .zero) ∧
        m' = m := by
  simp [requireClaimant]
  tauto

def submitClaim (env : Context) (claimant : Address) (policyId : ℕ) :
    Call ℕ := do
  requireClaimant env claimant
  fileClaim env claimant policyId

def submitClaimWithRef (env : Context) (claimant : Address) (policyId : ℕ)
    (reference : Symbol) : Call ℕ := do
  requireClaimant env claimant
  ensure (reference.chars ≠ []) .invalidInput
  let s ← loadClaims
  ensure (s.claimReference reference = none) .duplicateClaimReference
  let claimId ← fileClaim env claimant policyId
  updateClaims fun s =>
    { s with
      claimReference :=
        Function.update s.claimReference reference (some claimId) }
  pure claimId

/-- The administrator is authorized twice in one frame. -/
def registerClaimType (env : Context) (admin : Address)
    (claimType : Symbol) : Call Unit := do
  requireAuth env.toEnv admin
  requireAdmin (env.authorized admin) admin
  ensure (claimType.chars ≠ []) .invalidClaimType
  updateClaims fun s =>
    { s with
      registeredClaimType :=
        Function.update s.registeredClaimType claimType true }

def submitClaimWithType (env : Context) (claimant : Address)
    (policyId : ℕ) (claimType : Symbol) : Call ℕ := do
  requireClaimant env claimant
  let s ← loadClaims
  ensure (claimType.chars ≠ [] ∧ s.registeredClaimType claimType = true)
    .invalidClaimType
  fileClaim env claimant policyId

def batchSubmitClaims (env : Context) (claimant : Address)
    (policyIds : List ℕ) : Call (List ℕ) := do
  requireClaimant env claimant
  collect (policyIds.take maxBatchSize) (fileClaim env claimant)

end Parashield.ClaimsProcessor
