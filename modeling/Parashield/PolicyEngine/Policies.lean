import Parashield.PolicyEngine.Products

/-!
# Policy engine: policy lifecycle

Buying, cancelling, transferring, paying and expiring policies, and the
expiry notifications.
-/

namespace Parashield.PolicyEngine

open Support Support.Contract Invocation

def storePolicy (id : ℕ) (p : Policy) : Call Unit :=
  update fun s => { s with policies := Function.update s.policies id (some p) }

@[simp] theorem storePolicy_ok {id : ℕ} {p : Policy}
    {m m' : Machine State} {u : Unit} :
    storePolicy id p m = .ok (u, m') ↔
      m' = { m with store :=
        { m.store with
          policies := Function.update m.store.policies id (some p) } } := by
  simp [storePolicy]

/-- Append a policy to the list of its holder. -/
def addPolicyToUser (user : Address) (policyId : ℕ) : Call Unit :=
  update fun s =>
    { s with
      userPolicies :=
        Function.update s.userPolicies user
          (s.userPolicies user ++ [policyId]) }

@[simp] theorem addPolicyToUser_ok {user : Address} {policyId : ℕ}
    {m m' : Machine State} {u : Unit} :
    addPolicyToUser user policyId m = .ok (u, m') ↔
      m' = { m with store :=
        { m.store with
          userPolicies :=
            Function.update m.store.userPolicies user
              (m.store.userPolicies user ++ [policyId]) } } := by
  simp [addPolicyToUser]

/-- Remove the first occurrence of a policy from the list of its holder. -/
def removePolicyFromUser (user : Address) (policyId : ℕ) : Call Unit :=
  update fun s =>
    { s with
      userPolicies :=
        Function.update s.userPolicies user
          ((s.userPolicies user).erase policyId) }

@[simp] theorem removePolicyFromUser_ok {user : Address} {policyId : ℕ}
    {m m' : Machine State} {u : Unit} :
    removePolicyFromUser user policyId m = .ok (u, m') ↔
      m' = { m with store :=
        { m.store with
          userPolicies :=
            Function.update m.store.userPolicies user
              ((m.store.userPolicies user).erase policyId) } } := by
  simp [removePolicyFromUser]

/-! ## Purchase -/

/-- Premium of a policy: `coverage · rate · days / 365 / 10000`. -/
def requiredPremium (coverageAmount : ℤ) (premiumRateBps durationDays : ℕ) :
    Call ℤ := do
  let v ← i128 (coverageAmount * premiumRateBps)
    (.overflow (some .coverageOutOfRange))
  let v ← i128 (v * durationDays) (.overflow (some .coverageOutOfRange))
  pure ((v.tdiv 365).tdiv 10000)

/-- The premium as a function of the cover. -/
def premiumFor (coverageAmount : ℤ) (premiumRateBps durationDays : ℕ) : ℤ :=
  ((coverageAmount * premiumRateBps * durationDays).tdiv 365).tdiv 10000

@[simp] theorem requiredPremium_ok {coverageAmount premium : ℤ}
    {premiumRateBps durationDays : ℕ} {m m' : Machine State} :
    requiredPremium coverageAmount premiumRateBps durationDays m =
        .ok (premium, m') ↔
      (InI128 (coverageAmount * premiumRateBps) ∧
        InI128 (coverageAmount * premiumRateBps * durationDays)) ∧
        premium = premiumFor coverageAmount premiumRateBps durationDays ∧
        m' = m := by
  simp only [requiredPremium, premiumFor, bind_ok, i128_ok, pure_ok]
  constructor
  · rintro ⟨_, _, ⟨h, rfl, rfl⟩, _, _, ⟨h', rfl, rfl⟩, rfl, rfl⟩
    exact ⟨⟨h, h'⟩, rfl, rfl⟩
  · rintro ⟨⟨h, h'⟩, rfl, rfl⟩
    exact ⟨_, _, ⟨h, rfl, rfl⟩, _, _, ⟨h', rfl, rfl⟩, rfl, rfl⟩

def buyPolicyInner (env : Env) (buyer : Address) (productId : ℕ)
    (coverageAmount : ℤ) (durationDays : ℕ) (oracleKey : Symbol)
    (startTime : ℕ) (paymentToken : Address) : Call ℕ := do
  ensure (env.now ≤ startTime) .invalidStartTime
  ensure (oracleKey.chars.length ≤ 32) .invalidOracleKey
  let s ← load
  let admin ← unwrap s.admin (.error .notInitialized)
  ensure (buyer ≠ admin) .adminCannotBuyPolicy
  let purchaseKey := (buyer, oracleKey)
  ensure
    (∀ last ∈ s.lastPurchase purchaseKey,
      satAddU64 last purchaseCoolingOffSeconds ≤ env.now) .coolingOffActive
  let product ← loadProduct productId
  ensure (product.status = .active) .productNotActive
  ensure (0 < coverageAmount) .coverageOutOfRange
  ensure
    (product.coverageMin ≤ coverageAmount ∧
      coverageAmount ≤ product.coverageMax) .coverageOutOfRange
  ensure (durationDays ≠ 0) .invalidDurationRange
  ensure (durationDays ≤ product.maxDurationDays) .durationTooLong
  ensure (coverageAmount ≤ maxCoverageLimit) .coverageOutOfRange
  ensure (product.premiumRateBps ≠ 0 ∧ product.premiumRateBps ≤ 5000)
    .invalidPremiumRate
  let premium ←
    requiredPremium coverageAmount product.premiumRateBps durationDays
  ensure (0 < premium) .zeroPremiumRate
  ensure (paymentToken = product.expectedToken) .invalidToken
  transferToken env paymentToken buyer env.self premium
  let durationSecs ←
    unsigned 64 (durationDays * 86400) (.error .coverageOutOfRange)
  let endTime ←
    unsigned 64 (startTime + durationSecs) (.error .coverageOutOfRange)
  ensure (startTime < endTime) .invalidDurationRange
  let maxDurationSecs := min (product.maxDurationDays * 86400) maxU64
  ensure
    (endTime - startTime ≤ maxDurationSecs ∧
      endTime ≤ satAddU64 startTime maxDurationSecs) .durationTooLong
  let policyId ← freshPolicyId
  update fun s =>
    { s with
      lastPurchase :=
        Function.update s.lastPurchase purchaseKey (some env.now) }
  storePolicy policyId
    { id := policyId
      productId := productId
      policyholder := buyer
      coverageAmount := coverageAmount
      premiumPaid := premium
      oracleKey := oracleKey
      oracleDataType := product.oracleDataType
      triggerThreshold := product.triggerThreshold
      triggerComparison := product.triggerComparison
      startTime := startTime
      endTime := endTime
      status := .active
      createdAt := env.now }
  addPolicyToUser buyer policyId
  publish (.buyPolicy buyer policyId productId coverageAmount premium)
  pure policyId

def buyPolicy (env : Env) (buyer : Address) (productId : ℕ)
    (coverageAmount : ℤ) (durationDays : ℕ) (oracleKey : Symbol)
    (paymentToken : Address) : Call ℕ := do
  requireAuth env buyer
  ensureNotPaused
  buyPolicyInner env buyer productId coverageAmount durationDays oracleKey
    env.now paymentToken

def buyPolicyScheduled (env : Env) (buyer : Address) (productId : ℕ)
    (coverageAmount : ℤ) (durationDays : ℕ) (oracleKey : Symbol)
    (startTime : ℕ) (paymentToken : Address) : Call ℕ := do
  requireAuth env buyer
  ensureNotPaused
  buyPolicyInner env buyer productId coverageAmount durationDays oracleKey
    startTime paymentToken

def buyPolicyWithRate (env : Env) (buyer : Address) (productId : ℕ)
    (coverageAmount : ℤ) (durationDays : ℕ) (oracleKey : Symbol)
    (paymentToken : Address) (rateBps : ℕ) : Call ℕ := do
  requireAuth env buyer
  ensureNotPaused
  let product ← loadProduct productId
  ensure
    (rateBps = product.premiumRateBps ∧ rateBps ≠ 0 ∧ rateBps ≤ 5000)
    .invalidPremiumRate
  buyPolicyInner env buyer productId coverageAmount durationDays oracleKey
    env.now paymentToken

def batchBuyPolicy (env : Env) (buyer : Address)
    (items : List BatchBuyItem) : Call (List ℕ) := do
  requireAuth env buyer
  ensureNotPaused
  ensure (items.length ≠ 0) .emptyBatch
  ensure (items.length ≤ maxBatchBuy) .batchTooLarge
  collect items fun item =>
    buyPolicyInner env buyer item.productId item.coverageAmount
      item.durationDays item.oracleKey env.now item.paymentToken

/-! ## Cancellation and transfer -/

/-- Unearned part of the premium `elapsed` seconds into a policy that runs
for `totalDuration`. -/
def refundAmount (premiumPaid : ℤ) (elapsed totalDuration : ℕ) :
    Call ℤ := do
  if totalDuration = 0 then
    pure premiumPaid
  else do
    let elapsedCapped := min elapsed totalDuration
    let v ← i128 (premiumPaid * elapsedCapped) (.overflow (some .overflow))
    let earned ← i128 (v.tdiv totalDuration) (.overflow (some .overflow))
    pure (satI128 (premiumPaid - earned))

/-- The refund as a function of the policy's term. -/
def unearnedPremium (premiumPaid : ℤ) (elapsed totalDuration : ℕ) : ℤ :=
  if totalDuration = 0 then
    premiumPaid
  else
    satI128
      (premiumPaid -
        (premiumPaid * (min elapsed totalDuration : ℕ)).tdiv totalDuration)

/-- The intermediate products of the refund fit into 128 bits. -/
def RefundFits (premiumPaid : ℤ) (elapsed totalDuration : ℕ) : Prop :=
  totalDuration = 0 ∨
    (InI128 (premiumPaid * (min elapsed totalDuration : ℕ)) ∧
      InI128
        ((premiumPaid * (min elapsed totalDuration : ℕ)).tdiv
          totalDuration))

@[simp] theorem refundAmount_ok {premiumPaid refund : ℤ}
    {elapsed totalDuration : ℕ} {m m' : Machine State} :
    refundAmount premiumPaid elapsed totalDuration m = .ok (refund, m') ↔
      RefundFits premiumPaid elapsed totalDuration ∧
        refund = unearnedPremium premiumPaid elapsed totalDuration ∧
        m' = m := by
  unfold refundAmount unearnedPremium RefundFits
  by_cases hzero : totalDuration = 0
  · simp [hzero]
  · simp only [hzero, if_false, false_or, bind_ok, i128_ok, pure_ok]
    constructor
    · rintro ⟨_, _, ⟨h, rfl, rfl⟩, _, _, ⟨h', rfl, rfl⟩, rfl, rfl⟩
      exact ⟨⟨h, h'⟩, rfl, rfl⟩
    · rintro ⟨⟨h, h'⟩, rfl, rfl⟩
      exact ⟨_, _, ⟨h, rfl, rfl⟩, _, _, ⟨h', rfl, rfl⟩, rfl, rfl⟩

/-- What is earned after `elapsed` of `total` is between nothing and the
premium. -/
theorem earned_bounds {premium : ℤ} {elapsed total : ℕ}
    (hpremium : 0 ≤ premium) (hle : elapsed ≤ total) (htotal : total ≠ 0) :
    0 ≤ (premium * elapsed).tdiv total ∧
      (premium * elapsed).tdiv total ≤ premium := by
  have hpos : (0 : ℤ) < total := by omega
  have hprod : 0 ≤ premium * elapsed :=
    Int.mul_nonneg hpremium (Int.natCast_nonneg elapsed)
  rw [Int.tdiv_eq_ediv_of_nonneg hprod]
  refine ⟨Int.ediv_nonneg hprod hpos.le, ?_⟩
  calc
    premium * elapsed / total ≤ premium * total / total :=
      Int.ediv_le_ediv hpos
        (Int.mul_le_mul_of_nonneg_left (by exact_mod_cast hle) hpremium)
    _ = premium := Int.mul_ediv_cancel premium hpos.ne'

/-- Clamping brings a non-negative amount no lower than zero and no higher. -/
theorem satI128_bounds {x : ℤ} (hx : 0 ≤ x) :
    0 ≤ satI128 x ∧ satI128 x ≤ x := by
  simp only [satI128, minI128, maxI128]
  omega

/-- The refund is between nothing and the premium. -/
theorem unearnedPremium_bounds {premiumPaid : ℤ}
    (hpremium : 0 ≤ premiumPaid) (elapsed totalDuration : ℕ) :
    0 ≤ unearnedPremium premiumPaid elapsed totalDuration ∧
      unearnedPremium premiumPaid elapsed totalDuration ≤ premiumPaid := by
  unfold unearnedPremium
  split
  · exact ⟨hpremium, le_refl _⟩
  · next hne =>
      obtain ⟨hlow, hhigh⟩ :=
        earned_bounds hpremium (Nat.min_le_right elapsed totalDuration) hne
      obtain ⟨hsat, hsat'⟩ := satI128_bounds (sub_nonneg.mpr hhigh)
      exact ⟨hsat, hsat'.trans (Int.sub_le_self _ hlow)⟩

def cancelPolicy (env : Env) (policyholder : Address) (policyId : ℕ)
    (reason : Bytes) : Call ℤ := do
  requireAuth env policyholder
  ensure (reason ≠ []) .invalidInput
  ensure (reason.length ≤ maxReasonLength) .reasonTooLong
  let policy ← loadPolicy policyId
  ensure (policy.policyholder = policyholder) .unauthorized
  ensure (policy.status = .active) .policyNotActive
  storePolicy policyId { policy with status := .cancelled }
  removePolicyFromUser policyholder policyId
  let refund ←
    refundAmount policy.premiumPaid (env.now - policy.startTime)
      (policy.endTime - policy.startTime)
  let s ← load
  let usdc ← unwrap s.usdcToken (.error .notInitialized)
  whenever (0 < refund)
    (transferToken env usdc env.self policyholder refund)
  publish (.policyCancelled policyId policyholder refund)
  pure refund

def transferPolicy (env : Env) (sender recipient : Address)
    (policyId : ℕ) : Call Unit := do
  requireAuth env sender
  requireAuth env recipient
  ensureNotPaused
  let policy ← loadPolicy policyId
  ensure (policy.policyholder = sender) .unauthorized
  ensure (policy.status = .active) .policyNotActive
  if sender = recipient then
    pure ()
  else do
    storePolicy policyId { policy with policyholder := recipient }
    removePolicyFromUser sender policyId
    addPolicyToUser recipient policyId
    publish (.policyTransferred policyId sender recipient)

/-! ## Status updates by the claims processor -/

/-- The error reported for a policy that has already left `Active`. -/
def PolicyStatus.terminalError : PolicyStatus → Error
  | .claimed => .alreadyClaimed
  | .expired => .alreadyExpired
  | .cancelled => .policyNotActive
  | .active => .policyNotActive

def payClaim (env : Env) (caller : Address) (policyId : ℕ) :
    Call Unit := do
  requireClaimsProcessor env caller
  let policy ← loadPolicy policyId
  ensure (policy.status = .active) policy.status.terminalError
  let s ← load
  let usdc ← unwrap s.usdcToken (.error .notInitialized)
  transferToken env usdc env.self policy.policyholder policy.coverageAmount
    (.error .insufficientPool)
  storePolicy policyId { policy with status := .claimed }
  removePolicyFromUser policy.policyholder policyId
  publish (.claimPaid policyId policy.policyholder policy.coverageAmount)

def expirePolicy (env : Env) (caller : Address) (policyId : ℕ) :
    Call Unit := do
  requireClaimsProcessor env caller
  let policy ← loadPolicy policyId
  ensure (policy.status = .active) policy.status.terminalError
  storePolicy policyId { policy with status := .expired }
  removePolicyFromUser policy.policyholder policyId
  publish (.policyExpired policyId env.now)

/-! ## Expiry notifications -/

/-- Record the warning of a policy and publish it. -/
def warnExpiring (policyId : ℕ) (policy : Policy) (now : ℕ) :
    Call Unit := do
  update fun s =>
    { s with expiryWarned := Function.update s.expiryWarned policyId true }
  publish
    (.policyExpiringSoon policyId policy.policyholder policy.productId
      policy.coverageAmount policy.endTime (policy.endTime - now))

def notifyPolicyExpiring (env : Env) (policyId : ℕ) : Call Unit := do
  let policy ← loadPolicy policyId
  ensure (policy.status = .active) .policyNotActive
  let s ← load
  ensure (env.now < policy.endTime) .notExpiringSoon
  ensure (policy.endTime - env.now ≤ s.expiryWarningWindow)
    .notExpiringSoon
  ensure (s.expiryWarned policyId = false) .notExpiringSoon
  warnExpiring policyId policy env.now

/-- One policy of a sweep: warn it if it is due, skip it otherwise. -/
def notifyIfExpiring (env : Env) (policyId : ℕ) : Call ℕ := do
  let s ← load
  match s.policies policyId with
  | none => pure 0
  | some policy =>
      if policy.status = .active ∧ env.now < policy.endTime ∧
          policy.endTime - env.now ≤ s.expiryWarningWindow ∧
          s.expiryWarned policyId = false then do
        warnExpiring policyId policy env.now
        pure 1
      else
        pure 0

def notifyExpiringPolicies (env : Env) (user : Address) (offset : ℕ) :
    Call ℕ := do
  let s ← load
  let scanned := ((s.userPolicies user).drop offset).take maxExpiryScan
  let emitted ← collect scanned (notifyIfExpiring env)
  pure emitted.sum

end Parashield.PolicyEngine
