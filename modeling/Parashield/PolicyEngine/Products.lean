import Parashield.PolicyEngine.Types

/-!
# Policy engine: configuration and products

Initialization, wiring, oracle and admin rotation, the product catalogue, and
the category and data type registries.
-/

namespace Parashield.PolicyEngine

open Support Support.Contract Invocation

abbrev Call (α : Type) := Invocation Error State α

/-! ## Internal helpers -/

def publish (e : Event) : Call Unit :=
  update fun s => { s with events := e :: s.events }

@[simp] theorem publish_ok {e : Event} {m m' : Machine State} {u : Unit} :
    publish e m = .ok (u, m') ↔
      m' = { m with store :=
        { m.store with events := e :: m.store.events } } := by
  simp [publish]

def requireAdmin (env : Env) (caller : Address) : Call Unit := do
  let s ← load
  let admin ← unwrap s.admin (.error .notInitialized)
  ensure (caller = admin) .unauthorized
  requireAuth env caller

/-- `a` is the current admin and authorized the invocation. -/
def IsAdmin (env : Env) (s : State) (a : Address) : Prop :=
  s.admin = some a ∧ a ∈ env.signers

@[simp] theorem requireAdmin_ok {env : Env} {caller : Address}
    {m m' : Machine State} {u : Unit} :
    requireAdmin env caller m = .ok (u, m') ↔
      IsAdmin env m.store caller ∧ m' = m := by
  simp [requireAdmin, IsAdmin]
  tauto

def requireClaimsProcessor (env : Env) (caller : Address) : Call Unit := do
  let s ← load
  let cp ← unwrap s.claimsProcessor (.error .claimsProcessorNotSet)
  ensure (caller = cp) .unauthorized
  requireAuth env caller

/-- `a` is the registered claims processor and authorized the invocation. -/
def IsClaimsProcessor (env : Env) (s : State) (a : Address) : Prop :=
  s.claimsProcessor = some a ∧ a ∈ env.signers

@[simp] theorem requireClaimsProcessor_ok {env : Env} {caller : Address}
    {m m' : Machine State} {u : Unit} :
    requireClaimsProcessor env caller m = .ok (u, m') ↔
      IsClaimsProcessor env m.store caller ∧ m' = m := by
  simp [requireClaimsProcessor, IsClaimsProcessor]
  tauto

def ensureNotPaused : Call Unit := do
  let s ← load
  ensure (s.paused = false) .unauthorized

@[simp] theorem ensureNotPaused_ok {m m' : Machine State} {u : Unit} :
    ensureNotPaused m = .ok (u, m') ↔ m.store.paused = false ∧ m' = m := by
  simp [ensureNotPaused, and_comm]

def requireNotZeroAddress (a : Address) : Call Unit :=
  ensure (a ≠ Address.zero) .invalidAddress

@[simp] theorem requireNotZeroAddress_ok {a : Address}
    {m m' : Machine State} {u : Unit} :
    requireNotZeroAddress a m = .ok (u, m') ↔
      a ≠ Address.zero ∧ m' = m := by
  simp [requireNotZeroAddress]

def loadProduct (id : ℕ) : Call InsuranceProduct := do
  let s ← load
  unwrap (s.products id) (.error .productNotFound)

@[simp] theorem loadProduct_ok {id : ℕ} {p : InsuranceProduct}
    {m m' : Machine State} :
    loadProduct id m = .ok (p, m') ↔
      m.store.products id = some p ∧ m' = m := by
  simp [loadProduct, and_comm]

def loadPolicy (id : ℕ) : Call Policy := do
  let s ← load
  unwrap (s.policies id) (.error .policyNotFound)

@[simp] theorem loadPolicy_ok {id : ℕ} {p : Policy}
    {m m' : Machine State} :
    loadPolicy id m = .ok (p, m') ↔
      m.store.policies id = some p ∧ m' = m := by
  simp [loadPolicy, and_comm]

def storeProduct (id : ℕ) (p : InsuranceProduct) : Call Unit :=
  update fun s => { s with products := Function.update s.products id (some p) }

@[simp] theorem storeProduct_ok {id : ℕ} {p : InsuranceProduct}
    {m m' : Machine State} {u : Unit} :
    storeProduct id p m = .ok (u, m') ↔
      m' = { m with store :=
        { m.store with
          products := Function.update m.store.products id (some p) } } := by
  simp [storeProduct]

/-- Fetch and increment the product counter. -/
def freshProductId : Call ℕ := do
  let s ← load
  let next ← unsigned 128 (s.nextProductId + 1) .trap
  update fun s => { s with nextProductId := next }
  pure s.nextProductId

/-- Fetch and increment the policy counter. -/
def freshPolicyId : Call ℕ := do
  let s ← load
  let next ← unsigned 128 (s.nextPolicyId + 1) .trap
  update fun s => { s with nextPolicyId := next }
  pure s.nextPolicyId

@[simp] theorem freshProductId_ok {id : ℕ} {m m' : Machine State} :
    freshProductId m = .ok (id, m') ↔
      id = m.store.nextProductId ∧ id + 1 < 2 ^ 128 ∧
        m' = { m with store := { m.store with nextProductId := id + 1 } } := by
  simp only [freshProductId, bind_ok, load_ok, unsigned_ok, update_ok, pure_ok]
  constructor
  · rintro ⟨_, _, ⟨rfl, rfl⟩, _, _, ⟨h, rfl, rfl⟩, _, _, rfl, rfl, rfl⟩
    exact ⟨rfl, h, rfl⟩
  · rintro ⟨rfl, h, rfl⟩
    exact ⟨_, _, ⟨rfl, rfl⟩, _, _, ⟨h, rfl, rfl⟩, (), _, rfl, rfl, rfl⟩

@[simp] theorem freshPolicyId_ok {id : ℕ} {m m' : Machine State} :
    freshPolicyId m = .ok (id, m') ↔
      id = m.store.nextPolicyId ∧ id + 1 < 2 ^ 128 ∧
        m' = { m with store := { m.store with nextPolicyId := id + 1 } } := by
  simp only [freshPolicyId, bind_ok, load_ok, unsigned_ok, update_ok, pure_ok]
  constructor
  · rintro ⟨_, _, ⟨rfl, rfl⟩, _, _, ⟨h, rfl, rfl⟩, _, _, rfl, rfl, rfl⟩
    exact ⟨rfl, h, rfl⟩
  · rintro ⟨rfl, h, rfl⟩
    exact ⟨_, _, ⟨rfl, rfl⟩, _, _, ⟨h, rfl, rfl⟩, (), _, rfl, rfl, rfl⟩

/-! ## Lifecycle -/

def initializeEngine (env : Env) (admin usdcToken oracleAddress : Address) :
    Call Unit := do
  let m ← get
  ensure (m.store.initialized = false) .alreadyInitialized
  ensure (usdcToken.isContract = true) .invalidAddress
  ensure (oracleAddress.isContract = true) .invalidAddress
  requireNotZeroAddress oracleAddress
  -- The two probes of the token succeed when a token lives there.
  ensure ((m.bank.ledger usdcToken).isSome = true) .invalidToken
  transferToken env usdcToken env.self env.self 0 (.error .invalidToken)
  requireAuth env admin
  update fun s =>
    { s with
      initialized := true
      admin := some admin
      usdcToken := some usdcToken
      oracleAddress := some oracleAddress
      nextProductId := 1
      nextPolicyId := 1
      activeProducts := []
      maxProductsPerPool := defaultMaxProductsPerPool
      pendingAdmin := none
      registeredCategory := fun c =>
        decide (c ∈ defaultCategories) || s.registeredCategory c
      categoryRegistry := defaultCategories
      registeredOracleDataType := fun t =>
        if t ∈ defaultOracleDataTypes then some true
        else s.registeredOracleDataType t
      oracleDataTypeRegistry := some defaultOracleDataTypes }
  publish (.initialized admin usdcToken oracleAddress)

def setClaimsProcessor (env : Env) (admin claimsProcessor : Address) :
    Call Unit := do
  requireAdmin env admin
  update fun s => { s with claimsProcessor := some claimsProcessor }
  publish (.claimsProcessorUpdated claimsProcessor)

def setOracleGuardian (env : Env) (admin guardian : Address) :
    Call Unit := do
  requireAdmin env admin
  ensure (guardian ≠ admin) .notOracleGuardian
  update fun s => { s with oracleGuardian := some guardian }
  publish (.oracleGuardianUpdated guardian)

def proposeOracleChange (env : Env) (admin newOracle : Address) :
    Call Unit := do
  requireAdmin env admin
  let s ← load
  ensure (s.pendingOracleChange = none) .oracleChangePending
  ensure (newOracle.isContract = true) .invalidAddress
  requireNotZeroAddress newOracle
  let change : PendingOracleChange :=
    { newOracle := newOracle
      executeAfter := satAddU64 env.now oracleChangeTimelockSeconds
      guardianApproved := false }
  update fun s => { s with pendingOracleChange := some change }
  publish (.oracleChangeProposed change)

def approveOracleChange (env : Env) (guardian : Address) : Call Unit := do
  requireAuth env guardian
  let s ← load
  let configured ← unwrap s.oracleGuardian (.error .notOracleGuardian)
  ensure (guardian = configured) .notOracleGuardian
  let change ← unwrap s.pendingOracleChange (.error .noPendingOracleChange)
  update fun s =>
    { s with
      pendingOracleChange := some { change with guardianApproved := true } }

def executeOracleChange (env : Env) (admin : Address) : Call Unit := do
  requireAdmin env admin
  let s ← load
  let change ← unwrap s.pendingOracleChange (.error .noPendingOracleChange)
  ensure (change.guardianApproved = true) .oracleApprovalRequired
  ensure (change.executeAfter ≤ env.now) .oracleTimelockNotExpired
  update fun s =>
    { s with
      oracleAddress := some change.newOracle
      pendingOracleChange := none }
  publish (.oracleChanged change.newOracle)

/-! ## Products -/

def isCategoryRegistered (s : State) (category : Symbol) : Bool :=
  s.registeredCategory category

def isOracleDataTypeRegistered (s : State) (dataType : Symbol) : Bool :=
  (s.registeredOracleDataType dataType).getD
    (decide (dataType ∈ defaultOracleDataTypes))

def Symbol.isLetter (c : Char) : Bool :=
  (decide ('a' ≤ c) && decide (c ≤ 'z')) ||
    (decide ('A' ≤ c) && decide (c ≤ 'Z'))

def Symbol.isDigit (c : Char) : Bool :=
  decide ('0' ≤ c) && decide (c ≤ '9')

/-- Oracle keys have 3 to 9 letters and digits and at least one letter. -/
def isOracleKeyFormat (key : Symbol) : Bool :=
  decide (3 ≤ key.chars.length) && decide (key.chars.length ≤ 9) &&
    key.chars.all (fun c => Symbol.isLetter c || Symbol.isDigit c) &&
    key.chars.any Symbol.isLetter

/-- The comparisons and data types a trigger type may be combined with. -/
def triggerComparisonAllowed (t : TriggerType) (c : TriggerComparison) :
    Bool :=
  match t with
  | .binary => decide (c = .equal)
  | .threshold | .parametric => decide (c ≠ .equal)

def triggerDataTypeAllowed (t : TriggerType) (dataType : Symbol) : Bool :=
  match t with
  | .binary =>
      decide (dataType ∈ [Symbols.flight, Symbols.disaster, Symbols.health])
  | .threshold | .parametric =>
      decide (dataType ∈ [Symbols.weather, Symbols.onchain, Symbols.defi])

/-- The checks `create_product` makes on its parameters alone, in order. -/
def validateProductParams (s : State) (params : CreateProductParams) :
    Call Unit := do
  ensure (isCategoryRegistered s params.category = true) .invalidCategory
  ensure (params.name.chars ≠ []) .emptyDescription
  ensure (3 ≤ params.name.chars.length) .invalidDescription
  ensure
    (triggerComparisonAllowed params.triggerType params.triggerComparison =
      true) .invalidTriggerCombination
  ensure (isOracleDataTypeRegistered s params.oracleDataType = true)
    .unregisteredOracleDataType
  ensure
    (triggerDataTypeAllowed params.triggerType params.oracleDataType = true)
    .invalidTriggerCombination
  ensure (params.premiumRateBps ≠ 0) .zeroPremiumRate
  ensure (params.premiumRateBps ≤ 5000) .invalidPremiumRate
  ensure
    (0 < params.triggerThreshold ∧
      params.triggerThreshold ≤ 1000000000000000000000)
    .invalidTriggerThreshold
  ensure (0 < params.coverageMin ∧ params.coverageMin < params.coverageMax)
    .invalidCoverageRange
  ensure (params.coverageMax ≤ maxCoverageLimit) .coverageOutOfRange
  ensure (params.maxDurationDays ≠ 0 ∧ params.maxDurationDays ≤ 3650)
    .invalidDurationRange
  ensure (isOracleKeyFormat params.oracleKey = true) .invalidOracleKey

def createProduct (env : Env) (admin : Address)
    (params : CreateProductParams) : Call ℕ := do
  requireAdmin env admin
  let s ← load
  validateProductParams s params
  let key := (params.category, params.oracleKey)
  ensure (s.productKey key = none) .duplicateProductKey
  ensure (s.productName params.name = none) .duplicateProductName
  let poolCount := s.poolProductCount params.category
  ensure (poolCount < s.maxProductsPerPool) .tooManyProducts
  let id ← freshProductId
  storeProduct id
    { id := id
      name := params.name
      category := params.category
      oracleKey := params.oracleKey
      expectedToken := params.expectedToken
      triggerType := params.triggerType
      oracleDataType := params.oracleDataType
      triggerThreshold := params.triggerThreshold
      triggerComparison := params.triggerComparison
      coverageMin := params.coverageMin
      coverageMax := params.coverageMax
      premiumRateBps := params.premiumRateBps
      maxDurationDays := params.maxDurationDays
      status := .active
      createdAt := env.now }
  let poolCount' ← unsigned 32 (poolCount + 1) .trap
  update fun s =>
    { s with
      productKey := Function.update s.productKey key (some id)
      productName := Function.update s.productName params.name (some id)
      activeProducts := s.activeProducts ++ [id]
      poolProductCount :=
        Function.update s.poolProductCount params.category poolCount' }
  publish
    (.productCreated id params.name params.category params.premiumRateBps)
  pure id

def pauseProduct (env : Env) (admin : Address) (productId : ℕ) :
    Call Unit := do
  requireAdmin env admin
  let product ← loadProduct productId
  storeProduct productId { product with status := .paused }
  -- Only the first occurrence is removed.
  update fun s =>
    { s with activeProducts := s.activeProducts.erase productId }
  publish (.productPaused productId)

def deprecateProduct (env : Env) (admin : Address) (productId : ℕ) :
    Call Unit := do
  requireAdmin env admin
  let product ← loadProduct productId
  storeProduct productId { product with status := .deprecated }
  update fun s =>
    { s with
      activeProducts := s.activeProducts.erase productId
      poolProductCount :=
        Function.update s.poolProductCount product.category
          (s.poolProductCount product.category - 1)
      productName :=
        if s.productName product.name = some productId then
          Function.update s.productName product.name none
        else
          s.productName
      productKey :=
        Function.update s.productKey (product.category, product.oracleKey)
          none }

/-! ## Registries -/

def registerCategory (env : Env) (admin : Address) (category : Symbol) :
    Call Unit := do
  requireAdmin env admin
  let s ← load
  if s.registeredCategory category then
    pure ()
  else do
    update fun s =>
      { s with
        registeredCategory :=
          Function.update s.registeredCategory category true
        categoryRegistry := s.categoryRegistry ++ [category] }
    publish (.categoryRegistered category)

def unregisterCategory (env : Env) (admin : Address) (category : Symbol) :
    Call Unit := do
  requireAdmin env admin
  let s ← load
  ensure (s.registeredCategory category = true) .invalidCategory
  update fun s =>
    { s with
      registeredCategory :=
        Function.update s.registeredCategory category false
      categoryRegistry := s.categoryRegistry.filter (· ≠ category) }
  publish (.categoryUnregistered category)

def registerOracleDataType (env : Env) (admin : Address)
    (dataType : Symbol) : Call Unit := do
  requireAdmin env admin
  let s ← load
  if (s.registeredOracleDataType dataType).getD false then
    pure ()
  else
    update fun s =>
      { s with
        registeredOracleDataType :=
          Function.update s.registeredOracleDataType dataType (some true)
        oracleDataTypeRegistry :=
          some (s.oracleDataTypeRegistry.getD [] ++ [dataType]) }

def getRegisteredCategories (s : State) : List Symbol :=
  s.categoryRegistry

def getRegisteredOracleDataTypes (s : State) : List Symbol :=
  s.oracleDataTypeRegistry.getD defaultOracleDataTypes

/-! ## Administration -/

def emergencyPause (env : Env) (admin : Address) : Call Unit := do
  requireAdmin env admin
  update fun s => { s with paused := true }

def emergencyResume (env : Env) (admin : Address) : Call Unit := do
  requireAdmin env admin
  update fun s => { s with paused := false }

def proposeNewAdmin (env : Env) (admin newAdmin : Address) : Call Unit := do
  requireAdmin env admin
  let s ← load
  ensure (s.pendingAdmin = none) .adminTransferPending
  update fun s =>
    { s with pendingAdmin := some newAdmin, pendingAdminSince := env.now }

def cancelAdminTransfer (env : Env) (admin : Address) : Call Unit := do
  requireAdmin env admin
  update fun s => { s with pendingAdmin := none, pendingAdminSince := 0 }

def acceptAdmin (env : Env) (admin : Address) : Call Unit := do
  let s ← load
  let pendingAdmin ← unwrap s.pendingAdmin (.error .unauthorized)
  ensure (pendingAdmin = admin) .unauthorized
  requireAuth env admin
  ensure (satAddU64 s.pendingAdminSince adminTransferTimelock ≤ env.now)
    .adminTimelockNotExpired
  update fun s =>
    { s with
      admin := some admin
      pendingAdmin := none
      pendingAdminSince := 0 }
  publish (.adminUpdated admin)

def setMaxProductsPerPool (env : Env) (admin : Address)
    (maxProducts : ℕ) : Call Unit := do
  requireAdmin env admin
  ensure (maxProducts ≠ 0) .invalidMaxProducts
  update fun s => { s with maxProductsPerPool := maxProducts }
  publish (.maxProductsUpdated maxProducts)

def setExpiryWarningWindow (env : Env) (admin : Address) (window : ℕ) :
    Call Unit := do
  requireAdmin env admin
  ensure (window ≠ 0) .invalidWarningWindow
  update fun s => { s with expiryWarningWindow := window }
  publish (.expiryWarningWindowUpdated window)

end Parashield.PolicyEngine
