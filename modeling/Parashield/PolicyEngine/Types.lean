import Parashield.Host

/-!
# Policy engine: data model

Products, policies and the storage of the policy engine.  Optional storage
entries the code reads with a fallback carry that fallback as their initial
value; entries whose absence the code reports are options.
-/

namespace Parashield.PolicyEngine

inductive TriggerType where
  | threshold
  | binary
  | parametric
  deriving DecidableEq, Repr

inductive TriggerComparison where
  | lessThan
  | greaterThan
  | equal
  deriving DecidableEq, Repr

inductive ProductStatus where
  | active
  | paused
  | deprecated
  deriving DecidableEq, Repr

inductive PolicyStatus where
  | active
  | claimed
  | expired
  | cancelled
  deriving DecidableEq, Repr

/-- An insurance product template. -/
structure InsuranceProduct where
  id : ℕ
  name : Symbol
  category : Symbol
  oracleKey : Symbol
  expectedToken : Address
  triggerType : TriggerType
  oracleDataType : Symbol
  triggerThreshold : ℤ
  triggerComparison : TriggerComparison
  coverageMin : ℤ
  coverageMax : ℤ
  premiumRateBps : ℕ
  maxDurationDays : ℕ
  status : ProductStatus
  createdAt : ℕ
  deriving DecidableEq, Repr

/-- One item of a batch purchase. -/
structure BatchBuyItem where
  productId : ℕ
  coverageAmount : ℤ
  durationDays : ℕ
  oracleKey : Symbol
  paymentToken : Address
  deriving DecidableEq, Repr

structure CreateProductParams where
  name : Symbol
  category : Symbol
  oracleKey : Symbol
  expectedToken : Address
  triggerType : TriggerType
  oracleDataType : Symbol
  triggerThreshold : ℤ
  triggerComparison : TriggerComparison
  coverageMin : ℤ
  coverageMax : ℤ
  premiumRateBps : ℕ
  maxDurationDays : ℕ
  deriving DecidableEq, Repr

/-- An insurance policy owned by a policyholder. -/
structure Policy where
  id : ℕ
  productId : ℕ
  policyholder : Address
  coverageAmount : ℤ
  premiumPaid : ℤ
  oracleKey : Symbol
  oracleDataType : Symbol
  triggerThreshold : ℤ
  triggerComparison : TriggerComparison
  startTime : ℕ
  endTime : ℕ
  status : PolicyStatus
  createdAt : ℕ
  deriving DecidableEq, Repr

/-- A two-party, time-delayed oracle rotation. -/
structure PendingOracleChange where
  newOracle : Address
  executeAfter : ℕ
  guardianApproved : Bool
  deriving DecidableEq, Repr

inductive Event where
  | initialized (admin usdcToken oracleAddress : Address)
  | claimsProcessorUpdated (claimsProcessor : Address)
  | oracleGuardianUpdated (guardian : Address)
  | oracleChangeProposed (change : PendingOracleChange)
  | oracleChanged (newOracle : Address)
  | productCreated (productId : ℕ) (name category : Symbol)
      (premiumRateBps : ℕ)
  | productPaused (productId : ℕ)
  | buyPolicy (buyer : Address) (policyId productId : ℕ)
      (coverageAmount requiredPremium : ℤ)
  | policyCancelled (policyId : ℕ) (policyholder : Address)
      (refundAmount : ℤ)
  | policyTransferred (policyId : ℕ) (sender recipient : Address)
  | claimPaid (policyId : ℕ) (policyholder : Address)
      (coverageAmount : ℤ)
  | policyExpired (policyId timestamp : ℕ)
  | policyExpiringSoon (policyId : ℕ) (policyholder : Address)
      (productId : ℕ) (coverageAmount : ℤ) (endTime secondsRemaining : ℕ)
  | categoryRegistered (category : Symbol)
  | categoryUnregistered (category : Symbol)
  | adminUpdated (newAdmin : Address)
  | maxProductsUpdated (maxProducts : ℕ)
  | expiryWarningWindowUpdated (window : ℕ)
  deriving DecidableEq, Repr

inductive Error where
  | alreadyInitialized
  | notInitialized
  | unauthorized
  | productNotFound
  | productNotActive
  | policyNotFound
  | policyNotActive
  | coverageOutOfRange
  | durationTooLong
  | insufficientPool
  | alreadyClaimed
  | alreadyExpired
  | invalidPremiumRate
  | invalidTriggerThreshold
  | duplicateProductKey
  | invalidCoverageRange
  | invalidToken
  | claimsProcessorNotSet
  | invalidDurationRange
  | invalidOracleKey
  | overflow
  | tooManyProducts
  | invalidMaxProducts
  | adminTimelockNotExpired
  | invalidAddress
  | adminTransferPending
  | emptyBatch
  | batchTooLarge
  | notExpiringSoon
  | invalidWarningWindow
  | reasonTooLong
  | duplicateProductName
  | invalidTriggerCombination
  | invalidCategory
  | invalidStartTime
  | zeroPremiumRate
  | coolingOffActive
  | oracleChangePending
  | noPendingOracleChange
  | oracleTimelockNotExpired
  | notOracleGuardian
  | oracleApprovalRequired
  | adminCannotBuyPolicy
  | emptyDescription
  | invalidDescription
  | unregisteredOracleDataType
  | invalidInput
  deriving DecidableEq, Repr

/-! ## Constants -/

def defaultMaxProductsPerPool : ℕ := 100

def maxBatchBuy : ℕ := 20

def defaultExpiryWarningWindow : ℕ := 7 * 24 * 60 * 60

def maxExpiryScan : ℕ := 50

def maxCoverageLimit : ℤ := 1000000000000

def purchaseCoolingOffSeconds : ℕ := 24 * 60 * 60

def oracleChangeTimelockSeconds : ℕ := 48 * 60 * 60

def maxReasonLength : ℕ := 256

def defaultCategories : List Symbol :=
  [Symbols.crop, Symbols.flight, Symbols.disaster, Symbols.health,
    Symbols.defi]

def defaultOracleDataTypes : List Symbol :=
  [Symbols.weather, Symbols.flight, Symbols.disaster, Symbols.onchain,
    Symbols.defi, Symbols.health]

/-! ## Storage -/

structure State where
  initialized : Bool
  admin : Option Address
  usdcToken : Option Address
  oracleAddress : Option Address
  claimsProcessor : Option Address
  products : ℕ → Option InsuranceProduct
  policies : ℕ → Option Policy
  userPolicies : Address → List ℕ
  activeProducts : List ℕ
  nextProductId : ℕ
  nextPolicyId : ℕ
  paused : Bool
  productKey : Symbol × Symbol → Option ℕ
  pendingAdmin : Option Address
  pendingAdminSince : ℕ
  maxProductsPerPool : ℕ
  poolProductCount : Symbol → ℕ
  expiryWarningWindow : ℕ
  expiryWarned : ℕ → Bool
  productName : Symbol → Option ℕ
  lastPurchase : Address × Symbol → Option ℕ
  oracleGuardian : Option Address
  pendingOracleChange : Option PendingOracleChange
  registeredCategory : Symbol → Bool
  categoryRegistry : List Symbol
  registeredOracleDataType : Symbol → Option Bool
  oracleDataTypeRegistry : Option (List Symbol)
  /-- Published events, newest first. -/
  events : List Event

/-- Storage of a freshly deployed engine. -/
def State.deployed : State where
  initialized := false
  admin := none
  usdcToken := none
  oracleAddress := none
  claimsProcessor := none
  products _ := none
  policies _ := none
  userPolicies _ := []
  activeProducts := []
  nextProductId := 1
  nextPolicyId := 1
  paused := false
  productKey _ := none
  pendingAdmin := none
  pendingAdminSince := 0
  maxProductsPerPool := defaultMaxProductsPerPool
  poolProductCount _ := 0
  expiryWarningWindow := defaultExpiryWarningWindow
  expiryWarned _ := false
  productName _ := none
  lastPurchase _ := none
  oracleGuardian := none
  pendingOracleChange := none
  registeredCategory _ := false
  categoryRegistry := []
  registeredOracleDataType _ := none
  oracleDataTypeRegistry := none
  events := []

end Parashield.PolicyEngine
