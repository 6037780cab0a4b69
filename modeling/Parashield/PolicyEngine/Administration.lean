import Parashield.PolicyEngine.Currency

/-!
# What trade leaves alone

Products are offered, policies are sold, cancelled, handed on, paid and
expired, and holders are warned.  None of this touches the part of the storage
that the administration of the engine writes.
-/

namespace Parashield.PolicyEngine

open Support Support.Contract Invocation

/-- The part of the storage that only the administration writes. -/
structure Administration where
  initialized : Bool
  admin : Option Address
  usdcToken : Option Address
  oracleAddress : Option Address
  claimsProcessor : Option Address
  paused : Bool
  pendingAdmin : Option Address
  pendingAdminSince : ℕ
  maxProductsPerPool : ℕ
  expiryWarningWindow : ℕ
  oracleGuardian : Option Address
  pendingOracleChange : Option PendingOracleChange
  registeredCategory : Symbol → Bool
  categoryRegistry : List Symbol
  registeredOracleDataType : Symbol → Option Bool
  oracleDataTypeRegistry : Option (List Symbol)

def State.administration (s : State) : Administration where
  initialized := s.initialized
  admin := s.admin
  usdcToken := s.usdcToken
  oracleAddress := s.oracleAddress
  claimsProcessor := s.claimsProcessor
  paused := s.paused
  pendingAdmin := s.pendingAdmin
  pendingAdminSince := s.pendingAdminSince
  maxProductsPerPool := s.maxProductsPerPool
  expiryWarningWindow := s.expiryWarningWindow
  oracleGuardian := s.oracleGuardian
  pendingOracleChange := s.pendingOracleChange
  registeredCategory := s.registeredCategory
  categoryRegistry := s.categoryRegistry
  registeredOracleDataType := s.registeredOracleDataType
  oracleDataTypeRegistry := s.oracleDataTypeRegistry

/-- The entry points that write the administration. -/
def Entry.administers : Entry → Bool
  | .createProduct .. | .pauseProduct .. | .deprecateProduct ..
  | .buyPolicy .. | .buyPolicyScheduled .. | .buyPolicyWithRate ..
  | .batchBuyPolicy .. | .cancelPolicy .. | .transferPolicy ..
  | .payClaim .. | .expirePolicy .. | .notifyPolicyExpiring ..
  | .notifyExpiringPolicies .. => false
  | _ => true

/-- The administration is `a`. -/
def Administered (a : Administration) (m : Machine State) : Prop :=
  m.store.administration = a

section Administered

variable {env : Env} {a : Administration} {α : Type}

theorem administered_requireAdmin {caller : Address} :
    Keeps (Administered a) (requireAdmin env caller) := by
  refine keeps_bind keeps_load fun _ => ?_
  refine keeps_bind (keeps_unwrap _ _) fun _ => ?_
  exact keeps_bind (keeps_ensure _ _) fun _ => keeps_requireAuth _ _

theorem administered_requireClaimsProcessor {caller : Address} :
    Keeps (Administered a) (requireClaimsProcessor env caller) := by
  refine keeps_bind keeps_load fun _ => ?_
  refine keeps_bind (keeps_unwrap _ _) fun _ => ?_
  exact keeps_bind (keeps_ensure _ _) fun _ => keeps_requireAuth _ _

theorem administered_ensureNotPaused : Keeps (Administered a) ensureNotPaused :=
  keeps_bind keeps_load fun _ => keeps_ensure _ _

theorem administered_publish {e : Event} : Keeps (Administered a) (publish e) :=
  keeps_update fun _ h => h

theorem administered_loadProduct {id : ℕ} : Keeps (Administered a) (loadProduct id) :=
  keeps_bind keeps_load fun _ => keeps_unwrap _ _

theorem administered_loadPolicy {id : ℕ} : Keeps (Administered a) (loadPolicy id) :=
  keeps_bind keeps_load fun _ => keeps_unwrap _ _

theorem administered_storePolicy {id : ℕ} {p : Policy} :
    Keeps (Administered a) (storePolicy id p) :=
  keeps_update fun _ h => h

theorem administered_addPolicyToUser {user : Address} {id : ℕ} :
    Keeps (Administered a) (addPolicyToUser user id) :=
  keeps_update fun _ h => h

theorem administered_removePolicyFromUser {user : Address} {id : ℕ} :
    Keeps (Administered a) (removePolicyFromUser user id) :=
  keeps_update fun _ h => h

theorem administered_perform {c : Call α} (hc : Keeps (Administered a) c) :
    Keeps (Administered a) (perform c) :=
  keeps_bind hc fun _ => keeps_pure ()

theorem administered_createProduct {admin : Address}
    {params : CreateProductParams} :
    Keeps (Administered a) (createProduct env admin params) := by
  refine keeps_bind administered_requireAdmin fun _ => ?_
  refine keeps_bind keeps_load fun s => ?_
  refine keeps_bind ?_ fun _ => ?_
  · iterate 12 refine keeps_bind (keeps_ensure _ _) fun _ => ?_
    exact keeps_ensure _ _
  iterate 3 refine keeps_bind (keeps_ensure _ _) fun _ => ?_
  refine keeps_bind ?_ fun id => ?_
  · refine keeps_bind keeps_load fun _ => ?_
    refine keeps_bind (keeps_unsigned _ _ _) fun _ => ?_
    exact keeps_bind (keeps_update fun _ h => h) fun _ => keeps_pure _
  refine keeps_bind (keeps_update fun _ h => h) fun _ => ?_
  refine keeps_bind (keeps_unsigned _ _ _) fun _ => ?_
  refine keeps_bind (keeps_update fun _ h => h) fun _ => ?_
  exact keeps_bind administered_publish fun _ => keeps_pure _

theorem administered_buyPolicyInner {buyer : Address} {productId : ℕ}
    {coverageAmount : ℤ} {durationDays : ℕ} {oracleKey : Symbol}
    {startTime : ℕ} {paymentToken : Address} :
    Keeps (Administered a) (buyPolicyInner env buyer productId coverageAmount
      durationDays oracleKey startTime paymentToken) := by
  iterate 2 refine keeps_bind (keeps_ensure _ _) fun _ => ?_
  refine keeps_bind keeps_load fun s => ?_
  refine keeps_bind (keeps_unwrap _ _) fun admin => ?_
  iterate 2 refine keeps_bind (keeps_ensure _ _) fun _ => ?_
  refine keeps_bind administered_loadProduct fun product => ?_
  iterate 7 refine keeps_bind (keeps_ensure _ _) fun _ => ?_
  refine keeps_bind ?_ fun premium => ?_
  · refine keeps_bind (keeps_i128 _ _) fun _ => ?_
    exact keeps_bind (keeps_i128 _ _) fun _ => keeps_pure _
  iterate 2 refine keeps_bind (keeps_ensure _ _) fun _ => ?_
  refine keeps_bind (keeps_transferToken fun _ _ h => h) fun _ => ?_
  iterate 2 refine keeps_bind (keeps_unsigned _ _ _) fun _ => ?_
  iterate 2 refine keeps_bind (keeps_ensure _ _) fun _ => ?_
  refine keeps_bind ?_ fun id => ?_
  · refine keeps_bind keeps_load fun _ => ?_
    refine keeps_bind (keeps_unsigned _ _ _) fun _ => ?_
    exact keeps_bind (keeps_update fun _ h => h) fun _ => keeps_pure _
  refine keeps_bind (keeps_update fun _ h => h) fun _ => ?_
  refine keeps_bind administered_storePolicy fun _ => ?_
  refine keeps_bind administered_addPolicyToUser fun _ => ?_
  exact keeps_bind administered_publish fun _ => keeps_pure _

theorem administered_cancelPolicy {policyholder : Address} {id : ℕ}
    {reason : Bytes} :
    Keeps (Administered a) (cancelPolicy env policyholder id reason) := by
  refine keeps_bind (keeps_requireAuth _ _) fun _ => ?_
  iterate 2 refine keeps_bind (keeps_ensure _ _) fun _ => ?_
  refine keeps_bind administered_loadPolicy fun p => ?_
  iterate 2 refine keeps_bind (keeps_ensure _ _) fun _ => ?_
  refine keeps_bind administered_storePolicy fun _ => ?_
  refine keeps_bind administered_removePolicyFromUser fun _ => ?_
  refine keeps_bind ?_ fun refund => ?_
  · refine keeps_ite (fun _ => keeps_pure _) fun _ => ?_
    refine keeps_bind (keeps_i128 _ _) fun _ => ?_
    exact keeps_bind (keeps_i128 _ _) fun _ => keeps_pure _
  refine keeps_bind keeps_load fun s => ?_
  refine keeps_bind (keeps_unwrap _ _) fun usdc => ?_
  refine keeps_bind (keeps_whenever fun _ => ?_) fun _ => ?_
  · exact keeps_transferToken fun _ _ h => h
  exact keeps_bind administered_publish fun _ => keeps_pure _

theorem administered_transferPolicy {sender recipient : Address} {id : ℕ} :
    Keeps (Administered a) (transferPolicy env sender recipient id) := by
  iterate 2 refine keeps_bind (keeps_requireAuth _ _) fun _ => ?_
  refine keeps_bind administered_ensureNotPaused fun _ => ?_
  refine keeps_bind administered_loadPolicy fun p => ?_
  iterate 2 refine keeps_bind (keeps_ensure _ _) fun _ => ?_
  refine keeps_ite (fun _ => keeps_pure _) fun _ => ?_
  refine keeps_bind administered_storePolicy fun _ => ?_
  refine keeps_bind administered_removePolicyFromUser fun _ => ?_
  exact keeps_bind administered_addPolicyToUser fun _ => administered_publish

theorem administered_payClaim {caller : Address} {id : ℕ} :
    Keeps (Administered a) (payClaim env caller id) := by
  refine keeps_bind administered_requireClaimsProcessor fun _ => ?_
  refine keeps_bind administered_loadPolicy fun p => ?_
  refine keeps_bind (keeps_ensure _ _) fun _ => ?_
  refine keeps_bind keeps_load fun s => ?_
  refine keeps_bind (keeps_unwrap _ _) fun usdc => ?_
  refine keeps_bind (keeps_transferToken fun _ _ h => h) fun _ => ?_
  refine keeps_bind administered_storePolicy fun _ => ?_
  exact keeps_bind administered_removePolicyFromUser fun _ => administered_publish

theorem administered_expirePolicy {caller : Address} {id : ℕ} :
    Keeps (Administered a) (expirePolicy env caller id) := by
  refine keeps_bind administered_requireClaimsProcessor fun _ => ?_
  refine keeps_bind administered_loadPolicy fun p => ?_
  refine keeps_bind (keeps_ensure _ _) fun _ => ?_
  refine keeps_bind administered_storePolicy fun _ => ?_
  exact keeps_bind administered_removePolicyFromUser fun _ => administered_publish

theorem administered_warnExpiring {id now : ℕ} {p : Policy} :
    Keeps (Administered a) (warnExpiring id p now) :=
  keeps_bind (keeps_update fun _ h => h) fun _ => administered_publish

theorem administered_notifyIfExpiring {id : ℕ} :
    Keeps (Administered a) (notifyIfExpiring env id) := by
  refine keeps_bind keeps_load fun s => ?_
  cases s.policies id with
  | none => exact keeps_pure _
  | some p =>
      refine keeps_ite (fun _ => ?_) fun _ => keeps_pure _
      exact keeps_bind administered_warnExpiring fun _ => keeps_pure _

/-- Trade leaves the administration alone. -/
theorem administered_exec {e : Entry} (he : e.administers = false) :
    Keeps (Administered a) (exec env e) := by
  cases e with
  | createProduct => exact administered_perform administered_createProduct
  | pauseProduct =>
      refine keeps_bind administered_requireAdmin fun _ => ?_
      refine keeps_bind administered_loadProduct fun _ => ?_
      iterate 2 refine keeps_bind (keeps_update fun _ h => h) fun _ => ?_
      exact administered_publish
  | deprecateProduct =>
      refine keeps_bind administered_requireAdmin fun _ => ?_
      refine keeps_bind administered_loadProduct fun _ => ?_
      refine keeps_bind (keeps_update fun _ h => h) fun _ => ?_
      exact keeps_update fun _ h => h
  | buyPolicy =>
      refine administered_perform (keeps_bind (keeps_requireAuth _ _) fun _ => ?_)
      exact keeps_bind administered_ensureNotPaused fun _ => administered_buyPolicyInner
  | buyPolicyScheduled =>
      refine administered_perform (keeps_bind (keeps_requireAuth _ _) fun _ => ?_)
      exact keeps_bind administered_ensureNotPaused fun _ => administered_buyPolicyInner
  | buyPolicyWithRate =>
      refine administered_perform (keeps_bind (keeps_requireAuth _ _) fun _ => ?_)
      refine keeps_bind administered_ensureNotPaused fun _ => ?_
      refine keeps_bind administered_loadProduct fun _ => ?_
      exact keeps_bind (keeps_ensure _ _) fun _ => administered_buyPolicyInner
  | batchBuyPolicy =>
      refine administered_perform (keeps_bind (keeps_requireAuth _ _) fun _ => ?_)
      refine keeps_bind administered_ensureNotPaused fun _ => ?_
      iterate 2 refine keeps_bind (keeps_ensure _ _) fun _ => ?_
      exact keeps_collect fun _ _ => administered_buyPolicyInner
  | cancelPolicy => exact administered_perform administered_cancelPolicy
  | transferPolicy => exact administered_transferPolicy
  | payClaim => exact administered_payClaim
  | expirePolicy => exact administered_expirePolicy
  | notifyPolicyExpiring =>
      refine keeps_bind administered_loadPolicy fun p => ?_
      refine keeps_bind (keeps_ensure _ _) fun _ => ?_
      refine keeps_bind keeps_load fun s => ?_
      iterate 3 refine keeps_bind (keeps_ensure _ _) fun _ => ?_
      exact administered_warnExpiring
  | notifyExpiringPolicies =>
      refine administered_perform (keeps_bind keeps_load fun s => ?_)
      refine keeps_bind (keeps_collect fun _ _ => ?_) fun _ => keeps_pure _
      exact administered_notifyIfExpiring
  | _ => cases he

theorem exec_administration {e : Entry} {m m' : Machine State} {u : Unit}
    (he : e.administers = false) (h : exec env e m = .ok (u, m')) :
    m'.store.administration = m.store.administration :=
  administered_exec he m u m' rfl h

end Administered

end Parashield.PolicyEngine
