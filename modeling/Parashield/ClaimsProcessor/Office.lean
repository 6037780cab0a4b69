import Parashield.ClaimsProcessor.Calls

/-!
# Claims processor: who governs the processor

The administrator, the guardian committee, and the pending rotation.  Only
six entry points write this part of the storage; what each of them writes is
stated once.
-/

namespace Parashield.ClaimsProcessor

open Support Support.Contract Invocation
open PolicyEngine (Policy)

/-- The part of the storage that says who governs the processor. -/
structure Office where
  initialized : Bool
  admin : Option Address
  pendingAdmin : Option Address
  pendingAdminSince : Option ℕ
  pendingAdminChange : Option PendingAdminChange
  guardians : List Address
  guardianThreshold : ℕ

def State.office (s : State) : Office where
  initialized := s.initialized
  admin := s.admin
  pendingAdmin := s.pendingAdmin
  pendingAdminSince := s.pendingAdminSince
  pendingAdminChange := s.pendingAdminChange
  guardians := s.guardians
  guardianThreshold := s.guardianThreshold

/-- The entry points that write the office. -/
def Entry.governs : Entry → Bool
  | .initializeProcessor .. | .setGuardians .. | .setGuardianThreshold ..
  | .proposeNewAdmin .. | .approveAdminChange .. | .acceptAdmin .. => true
  | _ => false

/-- The reference number a call files its claim under. -/
def Entry.reference : Entry → Option Symbol
  | .submitClaimWithRef _ _ reference => some reference
  | _ => none

/-! ## Calls that leave the office alone -/

/-- The office is `o`. -/
def Spared (o : Office) (m : Machine Network) : Prop :=
  m.store.claims.office = o

/-- `I` is about nothing but the office and the reference numbers. -/
def Indifferent (I : Machine Network → Prop) : Prop :=
  ∀ {m m' : Machine Network}, I m →
    m'.store.claims.office = m.store.claims.office →
    m'.store.claims.claimReference = m.store.claims.claimReference → I m'

/-- `I` may ask for the histories of the claimants as well. -/
def Aside (I : Machine Network → Prop) : Prop :=
  ∀ {m m' : Machine Network}, I m →
    m'.store.claims.office = m.store.claims.office →
    m'.store.claims.claimReference = m.store.claims.claimReference →
    m'.store.claims.claimantHistory = m.store.claims.claimantHistory → I m'

theorem Indifferent.aside {I : Machine Network → Prop} (hI : Indifferent I) :
    Aside I :=
  fun hm hoffice hreference _ => hI hm hoffice hreference

theorem spared_indifferent (o : Office) : Indifferent (Spared o) :=
  fun hm hoffice _ => hoffice.trans hm

section Aside

variable {I : Machine Network → Prop} {env : Context} {caller : Address}
  {id policyId : ℕ} {α : Type}

theorem keeps_loadClaims : Keeps I loadClaims :=
  keeps_bind keeps_load fun _ => keeps_pure _

theorem keeps_requireAdmin : Keeps I (requireAdmin env caller) := by
  refine keeps_bind keeps_loadClaims fun s => ?_
  refine keeps_bind (keeps_unwrap _ _) fun admin => ?_
  exact keeps_bind (keeps_ensure _ _) fun _ => keeps_requireAuth _ _

theorem keeps_requireKeeper :
    Keeps I (requireKeeper env caller) := by
  refine keeps_bind keeps_loadClaims fun s => ?_
  exact keeps_bind (keeps_ensure _ _) fun _ => keeps_requireAuth _ _

theorem keeps_requireNotPaused : Keeps I requireNotPaused :=
  keeps_bind keeps_loadClaims fun _ => keeps_ensure _ _

theorem keeps_requireClaimant :
    Keeps I (requireClaimant env caller) := by
  intro m u m' hm h
  obtain ⟨-, rfl⟩ := requireClaimant_ok.mp h
  exact hm

theorem keeps_loadClaim : Keeps I (loadClaim id) :=
  keeps_bind keeps_loadClaims fun _ => keeps_unwrap _ _

theorem keeps_policyEngine : Keeps I policyEngine :=
  keeps_bind keeps_loadClaims fun _ => keeps_unwrap _ _

theorem keeps_perform {c : Call α} (hc : Keeps I c) :
    Keeps I (perform c) :=
  keeps_bind hc fun _ => keeps_pure ()

variable (hI : Aside I)

include hI

theorem keeps_updateClaims {f : State → State}
    (h : ∀ s, (f s).office = s.office ∧
      (f s).claimReference = s.claimReference ∧
      (f s).claimantHistory = s.claimantHistory) :
    Keeps I (updateClaims f) :=
  keeps_update fun m hm =>
    hI hm (h m.store.claims).1 (h m.store.claims).2.1
      (h m.store.claims).2.2

theorem keeps_storeClaim {c : Claim} : Keeps I (storeClaim id c) :=
  keeps_updateClaims hI fun _ => ⟨rfl, rfl, rfl⟩

theorem keeps_removeFromPending : Keeps I (removeFromPending id) :=
  keeps_updateClaims hI fun _ => ⟨rfl, rfl, rfl⟩

theorem keeps_nextClaimId : Keeps I nextClaimId := by
  refine keeps_bind keeps_loadClaims fun s => ?_
  refine keeps_bind (keeps_unsigned _ _ _) fun next => ?_
  exact keeps_bind (keeps_updateClaims hI fun _ => ⟨rfl, rfl, rfl⟩) fun _ =>
    keeps_pure _

/-! ### Calls into the other contracts -/

theorem keeps_zoom {ε τ : Type} {P : Part (Machine Network) τ}
    {lift : ε → Fault Error} {c : Contract ε τ α}
    (h : ∀ t m, (P.put t m).store.claims = m.store.claims) :
    Keeps I (zoom P lift c) := by
  intro m a m' hm hrun
  obtain ⟨t, -, rfl⟩ := zoom_ok.mp hrun
  exact hI hm (by rw [h t m]) (by rw [h t m]) (by rw [h t m])

theorem keeps_callEngine {address : Address}
    {call : Env → PolicyEngine.Call α} :
    Keeps I (callEngine env address call) :=
  keeps_bind (keeps_require _ _) fun _ => keeps_zoom hI fun _ _ => rfl

theorem keeps_callPool {address : Address} {call : Env → RiskPool.Call α} :
    Keeps I (callPool env address call) :=
  keeps_bind (keeps_require _ _) fun _ => keeps_zoom hI fun _ _ => rfl

theorem keeps_callOracle {address : Address}
    {call : Env → OracleVerifier.Call α} :
    Keeps I (callOracle env address call) :=
  keeps_bind (keeps_require _ _) fun _ => keeps_zoom hI fun _ _ => rfl

/-! ### Filing -/

theorem keeps_evaluateFraud {coverageAmount : ℤ} :
    Keeps I (evaluateFraud env id caller coverageAmount) := by
  refine keeps_bind keeps_loadClaims fun s => ?_
  split
  · exact keeps_pure _
  · refine keeps_whenever fun _ => ?_
    refine keeps_bind (keeps_ensure _ _) fun _ => ?_
    exact keeps_updateClaims hI fun _ => ⟨rfl, rfl, rfl⟩

theorem keeps_registerClaimType {claimType : Symbol} :
    Keeps I (registerClaimType env caller claimType) := by
  refine keeps_bind (keeps_requireAuth _ _) fun _ => ?_
  refine keeps_bind keeps_requireAdmin fun _ => ?_
  refine keeps_bind (keeps_ensure _ _) fun _ => ?_
  exact keeps_updateClaims hI fun _ => ⟨rfl, rfl, rfl⟩

/-! ### Processing -/

variable {bps : Option ℕ}

theorem keeps_releasePayout {engine pool : Address} :
    Keeps I (releasePayout env engine pool policyId) :=
  keeps_bind (keeps_callEngine hI) fun _ => keeps_callPool hI

theorem keeps_disburse {engine pool : Address} {c : Claim} :
    Keeps I (disburse env engine pool c) := by
  refine keeps_bind keeps_loadClaims fun s => ?_
  refine keeps_ite (fun _ => keeps_pure _) fun _ => ?_
  exact keeps_bind (keeps_releasePayout hI) fun _ => keeps_pure _

theorem keeps_settle {c : Claim} {p : Policy} {verdict : Bool} :
    Keeps I (settleClaimWithTriggerResult env c p verdict bps) := by
  refine keeps_bind (keeps_ensure _ _) fun _ => ?_
  refine keeps_bind (keeps_ensure _ _) fun _ => ?_
  refine keeps_bind keeps_policyEngine fun engine => ?_
  refine keeps_bind keeps_loadClaims fun s => ?_
  refine keeps_bind (keeps_unwrap _ _) fun pool => ?_
  refine keeps_ite (fun _ => ?_) fun _ => ?_
  · refine keeps_bind (keeps_check _) fun approved => ?_
    refine keeps_bind (keeps_disburse hI) fun settled => ?_
    refine keeps_bind (keeps_storeClaim hI) fun _ => ?_
    exact keeps_bind (keeps_removeFromPending hI) fun _ => keeps_pure _
  · refine keeps_bind (keeps_storeClaim hI) fun _ => ?_
    exact keeps_bind (keeps_removeFromPending hI) fun _ => keeps_pure _

theorem keeps_evaluateAndSettle {c : Claim} {p : Policy} :
    Keeps I (evaluateAndSettle env c p bps) := by
  refine keeps_bind (keeps_ensure _ _) fun _ => ?_
  refine keeps_bind (keeps_ensure _ _) fun _ => ?_
  refine keeps_bind keeps_loadClaims fun s => ?_
  refine keeps_bind (keeps_unwrap _ _) fun oracle => ?_
  exact keeps_bind (keeps_callOracle hI) fun verdict => keeps_settle hI

theorem keeps_processClaim :
    Keeps I (processClaim env caller id bps) := by
  refine keeps_bind keeps_requireKeeper fun _ => ?_
  refine keeps_bind keeps_requireNotPaused fun _ => ?_
  refine keeps_bind keeps_loadClaim fun claim => ?_
  refine keeps_ite (fun _ => keeps_pure _) fun _ => ?_
  refine keeps_bind keeps_policyEngine fun engine => ?_
  refine keeps_bind (keeps_callEngine hI) fun policy => ?_
  exact keeps_bind (keeps_ensure _ _) fun _ => keeps_evaluateAndSettle hI

theorem keeps_batchVerifyOracleReadings
    {queries : List OracleVerifier.OracleReadingQuery} :
    Keeps I (batchVerifyOracleReadings env queries) := by
  refine keeps_bind keeps_loadClaims fun s => ?_
  exact keeps_bind (keeps_unwrap _ _) fun oracle => keeps_callOracle hI

theorem keeps_processMultiReadingClaim
    {queries : List OracleVerifier.OracleReadingQuery} {requireAll : Bool} :
    Keeps I
      (processMultiReadingClaim env caller id queries requireAll bps) := by
  refine keeps_bind keeps_requireKeeper fun _ => ?_
  refine keeps_bind keeps_requireNotPaused fun _ => ?_
  refine keeps_bind (keeps_ensure _ _) fun _ => ?_
  refine keeps_bind keeps_loadClaim fun claim => ?_
  refine keeps_ite (fun _ => keeps_pure _) fun _ => ?_
  refine keeps_bind keeps_policyEngine fun engine => ?_
  refine keeps_bind (keeps_callEngine hI) fun policy => ?_
  refine keeps_bind (keeps_ensure _ _) fun _ => ?_
  exact keeps_bind (keeps_batchVerifyOracleReadings hI) fun _ => keeps_settle hI

theorem keeps_closeExpired {engine : Address} :
    Keeps I (closeExpired env engine policyId) := by
  refine keeps_bind keeps_loadClaims fun s => ?_
  refine keeps_bind (keeps_unwrap _ _) fun pool => ?_
  refine keeps_bind (keeps_callEngine hI) fun _ => ?_
  exact keeps_bind (keeps_callPool hI) fun _ => keeps_pure _

theorem keeps_claimOfPolicy {p : Policy} :
    Keeps I (claimOfPolicy env p policyId) := by
  refine keeps_bind keeps_loadClaims fun s => ?_
  split
  · exact keeps_pure _
  · refine keeps_bind (keeps_nextClaimId hI) fun claimId => ?_
    exact keeps_bind (keeps_updateClaims hI fun _ => ⟨rfl, rfl, rfl⟩) fun _ =>
      keeps_pure _

theorem keeps_processPolicy :
    Keeps I (processPolicy env policyId bps) := by
  refine keeps_bind keeps_loadClaims fun s => ?_
  refine keeps_ite (fun _ => keeps_pure _) fun _ => ?_
  refine keeps_bind keeps_policyEngine fun engine => ?_
  refine keeps_bind (keeps_callEngine hI) fun policy => ?_
  refine keeps_bind (keeps_ensure _ _) fun _ => ?_
  split
  · exact keeps_pure _
  · exact keeps_pure _
  · exact keeps_pure _
  · refine keeps_ite (fun _ => keeps_closeExpired hI) fun _ => ?_
    refine keeps_bind (keeps_claimOfPolicy hI) fun claimId => ?_
    refine keeps_bind keeps_loadClaims fun s => ?_
    refine keeps_bind (keeps_unwrap _ _) fun claim => ?_
    exact keeps_ite (fun _ => keeps_pure _) fun _ => keeps_evaluateAndSettle hI

theorem keeps_autoProcess :
    Keeps I (autoProcess env caller policyId bps) := by
  refine keeps_bind keeps_requireKeeper fun _ => ?_
  refine keeps_bind keeps_requireNotPaused fun _ => ?_
  refine keeps_bind keeps_loadClaims fun s => ?_
  refine keeps_bind (keeps_ensure _ _) fun _ => ?_
  exact keeps_bind (keeps_updateClaims hI fun _ => ⟨rfl, rfl, rfl⟩) fun _ =>
    keeps_processPolicy hI

theorem keeps_autoProcessPending :
    Keeps I (autoProcessPending env caller id) := by
  refine keeps_bind keeps_loadClaims fun s => ?_
  split
  · exact keeps_pure _
  · refine keeps_ite (fun _ => keeps_pure _) fun _ => ?_
    refine keeps_bind (keeps_attempt (keeps_autoProcess hI)) fun outcome => ?_
    split
    · exact keeps_pure _
    · exact keeps_pure _

theorem keeps_batchAutoProcess {limit : ℕ} :
    Keeps I (batchAutoProcess env caller limit) := by
  refine keeps_bind keeps_requireKeeper fun _ => ?_
  refine keeps_bind keeps_requireNotPaused fun _ => ?_
  refine keeps_bind (keeps_ensure _ _) fun _ => ?_
  refine keeps_bind keeps_loadClaims fun s => ?_
  refine keeps_bind (keeps_updateClaims hI fun _ => ⟨rfl, rfl, rfl⟩) fun _ => ?_
  refine keeps_bind (keeps_collect fun _ _ => keeps_autoProcessPending hI)
    fun results => ?_
  exact keeps_pure _

/-! ### After the evaluation -/

theorem keeps_claimPayout : Keeps I (claimPayout env id) := by
  refine keeps_bind keeps_requireNotPaused fun _ => ?_
  refine keeps_bind keeps_loadClaim fun claim => ?_
  refine keeps_bind (keeps_unwrap _ _) fun payoutReadyAt => ?_
  refine keeps_bind (keeps_ensure _ _) fun _ => ?_
  refine keeps_bind (keeps_unwrap _ _) fun paidAmount => ?_
  refine keeps_bind (keeps_ensure _ _) fun _ => ?_
  refine keeps_bind (keeps_storeClaim hI) fun _ => ?_
  refine keeps_bind keeps_policyEngine fun engine => ?_
  refine keeps_bind keeps_loadClaims fun s => ?_
  refine keeps_bind (keeps_unwrap _ _) fun pool => ?_
  exact keeps_bind (keeps_releasePayout hI) fun _ => keeps_pure _

theorem keeps_claimPayoutTo {recipient : Address} :
    Keeps I (claimPayoutTo env id recipient) := by
  refine keeps_bind keeps_loadClaim fun claim => ?_
  exact keeps_bind (keeps_ensure _ _) fun _ => keeps_claimPayout hI

theorem keeps_claimPayoutWithToken {payoutToken : Address} :
    Keeps I (claimPayoutWithToken env id payoutToken) := by
  refine keeps_bind keeps_requireNotPaused fun _ => ?_
  refine keeps_bind keeps_loadClaim fun claim => ?_
  refine keeps_bind keeps_policyEngine fun engine => ?_
  refine keeps_bind (keeps_callEngine hI) fun policy => ?_
  refine keeps_bind (keeps_callEngine hI) fun product => ?_
  exact keeps_bind (keeps_ensure _ _) fun _ => keeps_claimPayout hI

theorem keeps_disputeClaim {reason : Symbol} :
    Keeps I (disputeClaim env caller id reason) := by
  refine keeps_bind (keeps_requireAuth _ _) fun _ => ?_
  refine keeps_bind keeps_loadClaim fun claim => ?_
  refine keeps_bind keeps_policyEngine fun engine => ?_
  refine keeps_bind (keeps_callEngine hI) fun policy => ?_
  refine keeps_bind (keeps_ensure _ _) fun _ => ?_
  refine keeps_bind (keeps_ensure _ _) fun _ => ?_
  refine keeps_bind keeps_loadClaims fun s => ?_
  refine keeps_bind (keeps_ensure _ _) fun _ => ?_
  refine keeps_bind (keeps_ensure _ _) fun _ => ?_
  refine keeps_bind (keeps_ensure _ _) fun _ => ?_
  exact keeps_bind (keeps_storeClaim hI) fun _ => keeps_removeFromPending hI

theorem keeps_resolveDispute :
    Keeps I (resolveDispute env caller id) := by
  refine keeps_bind keeps_requireAdmin fun _ => ?_
  refine keeps_bind keeps_loadClaim fun claim => ?_
  refine keeps_bind (keeps_ensure _ _) fun _ => ?_
  exact keeps_bind (keeps_storeClaim hI) fun _ =>
    keeps_updateClaims hI fun _ => ⟨rfl, rfl, rfl⟩

theorem keeps_rejectClaim :
    Keeps I (rejectClaim env caller id) := by
  refine keeps_bind keeps_requireAdmin fun _ => ?_
  refine keeps_bind keeps_loadClaim fun claim => ?_
  exact keeps_bind (keeps_storeClaim hI) fun _ => keeps_removeFromPending hI

theorem keeps_escalateClaim :
    Keeps I (escalateClaim env caller id) := by
  refine keeps_bind (keeps_requireAuth _ _) fun _ => ?_
  refine keeps_bind keeps_requireNotPaused fun _ => ?_
  refine keeps_bind keeps_loadClaim fun claim => ?_
  refine keeps_bind (keeps_ensure _ _) fun _ => ?_
  refine keeps_bind keeps_policyEngine fun engine => ?_
  refine keeps_bind (keeps_callEngine hI) fun policy => ?_
  refine keeps_bind (keeps_callEngine hI) fun product => ?_
  refine keeps_bind keeps_loadClaims fun s => ?_
  refine keeps_bind (keeps_ensure _ _) fun _ => ?_
  refine keeps_bind (keeps_ensure _ _) fun _ => ?_
  exact keeps_bind (keeps_storeClaim hI) fun _ => keeps_removeFromPending hI

theorem keeps_scheduleInstallments {amount : ℤ} {num interval : ℕ} :
    Keeps I
      (scheduleInstallments env caller id amount num interval) := by
  refine keeps_bind keeps_requireKeeper fun _ => ?_
  refine keeps_bind keeps_requireNotPaused fun _ => ?_
  refine keeps_bind (keeps_ensure _ _) fun _ => ?_
  refine keeps_bind (keeps_ensure _ _) fun _ => ?_
  refine keeps_bind keeps_loadClaim fun claim => ?_
  refine keeps_bind (keeps_ensure _ _) fun _ => ?_
  exact keeps_bind (keeps_ensure _ _) fun _ => keeps_storeClaim hI

theorem keeps_claimInstallment :
    Keeps I (claimInstallment env caller id) := by
  refine keeps_bind (keeps_requireAuth _ _) fun _ => ?_
  refine keeps_bind keeps_requireNotPaused fun _ => ?_
  refine keeps_bind keeps_loadClaim fun claim => ?_
  refine keeps_bind (keeps_ensure _ _) fun _ => ?_
  refine keeps_bind (keeps_unwrap _ _) fun schedule => ?_
  refine keeps_bind (keeps_ensure _ _) fun _ => ?_
  refine keeps_bind (keeps_check _) fun available => ?_
  refine keeps_bind (keeps_ensure _ _) fun _ => ?_
  refine keeps_bind keeps_loadClaims fun s => ?_
  refine keeps_bind (keeps_unwrap _ _) fun pool => ?_
  refine keeps_bind (keeps_callPool hI) fun _ => ?_
  exact keeps_bind (keeps_storeClaim hI) fun _ => keeps_pure _

theorem keeps_verifyClaimantIdentity {idType : Symbol} :
    Keeps I (verifyClaimantIdentity env caller id idType) := by
  refine keeps_bind (keeps_requireAuth _ _) fun _ => ?_
  refine keeps_bind (keeps_bind keeps_loadClaims fun s =>
    keeps_bind (keeps_unwrap _ _) fun _ => keeps_ensure _ _) fun _ => ?_
  exact keeps_bind keeps_loadClaim fun claim => keeps_storeClaim hI

theorem keeps_submitClaimEvidence {hashes : List Bytes} :
    Keeps I (submitClaimEvidence env id caller hashes) := by
  refine keeps_bind keeps_requireNotPaused fun _ => ?_
  refine keeps_bind (keeps_requireAuth _ _) fun _ => ?_
  refine keeps_bind keeps_loadClaim fun claim => ?_
  refine keeps_bind (keeps_ensure _ _) fun _ => ?_
  refine keeps_bind (keeps_ensure _ _) fun _ => ?_
  refine keeps_bind (keeps_ensure _ _) fun _ => ?_
  exact keeps_updateClaims hI fun _ => ⟨rfl, rfl, rfl⟩

/-! ### Settings -/

/-- A setter without a condition. -/
theorem keeps_setter {f : State → State}
    (h : ∀ s, (f s).office = s.office ∧
      (f s).claimReference = s.claimReference ∧
      (f s).claimantHistory = s.claimantHistory) :
    Keeps I (do
      requireAdmin env caller
      updateClaims f) :=
  keeps_bind keeps_requireAdmin fun _ => keeps_updateClaims hI h

theorem keeps_setting {valid : Prop} [Decidable valid] {error : Error}
    {f : State → State} (h : ∀ s, (f s).office = s.office ∧
      (f s).claimReference = s.claimReference ∧
      (f s).claimantHistory = s.claimantHistory) :
    Keeps I (setting env caller valid error f) := by
  refine keeps_bind keeps_requireAdmin fun _ => ?_
  exact keeps_bind (keeps_ensure _ _) fun _ => keeps_updateClaims hI h

theorem keeps_setDisputeDeadline {deadline : ℕ} :
    Keeps I (setDisputeDeadline env caller id deadline) := by
  refine keeps_bind keeps_requireAdmin fun _ => ?_
  refine keeps_bind (keeps_ensure _ _) fun _ => ?_
  exact keeps_bind keeps_loadClaim fun _ =>
    keeps_updateClaims hI fun _ => ⟨rfl, rfl, rfl⟩

theorem keeps_setPayoutDelay {delaySeconds : ℤ} :
    Keeps I (setPayoutDelay env caller delaySeconds) := by
  refine keeps_bind keeps_requireAdmin fun _ => ?_
  refine keeps_bind (keeps_ensure _ _) fun _ => ?_
  exact keeps_bind (keeps_ensure _ _) fun _ =>
    keeps_updateClaims hI fun _ => ⟨rfl, rfl, rfl⟩

/-- All other entry points leave the histories alone unless they file. -/
theorem exec_aside {e : Entry} (he : e.governs = false)
    (hfiles : e.files = false) : Keeps I (exec env e) := by
  cases e with
  | addKeeper => exact keeps_setter hI fun _ => ⟨rfl, rfl, rfl⟩
  | removeKeeper => exact keeps_setter hI fun _ => ⟨rfl, rfl, rfl⟩
  | submitClaim => cases hfiles
  | submitClaimWithRef => cases hfiles
  | registerClaimType => exact keeps_registerClaimType hI
  | submitClaimWithType => cases hfiles
  | batchSubmitClaims => cases hfiles
  | processClaim => exact keeps_perform (keeps_processClaim hI)
  | batchProcessClaims =>
      refine keeps_perform (keeps_bind keeps_requireKeeper fun _ => ?_)
      refine keeps_bind keeps_requireNotPaused fun _ => ?_
      refine keeps_collect fun _ _ => ?_
      exact keeps_bind (keeps_processClaim hI) fun _ => keeps_pure _
  | batchVerifyOracleReadings =>
      exact keeps_perform (keeps_batchVerifyOracleReadings hI)
  | verifyReadingsIndividual =>
      refine keeps_perform (keeps_bind keeps_loadClaims fun s => ?_)
      refine keeps_bind (keeps_unwrap _ _) fun oracle => ?_
      exact keeps_collect fun _ _ => keeps_callOracle hI
  | processMultiReadingClaim =>
      exact keeps_perform (keeps_processMultiReadingClaim hI)
  | autoProcess => exact keeps_perform (keeps_autoProcess hI)
  | batchAutoProcess => exact keeps_perform (keeps_batchAutoProcess hI)
  | setDisputeWindow => exact keeps_setting hI fun _ => ⟨rfl, rfl, rfl⟩
  | setDisputeDeadline => exact keeps_setDisputeDeadline hI
  | disputeClaim => exact keeps_disputeClaim hI
  | resolveDispute => exact keeps_resolveDispute hI
  | rejectClaim => exact keeps_rejectClaim hI
  | scheduleInstallments => exact keeps_scheduleInstallments hI
  | claimInstallment => exact keeps_perform (keeps_claimInstallment hI)
  | pause => exact keeps_setter hI fun _ => ⟨rfl, rfl, rfl⟩
  | resume => exact keeps_setter hI fun _ => ⟨rfl, rfl, rfl⟩
  | setEscalationThreshold => exact keeps_setting hI fun _ => ⟨rfl, rfl, rfl⟩
  | setCategoryEscalation => exact keeps_setting hI fun _ => ⟨rfl, rfl, rfl⟩
  | setClaimDeadline => exact keeps_setting hI fun _ => ⟨rfl, rfl, rfl⟩
  | submitClaimEvidence => exact keeps_submitClaimEvidence hI
  | setPayoutDelay => exact keeps_setPayoutDelay hI
  | setFraudConfig => exact keeps_setting hI fun _ => ⟨rfl, rfl, rfl⟩
  | claimPayoutWithToken => exact keeps_perform (keeps_claimPayoutWithToken hI)
  | claimPayoutTo => exact keeps_perform (keeps_claimPayoutTo hI)
  | claimPayout => exact keeps_perform (keeps_claimPayout hI)
  | escalateClaim => exact keeps_escalateClaim hI
  | requireIdentityForCategory => exact keeps_setter hI fun _ => ⟨rfl, rfl, rfl⟩
  | removeIdentityRequirement => exact keeps_setter hI fun _ => ⟨rfl, rfl, rfl⟩
  | addAuthorizedAttester => exact keeps_setter hI fun _ => ⟨rfl, rfl, rfl⟩
  | removeAuthorizedAttester => exact keeps_setter hI fun _ => ⟨rfl, rfl, rfl⟩
  | verifyClaimantIdentity => exact keeps_verifyClaimantIdentity hI
  | _ => cases he

end Aside

section Indifferent

variable {I : Machine Network → Prop} {env : Context} {caller : Address}
  {policyId : ℕ} (hI : Indifferent I)

include hI

theorem keeps_updateClaimantHistory {now window : ℕ} {coverageAmount : ℤ} :
    Keeps I (updateClaimantHistory caller now coverageAmount window) := by
  intro m u m' hm h
  obtain rfl := updateClaims_ok.mp h
  exact hI hm rfl rfl

theorem keeps_fileClaim :
    Keeps I (fileClaim env caller policyId) := by
  refine keeps_bind keeps_loadClaims fun s => ?_
  refine keeps_bind (keeps_ensure _ _) fun _ => ?_
  refine keeps_bind keeps_policyEngine fun engine => ?_
  refine keeps_bind (keeps_callEngine hI.aside) fun policy => ?_
  refine keeps_bind (keeps_callEngine hI.aside) fun product => ?_
  refine keeps_bind (keeps_ensure _ _) fun _ => ?_
  refine keeps_bind (keeps_ensure _ _) fun _ => ?_
  refine keeps_bind (keeps_ensure _ _) fun _ => ?_
  refine keeps_bind (keeps_ensure _ _) fun _ => ?_
  refine keeps_bind (keeps_ensure _ _) fun _ => ?_
  refine keeps_bind (keeps_ensure _ _) fun _ => ?_
  refine keeps_bind (keeps_ensure _ _) fun _ => ?_
  refine keeps_bind (keeps_ensure _ _) fun _ => ?_
  refine keeps_bind (keeps_ensure _ _) fun _ => ?_
  refine keeps_bind (keeps_ensure _ _) fun _ => ?_
  refine keeps_bind (keeps_ensure _ _) fun _ => ?_
  refine keeps_bind (keeps_updateClaims hI.aside fun _ => ⟨rfl, rfl, rfl⟩) fun _ => ?_
  refine keeps_bind (keeps_nextClaimId hI.aside) fun claimId => ?_
  refine keeps_bind (keeps_evaluateFraud hI.aside) fun _ => ?_
  refine keeps_bind (keeps_updateClaims hI.aside fun _ => ⟨rfl, rfl, rfl⟩) fun _ => ?_
  exact keeps_bind (keeps_updateClaimantHistory hI) fun _ => keeps_pure _

theorem keeps_submitClaimWithType {claimType : Symbol} :
    Keeps I
      (submitClaimWithType env caller policyId claimType) := by
  refine keeps_bind keeps_requireClaimant fun _ => ?_
  refine keeps_bind keeps_loadClaims fun s => ?_
  exact keeps_bind (keeps_ensure _ _) fun _ => keeps_fileClaim hI

/-- All other entry points leave the office and the reference numbers alone. -/
theorem exec_indifferent {e : Entry} (he : e.governs = false)
    (href : e.reference = none) : Keeps I (exec env e) := by
  cases e with
  | submitClaim =>
      exact keeps_perform
        (keeps_bind keeps_requireClaimant fun _ => keeps_fileClaim hI)
  | submitClaimWithRef => cases href
  | submitClaimWithType => exact keeps_perform (keeps_submitClaimWithType hI)
  | batchSubmitClaims =>
      refine keeps_perform (keeps_bind keeps_requireClaimant fun _ => ?_)
      exact keeps_collect fun _ _ => keeps_fileClaim hI
  | _ => exact exec_aside hI.aside he rfl

end Indifferent

theorem submitClaimWithRef_spared {env : Context} {o : Office}
    {claimant : Address} {policyId : ℕ} {reference : Symbol} :
    Keeps (Spared o) (submitClaimWithRef env claimant policyId reference) := by
  refine keeps_bind keeps_requireClaimant fun _ => ?_
  refine keeps_bind (keeps_ensure _ _) fun _ => ?_
  refine keeps_bind keeps_loadClaims fun s => ?_
  refine keeps_bind (keeps_ensure _ _) fun _ => ?_
  refine keeps_bind (keeps_fileClaim (spared_indifferent o)) fun claimId => ?_
  exact keeps_bind (keeps_update fun m hm => hm) fun _ => keeps_pure _

theorem exec_spared {env : Context} {o : Office} {e : Entry}
    (he : e.governs = false) : Keeps (Spared o) (exec env e) := by
  cases e with
  | submitClaimWithRef => exact keeps_perform submitClaimWithRef_spared
  | _ => exact exec_indifferent (spared_indifferent o) he rfl

/-! ## What the administration does -/

/-- The administrator `a` has signed. -/
def Office.Signed (o : Office) (env : Context) (a : Address) : Prop :=
  o.admin = some a ∧ a ∈ env.signers

/-- What an accepted call does to the office. -/
inductive Act (env : Context) : Entry → Office → Office → Prop
  | rest {e : Entry} {o : Office} : e.governs = false → Act env e o o
  | found {admin engine pool oracle : Address} {staleness : ℕ} {o : Office} :
      o.initialized = false →
      Act env (.initializeProcessor admin engine pool oracle staleness) o
        { o with initialized := true, admin := some admin }
  | appoint {admin : Address} {guardians : List Address} {threshold : ℕ}
      {o : Office} :
      o.Signed env admin → threshold ≤ guardians.length →
      (guardians ≠ [] → threshold ≠ 0) →
      Act env (.setGuardians admin guardians threshold) o
        { o with guardians := guardians, guardianThreshold := threshold }
  | adjust {admin : Address} {threshold : ℕ} {o : Office} :
      o.Signed env admin → threshold ≤ o.guardians.length →
      (o.guardians ≠ [] → threshold ≠ 0) →
      Act env (.setGuardianThreshold admin threshold) o
        { o with guardianThreshold := threshold }
  | arm {admin newAdmin : Address} {o : Office} :
      o.Signed env admin → o.pendingAdmin = none → o.guardianThreshold = 0 →
      Act env (.proposeNewAdmin admin newAdmin) o
        { o with
          pendingAdmin := some newAdmin
          pendingAdminSince := some env.now }
  | nominate {admin newAdmin : Address} {o : Office} :
      o.Signed env admin → o.pendingAdmin = none → o.guardianThreshold ≠ 0 →
      Act env (.proposeNewAdmin admin newAdmin) o
        { o with
          pendingAdminChange :=
            some { newAdmin := newAdmin, approvals := [] } }
  | support {guardian newAdmin : Address} {p : PendingAdminChange}
      {o : Office} :
      guardian ∈ env.signers → guardian ∈ o.guardians →
      o.pendingAdminChange = some p → guardian ∉ p.approvals →
      p.approvals.length + 1 < o.guardianThreshold →
      Act env (.approveAdminChange guardian newAdmin) o
        { o with
          pendingAdminChange :=
            some { p with approvals := p.approvals ++ [guardian] } }
  | confirm {guardian newAdmin : Address} {p : PendingAdminChange}
      {o : Office} :
      guardian ∈ env.signers → guardian ∈ o.guardians →
      o.pendingAdminChange = some p → guardian ∉ p.approvals →
      p.newAdmin = newAdmin → o.guardianThreshold ≤ p.approvals.length + 1 →
      Act env (.approveAdminChange guardian newAdmin) o
        { o with
          pendingAdminChange := none
          pendingAdmin := some newAdmin
          pendingAdminSince := some (o.pendingAdminSince.getD env.now) }
  | accept {admin : Address} {o : Office} :
      o.pendingAdmin = some admin → admin ∈ env.signers →
      satAddU64 (o.pendingAdminSince.getD 0) adminTransferTimelock ≤
        env.now →
      Act env (.acceptAdmin admin) o
        { o with
          admin := some admin
          pendingAdmin := none
          pendingAdminSince := none }

section Act

variable {env : Context} {m m' : Machine Network} {u : Unit}

theorem proposeNewAdmin_act {admin newAdmin : Address}
    (h : proposeNewAdmin env admin newAdmin m = .ok (u, m')) :
    Act env (.proposeNewAdmin admin newAdmin) m.store.claims.office
      m'.store.claims.office := by
  simp [proposeNewAdmin, ite_ok] at h
  obtain ⟨hadmin, hnone, ⟨hzero, rfl⟩ | ⟨hpos, rfl⟩⟩ := h
  · exact .arm hadmin hnone hzero
  · exact .nominate hadmin hnone hpos

theorem approveAdminChange_act {guardian newAdmin : Address}
    (h : approveAdminChange env guardian newAdmin m = .ok (u, m')) :
    Act env (.approveAdminChange guardian newAdmin) m.store.claims.office
      m'.store.claims.office := by
  simp [approveAdminChange, ite_ok] at h
  obtain ⟨hauth, hmem, p, hpending, hsame, hnew, ⟨hreached, rfl⟩ |
    ⟨hshort, rfl⟩⟩ := h
  · exact .confirm hauth hmem hpending hnew hsame hreached
  · exact .support hauth hmem hpending hnew hshort

/-- Every accepted call does to the office what `Act` says. -/
theorem exec_act {e : Entry} (h : exec env e m = .ok (u, m')) :
    Act env e m.store.claims.office m'.store.claims.office := by
  cases e with
  | initializeProcessor =>
      simp [exec, initializeProcessor] at h
      obtain ⟨hfresh, -, rfl⟩ := h
      exact .found hfresh
  | setGuardians =>
      simp [exec, setGuardians] at h
      obtain ⟨hadmin, ⟨hpos, hle, -⟩, rfl⟩ := h
      exact .appoint hadmin hle hpos
  | setGuardianThreshold =>
      simp [exec, setGuardianThreshold] at h
      obtain ⟨hadmin, hle, hpos, rfl⟩ := h
      exact .adjust hadmin hle hpos
  | proposeNewAdmin => exact proposeNewAdmin_act h
  | approveAdminChange => exact approveAdminChange_act h
  | acceptAdmin =>
      simp [exec, acceptAdmin] at h
      obtain ⟨hpending, hauth, hwaited, rfl⟩ := h
      exact .accept hpending hauth hwaited
  | _ =>
      have hsame : m'.store.claims.office = m.store.claims.office :=
        exec_spared rfl m u m' rfl h
      rw [hsame]
      exact .rest rfl

end Act

end Parashield.ClaimsProcessor
