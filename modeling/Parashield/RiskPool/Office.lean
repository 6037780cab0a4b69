import Parashield.RiskPool.Calls

/-!
# Risk pool: who governs the pool

The administrator, the guardian committee, and what is pending before them.
Only the entry points of the administration write this part of the storage;
what each of them writes is stated once.
-/

namespace Parashield.RiskPool

open Support Support.Contract Invocation

/-- The part of the storage that says who governs the pool. -/
structure Office where
  initialized : Bool
  admin : Option Address
  pendingAdmin : Option Address
  pendingAdminSince : Option ℕ
  pendingAdminChange : Option PendingAdminChange
  guardians : List Address
  guardianThreshold : ℕ
  pendingGuardianRemoval : Option PendingGuardianRemoval
  adminWithdrawalRequest : Option AdminWithdrawalRequest
  adminWithdrawalApprovals : ℕ

def State.office (s : State) : Office where
  initialized := s.initialized
  admin := s.admin
  pendingAdmin := s.pendingAdmin
  pendingAdminSince := s.pendingAdminSince
  pendingAdminChange := s.pendingAdminChange
  guardians := s.guardians
  guardianThreshold := s.guardianThreshold
  pendingGuardianRemoval := s.pendingGuardianRemoval
  adminWithdrawalRequest := s.adminWithdrawalRequest
  adminWithdrawalApprovals := s.adminWithdrawalApprovals

/-- The entry points that write the office. -/
def Entry.governs : Entry → Bool
  | .initializePool .. | .requestAdminWithdrawal .. | .approveAdminWithdrawal ..
  | .executeAdminWithdrawal .. | .cancelAdminWithdrawal .. | .setGuardians ..
  | .proposeRemoveGuardian .. | .approveRemoveGuardian ..
  | .cancelPendingGuardianRemoval .. | .proposeNewAdmin ..
  | .approveAdminChange .. | .acceptAdmin .. => true
  | _ => false

/-! ## Calls that write neither the office nor the registry -/

/-- `I` asks only who governs the pool and what is registered. -/
def Indifferent (I : Machine State → Prop) : Prop :=
  ∀ {m m' : Machine State}, I m → m'.store.office = m.store.office →
    m'.store.registry = m.store.registry → I m'

/-- `I` does not ask what the pool reserves, pays out and counts either, but
may ask for its limits. -/
def Aside (I : Machine State → Prop) : Prop :=
  ∀ {m m' : Machine State}, I m → m'.store.office = m.store.office →
    m'.store.registry = m.store.registry →
    m'.store.limits = m.store.limits → I m'

theorem Indifferent.aside {I : Machine State → Prop} (hI : Indifferent I) :
    Aside I :=
  fun h hoffice hregistry _ => hI h hoffice hregistry

section Indifferent

variable {env : Env} {I : Machine State → Prop} {provider caller : Address}
  {policyId : ℕ} {amount : ℤ}

theorem keeps_perform {α : Type} {c : Call α} (hc : Keeps I c) :
    Keeps I (perform c) :=
  keeps_bind hc fun _ => keeps_pure ()

theorem keeps_requireAdmin {caller : Address} :
    Keeps I (requireAdmin env caller) := by
  refine keeps_bind keeps_load fun s => ?_
  refine keeps_bind (keeps_unwrap _ _) fun admin => ?_
  exact keeps_bind (keeps_ensure _ _) fun _ => keeps_requireAuth _ _

theorem keeps_requireProtocolCaller {caller : Address} :
    Keeps I (requireProtocolCaller env caller) := by
  intro m u m' hm h
  obtain ⟨-, -, rfl⟩ := requireProtocolCaller_ok.mp h
  exact hm

theorem keeps_payOutYield (hI : Aside I) :
    Keeps I (payOutYield env provider amount) := by
  refine keeps_whenever fun _ => ?_
  refine keeps_bind keeps_load fun s => ?_
  refine keeps_bind (keeps_unwrap _ _) fun usdc => ?_
  exact keeps_transferToken fun _ _ h => hI h rfl rfl rfl

theorem keeps_clearExitReservation (hI : Aside I) {shares : ℤ} :
    Keeps I (clearExitReservation provider shares) :=
  keeps_update fun _ h => hI h rfl rfl rfl

theorem keeps_cancelExit (hI : Aside I) : Keeps I (cancelExit env provider) := by
  refine keeps_bind (keeps_requireAuth _ _) fun _ => ?_
  refine keeps_bind keeps_load fun s => ?_
  exact keeps_bind (keeps_unwrap _ _) fun _ => keeps_clearExitReservation hI

theorem keeps_receivePremium (hI : Aside I) :
    Keeps I (receivePremium env caller amount) := by
  refine keeps_bind (keeps_requireAuth _ _) fun _ => ?_
  refine keeps_whenever fun _ => ?_
  refine keeps_bind keeps_load fun s => ?_
  refine keeps_bind (keeps_unwrap _ _) fun usdc => ?_
  refine keeps_bind (keeps_transferToken fun _ _ h => hI h rfl rfl rfl) fun _ => ?_
  refine keeps_bind (keeps_check _) fun lpShare => ?_
  refine keeps_bind (keeps_check _) fun treasShare => ?_
  refine keeps_bind (keeps_check _) fun backstopShare => ?_
  refine keeps_bind (keeps_i128 _ _) fun premium => ?_
  refine keeps_bind (keeps_check _) fun increment => ?_
  refine keeps_bind (keeps_i128 _ _) fun backstopPremium => ?_
  refine keeps_bind (keeps_update fun _ h => hI h rfl rfl rfl) fun _ => ?_
  refine keeps_bind (keeps_unwrap _ _) fun treasury => ?_
  refine keeps_bind (keeps_transferToken fun _ _ h => hI h rfl rfl rfl) fun _ => ?_
  refine keeps_bind (keeps_unwrap _ _) fun backstop => ?_
  exact keeps_transferToken fun _ _ h => hI h rfl rfl rfl

theorem keeps_sendPremium (hI : Aside I) {recipient : State → Option Address} :
    Keeps I (sendPremium env amount recipient) := by
  refine keeps_bind keeps_load fun s => ?_
  refine keeps_bind (keeps_unwrap _ _) fun usdc => ?_
  refine keeps_bind (keeps_unwrap _ _) fun account => ?_
  exact keeps_transferToken fun _ _ h => hI h rfl rfl rfl

theorem keeps_sendPremiumToReinsurer (hI : Aside I) :
    Keeps I (sendPremiumToReinsurer env caller amount) := by
  refine keeps_bind keeps_requireAdmin fun _ => ?_
  refine keeps_bind (keeps_ensure _ _) fun _ => ?_
  refine keeps_bind keeps_load fun s => ?_
  refine keeps_bind (keeps_unwrap _ _) fun config => ?_
  exact keeps_bind (keeps_update fun _ h => hI h rfl rfl rfl) fun _ => keeps_sendPremium hI

theorem keeps_lockForPolicy (hI : Aside I) :
    Keeps I (lockForPolicy env caller policyId amount) := by
  refine keeps_bind keeps_requireProtocolCaller fun _ => ?_
  refine keeps_bind (keeps_bind keeps_load fun _ => keeps_ensure _ _)
    fun _ => ?_
  refine keeps_bind (keeps_ensure _ _) fun _ => ?_
  refine keeps_bind keeps_load fun s => ?_
  refine keeps_bind (keeps_ensure _ _) fun _ => ?_
  refine keeps_bind (keeps_whenever fun _ => keeps_ensure _ _) fun _ => ?_
  refine keeps_bind (keeps_ensure _ _) fun _ => ?_
  refine keeps_bind (keeps_i128 _ _) fun locked => ?_
  exact keeps_update fun _ h => hI h rfl rfl rfl

theorem keeps_releaseForClaim (hI : Aside I) :
    Keeps I (releaseForClaim env caller policyId) := by
  refine keeps_bind keeps_requireProtocolCaller fun _ => ?_
  refine keeps_bind keeps_load fun s => ?_
  refine keeps_bind (keeps_unwrap _ _) fun lock => ?_
  refine keeps_bind (keeps_ensure _ _) fun _ => ?_
  exact keeps_bind (keeps_ensure _ _) fun _ => keeps_update fun _ h => hI h rfl rfl rfl

theorem keeps_releaseForExpiry (hI : Aside I) :
    Keeps I (releaseForExpiry env caller policyId) := by
  refine keeps_bind keeps_requireProtocolCaller fun _ => ?_
  refine keeps_bind keeps_load fun s => ?_
  refine keeps_bind (keeps_unwrap _ _) fun lock => ?_
  exact keeps_bind (keeps_ensure _ _) fun _ => keeps_update fun _ h => hI h rfl rfl rfl

theorem keeps_recover (hI : Aside I) {usdc reinsurer : Address}
    {answer : Option ReinsurerAnswer} :
    Keeps I (recover env usdc reinsurer answer) := by
  refine keeps_bind (keeps_require _ _) fun _ => ?_
  refine keeps_bind (keeps_unwrap _ _) fun a => ?_
  refine keeps_bind (keeps_i128 _ _) fun report => ?_
  refine keeps_bind (keeps_transferToken fun _ _ h => hI h rfl rfl rfl) fun _ => ?_
  exact keeps_pure _

theorem keeps_requestReinsuranceRecovery (hI : Indifferent I) {answer : Option ReinsurerAnswer} :
    Keeps I
      (requestReinsuranceRecovery env caller amount answer) := by
  refine keeps_bind keeps_requireProtocolCaller fun _ => ?_
  refine keeps_bind keeps_load fun s => ?_
  split
  · exact keeps_pure _
  · refine keeps_bind (keeps_unwrap _ _) fun usdc => ?_
    refine keeps_bind (keeps_recover hI.aside) fun report => ?_
    refine keeps_bind (keeps_whenever fun _ => ?_) fun _ => keeps_pure _
    exact keeps_bind (keeps_i128 _ _) fun _ => keeps_update fun _ h => hI h rfl rfl

theorem keeps_setting {admin : Address} {valid : Prop} [Decidable valid]
    {error : Error} {f : State → State}
    (h : ∀ m, I m → I { m with store := f m.store }) :
    Keeps I (setting env admin valid error f) := by
  refine keeps_bind keeps_requireAdmin fun _ => ?_
  exact keeps_bind (keeps_ensure _ _) fun _ => keeps_update h

theorem keeps_setReinsurance (hI : Indifferent I) {admin reinsurer : Address}
    {attachmentPoint coverageLimit : ℤ} {probe : Bool} :
    Keeps I (setReinsurance env admin reinsurer attachmentPoint
      coverageLimit probe) := by
  refine keeps_bind keeps_requireAdmin fun _ => ?_
  refine keeps_bind (keeps_ensure _ _) fun _ => ?_
  exact keeps_bind (keeps_ensure _ _) fun _ => keeps_update fun _ h => hI h rfl rfl

theorem keeps_proposeParameterChange (hI : Aside I) {admin : Address}
    {lpBps treasBps backstopBps : ℤ} :
    Keeps I
      (proposeParameterChange env admin lpBps treasBps backstopBps) := by
  refine keeps_bind keeps_requireAdmin fun _ => ?_
  refine keeps_bind (keeps_ensure _ _) fun _ => ?_
  refine keeps_bind keeps_load fun s => ?_
  refine keeps_bind (keeps_ensure _ _) fun _ => ?_
  exact keeps_bind (keeps_unsigned _ _ _) fun _ => keeps_update fun _ h => hI h rfl rfl rfl

theorem keeps_executeParameterChange (hI : Aside I) {admin : Address} :
    Keeps I (executeParameterChange env admin) := by
  refine keeps_bind keeps_requireAdmin fun _ => ?_
  refine keeps_bind keeps_load fun s => ?_
  refine keeps_bind (keeps_unwrap _ _) fun pending => ?_
  refine keeps_bind (keeps_ensure _ _) fun _ => ?_
  refine keeps_bind (keeps_ensure _ _) fun _ => ?_
  exact keeps_bind (keeps_ensure _ _) fun _ => keeps_update fun _ h => hI h rfl rfl rfl

/-- Entry points that write neither the office nor the registry. -/
def Entry.serves : Entry → Bool
  | .receivePremium .. | .sendPremiumToTreasury .. | .sendPremiumToBackstop ..
  | .setCapacity .. | .setExitDelay .. | .cancelExit .. | .lockForPolicy ..
  | .releaseForClaim .. | .releaseForExpiry .. | .setReinsurance ..
  | .setReinsuranceActive .. | .sendPremiumToReinsurer ..
  | .requestReinsuranceRecovery .. | .pause .. | .resume ..
  | .startWindingDown .. | .updatePremiumSplit .. | .proposeParameterChange ..
  | .executeParameterChange .. | .cancelParameterChange .. => true
  | _ => false

/-- The entry points that serve and set no limit. -/
theorem exec_aside (hI : Aside I) {e : Entry} (he : e.serves = true)
    (hl : e.limits = false) : Keeps I (exec env e) := by
  cases e with
  | receivePremium => exact keeps_receivePremium hI
  | sendPremiumToTreasury =>
      refine keeps_bind keeps_requireAdmin fun _ => ?_
      exact keeps_bind (keeps_ensure _ _) fun _ => keeps_sendPremium hI
  | sendPremiumToBackstop =>
      refine keeps_bind keeps_requireAdmin fun _ => ?_
      exact keeps_bind (keeps_ensure _ _) fun _ => keeps_sendPremium hI
  | setExitDelay => exact keeps_setting fun _ h => hI h rfl rfl rfl
  | cancelExit => exact keeps_cancelExit hI
  | lockForPolicy => exact keeps_lockForPolicy hI
  | releaseForClaim => exact keeps_releaseForClaim hI
  | releaseForExpiry => exact keeps_releaseForExpiry hI
  | sendPremiumToReinsurer => exact keeps_sendPremiumToReinsurer hI
  | pause =>
      exact keeps_bind keeps_requireAdmin fun _ =>
        keeps_update fun _ h => hI h rfl rfl rfl
  | resume =>
      exact keeps_bind keeps_requireAdmin fun _ =>
        keeps_update fun _ h => hI h rfl rfl rfl
  | startWindingDown =>
      refine keeps_bind keeps_requireAdmin fun _ => ?_
      refine keeps_bind (keeps_bind keeps_load fun _ => keeps_ensure _ _)
        fun _ => ?_
      exact keeps_update fun _ h => hI h rfl rfl rfl
  | updatePremiumSplit => exact keeps_setting fun _ h => hI h rfl rfl rfl
  | proposeParameterChange => exact keeps_proposeParameterChange hI
  | executeParameterChange => exact keeps_executeParameterChange hI
  | cancelParameterChange =>
      refine keeps_bind keeps_requireAdmin fun _ => ?_
      refine keeps_bind keeps_load fun s => ?_
      exact keeps_bind (keeps_ensure _ _) fun _ =>
        keeps_update fun _ h => hI h rfl rfl rfl
  | _ => first | exact Bool.noConfusion hl | cases he

theorem exec_serving (hI : Indifferent I) {e : Entry} (he : e.serves = true) :
    Keeps I (exec env e) := by
  cases hl : e.limits with
  | false => exact exec_aside hI.aside he hl
  | true =>
      cases e with
      | setCapacity => exact keeps_setting fun _ h => hI h rfl rfl
      | setReinsurance => exact keeps_setReinsurance hI
      | setReinsuranceActive =>
          refine keeps_bind keeps_requireAdmin fun _ => ?_
          refine keeps_bind keeps_load fun s => ?_
          exact keeps_bind (keeps_unwrap _ _) fun _ =>
            keeps_update fun _ h => hI h rfl rfl
      | requestReinsuranceRecovery =>
          exact keeps_perform (keeps_requestReinsuranceRecovery hI)
      | _ => cases hl

end Indifferent

/-! ## Calls that leave the office alone -/

/-- The office is `o`. -/
def Spared (o : Office) (m : Machine State) : Prop :=
  m.store.office = o

theorem spared_indifferent {o : Office} : Indifferent (Spared o) :=
  fun h hoffice _ => hoffice.trans h

/-- `I` asks only who governs the pool and for its limits. -/
def Outside (I : Machine State → Prop) : Prop :=
  ∀ {m m' : Machine State}, I m → m'.store.office = m.store.office →
    m'.store.limits = m.store.limits → I m'

theorem Outside.aside {I : Machine State → Prop} (hI : Outside I) : Aside I :=
  fun h hoffice _ hlimits => hI h hoffice hlimits

theorem spared_outside {o : Office} : Outside (Spared o) :=
  fun h hoffice _ => hoffice.trans h

section Outside

variable {env : Env} {I : Machine State → Prop} {provider : Address}

theorem updateLpNft_office (s : State) (provider : Address)
    (position : LpPosition) :
    (s.updateLpNft provider position).office = s.office := by
  unfold State.updateLpNft
  split
  · rfl
  · split
    · rfl
    · rfl

theorem updateLpNft_limits (s : State) (provider : Address)
    (position : LpPosition) :
    (s.updateLpNft provider position).limits = s.limits := by
  unfold State.updateLpNft
  split
  · rfl
  · split
    · rfl
    · rfl

variable (hI : Outside I)

include hI

theorem keeps_updateLpNft {position : LpPosition} :
    Keeps I (updateLpNft provider position) :=
  keeps_update fun m h =>
    hI h (updateLpNft_office m.store _ _) (updateLpNft_limits m.store _ _)

theorem keeps_recordNft {isNewLp : Bool} {category : Symbol}
    {position : LpPosition} :
    Keeps I
      (recordNft env provider isNewLp category position) := by
  refine keeps_ite (fun _ => ?_) fun _ => keeps_updateLpNft hI
  refine keeps_bind keeps_load fun s => ?_
  refine keeps_bind (keeps_ensure _ _) fun _ => ?_
  refine keeps_bind (keeps_unsigned _ _ _) fun nextTokenId => ?_
  exact keeps_update fun _ h => hI h rfl rfl

theorem keeps_registerProvider :
    Keeps I (registerProvider provider) := by
  refine keeps_bind keeps_load fun s => ?_
  refine keeps_bind (keeps_unsigned _ _ _) fun count => ?_
  exact keeps_update fun _ h => hI h rfl rfl

/-! ### Withdrawals and the sweep -/

theorem keeps_redeem {shares : ℤ} {position : LpPosition} {drained : Error} :
    Keeps I (redeem env provider shares position drained) := by
  refine keeps_bind keeps_load fun s => ?_
  refine keeps_bind (keeps_ensure _ _) fun _ => ?_
  refine keeps_bind (keeps_check _) fun amount => ?_
  refine keeps_bind (keeps_ensure _ _) fun _ => ?_
  refine keeps_bind (keeps_ensure _ _) fun _ => ?_
  refine keeps_bind (keeps_check _) fun settled => ?_
  refine keeps_bind (keeps_i128 _ _) fun left => ?_
  refine keeps_bind (keeps_check _) fun debt => ?_
  refine keeps_bind (keeps_i128 _ _) fun deposited => ?_
  refine keeps_bind (keeps_i128 _ _) fun remaining => ?_
  refine keeps_bind (keeps_update fun _ h => hI h rfl rfl) fun _ => ?_
  exact keeps_bind (keeps_updateLpNft hI) fun _ => keeps_pure _

theorem keeps_withdrawInner {shares : ℤ} :
    Keeps I (withdrawInner env provider shares) := by
  refine keeps_bind (keeps_ensure _ _) fun _ => ?_
  refine keeps_bind (keeps_bind keeps_load fun _ => keeps_ensure _ _)
    fun _ => ?_
  refine keeps_bind keeps_load fun s => ?_
  refine keeps_bind (keeps_unwrap _ _) fun position => ?_
  refine keeps_bind (keeps_ensure _ _) fun _ => ?_
  refine keeps_bind (keeps_ensure _ _) fun _ => ?_
  refine keeps_bind (keeps_whenever fun _ =>
    keeps_bind (keeps_i128 _ _) fun _ => keeps_pure ()) fun _ => ?_
  refine keeps_bind (keeps_redeem hI) fun redemption => ?_
  refine keeps_bind (keeps_unwrap _ _) fun usdc => ?_
  refine keeps_bind keeps_get fun m => ?_
  refine keeps_bind (keeps_ensure _ _) fun _ => ?_
  refine keeps_bind (keeps_transferToken fun _ _ h => hI h rfl rfl) fun _ => ?_
  exact keeps_bind (keeps_payOutYield hI.aside) fun _ => keeps_pure _

theorem keeps_sweepSlot {skip : Option Address} {idx : ℕ} :
    Keeps I (sweepSlot env skip idx) := by
  refine keeps_bind keeps_load fun s => ?_
  split
  · exact keeps_pure _
  · refine keeps_ite (fun _ => keeps_pure _) fun _ => ?_
    split
    · exact keeps_pure _
    · refine keeps_ite (fun _ => keeps_pure _) fun _ => ?_
      refine keeps_ite (fun _ => ?_) fun _ => ?_
      · exact keeps_bind (keeps_clearExitReservation hI.aside) fun _ => keeps_pure _
      · refine keeps_ite (fun _ => keeps_pure _) fun _ => ?_
        refine keeps_bind (keeps_clearExitReservation hI.aside) fun _ => ?_
        exact keeps_bind (keeps_withdrawInner hI) fun _ => keeps_pure _

theorem keeps_sweepExpiredExits {maxScan : ℕ} {skip : Option Address} :
    Keeps I (sweepExpiredExits env maxScan skip) := by
  refine keeps_bind keeps_load fun s => ?_
  refine keeps_ite (fun _ => keeps_pure _) fun _ => ?_
  refine keeps_bind (keeps_collect fun _ _ => keeps_sweepSlot hI) fun _ => ?_
  exact keeps_bind (keeps_update fun _ h => hI h rfl rfl) fun _ => keeps_pure _

/-! ### What providers do -/

theorem keeps_pullDeposit {usdc : Address} {amount : ℤ} :
    Keeps I (pullDeposit env usdc provider amount) := by
  refine keeps_bind keeps_get fun before => ?_
  refine keeps_bind (keeps_transferToken fun _ _ h => hI h rfl rfl) fun _ => ?_
  exact keeps_bind keeps_get fun after => keeps_ensure _ _

theorem keeps_creditDeposit {amount newShares : ℤ} {compound : Bool} :
    Keeps I
      (creditDeposit env provider amount newShares compound) := by
  refine keeps_bind keeps_load fun s => ?_
  split
  · refine keeps_bind (keeps_check _) fun settled => ?_
    refine keeps_bind (keeps_i128 _ _) fun deposited => ?_
    refine keeps_bind (keeps_i128 _ _) fun shares => ?_
    exact keeps_bind (keeps_check _) fun debt => keeps_pure _
  · refine keeps_bind (keeps_registerProvider hI) fun _ => ?_
    exact keeps_bind (keeps_check _) fun debt => keeps_pure _

theorem keeps_deposit {amount least : ℤ} {compound : Bool} :
    Keeps I (deposit env provider amount least compound) := by
  refine keeps_bind (keeps_ensure _ _) fun _ => ?_
  refine keeps_bind (keeps_requireAuth _ _) fun _ => ?_
  refine keeps_bind (keeps_bind keeps_load fun _ => keeps_ensure _ _)
    fun _ => ?_
  refine keeps_bind (keeps_ensure _ _) fun _ => ?_
  refine keeps_bind (keeps_ensure _ _) fun _ => ?_
  refine keeps_bind (keeps_ensure _ _) fun _ => ?_
  refine keeps_bind (keeps_bind keeps_load fun _ => keeps_ensure _ _)
    fun _ => ?_
  refine keeps_bind (keeps_sweepExpiredExits hI) fun _ => ?_
  refine keeps_bind keeps_load fun s => ?_
  refine keeps_bind (keeps_i128 _ _) fun newTotalDeposited => ?_
  refine keeps_bind (keeps_ensure _ _) fun _ => ?_
  refine keeps_bind (keeps_ensure _ _) fun _ => ?_
  refine keeps_bind (keeps_check _) fun shares => ?_
  refine keeps_bind (keeps_ensure _ _) fun _ => ?_
  refine keeps_bind (keeps_ensure _ _) fun _ => ?_
  refine keeps_bind (keeps_unwrap _ _) fun usdc => ?_
  refine keeps_bind (keeps_pullDeposit hI) fun _ => ?_
  refine keeps_bind (keeps_creditDeposit hI) fun credited => ?_
  refine keeps_bind (keeps_i128 _ _) fun newTotalShares => ?_
  refine keeps_bind (keeps_update fun _ h => hI h rfl rfl) fun _ => ?_
  refine keeps_bind (keeps_unwrap _ _) fun category => ?_
  refine keeps_bind (keeps_recordNft hI) fun _ => ?_
  refine keeps_bind (keeps_whenever fun _ =>
    keeps_payOutYield hI.aside) fun _ => ?_
  exact keeps_pure _

theorem keeps_creditTransfer {shares amount : ℤ} :
    Keeps I (creditTransfer env provider shares amount) := by
  refine keeps_bind keeps_load fun s => ?_
  split
  · refine keeps_bind (keeps_check _) fun settled => ?_
    refine keeps_bind (keeps_i128 _ _) fun deposited => ?_
    refine keeps_bind (keeps_i128 _ _) fun held => ?_
    refine keeps_bind (keeps_check _) fun debt => ?_
    refine keeps_bind (keeps_update fun _ h => hI h rfl rfl) fun _ => ?_
    exact keeps_bind (keeps_payOutYield hI.aside) fun _ => keeps_pure _
  · refine keeps_bind (keeps_registerProvider hI) fun _ => ?_
    refine keeps_bind (keeps_check _) fun debt => ?_
    exact keeps_bind (keeps_update fun _ h => hI h rfl rfl) fun _ => keeps_pure _

theorem keeps_transferPosition {recipient : Address} {shares : ℤ} :
    Keeps I (transferPosition env provider recipient shares) := by
  refine keeps_bind (keeps_requireAuth _ _) fun _ => ?_
  refine keeps_bind (keeps_ensure _ _) fun _ => ?_
  refine keeps_bind (keeps_ensure _ _) fun _ => ?_
  refine keeps_bind (keeps_bind keeps_load fun _ => keeps_ensure _ _)
    fun _ => ?_
  refine keeps_bind (keeps_bind keeps_load fun _ => keeps_ensure _ _)
    fun _ => ?_
  refine keeps_bind keeps_load fun s => ?_
  refine keeps_bind (keeps_unwrap _ _) fun position => ?_
  refine keeps_bind (keeps_ensure _ _) fun _ => ?_
  refine keeps_bind (keeps_check _) fun amount => ?_
  refine keeps_bind (keeps_ensure _ _) fun _ => ?_
  refine keeps_bind (keeps_check _) fun settled => ?_
  refine keeps_bind (keeps_i128 _ _) fun left => ?_
  refine keeps_bind (keeps_check _) fun debt => ?_
  refine keeps_bind (keeps_update fun _ h => hI h rfl rfl) fun _ => ?_
  refine keeps_bind (keeps_updateLpNft hI) fun _ => ?_
  refine keeps_bind (keeps_payOutYield hI.aside) fun _ => ?_
  refine keeps_bind (keeps_creditTransfer hI) fun toPosition => ?_
  refine keeps_bind (keeps_unwrap _ _) fun category => ?_
  exact keeps_bind (keeps_recordNft hI) fun _ => keeps_pure _

theorem keeps_emergencyWithdraw {admin : Address} {shares : ℤ} :
    Keeps I (emergencyWithdraw env provider admin shares) := by
  refine keeps_bind (keeps_requireAuth _ _) fun _ => ?_
  refine keeps_bind keeps_requireAdmin fun _ => ?_
  refine keeps_bind (keeps_ensure _ _) fun _ => ?_
  refine keeps_bind keeps_load fun s => ?_
  refine keeps_bind (keeps_unwrap _ _) fun position => ?_
  refine keeps_bind (keeps_ensure _ _) fun _ => ?_
  refine keeps_bind (keeps_redeem hI) fun redemption => ?_
  refine keeps_bind (keeps_unwrap _ _) fun usdc => ?_
  refine keeps_bind (keeps_i128 _ _) fun totalPayout => ?_
  refine keeps_bind (keeps_transferToken fun _ _ h => hI h rfl rfl) fun _ => ?_
  exact keeps_pure _

theorem keeps_claimYield : Keeps I (claimYield env provider) := by
  refine keeps_bind (keeps_requireAuth _ _) fun _ => ?_
  refine keeps_bind keeps_load fun s => ?_
  refine keeps_bind (keeps_unwrap _ _) fun position => ?_
  refine keeps_bind (keeps_check _) fun settled => ?_
  refine keeps_bind (keeps_whenever fun _ => keeps_update fun _ h => hI h rfl rfl)
    fun _ => ?_
  exact keeps_bind (keeps_payOutYield hI.aside) fun _ => keeps_pure _

theorem keeps_requestExit {shares : ℤ} :
    Keeps I (requestExit env provider shares) := by
  refine keeps_bind (keeps_requireAuth _ _) fun _ => ?_
  refine keeps_bind (keeps_ensure _ _) fun _ => ?_
  refine keeps_bind (keeps_bind keeps_load fun _ => keeps_ensure _ _)
    fun _ => ?_
  refine keeps_bind (keeps_sweepExpiredExits hI) fun _ => ?_
  refine keeps_bind keeps_load fun s => ?_
  refine keeps_bind (keeps_unwrap _ _) fun position => ?_
  refine keeps_bind (keeps_ensure _ _) fun _ => ?_
  exact keeps_update fun _ h => hI h rfl rfl

theorem keeps_claimExit : Keeps I (claimExit env provider) := by
  refine keeps_bind (keeps_requireAuth _ _) fun _ => ?_
  refine keeps_bind keeps_load fun s => ?_
  refine keeps_bind (keeps_unwrap _ _) fun request => ?_
  refine keeps_bind (keeps_ensure _ _) fun _ => ?_
  exact keeps_bind (keeps_clearExitReservation hI.aside) fun _ => keeps_withdrawInner hI

theorem keeps_toggleCompound {enabled : Bool} :
    Keeps I (toggleCompound env provider enabled) := by
  refine keeps_bind (keeps_requireAuth _ _) fun _ => ?_
  refine keeps_bind keeps_load fun s => ?_
  exact keeps_bind (keeps_unwrap _ _) fun _ => keeps_update fun _ h => hI h rfl rfl

theorem keeps_liquidatePosition {caller : Address} :
    Keeps I (liquidatePosition env caller provider) := by
  refine keeps_bind keeps_requireProtocolCaller fun _ => ?_
  refine keeps_bind keeps_load fun s => ?_
  refine keeps_bind (keeps_unwrap _ _) fun position => ?_
  refine keeps_bind (keeps_check _) fun info => ?_
  refine keeps_bind (keeps_ensure _ _) fun _ => ?_
  refine keeps_bind (keeps_ensure _ _) fun _ => ?_
  exact keeps_bind (keeps_update fun _ h => hI h rfl rfl) fun _ => keeps_pure _

/-- The entry points that neither govern nor set a limit. -/
theorem exec_outside {e : Entry} (he : e.governs = false)
    (hl : e.limits = false) : Keeps I (exec env e) := by
  by_cases hs : e.serves = true
  · exact exec_aside hI.aside hs hl
  · cases e with
    | depositWithToken =>
        refine keeps_perform (keeps_bind keeps_load fun s => ?_)
        refine keeps_bind (keeps_unwrap _ _) fun usdc => ?_
        exact keeps_bind (keeps_ensure _ _) fun _ => keeps_deposit hI
    | deposit => exact keeps_perform (keeps_deposit hI)
    | withdraw =>
        refine keeps_perform (keeps_bind (keeps_requireAuth _ _) fun _ => ?_)
        refine keeps_bind (keeps_ensure _ _) fun _ => ?_
        exact keeps_bind (keeps_sweepExpiredExits hI) fun _ => keeps_withdrawInner hI
    | emergencyWithdraw => exact keeps_perform (keeps_emergencyWithdraw hI)
    | transferShares =>
        refine keeps_perform (keeps_bind (keeps_ensure _ _) fun _ => ?_)
        exact keeps_transferPosition hI
    | transferPosition => exact keeps_perform (keeps_transferPosition hI)
    | claimYield => exact keeps_perform (keeps_claimYield hI)
    | requestExit => exact keeps_requestExit hI
    | claimExit => exact keeps_perform (keeps_claimExit hI)
    | processExpiredExits => exact keeps_perform (keeps_sweepExpiredExits hI)
    | toggleCompound => exact keeps_toggleCompound hI
    | liquidatePosition => exact keeps_perform (keeps_liquidatePosition hI)
    | _ => first | exact absurd rfl hs | cases he

omit hI

/-- The entry points that do not govern leave the office alone. -/
theorem exec_spared {e : Entry} {o : Office} (he : e.governs = false) :
    Keeps (Spared o) (exec env e) := by
  cases hl : e.limits with
  | false => exact exec_outside spared_outside he hl
  | true =>
      have hs : e.serves = true := by
        cases e <;> first | rfl | cases hl
      exact exec_serving spared_indifferent hs

end Outside

/-! ## What the administration does -/

/-- The administrator `a` has signed. -/
def Office.Signed (o : Office) (env : Env) (a : Address) : Prop :=
  o.admin = some a ∧ a ∈ env.signers

/-- What an accepted call does to the office. -/
inductive Act (env : Env) : Entry → Office → Office → Prop
  | rest {e : Entry} {o : Office} : e.governs = false → Act env e o o
  | found {admin usdcToken treasury backstop policyEngine claimsProcessor :
      Address} {category : Symbol} {o : Office} :
      o.initialized = false →
      Act env (.initializePool admin usdcToken treasury backstop category
          policyEngine claimsProcessor) o
        { o with initialized := true, admin := some admin }
  | request {admin : Address} {amount : ℤ} {o : Office} :
      o.Signed env admin → o.adminWithdrawalRequest = none →
      Act env (.requestAdminWithdrawal admin amount) o
        { o with
          adminWithdrawalApprovals := 0
          adminWithdrawalRequest :=
            some
              { amount := amount
                requestedAt := env.now
                executeAfter := env.now + timelockSeconds
                executed := false } }
  | approve {guardian : Address} {o : Office} :
      guardian ∈ env.signers → guardian ∈ o.guardians →
      Act env (.approveAdminWithdrawal guardian) o
        { o with
          adminWithdrawalApprovals := o.adminWithdrawalApprovals + 1 }
  | execute {admin : Address} {req : AdminWithdrawalRequest} {o : Office} :
      o.Signed env admin → o.adminWithdrawalRequest = some req →
      req.executed = false →
      (0 < o.guardianThreshold →
        o.guardianThreshold ≤ o.adminWithdrawalApprovals) →
      req.executeAfter ≤ env.now →
      Act env (.executeAdminWithdrawal admin) o
        { o with adminWithdrawalRequest := some { req with executed := true } }
  | withdraw {admin : Address} {o : Office} :
      o.Signed env admin →
      Act env (.cancelAdminWithdrawal admin) o
        { o with adminWithdrawalRequest := none }
  | appoint {admin : Address} {guardians : List Address} {threshold : ℕ}
      {o : Office} :
      o.Signed env admin → threshold ≤ guardians.length →
      (∀ g ∈ o.guardians, g ∈ guardians) →
      Act env (.setGuardians admin guardians threshold) o
        { o with guardians := guardians, guardianThreshold := threshold }
  | accuse {admin guardian : Address} {o : Office} :
      o.Signed env admin → o.guardianThreshold ≠ 0 →
      o.pendingGuardianRemoval = none →
      Act env (.proposeRemoveGuardian admin guardian) o
        { o with
          pendingGuardianRemoval :=
            some { guardianToRemove := guardian, approvals := [] } }
  | agree {guardian : Address} {p : PendingGuardianRemoval} {o : Office} :
      guardian ∈ env.signers → guardian ∈ o.guardians →
      o.pendingGuardianRemoval = some p → guardian ∉ p.approvals →
      p.approvals.length + 1 < o.guardianThreshold →
      Act env (.approveRemoveGuardian guardian) o
        { o with
          pendingGuardianRemoval :=
            some { p with approvals := p.approvals ++ [guardian] } }
  | remove {guardian : Address} {p : PendingGuardianRemoval} {o : Office} :
      guardian ∈ env.signers → guardian ∈ o.guardians →
      o.pendingGuardianRemoval = some p → guardian ∉ p.approvals →
      guardian ≠ p.guardianToRemove →
      o.guardianThreshold ≤ p.approvals.length + 1 →
      Act env (.approveRemoveGuardian guardian) o
        { o with
          pendingGuardianRemoval := none
          guardians :=
            o.guardians.filter fun g => decide (g ≠ p.guardianToRemove)
          guardianThreshold :=
            min o.guardianThreshold
              (o.guardians.filter fun g =>
                decide (g ≠ p.guardianToRemove)).length }
  | acquit {admin : Address} {o : Office} :
      o.Signed env admin →
      Act env (.cancelPendingGuardianRemoval admin) o
        { o with pendingGuardianRemoval := none }
  | arm {admin newAdmin : Address} {o : Office} :
      o.Signed env admin → o.pendingAdmin = none → o.guardianThreshold = 0 →
      Act env (.proposeNewAdmin admin newAdmin) o
        { o with
          pendingAdmin := some newAdmin
          pendingAdminSince := some env.now }
  | nominate {admin newAdmin : Address} {o : Office} :
      o.Signed env admin → o.pendingAdmin = none → o.guardianThreshold ≠ 0 →
      Act env (.proposeNewAdmin admin newAdmin) o
        { o with
          pendingAdminChange :=
            some { newAdmin := newAdmin, approvals := [] } }
  | support {guardian newAdmin : Address} {p : PendingAdminChange}
      {o : Office} :
      guardian ∈ env.signers → guardian ∈ o.guardians →
      o.pendingAdminChange = some p → guardian ∉ p.approvals →
      p.approvals.length + 1 < o.guardianThreshold →
      Act env (.approveAdminChange guardian newAdmin) o
        { o with
          pendingAdminChange :=
            some { p with approvals := p.approvals ++ [guardian] } }
  | confirm {guardian newAdmin : Address} {p : PendingAdminChange}
      {o : Office} :
      guardian ∈ env.signers → guardian ∈ o.guardians →
      o.pendingAdminChange = some p → guardian ∉ p.approvals →
      p.newAdmin = newAdmin → o.guardianThreshold ≤ p.approvals.length + 1 →
      Act env (.approveAdminChange guardian newAdmin) o
        { o with
          pendingAdminChange := none
          pendingAdmin := some newAdmin
          pendingAdminSince := some (o.pendingAdminSince.getD env.now) }
  | accept {admin : Address} {o : Office} :
      o.pendingAdmin = some admin → admin ∈ env.signers →
      satAddU64 (o.pendingAdminSince.getD 0) adminTransferTimelock ≤
        env.now →
      Act env (.acceptAdmin admin) o
        { o with
          admin := some admin
          pendingAdmin := none
          pendingAdminSince := none }

section Act

variable {env : Env} {m m' : Machine State} {u : Unit}

theorem approveRemoveGuardian_act {guardian : Address}
    (h : approveRemoveGuardian env guardian m = .ok (u, m')) :
    Act env (.approveRemoveGuardian guardian) m.store.office
      m'.store.office := by
  simp only [approveRemoveGuardian, bind_ok, requireAuth_ok, load_ok,
    ensure_ok, unwrap_ok] at h
  obtain ⟨_, _, ⟨hauth, rfl⟩, _, _, ⟨rfl, rfl⟩, _, _, ⟨hmem, rfl⟩, p, _,
    ⟨hpending, rfl⟩, _, _, ⟨hother, rfl⟩, _, _, ⟨hnew, rfl⟩, h⟩ := h
  rcases ite_ok.mp h with ⟨hreached, h⟩ | ⟨hshort, h⟩
  · simp only [bind_ok, ensure_ok, update_ok] at h
    obtain ⟨_, _, ⟨-, rfl⟩, rfl⟩ := h
    rw [List.length_append] at hreached
    exact .remove hauth hmem hpending hnew hother hreached
  · obtain rfl := update_ok.mp h
    rw [List.length_append, not_le] at hshort
    exact .agree hauth hmem hpending hnew hshort

theorem proposeNewAdmin_act {admin newAdmin : Address}
    (h : proposeNewAdmin env admin newAdmin m = .ok (u, m')) :
    Act env (.proposeNewAdmin admin newAdmin) m.store.office
      m'.store.office := by
  simp [proposeNewAdmin, requireAdmin, requireNotZeroAddress, ite_ok] at h
  obtain ⟨hadmin, hauth, -, hnone, ⟨hzero, rfl⟩ | ⟨hpos, rfl⟩⟩ := h
  · exact .arm ⟨hadmin, hauth⟩ hnone hzero
  · exact .nominate ⟨hadmin, hauth⟩ hnone hpos

theorem approveAdminChange_act {guardian newAdmin : Address}
    (h : approveAdminChange env guardian newAdmin m = .ok (u, m')) :
    Act env (.approveAdminChange guardian newAdmin) m.store.office
      m'.store.office := by
  simp [approveAdminChange, ite_ok] at h
  obtain ⟨hauth, hmem, p, hpending, hsame, hnew, ⟨hreached, rfl⟩ |
    ⟨hshort, rfl⟩⟩ := h
  · exact .confirm hauth hmem hpending hnew hsame hreached
  · exact .support hauth hmem hpending hnew hshort

/-- Every accepted call does to the office what `Act` says. -/
theorem exec_act {e : Entry} (h : exec env e m = .ok (u, m')) :
    Act env e m.store.office m'.store.office := by
  cases e with
  | initializePool =>
      simp [exec, initializePool, requireNotZeroAddress] at h
      obtain ⟨hfresh, -, -, -, -, -, -, rfl⟩ := h
      exact .found hfresh
  | requestAdminWithdrawal =>
      simp [exec, requestAdminWithdrawal, requireAdmin] at h
      obtain ⟨hadmin, hauth, -, -, hnone, -, -, rfl⟩ := h
      exact .request ⟨hadmin, hauth⟩ hnone
  | approveAdminWithdrawal =>
      simp [exec, approveAdminWithdrawal] at h
      obtain ⟨hauth, hmem, -, rfl⟩ := h
      exact .approve hauth hmem
  | executeAdminWithdrawal =>
      simp [exec, executeAdminWithdrawal, requireAdmin] at h
      obtain ⟨hadmin, hauth, req, hreq, hopen, hreached, hdue, -, usdc, -,
        treasury, -, B, -, rfl⟩ := h
      exact .execute ⟨hadmin, hauth⟩ hreq hopen hreached hdue
  | cancelAdminWithdrawal =>
      simp [exec, cancelAdminWithdrawal, requireAdmin] at h
      obtain ⟨hadmin, hauth, -, rfl⟩ := h
      exact .withdraw ⟨hadmin, hauth⟩
  | setGuardians =>
      simp [exec, setGuardians, requireAdmin] at h
      obtain ⟨hadmin, hauth, hle, hkept, rfl⟩ := h
      exact .appoint ⟨hadmin, hauth⟩ hle hkept
  | proposeRemoveGuardian =>
      simp [exec, proposeRemoveGuardian, requireAdmin] at h
      obtain ⟨hadmin, hauth, ⟨hpos, -⟩, -, -, hnone, rfl⟩ := h
      exact .accuse ⟨hadmin, hauth⟩ hpos hnone
  | approveRemoveGuardian => exact approveRemoveGuardian_act h
  | cancelPendingGuardianRemoval =>
      simp [exec, cancelPendingGuardianRemoval, requireAdmin] at h
      obtain ⟨hadmin, hauth, -, rfl⟩ := h
      exact .acquit ⟨hadmin, hauth⟩
  | proposeNewAdmin => exact proposeNewAdmin_act h
  | approveAdminChange => exact approveAdminChange_act h
  | acceptAdmin =>
      simp [exec, acceptAdmin, requireNotZeroAddress] at h
      obtain ⟨hpending, hauth, -, hwaited, rfl⟩ := h
      exact .accept hpending hauth hwaited
  | _ =>
      have hsame : m'.store.office = m.store.office :=
        exec_spared rfl m u m' rfl h
      rw [hsame]
      exact .rest rfl

/-- The entry points that set no limit leave the limits alone. -/
theorem exec_limits {e : Entry} (hl : e.limits = false)
    (h : exec env e m = .ok (u, m')) : m'.store.limits = m.store.limits := by
  by_cases hgoverns : e.governs = false
  · exact exec_outside (I := fun t => t.store.limits = m.store.limits)
      (fun ht _ hsame => hsame.trans ht) hgoverns hl m u m' rfl h
  by_cases hsetting : e.isSetting = true
  · exact (exec_setting hsetting h).2.2 hl
  cases e with
  | initializePool =>
      simp [exec, initializePool, requireNotZeroAddress] at h
      obtain ⟨-, -, -, -, -, -, -, rfl⟩ := h
      rfl
  | executeAdminWithdrawal =>
      simp [exec, executeAdminWithdrawal, requireAdmin] at h
      obtain ⟨-, -, req, -, -, -, -, -, usdc, -, treasury, -, B, -, rfl⟩ := h
      rfl
  | _ => first | exact absurd rfl hgoverns | exact absurd rfl hsetting

end Act

end Parashield.RiskPool
