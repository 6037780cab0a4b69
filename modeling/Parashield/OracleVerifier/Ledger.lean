import Parashield.OracleVerifier.Writes

/-!
# Oracle verifier: the ledger

What is kept of submissions: the readings, the times of the last ones, the
stale counters, the reputation records and the stake an oracle has to put up.
Few entry points post to it; every other call leaves it as it is.
-/

namespace Parashield.OracleVerifier

open Support Support.Contract Invocation

structure Ledger where
  dataPoints : Symbol × Symbol → Option (List OracleDataPoint)
  lastReadingTimestamp : Symbol × Symbol × Address → Option ℕ
  staleCount : Symbol × Address → ℕ
  reputation : Symbol × Address → Option OracleReputation
  minStake : ℤ

def State.ledger (s : State) : Ledger where
  dataPoints := s.dataPoints
  lastReadingTimestamp := s.lastReadingTimestamp
  staleCount := s.staleCount
  reputation := s.reputation
  minStake := s.minStake

/-- The entry points that may write the ledger. -/
def Entry.posts : Entry → Bool
  | .setMinStake .. => true
  | .setReputation .. => true
  | .submitData .. => true
  | .batchSubmitData .. => true
  | .submitDataBatch .. => true
  | .submitEncryptedData .. => true
  | .invalidateData .. => true
  | .verifyTrigger .. => true
  | .verifyTriggerFresh .. => true
  | .batchVerifyFresh .. => true
  | _ => false

section Calls

variable {env : Env} {e : Entry} {m m' : Machine State} {c : Ledger}

/-! ## Checks -/

theorem keeps_requireAdmin {I : Machine State → Prop} {caller : Address} :
    Keeps I (requireAdmin env caller) := by
  refine keeps_bind keeps_load fun s => ?_
  refine keeps_bind (keeps_unwrap _ _) fun _ => ?_
  exact keeps_bind (keeps_ensure _ _) fun _ => keeps_requireAuth _ _

theorem keeps_ensureNotActive {I : Machine State → Prop} {oracle : Address}
    {dataType : Symbol} : Keeps I (ensureNotActive dataType oracle) :=
  keeps_bind keeps_load fun _ => keeps_ensure _ _

theorem keeps_requireDataTypeActive {I : Machine State → Prop}
    {dataType : Symbol} : Keeps I (requireDataTypeActive dataType) :=
  keeps_bind keeps_load fun _ => keeps_ensure _ _

theorem keeps_requireActiveOracle {I : Machine State → Prop}
    {dataType : Symbol} {oracle : Address} :
    Keeps I (requireActiveOracle dataType oracle) := by
  refine keeps_bind keeps_load fun s => ?_
  exact keeps_bind (keeps_unwrap _ _) fun _ => keeps_ensure _ _

theorem keeps_transferSlashed {I : Machine State → Prop} {amount : ℤ}
    (hI : ∀ t t' : Machine State, t'.store = t.store → I t → I t') :
    Keeps I (transferSlashed env amount) :=
  fun m _ m' hm h => hI m m' (transferSlashed_store h) hm

/-! ## Calls that leave the ledger alone -/

/-- The ledger is as in `c`. -/
def OnLedger (c : Ledger) (m : Machine State) : Prop :=
  m.store.ledger = c

theorem keeps_unposted {f : State → State}
    (hf : ∀ s, (f s).ledger = s.ledger) :
    Keeps (OnLedger c) (update f : Call Unit) :=
  keeps_update fun m hm => (hf m.store).trans hm

theorem keeps_setter {admin : Address} {f : State → State}
    (hf : ∀ s, (f s).ledger = s.ledger) :
    Keeps (OnLedger c)
      (do requireAdmin env admin; update f : Call Unit) :=
  keeps_bind keeps_requireAdmin fun _ => keeps_unposted hf

theorem keeps_setting {admin : Address} {valid : Prop} [Decidable valid]
    {error : Error} {f : State → State}
    (hf : ∀ s, (f s).ledger = s.ledger) :
    Keeps (OnLedger c) (setting env admin valid error f) := by
  refine keeps_bind keeps_requireAdmin fun _ => ?_
  exact keeps_bind (keeps_ensure _ _) fun _ => keeps_unposted hf

theorem keeps_removeCrossValidationRule {admin : Address}
    {sourceType targetType : Symbol} :
    Keeps (OnLedger c)
      (removeCrossValidationRule env admin sourceType targetType) := by
  refine keeps_bind keeps_requireAdmin fun _ => ?_
  refine keeps_bind keeps_load fun s => ?_
  exact keeps_bind (keeps_ensure _ _) fun _ => keeps_unposted fun _ => rfl

theorem keeps_initializeVerifier {admin : Address} :
    Keeps (OnLedger c) (initializeVerifier env admin) := by
  refine keeps_bind keeps_load fun s => ?_
  refine keeps_bind (keeps_ensure _ _) fun _ => ?_
  refine keeps_bind (keeps_requireAuth _ _) fun _ => ?_
  exact keeps_unposted fun _ => rfl

theorem keeps_proposeNewAdmin {admin newAdmin : Address} :
    Keeps (OnLedger c) (proposeNewAdmin env admin newAdmin) := by
  refine keeps_bind keeps_requireAdmin fun _ => ?_
  refine keeps_bind keeps_load fun s => ?_
  refine keeps_bind (keeps_ensure _ _) fun _ => ?_
  exact keeps_ite (fun _ => keeps_unposted fun _ => rfl)
    fun _ => keeps_unposted fun _ => rfl

theorem keeps_approveAdminChange {guardian newAdmin : Address} :
    Keeps (OnLedger c) (approveAdminChange env guardian newAdmin) := by
  refine keeps_bind (keeps_requireAuth _ _) fun _ => ?_
  refine keeps_bind keeps_load fun s => ?_
  refine keeps_bind (keeps_ensure _ _) fun _ => ?_
  refine keeps_bind (keeps_unwrap _ _) fun pending => ?_
  refine keeps_bind (keeps_ensure _ _) fun _ => ?_
  refine keeps_bind (keeps_ensure _ _) fun _ => ?_
  exact keeps_ite (fun _ => keeps_unposted fun _ => rfl)
    fun _ => keeps_unposted fun _ => rfl

theorem keeps_acceptAdmin {admin : Address} :
    Keeps (OnLedger c) (acceptAdmin env admin) := by
  refine keeps_bind keeps_load fun s => ?_
  refine keeps_bind (keeps_unwrap _ _) fun pendingAdmin => ?_
  refine keeps_bind (keeps_ensure _ _) fun _ => ?_
  refine keeps_bind (keeps_requireAuth _ _) fun _ => ?_
  refine keeps_bind (keeps_ensure _ _) fun _ => ?_
  refine keeps_bind (keeps_ensure _ _) fun _ => ?_
  exact keeps_unposted fun _ => rfl

theorem keeps_addOracle {admin oracle : Address} {dataType : Symbol}
    {weight : ℕ} :
    Keeps (OnLedger c) (addOracle env admin oracle dataType weight) := by
  refine keeps_bind keeps_requireAdmin fun _ => ?_
  refine keeps_bind (keeps_ensure _ _) fun _ => ?_
  refine keeps_bind (keeps_ensure _ _) fun _ => ?_
  refine keeps_bind (keeps_ensure _ _) fun _ => ?_
  refine keeps_bind keeps_load fun s => ?_
  refine keeps_bind (keeps_ensure _ _) fun _ => ?_
  refine keeps_bind (keeps_ensure _ _) fun _ => ?_
  refine keeps_bind (keeps_unposted fun _ => rfl) fun _ => ?_
  refine keeps_bind (keeps_ensure _ _) fun _ => ?_
  refine keeps_bind (keeps_ensure _ _) fun _ => ?_
  refine keeps_bind (keeps_unposted fun _ => rfl) fun _ => ?_
  refine keeps_whenever fun _ => ?_
  exact keeps_bind (keeps_ensure _ _) fun _ => keeps_unposted fun _ => rfl

theorem keeps_updateOracleWeight {admin oracle : Address}
    {dataType : Symbol} {weight : ℕ} :
    Keeps (OnLedger c)
      (updateOracleWeight env admin oracle dataType weight) := by
  refine keeps_bind keeps_requireAdmin fun _ => ?_
  refine keeps_bind (keeps_ensure _ _) fun _ => ?_
  refine keeps_bind keeps_load fun s => ?_
  exact keeps_bind (keeps_unwrap _ _) fun entry =>
    keeps_unposted fun _ => rfl

theorem keeps_deactivateOracle {oracle : Address} {dataType : Symbol} :
    Keeps (OnLedger c) (deactivateOracle dataType oracle) := by
  refine keeps_bind keeps_load fun s => ?_
  refine keeps_bind (keeps_unwrap _ _) fun entry => ?_
  refine keeps_bind (keeps_unposted fun _ => rfl) fun _ => ?_
  refine keeps_bind (keeps_unposted fun _ => rfl) fun _ => ?_
  exact keeps_unposted fun _ => rfl

theorem keeps_deactivateInactiveOracles {dataType : Symbol} :
    Keeps (OnLedger c) (deactivateInactiveOracles env dataType) := by
  refine keeps_bind keeps_load fun s => ?_
  refine keeps_bind (keeps_collect fun oracle _ => ?_) fun _ => keeps_pure _
  refine keeps_bind keeps_load fun t => ?_
  exact keeps_ite
    (fun _ => keeps_bind keeps_deactivateOracle fun _ => keeps_pure _)
    fun _ => keeps_pure _

theorem keeps_stake {oracle : Address} {dataType : Symbol} {amount : ℤ} :
    Keeps (OnLedger c) (stake env oracle dataType amount) := by
  refine keeps_bind (keeps_requireAuth _ _) fun _ => ?_
  refine keeps_bind (keeps_ensure _ _) fun _ => ?_
  refine keeps_bind keeps_load fun s => ?_
  refine keeps_bind (keeps_unwrap _ _) fun token => ?_
  refine keeps_bind (keeps_transferToken fun _ _ h => h) fun _ => ?_
  refine keeps_bind (keeps_i128 _ _) fun totalStake => ?_
  exact keeps_unposted fun _ => rfl

theorem keeps_requestStakeWithdrawal {oracle : Address}
    {dataType : Symbol} :
    Keeps (OnLedger c) (requestStakeWithdrawal env oracle dataType) := by
  refine keeps_bind (keeps_requireAuth _ _) fun _ => ?_
  refine keeps_bind keeps_ensureNotActive fun _ => ?_
  refine keeps_bind keeps_load fun s => ?_
  refine keeps_bind (keeps_ensure _ _) fun _ => ?_
  refine keeps_bind (keeps_ensure _ _) fun _ => ?_
  exact keeps_unposted fun _ => rfl

theorem keeps_cancelStakeWithdrawal {oracle : Address} {dataType : Symbol} :
    Keeps (OnLedger c) (cancelStakeWithdrawal env oracle dataType) := by
  refine keeps_bind (keeps_requireAuth _ _) fun _ => ?_
  refine keeps_bind keeps_load fun s => ?_
  exact keeps_bind (keeps_ensure _ _) fun _ => keeps_unposted fun _ => rfl

theorem keeps_withdrawStake {oracle : Address} {dataType : Symbol} :
    Keeps (OnLedger c) (withdrawStake env oracle dataType) := by
  refine keeps_bind (keeps_requireAuth _ _) fun _ => ?_
  refine keeps_bind keeps_ensureNotActive fun _ => ?_
  refine keeps_bind keeps_load fun s => ?_
  refine keeps_bind (keeps_unwrap _ _) fun req => ?_
  refine keeps_bind (keeps_ensure _ _) fun _ => ?_
  refine keeps_bind (keeps_ensure _ _) fun _ => ?_
  refine keeps_bind (keeps_i128 _ _) fun remaining => ?_
  refine keeps_bind (keeps_unposted fun _ => rfl) fun _ => ?_
  refine keeps_bind (keeps_unposted fun _ => rfl) fun _ => ?_
  refine keeps_bind (keeps_unwrap _ _) fun token => ?_
  exact keeps_transferToken fun _ _ h => h

theorem keeps_slashOracle {admin oracle : Address} {dataType : Symbol}
    {amount : ℤ} :
    Keeps (OnLedger c) (slashOracle env admin oracle dataType amount) := by
  refine keeps_bind keeps_requireAdmin fun _ => ?_
  refine keeps_bind (keeps_ensure _ _) fun _ => ?_
  refine keeps_bind keeps_load fun s => ?_
  refine keeps_bind (keeps_ensure _ _) fun _ => ?_
  refine keeps_bind (keeps_unposted fun _ => rfl) fun _ => ?_
  have hdrop : ∀ (x : Call Unit) (slashed remaining : ℤ),
      Keeps (OnLedger c) x → Keeps (OnLedger c) (do
        transferSlashed env slashed
        whenever (0 < s.minStake ∧ remaining < s.minStake) x : Call Unit) := by
    intro x slashed remaining hx
    refine keeps_bind (keeps_transferSlashed fun _ _ hstore ht =>
      (congrArg State.ledger hstore).trans ht) fun _ => ?_
    exact keeps_whenever fun _ => hx
  have hprune : ∀ entry : OracleEntry, Keeps (OnLedger c) (do
      whenever (entry.active = true) do
        storeOracle dataType oracle { entry with active := false }
        pruneOracleList dataType oracle : Call Unit) := by
    intro entry
    refine keeps_whenever fun _ => ?_
    exact keeps_bind (keeps_unposted fun _ => rfl) fun _ =>
      keeps_unposted fun _ => rfl
  -- Neither the entry nor the request on file matters to the ledger.
  cases s.oracles (dataType, oracle) with
  | none =>
      have hrest := fun slashed remaining =>
        hdrop _ slashed remaining (keeps_pure ())
      cases s.stakeWithdrawalReq (dataType, oracle) with
      | none => exact hrest _ _
      | some req =>
          exact keeps_bind (keeps_unposted fun _ => rfl) fun _ => hrest _ _
  | some entry =>
      have hrest := fun slashed remaining =>
        hdrop _ slashed remaining (hprune entry)
      cases s.stakeWithdrawalReq (dataType, oracle) with
      | none => exact hrest _ _
      | some req =>
          exact keeps_bind (keeps_unposted fun _ => rfl) fun _ => hrest _ _

/-- A call that does not post leaves the ledger as it is. -/
theorem exec_ledger (h : exec env e m = .ok ((), m'))
    (he : e.posts = false) : m'.store.ledger = m.store.ledger := by
  suffices hkeeps : Keeps (OnLedger m.store.ledger) (exec env e) from
    hkeeps m () m' rfl h
  cases e with
  | initializeVerifier => exact keeps_initializeVerifier
  | addOracle => exact keeps_addOracle
  | updateOracleWeight => exact keeps_updateOracleWeight
  | removeOracle =>
      exact keeps_bind keeps_requireAdmin fun _ => keeps_deactivateOracle
  | deactivateInactiveOracles =>
      exact keeps_bind keeps_deactivateInactiveOracles fun _ => keeps_pure _
  | removeCrossValidationRule => exact keeps_removeCrossValidationRule
  | proposeNewAdmin => exact keeps_proposeNewAdmin
  | approveAdminChange => exact keeps_approveAdminChange
  | acceptAdmin => exact keeps_acceptAdmin
  | stake => exact keeps_stake
  | requestStakeWithdrawal => exact keeps_requestStakeWithdrawal
  | cancelStakeWithdrawal => exact keeps_cancelStakeWithdrawal
  | withdrawStake => exact keeps_withdrawStake
  | slashOracle => exact keeps_slashOracle
  | pauseDataType => exact keeps_setter fun _ => rfl
  | resumeDataType => exact keeps_setter fun _ => rfl
  | setOracleInactivityLimit => exact keeps_setter fun _ => rfl
  | setMinConfidence => exact keeps_setting fun _ => rfl
  | setMaxDataAge => exact keeps_setter fun _ => rfl
  | setMaxTimestampAge => exact keeps_setter fun _ => rfl
  | setTimestampFutureBuffer => exact keeps_setter fun _ => rfl
  | setDataTypeMaxAge => exact keeps_setter fun _ => rfl
  | setAggregationMethod => exact keeps_setter fun _ => rfl
  | setOutlierConfig => exact keeps_setting fun _ => rfl
  | setDataTypeRange => exact keeps_setting fun _ => rfl
  | setMinOracleCount => exact keeps_setting fun _ => rfl
  | setDataTypeMinOracleCount => exact keeps_setter fun _ => rfl
  | setCrossValidationRule => exact keeps_setting fun _ => rfl
  | setMinSubmitInterval => exact keeps_setting fun _ => rfl
  | setStakeToken => exact keeps_setter fun _ => rfl
  | setSlashTreasury => exact keeps_setter fun _ => rfl
  | setOracleGeoWeight => exact keeps_setting fun _ => rfl
  | setChallengePeriod => exact keeps_setter fun _ => rfl
  | setStaleThreshold => exact keeps_setter fun _ => rfl
  | setStaleSlashAmount => exact keeps_setting fun _ => rfl
  | setStaleReputationPenalty => exact keeps_setting fun _ => rfl
  | setEncryptionRequired => exact keeps_setter fun _ => rfl
  | setGuardians => exact keeps_setting fun _ => rfl
  | _ => cases he

end Calls

end Parashield.OracleVerifier
