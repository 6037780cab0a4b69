import Parashield.GovernanceDao.Changes
import Parashield.Protocol.System
import Parashield.Upgrades.Requests

/-!
# The upgrades of risk pool, claims processor and DAO

All three run the same upgrade code under their own error codes, and differ in
how the guardian threshold can be lowered: the DAO never goes back to zero.
-/

/-! ## Risk pool -/

namespace Parashield.RiskPool

open Support Upgrades

def upgradeTerms : Terms Error State where
  admin s := s.admin
  guardians s := s.guardians
  guardianThreshold s := s.guardianThreshold
  notInitialized := .notInitialized
  unauthorized := .unauthorized
  invalidVersion := .invalidVersion
  notGuardian := .notGuardian
  noPendingUpgrade := .noPendingUpgrade
  alreadyApprovedAction := .alreadyApprovedAction

def upgrade : Env → Address → Bytes → ℕ →
    Invocation Error (Upgradable State) Unit :=
  Upgrades.upgrade upgradeTerms

def approveUpgrade : Env → Address → Bytes →
    Invocation Error (Upgradable State) Unit :=
  Upgrades.approveUpgrade upgradeTerms

def cancelPendingUpgrade : Env → Address →
    Invocation Error (Upgradable State) Unit :=
  Upgrades.cancelPendingUpgrade upgradeTerms

/-- Runs of the pool with its upgrades. -/
def upgradable (self : Address) :
    TransitionSystem (World (Upgradable State)) (Label (Upgrades.Entry Entry)) :=
  Upgrades.system upgradeTerms exec .deployed self

end Parashield.RiskPool

/-! ## Claims processor -/

namespace Parashield.ClaimsProcessor

open Support Upgrades

def upgradeTerms : Terms Error Network where
  admin n := n.claims.admin
  guardians n := n.claims.guardians
  guardianThreshold n := n.claims.guardianThreshold
  notInitialized := .notInitialized
  unauthorized := .unauthorized
  invalidVersion := .invalidVersion
  notGuardian := .notGuardian
  noPendingUpgrade := .noPendingUpgrade
  alreadyApprovedAction := .alreadyApprovedAction

def upgrade : Env → Address → Bytes → ℕ →
    Invocation Error (Upgradable Network) Unit :=
  Upgrades.upgrade upgradeTerms

def approveUpgrade : Env → Address → Bytes →
    Invocation Error (Upgradable Network) Unit :=
  Upgrades.approveUpgrade upgradeTerms

def cancelPendingUpgrade : Env → Address →
    Invocation Error (Upgradable Network) Unit :=
  Upgrades.cancelPendingUpgrade upgradeTerms

/-- Runs of the processor with its upgrades, next to the other contracts. -/
def upgradable (D : Protocol.Sites) :
    TransitionSystem (World (Upgradable Network))
      (Label (Upgrades.Entry Protocol.Entry)) :=
  Upgrades.system upgradeTerms (Protocol.exec D) .deployed D.claims

end Parashield.ClaimsProcessor

/-! ## Governance DAO -/

namespace Parashield.GovernanceDao

open Support Support.Contract Invocation Upgrades

def upgradeTerms : Terms Error State where
  admin s := s.admin
  guardians s := s.guardians
  guardianThreshold s := s.guardianThreshold
  notInitialized := .notInitialized
  unauthorized := .unauthorized
  invalidVersion := .versionNotNewer
  notGuardian := .notGuardian
  noPendingUpgrade := .noPendingUpgrade
  alreadyApprovedAction := .alreadyApprovedAction

def upgrade : Env → Address → Bytes → ℕ →
    Invocation Error (Upgradable State) Unit :=
  Upgrades.upgrade upgradeTerms

def approveUpgrade : Env → Address → Bytes →
    Invocation Error (Upgradable State) Unit :=
  Upgrades.approveUpgrade upgradeTerms

def cancelPendingUpgrade : Env → Address →
    Invocation Error (Upgradable State) Unit :=
  Upgrades.cancelPendingUpgrade upgradeTerms

/-- Runs of the DAO with its upgrades. -/
def upgradable (self : Address) :
    TransitionSystem (World (Upgradable State)) (Label (Upgrades.Entry Entry)) :=
  Upgrades.system upgradeTerms exec .deployed self

section Threshold

variable {self : Address} {env : Env} {m m' : Machine State} {e : Entry}
  {u : Unit} {w w' : World (Upgradable State)}
  {l : Label (Upgrades.Entry Entry)}

theorem Change.guardianThreshold (h : Change env e m m') (he : ¬ e.IsAside) :
    m'.store.guardianThreshold = m.store.guardianThreshold := by
  cases h with
  | aside haside => exact absurd haside he
  | initialized h =>
      obtain ⟨-, _, _, -, -, rfl⟩ := h
      rfl
  | configured h =>
      obtain ⟨-, _, -, rfl⟩ := h
      rfl
  | opened _ h =>
      obtain ⟨-, -, _, _, -, -, rfl⟩ := h
      rfl
  | delegated _ _ _ heq => rw [heq, State.delegated]
  | revoked _ _ _ heq => rw [heq, State.revoked]
  | voted _ h =>
      obtain ⟨_, _, _, _, _, -, -, -, -, -, hballots, rfl⟩ := h.change
      rw [hballots.upToVotes.eq]
  | withdrawn _ h =>
      obtain ⟨_, _, -, -, rfl⟩ := h.change
      rfl
  | passed _ h =>
      obtain ⟨_, _, _, -, -, -, -, -, rfl⟩ := h
      rfl
  | refunded _ h =>
      obtain ⟨_, _, _, _, _, -, -, -, -, -, -, rfl⟩ := h.change
      rfl
  | started _ h =>
      obtain ⟨_, _, -, -, -, -, -, rfl⟩ := h
      rfl
  | lapsed _ h =>
      obtain ⟨_, -, -, rfl⟩ := h
      rfl
  | executed _ h =>
      obtain ⟨_, _, _, _, _, -, -, -, -, -, -, -, rfl⟩ := h
      rfl
  | vetoed _ h =>
      obtain ⟨_, _, -, -, -, rfl⟩ := h.change
      rfl

/-- The administrator may change the committee, but not without a
threshold. -/
theorem aside_guardianThreshold (h : exec env e m = .ok (u, m'))
    (he : e.IsAside) (hset : m.store.guardianThreshold ≠ 0) :
    m'.store.guardianThreshold ≠ 0 := by
  cases e with
  | registerTemplate =>
      simp [exec, registerTemplate, storeTemplate] at h
      obtain ⟨-, -, -, -, ⟨-, rfl⟩ | ⟨-, rfl⟩⟩ := h
      · exact hset
      · exact hset
  | deactivateTemplate =>
      simp [exec, deactivateTemplate, storeTemplate] at h
      obtain ⟨-, _, -, rfl⟩ := h
      exact hset
  | setTimeWeight =>
      simp [exec, setTimeWeight] at h
      obtain ⟨-, -, rfl⟩ := h
      exact hset
  | checkpointVotingPower =>
      simp [exec, checkpointVotingPower] at h
      obtain ⟨-, _, -, rfl⟩ := h
      exact hset
  | setQuorumDecay =>
      simp [exec, setQuorumDecay] at h
      obtain ⟨-, _, -, -, -, -, -, rfl⟩ := h
      exact hset
  | setImpactMultipliers =>
      simp [exec, setImpactMultipliers, forEach] at h
      obtain ⟨-, -, -, -, rfl⟩ := h
      exact hset
  | pruneParticipationHistory =>
      simp [exec, pruneParticipationHistory] at h
      rw [h]
      exact hset
  | setRiskPool =>
      simp [exec, setRiskPool] at h
      obtain ⟨-, rfl⟩ := h
      exact hset
  | setGuardians =>
      simp [exec, setGuardians] at h
      obtain ⟨-, -, hpos, rfl⟩ := h
      exact hpos.1
  | addComment =>
      simp [exec, addComment, storeComment] at h
      obtain ⟨-, -, _, -, -, -, rfl⟩ := h
      exact hset
  | deleteComment =>
      simp [exec, deleteComment, storeComment] at h
      obtain ⟨-, -, rfl⟩ := h
      exact hset
  | _ => exact he.elim

theorem exec_guardianThreshold (h : exec env e m = .ok (u, m'))
    (hset : m.store.guardianThreshold ≠ 0) :
    m'.store.guardianThreshold ≠ 0 := by
  by_cases he : e.IsAside
  · exact aside_guardianThreshold h he hset
  · exact changes_keep (I := fun m => m.store.guardianThreshold ≠ 0)
      (fun m m' hchange hset => (hchange.guardianThreshold he).trans_ne hset)
      (exec_changes h) hset

/-- A request is pending only under a threshold. -/
def Thresholded (s : Upgradable State) : Prop :=
  s.pendingUpgrade ≠ none → s.base.guardianThreshold ≠ 0

theorem thresholded_step (hstep : (upgradable self).Step w l w')
    (h : Thresholded w.machine.store) : Thresholded w'.machine.store := by
  cases hstep with
  | @call signers e m' hself hexec =>
      cases exec_change hexec with
      | base hrun heq =>
          rw [heq]
          exact fun hpending => exec_guardianThreshold hrun (h hpending)
      | direct _ _ heq =>
          rw [heq]
          exact h
      | requested hset _ heq =>
          rw [heq]
          exact fun _ => hset
      | approved _ hp _ _ heq =>
          rw [heq]
          refine fun _ => h ?_
          rw [hp]
          exact nofun
      | executed _ _ _ _ heq =>
          rw [heq]
          exact fun hpending => absurd rfl hpending
      | cancelled heq =>
          rw [heq]
          exact fun hpending => absurd rfl hpending
  | tick => exact h
  | transfer => exact h
  | mint => exact h

theorem thresholded_inductive (self : Address) :
    (upgradable self).Inductive fun w => Thresholded w.machine.store where
  init w hw := by
    have hstore : w.machine.store = .deployed .deployed := hw.1
    rw [hstore]
    exact fun hpending => absurd rfl hpending
  step _ _ _ h hstep := thresholded_step hstep h

/-- So nobody can upgrade past a request. -/
theorem keepsOrder_of_thresholded (h : Thresholded w.machine.store) :
    KeepsOrder upgradeTerms w l := by
  unfold KeepsOrder
  split
  · intro hzero p hp
    refine absurd hzero (h ?_)
    rw [Option.mem_def.mp hp]
    exact nofun
  · trivial

theorem ahead_inductive (self : Address) :
    (upgradable self).Inductive fun w =>
      Thresholded w.machine.store ∧ Ahead w.machine.store := by
  refine (thresholded_inductive self).and (fun w hw => ?_)
    fun w l w' hw _ hahead hstep => ?_
  · have hstore : w.machine.store = .deployed .deployed := hw.1
    rw [hstore]
    exact nofun
  · exact ahead_step hstep (keepsOrder_of_thresholded hw) hahead

end Threshold

end Parashield.GovernanceDao

/-! ## All three -/

namespace Parashield.Upgrades

open Support Support.Contract Invocation TransitionSystem

/-- In runs of the risk pool and of the claims processor in which nobody
upgrades past a pending request, and in all runs of the DAO, versions increase,
and under a threshold an upgrade has the approvals it needs. -/
theorem upgrades_guarded (pool : Address) (D : Protocol.Sites)
    (dao : Address) :
    UpgradesGuarded
        ((RiskPool.upgradable pool).restrict (KeepsOrder RiskPool.upgradeTerms))
        RiskPool.upgradeTerms ∧
      UpgradesGuarded
        ((ClaimsProcessor.upgradable D).restrict
          (KeepsOrder ClaimsProcessor.upgradeTerms))
        ClaimsProcessor.upgradeTerms ∧
      UpgradesGuarded (GovernanceDao.upgradable dao)
        GovernanceDao.upgradeTerms := by
  refine ⟨?_, ?_, ?_⟩
  · exact upgradesGuarded_of_ahead (fun _ h => h) (fun _ _ _ h => h.2)
      fun _ hw => hw.invariant (ahead_inductive _ _ _ pool)
  · exact upgradesGuarded_of_ahead (fun _ h => h) (fun _ _ _ h => h.2)
      fun _ hw => hw.invariant (ahead_inductive _ _ _ D.claims)
  · exact upgradesGuarded_of_ahead (fun _ h => h) (fun _ _ _ h => h)
      fun _ hw => (hw.invariant (GovernanceDao.ahead_inductive dao)).2

/-! ## Runs with guardians -/

namespace Scenario

def admin : Address := .account 1
def guardianA : Address := .account 11
def guardianB : Address := .account 12

/-- Any contract in its extended storage, before its first call. -/
def fresh {S : Type} (base : S) (bank : Bank) : World (Upgradable S) where
  now := 1000000
  machine := { store := .deployed base, bank := bank }

def noTokens : Bank := ⟨fun _ => none, []⟩

/-! ### Two guardians of the DAO approve -/

def dao : Address := GovernanceDao.Scenario.dao

def daoGenesis : World (Upgradable GovernanceDao.State) :=
  fresh .deployed noTokens

def daoRun : List (Label (Entry GovernanceDao.Entry)) :=
  [.call [admin]
      (.base (.initializeDao admin GovernanceDao.Scenario.config)),
    .call [admin] (.base (.setGuardians admin [guardianA, guardianB] 2)),
    .call [admin] (.upgrade admin [2] 2),
    .call [guardianA] (.approveUpgrade guardianA [2])]

def daoLast : Label (Entry GovernanceDao.Entry) :=
  .call [guardianB] (.approveUpgrade guardianB [2])

def daoApproved : World (Upgradable GovernanceDao.State) :=
  (execute (step (exec GovernanceDao.upgradeTerms GovernanceDao.exec) dao)
    daoRun daoGenesis).get (by decide +kernel)

def daoUpgraded : World (Upgradable GovernanceDao.State) :=
  (step (exec GovernanceDao.upgradeTerms GovernanceDao.exec) dao daoApproved
    daoLast).get (by decide +kernel)

/-! ### The threshold of the pool is lowered over a request -/

def pool : Address := RiskPool.Scenario.pool

def poolGenesis : World (Upgradable RiskPool.State) :=
  fresh .deployed RiskPool.Scenario.genesis.machine.bank

/-- Version 3 is requested, the threshold set to zero, and version 5 installed
without the guardian. -/
def poolRun : List (Label (Entry RiskPool.Entry)) :=
  [.call [admin] (.base (.initializePool admin (.contract 20) (.contract 5)
      (.contract 6) Symbols.crop (.contract 1) (.contract 4))),
    .call [admin] (.base (.setGuardians admin [guardianA] 1)),
    .call [admin] (.upgrade admin [3] 3),
    .call [admin] (.base (.setGuardians admin [guardianA] 0)),
    .call [admin] (.upgrade admin [5] 5)]

def poolLast : Label (Entry RiskPool.Entry) :=
  .call [guardianA] (.approveUpgrade guardianA [3])

def poolOvertaken : World (Upgradable RiskPool.State) :=
  (execute (step (exec RiskPool.upgradeTerms RiskPool.exec) pool) poolRun
    poolGenesis).get (by decide +kernel)

def poolDowngraded : World (Upgradable RiskPool.State) :=
  (step (exec RiskPool.upgradeTerms RiskPool.exec) pool poolOvertaken
    poolLast).get (by decide +kernel)

/-! ### The committee of the processor is dissolved over a request -/

def sites : Protocol.Sites := Protocol.Scenario.sites

def claimsGenesis : World (Upgradable ClaimsProcessor.Network) :=
  fresh .deployed noTokens

def claimsRun : List (Label (Entry Protocol.Entry)) :=
  [.call [admin] (.base (.claims (.initializeProcessor admin sites.engine
      sites.pool sites.oracle 604800))),
    .call [admin] (.base (.claims (.setGuardians admin [guardianA] 1))),
    .call [admin] (.upgrade admin [3] 3),
    .call [admin] (.base (.claims (.setGuardians admin [] 0))),
    .call [admin] (.upgrade admin [5] 5),
    .call [admin] (.base (.claims (.setGuardians admin [guardianA] 1)))]

def claimsLast : Label (Entry Protocol.Entry) :=
  .call [guardianA] (.approveUpgrade guardianA [3])

def claimsOvertaken : World (Upgradable ClaimsProcessor.Network) :=
  (execute (step (exec ClaimsProcessor.upgradeTerms (Protocol.exec sites))
    sites.claims) claimsRun claimsGenesis).get (by decide +kernel)

def claimsDowngraded : World (Upgradable ClaimsProcessor.Network) :=
  (step (exec ClaimsProcessor.upgradeTerms (Protocol.exec sites)) sites.claims
    claimsOvertaken claimsLast).get (by decide +kernel)

end Scenario

open Scenario

theorem upgrades_guarded_dao :
    Backed (GovernanceDao.upgradable dao) GovernanceDao.upgradeTerms daoGenesis
      (daoRun ++ [daoLast]) daoUpgraded [2] 2 := by
  have hguarded := (upgrades_guarded pool sites dao).2.2
  have hrun : (GovernanceDao.upgradable dao).Run daoGenesis daoRun
      daoApproved :=
    run_of_execute (fun _ _ _ => step_sound) (Option.some_get _).symm
  have hstep : (GovernanceDao.upgradable dao).Step daoApproved daoLast
      daoUpgraded := step_sound (Option.some_get _).symm
  rcases hguarded daoGenesis daoRun daoApproved daoLast daoUpgraded ⟨rfl, rfl⟩
      hrun hstep with ⟨hsame, -⟩ | ⟨hash, hinstalled, -, hbacked⟩
  · exact absurd hsame (by decide +kernel)
  · have hhash : [2] :: daoApproved.machine.store.installed =
        hash :: daoApproved.machine.store.installed := by
      rw [← hinstalled]
      decide +kernel
    have hthreshold : GovernanceDao.upgradeTerms.guardianThreshold
        daoApproved.machine.store.base = 2 := by decide +kernel
    rw [hthreshold, ← (List.cons.inj hhash).1] at hbacked
    exact hbacked (by decide)

/-- A stored version below the one before it breaks the guard. -/
theorem not_upgradesGuarded {E S En : Type} {T : Terms E S}
    {X : TransitionSystem (World (Upgradable S)) (Label (Entry En))}
    {s w w' : World (Upgradable S)} {ls : List (Label (Entry En))}
    {l : Label (Entry En)} (hinit : X.Init s) (hrun : X.Run s ls w)
    (hstep : X.Step w l w')
    (hless : w'.machine.store.version < w.machine.store.version) :
    ¬ UpgradesGuarded X T := by
  intro h
  rcases h s ls w l w' hinit hrun hstep with ⟨-, hsame⟩ | ⟨_, -, hnewer, -⟩
  · omega
  · omega

/-- Pool and processor install a lower version in the end. -/
theorem upgrades_not_guarded :
    ¬ UpgradesGuarded (RiskPool.upgradable pool) RiskPool.upgradeTerms ∧
      ¬ UpgradesGuarded (ClaimsProcessor.upgradable sites)
        ClaimsProcessor.upgradeTerms := by
  have hpool : (RiskPool.upgradable pool).Run poolGenesis poolRun
      poolOvertaken :=
    run_of_execute (fun _ _ _ => step_sound) (Option.some_get _).symm
  have hclaims : (ClaimsProcessor.upgradable sites).Run claimsGenesis claimsRun
      claimsOvertaken :=
    run_of_execute (fun _ _ _ => step_sound) (Option.some_get _).symm
  constructor
  · have hstep : (RiskPool.upgradable pool).Step poolOvertaken poolLast
        poolDowngraded := step_sound (Option.some_get _).symm
    exact not_upgradesGuarded ⟨rfl, rfl⟩ hpool hstep (by decide +kernel)
  · have hstep : (ClaimsProcessor.upgradable sites).Step claimsOvertaken
        claimsLast claimsDowngraded := step_sound (Option.some_get _).symm
    exact not_upgradesGuarded ⟨rfl, rfl⟩ hclaims hstep (by decide +kernel)

end Parashield.Upgrades
