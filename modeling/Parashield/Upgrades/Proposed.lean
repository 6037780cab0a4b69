import Parashield.GovernanceDao.Lifecycle
import Parashield.OracleVerifier.Writes
import Parashield.Upgrades.Contracts

/-!
# Upgrades proposed to the DAO

The DAO proposes an upgrade with an argument list of its own making, and the
host hands it to the target only if the target takes as many arguments.  The
WASM proposed is taken to be uploaded.
-/

/-! ## Policy engine -/

namespace Parashield.PolicyEngine

open Support Support.Contract Invocation Upgrades

inductive UpgradeError where
  | base (e : Error)
  | invalidVersion
  deriving DecidableEq, Repr

def UpgradeError.lift : Fault Error → Fault UpgradeError
  | .error e => .error (.base e)
  | .trap => .trap
  | .overflow code => .overflow (code.map .base)

def currentStorageVersion : ℕ := 3

/-- The migrations write defaults that the storage has anyway. -/
def runMigrations (oldVersion newVersion : ℕ) :
    Invocation UpgradeError (Upgradable State) Unit :=
  ensure (oldVersion ≠ 0 ∧ oldVersion < newVersion ∧
    newVersion ≤ currentStorageVersion) .invalidVersion

/-- The engine has no guardians. -/
def upgrade (env : Env) (admin : Address) (newWasmHash : Bytes)
    (newVersion : ℕ) : Invocation UpgradeError (Upgradable State) Unit := do
  zoom (basePart State) UpgradeError.lift (requireAdmin env admin)
  let s ← load
  ensure (s.version < newVersion) .invalidVersion
  runMigrations s.version newVersion
  install newWasmHash newVersion

end Parashield.PolicyEngine

/-! ## Oracle verifier -/

namespace Parashield.OracleVerifier

open Support Support.Contract Invocation Upgrades

/-- The verifier keeps no version. -/
def upgrade (env : Env) (admin : Address) (newWasmHash : Bytes) :
    Invocation Error (Upgradable State) Unit := do
  zoom (basePart State) id (requireAdmin env admin)
  let s ← load
  if s.base.guardianThreshold = 0 then
    install newWasmHash s.version
  else
    storePending
      (some
        { newWasmHash := newWasmHash
          newVersion := s.version
          approvals := [] })

end Parashield.OracleVerifier

namespace Parashield.Upgrades

open Support Support.Contract Invocation TransitionSystem
open GovernanceDao (Val Proposal Handles Outcome upgradeArgs upgradeFunction)

/-! ## Targets -/

/-- A contract of the workspace with its storage. -/
inductive Target where
  | riskPool (s : Upgradable RiskPool.State)
  | claimsProcessor (s : Upgradable ClaimsProcessor.Network)
  | policyEngine (s : Upgradable PolicyEngine.State)
  | oracleVerifier (s : Upgradable OracleVerifier.State)
  | governanceDao (s : Upgradable GovernanceDao.State)

namespace Target

def admin : Target → Option Address
  | .riskPool s => s.base.admin
  | .claimsProcessor s => s.base.claims.admin
  | .policyEngine s => s.base.admin
  | .oracleVerifier s => s.base.admin
  | .governanceDao s => s.base.admin

def guardianThreshold : Target → ℕ
  | .riskPool s => s.base.guardianThreshold
  | .claimsProcessor s => s.base.claims.guardianThreshold
  | .policyEngine _ => 0
  | .oracleVerifier s => s.base.guardianThreshold
  | .governanceDao s => s.base.guardianThreshold

def installed : Target → List Bytes
  | .riskPool s => s.installed
  | .claimsProcessor s => s.installed
  | .policyEngine s => s.installed
  | .oracleVerifier s => s.installed
  | .governanceDao s => s.installed

/-- The target has been upgraded to `newWasmHash`, and not again since. -/
def Runs (τ : Target) (newWasmHash : Bytes) : Prop :=
  τ.installed.head? = some newWasmHash

def IsVerifier : Target → Prop
  | .oracleVerifier _ => True
  | _ => False

/-- The storage a call leaves, if it is accepted. -/
def after {E S : Type} (wrap : Upgradable S → Target)
    (c : Invocation E (Upgradable S) Unit) (s : Upgradable S) (B : Bank) :
    Option (Target × Bank) :=
  match c ⟨s, B⟩ with
  | .ok (_, m) => some (wrap m.store, m.bank)
  | .error _ => none

/-- Invoke `upgrade` with a list of arguments.  The host rejects a list of
another length than the function's parameters, or of other types. -/
def upgrade (env : Env) (args : List Val) (τ : Target) (B : Bank) :
    Option (Target × Bank) :=
  match τ, args with
  | .riskPool s, [.address admin, .bytes hash, .small 4 version] =>
      after .riskPool (RiskPool.upgrade env admin hash version) s B
  | .claimsProcessor s, [.address admin, .bytes hash, .small 4 version] =>
      after .claimsProcessor (ClaimsProcessor.upgrade env admin hash version)
        s B
  | .policyEngine s, [.address admin, .bytes hash, .small 4 version] =>
      after .policyEngine (PolicyEngine.upgrade env admin hash version) s B
  | .oracleVerifier s, [.address admin, .bytes hash] =>
      after .oracleVerifier (OracleVerifier.upgrade env admin hash) s B
  | .governanceDao s, [.address admin, .bytes hash, .small 4 version] =>
      after .governanceDao (GovernanceDao.upgrade env admin hash version) s B
  | _, _ => none

/-- What the DAO sees of an invocation.  `upgrade` returns nothing; the other
functions of the target are not looked at. -/
def outcome (env : Env) (function : Symbol) (args : List Val) (τ : Target) :
    Outcome := fun B =>
  if function = upgradeFunction then
    (τ.upgrade env args B).map fun result => (result.2, none)
  else
    none

variable {env : Env} {τ : Target} {B : Bank} {dao : Address} {hash : Bytes}

/-- The verifier alone takes the two arguments of a proposal. -/
theorem upgrade_eq_none (h : ¬ τ.IsVerifier) :
    τ.upgrade env (upgradeArgs dao hash) B = none := by
  cases τ with
  | oracleVerifier => exact absurd trivial h
  | _ => rfl

/-- It is upgraded at once by an administrator without guardians. -/
theorem upgrade_verifier {s : Upgradable OracleVerifier.State}
    (hadmin : s.base.admin = some dao) (hthreshold : s.base.guardianThreshold = 0)
    (hsigned : dao ∈ env.signers) :
    (oracleVerifier s).upgrade env (upgradeArgs dao hash) B =
      some (.oracleVerifier { s with installed := hash :: s.installed }, B) := by
  have hrun : OracleVerifier.upgrade env dao hash ⟨s, B⟩ =
      .ok ((), ⟨{ s with installed := hash :: s.installed }, B⟩) := by
    simp only [OracleVerifier.upgrade, bind_ok, zoom_ok,
      OracleVerifier.requireAdmin_ok, load_ok, ite_ok, install, update_ok]
    exact ⟨(), ⟨s, B⟩, ⟨⟨s.base, B⟩, ⟨⟨hadmin, hsigned⟩, rfl⟩, rfl⟩, s, _,
      ⟨rfl, rfl⟩, .inl ⟨hthreshold, rfl⟩⟩
  simp only [upgrade, upgradeArgs, after, hrun]

end Target

/-! ## Execution -/

section Execution

variable {dao target : Address} {w : World GovernanceDao.State} {pid : ℕ}
  {p : Proposal} {τ : Target} {hash : Bytes} {signers : List Address}
  {handles : Handles}

/-- A completely executed proposal gets its deposit back. -/
theorem refundAmount_full (p : Proposal) : p.refundAmount 10000 = p.deposit := by
  unfold Proposal.refundAmount
  push_cast
  rw [Int.mul_tdiv_cancel _ (by decide)]
  have h := Int.mul_tdiv_add_tmod p.deposit 10000
  omega

/-- The DAO has the deposit in the token now configured. -/
def Refundable (dao : Address) (w : World GovernanceDao.State)
    (p : Proposal) : Prop :=
  p.deposit ≤ 0 ∨ ∃ config, w.machine.store.config = some config ∧
    p.deposit ≤ w.machine.bank.balance config.govToken dao

/-- The call executes the proposal on the target, which runs the WASM then. -/
def CarriedOut (dao : Address) (w : World GovernanceDao.State)
    (signers : List Address) (handles : Handles) (pid : ℕ) (p : Proposal)
    (τ : Target) (newWasmHash : Bytes) : Prop :=
  let env := callEnv dao w signers
  ∃ m' τ' B,
    GovernanceDao.exec env
        (.execute handles
          (τ.outcome (env.enter p.target) p.function p.args) pid)
        w.machine = .ok ((), m') ∧
      τ.upgrade (env.enter p.target) p.args w.machine.bank = some (τ', B) ∧
      τ'.Runs newWasmHash

theorem execute_succeeds {env : Env} {m : Machine GovernanceDao.State}
    {outcome : Outcome} {B : Bank} (hdue : m.store.Due env.now pid p)
    (hintime : env.now ≤ p.executionDeadline) (htarget : p.target ≠ env.self)
    (houtcome : outcome m.bank = some (B, none))
    (hrefund : p.deposit ≤ 0 ∨ ∃ config, m.store.config = some config ∧
      p.deposit ≤ B.balance config.govToken env.self) :
    ∃ m', GovernanceDao.exec env (.execute handles outcome pid) m =
      .ok ((), m') := by
  obtain ⟨hp, hpassed, hveto, hunlocked⟩ := hdue
  have hinvoke : GovernanceDao.invokeContract env p.target outcome m =
      .ok (none, ⟨m.store, B⟩) := by
    simp only [GovernanceDao.invokeContract, bind_ok, require_ok, get_ok,
      unwrap_ok, set_ok, pure_ok]
    exact ⟨(), m, ⟨htarget, rfl⟩, m, m, ⟨rfl, rfl⟩, (B, none), m,
      ⟨houtcome, rfl⟩, ⟨⟩, _, rfl, rfl, rfl⟩
  have hpaid : ∃ B', (whenever (0 < p.refundAmount 10000) (do
      let config ← GovernanceDao.loadConfig .trap
      transferToken env config.govToken env.self p.proposer
        (p.refundAmount 10000)) : GovernanceDao.Call Unit) ⟨m.store, B⟩ =
      .ok ((), ⟨m.store, B'⟩) := by
    rw [refundAmount_full]
    by_cases hpos : 0 < p.deposit
    · obtain ⟨config, hconfig, hfunds⟩ := hrefund.resolve_left (by omega)
      have hpay : ∃ B', B.transfer config.govToken env.self p.proposer
          p.deposit = some B' := (Bank.exists_transfer_iff hpos).mpr hfunds
      obtain ⟨B', hB'⟩ := hpay
      refine ⟨B', whenever_ok.mpr (.inl ⟨hpos, ?_⟩)⟩
      simp only [bind_ok, GovernanceDao.loadConfig_ok, transferToken_ok]
      exact ⟨config, _, ⟨hconfig, rfl⟩, by simp, B', hB', rfl⟩
    · exact ⟨B, whenever_ok.mpr (.inr ⟨hpos, rfl⟩)⟩
  obtain ⟨B', hB'⟩ := hpaid
  simp only [GovernanceDao.exec, GovernanceDao.execute, bind_ok,
    GovernanceDao.loadProposal_ok, ensure_ok, ite_ok,
    GovernanceDao.storeProposal, GovernanceDao.publish, update_ok]
  exact ⟨_, p, m, ⟨hp, rfl⟩, (), m, ⟨by simp [hpassed], rfl⟩, (), m,
    ⟨by simp [hpassed], rfl⟩, (), m, ⟨by simp [hpassed], rfl⟩, (), m,
    ⟨hpassed, rfl⟩, (), m, ⟨hveto, rfl⟩, (), m, ⟨hunlocked, rfl⟩,
    .inr ⟨by omega, none, _, hinvoke, 10000, _, rfl, (), _, hB', (), _, rfl,
      (), _, rfl, (), _, rfl, rfl⟩⟩

/-- A due proposal is carried out by the verifier alone, and only if its
deposit can be refunded. -/
theorem carriedOut_iff (hdue : w.machine.store.Due w.now pid p)
    (hintime : w.now ≤ p.executionDeadline)
    (hfunction : p.function = upgradeFunction)
    (hargs : p.args = upgradeArgs dao hash)
    (hsite : p.target = dao → ¬ τ.IsVerifier)
    (hadmin : τ.admin = some dao) (hthreshold : τ.guardianThreshold = 0) :
    CarriedOut dao w signers handles pid p τ hash ↔
      τ.IsVerifier ∧ Refundable dao w p := by
  have hself : p.target ≠ dao ∨ ¬ τ.IsVerifier := by
    by_cases htarget : p.target = dao
    · exact .inr (hsite htarget)
    · exact .inl htarget
  unfold CarriedOut
  rw [hfunction, hargs]
  constructor
  · rintro ⟨m', τ', B, hexec, hupgrade, -⟩
    have hverifier : τ.IsVerifier := by
      by_contra hother
      rw [Target.upgrade_eq_none hother] at hupgrade
      cases hupgrade
    refine ⟨hverifier, ?_⟩
    rcases GovernanceDao.execute_spec hexec with hlapsed | hexecuted
    · obtain ⟨q, hdue', hlate, -⟩ := hlapsed
      have hq := hdue'.stored
      rw [hdue.stored, Option.some.injEq] at hq
      subst hq
      exact absurd hlate (not_lt.mpr hintime)
    · obtain ⟨q, result, bps, B₁, B₂, hdue', -, -, houtcome, hbps, -, hrefund,
        -⟩ := hexecuted
      have hq := hdue'.stored
      rw [hdue.stored, Option.some.injEq] at hq
      subst hq
      cases τ with
      | oracleVerifier s =>
          rw [Target.outcome, if_pos rfl, Target.upgrade_verifier hadmin
            hthreshold List.mem_cons_self] at houtcome
          obtain ⟨rfl, rfl⟩ := Prod.mk.inj (Option.some.inj houtcome)
          rw [hbps, Option.getD_none, refundAmount_full] at hrefund
          rcases hrefund with ⟨hpos, config, hconfig, hpaid⟩ | ⟨hnone, -⟩
          · exact .inr ⟨config, hconfig,
              (Bank.exists_transfer_iff hpos).mp ⟨B₂, hpaid⟩⟩
          · exact .inl hnone
      | _ => exact hverifier.elim
  · rintro ⟨hverifier, hrefund⟩
    cases τ with
    | oracleVerifier s =>
        have htarget := hself.resolve_right (not_not.mpr trivial)
        have hupgrade : (Target.oracleVerifier s).upgrade
            ((callEnv dao w signers).enter p.target) (upgradeArgs dao hash)
            w.machine.bank = some (.oracleVerifier
              { s with installed := hash :: s.installed }, w.machine.bank) :=
          Target.upgrade_verifier hadmin hthreshold List.mem_cons_self
        have houtcome : (Target.oracleVerifier s).outcome
            ((callEnv dao w signers).enter p.target) upgradeFunction
            (upgradeArgs dao hash) w.machine.bank =
            some (w.machine.bank, none) := by
          rw [Target.outcome, if_pos rfl, hupgrade]
          rfl
        have hexec : ∃ m', GovernanceDao.exec (callEnv dao w signers)
            (.execute handles ((Target.oracleVerifier s).outcome
              ((callEnv dao w signers).enter p.target) upgradeFunction
              (upgradeArgs dao hash)) pid) w.machine = .ok ((), m') :=
          execute_succeeds hdue hintime htarget houtcome hrefund
        obtain ⟨m', hm'⟩ := hexec
        exact ⟨m', _, _, hm', hupgrade, rfl⟩
    | _ => exact hverifier.elim

end Execution

/-! ## From the proposal to its execution -/

/-- An upgrade proposal that has passed, is not vetoed and is executed within
its window is carried out by a target without guardians if and only if the
target is the oracle verifier and the deposit can be refunded. -/
theorem upgrade_carried_out_iff {dao proposer target : Address}
    {w₀ u u' w : World GovernanceDao.State}
    {before later : List (Label GovernanceDao.Entry)}
    {signers signers' : List Address} {handles handles' : Handles}
    {title hash impact : Bytes} {p : Proposal} {τ : Target}
    (hinit : (GovernanceDao.system dao).Init w₀)
    (hbefore : (GovernanceDao.system dao).Run w₀ before u)
    (hpropose : (GovernanceDao.system dao).Step u
      (.call signers
        (.proposeUpgrade handles proposer title target hash impact)) u')
    (hlater : (GovernanceDao.system dao).Run u' later w)
    (hdue : w.machine.store.Due w.now u.machine.store.nextProposalId p)
    (hintime : w.now ≤ p.executionDeadline)
    (hsite : target = dao → ¬ τ.IsVerifier)
    (hadmin : τ.admin = some dao) (hthreshold : τ.guardianThreshold = 0) :
    CarriedOut dao w signers' handles' u.machine.store.nextProposalId p τ
        hash ↔
      τ.IsVerifier ∧ Refundable dao w p := by
  obtain ⟨hself, hexec⟩ := hpropose.exec_eq
  obtain ⟨pid, hcreated⟩ := perform_ok.mp hexec
  obtain ⟨config, B, -, -, hm'⟩ :=
    (GovernanceDao.proposeUpgrade_spec hcreated).change
  have hu' := ((Reachable.init hinit).run hbefore |>.step hpropose).invariant
    (GovernanceDao.numbered_inductive dao)
  have hp : u'.machine.store.proposal u.machine.store.nextProposalId =
      some (GovernanceDao.Opening.proposal ⟨handles, .upgrade, proposer, title,
        target, upgradeFunction, upgradeArgs dao hash, impact⟩
        (callEnv dao u signers) u.machine.store config) := by
    rw [hm']
    exact Function.update_self ..
  obtain ⟨p', hp', hterms⟩ := GovernanceDao.run_hasTerms hlater hu' hp
  rw [hdue.stored, Option.some.injEq] at hp'
  subst hp'
  refine carriedOut_iff hdue hintime hterms.function hterms.args ?_ hadmin
    hthreshold
  rw [hterms.target]
  exact hsite

/-! ## One proposal for two targets -/

namespace Scenario

open GovernanceDao.Scenario (launch alice inOrder)

/-- The contract to be upgraded. -/
def site : Address := .contract 7

def upgrading : Label GovernanceDao.Entry :=
  .call [alice] (.proposeUpgrade inOrder alice [77] site [1] [1])

/-- Alice's proposal passes, and its timelock ends. -/
def adopting : List (Label GovernanceDao.Entry) :=
  [.call [alice] (.vote alice 0 .for), .tick 605101,
    .call [] (.finalize inOrder 0), .tick 86400]

def launched : World GovernanceDao.State :=
  (step GovernanceDao.exec dao GovernanceDao.Scenario.genesis launch).get
    (by decide +kernel)

def announced : World GovernanceDao.State :=
  (step GovernanceDao.exec dao launched upgrading).get (by decide +kernel)

def adopted : World GovernanceDao.State :=
  (execute (step GovernanceDao.exec dao) adopting announced).get
    (by decide +kernel)

def adoptedProposal : Proposal :=
  (adopted.machine.store.proposal 0).get (by decide +kernel)

theorem launched_run : (GovernanceDao.system dao).Run
    GovernanceDao.Scenario.genesis [launch] launched :=
  .cons (step_sound (Option.some_get _).symm) (.nil _)

theorem announced_step :
    (GovernanceDao.system dao).Step launched upgrading announced :=
  step_sound (Option.some_get _).symm

theorem adopted_run :
    (GovernanceDao.system dao).Run announced adopting adopted :=
  run_of_execute (fun _ _ _ => step_sound) (Option.some_get _).symm

theorem adopted_due :
    adopted.machine.store.Due adopted.now 0 adoptedProposal :=
  ⟨(Option.some_get _).symm, by decide +kernel, by decide +kernel,
    by decide +kernel⟩

/-- A verifier and a pool that the DAO administers. -/
def verifier : Target :=
  .oracleVerifier (.deployed { OracleVerifier.State.deployed with
    admin := some dao })

def riskPool : Target :=
  .riskPool (.deployed { RiskPool.State.deployed with admin := some dao })

end Scenario

open Scenario

theorem upgrade_carried_out_verifier :
    CarriedOut dao adopted [] GovernanceDao.Scenario.inOrder 0 adoptedProposal
      verifier [1] := by
  have hnext : launched.machine.store.nextProposalId = 0 := by decide +kernel
  have hiff : CarriedOut dao adopted [] GovernanceDao.Scenario.inOrder
      launched.machine.store.nextProposalId adoptedProposal verifier [1] ↔ _ :=
    upgrade_carried_out_iff ⟨rfl, rfl⟩ launched_run announced_step adopted_run
      (hnext.symm ▸ adopted_due) (by decide +kernel)
      (fun hsite => absurd hsite (by decide)) rfl rfl
  rw [hnext] at hiff
  exact hiff.mpr ⟨trivial, .inr ⟨GovernanceDao.Scenario.config,
    by decide +kernel, by decide +kernel⟩⟩

/-- The proposal is due, and the pool has no guardians, but it cannot be
carried out. -/
theorem upgrade_not_carried_out :
    (GovernanceDao.system dao).Run GovernanceDao.Scenario.genesis
        (GovernanceDao.Scenario.launch :: upgrading :: adopting) adopted ∧
      adopted.machine.store.Due adopted.now 0 adoptedProposal ∧
      adopted.now ≤ adoptedProposal.executionDeadline ∧
      riskPool.admin = some dao ∧ riskPool.guardianThreshold = 0 ∧
      ∀ signers handles,
        ¬ CarriedOut dao adopted signers handles 0 adoptedProposal riskPool
          [1] := by
  have hintime : adopted.now ≤ adoptedProposal.executionDeadline := by
    decide +kernel
  refine ⟨launched_run.append (.cons announced_step adopted_run), adopted_due,
    hintime, rfl, rfl, fun signers handles hcarried => ?_⟩
  have hiff : CarriedOut dao adopted signers handles 0 adoptedProposal riskPool
      [1] ↔ _ :=
    carriedOut_iff adopted_due hintime (by decide +kernel) (by decide +kernel)
      (fun _ => id) rfl rfl
  exact (hiff.mp hcarried).1

end Parashield.Upgrades
