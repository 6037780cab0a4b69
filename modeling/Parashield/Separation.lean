import Parashield.PolicyEngine.Interests
import Parashield.RiskPool.Interests

/-!
# The administrator holds no interest

Pool and engine refuse the administrator as a provider and as a buyer.  They
do not ask whether a new administrator has shares or a policy already, and the
engine does not ask to whom a policy is transferred.
-/

namespace Parashield.Separation

open Support Support.Contract Invocation

/-- As long as nobody with shares or an active policy takes the administration
and no policy is transferred to the administrator, the administrator of the
pool has no shares and that of the engine no active policy; and a step that
breaks this is one of those. -/
theorem admin_holds_no_interest {pool engine : Address}
    {w : World RiskPool.State} {v : World PolicyEngine.State}
    (hw : ((RiskPool.system pool).restrict RiskPool.SparesAdmin).Reachable w)
    (hv : ((PolicyEngine.system engine).restrict
      PolicyEngine.SparesAdmin).Reachable v) :
    (w.machine.store.Disinterested ∧
      ∀ l w', (RiskPool.system pool).Step w l w' →
        (w'.machine.store.Disinterested ↔ RiskPool.SparesAdmin w l)) ∧
    (v.machine.store.Disinterested ∧
      ∀ l v', (PolicyEngine.system engine).Step v l v' →
        (v'.machine.store.Disinterested ↔ PolicyEngine.SparesAdmin v l)) := by
  obtain ⟨hb, hpool⟩ := hw.invariant (RiskPool.disinterested_inductive pool)
  obtain ⟨⟨⟨hwired, hsound⟩, -⟩, hengine⟩ :=
    hv.invariant (PolicyEngine.disinterested_inductive engine)
  refine ⟨⟨hpool, fun l w' hstep => ?_⟩, hengine, fun l v' hstep => ?_⟩
  · exact RiskPool.step_disinterested_iff hb hpool hstep
  · exact PolicyEngine.step_disinterested_iff hwired hsound hengine hstep

namespace Scenario

open RiskPool.Scenario (pool funded wiring funding)
open PolicyEngine.Sample (engine insured preparation buying)

/-- The provider takes the administration of the pool. -/
def succession : List (Label RiskPool.Entry) :=
  [.call [RiskPool.Scenario.admin]
      (.proposeNewAdmin RiskPool.Scenario.admin RiskPool.Scenario.provider),
    .tick adminTransferTimelock,
    .call [RiskPool.Scenario.provider]
      (.acceptAdmin RiskPool.Scenario.provider)]

def succeeded : World RiskPool.State :=
  (TransitionSystem.execute (step RiskPool.exec pool) succession funded).get
    (by decide +kernel)

/-- The holder hands the policy over to the administrator. -/
def gift : Label PolicyEngine.Entry :=
  .call [PolicyEngine.Sample.holder, PolicyEngine.Sample.admin]
    (.transferPolicy PolicyEngine.Sample.holder PolicyEngine.Sample.admin 1)

def gifted : World PolicyEngine.State :=
  (step PolicyEngine.exec engine insured gift).get (by decide +kernel)

theorem funded_sparing : ((RiskPool.system pool).restrict
    RiskPool.SparesAdmin).Reachable funded := by
  have hwiring : ((RiskPool.system pool).restrict RiskPool.SparesAdmin).Step
      RiskPool.Scenario.genesis wiring RiskPool.Scenario.wired :=
    ⟨trivial, step_sound (Option.some_get _).symm⟩
  have hfunding : ((RiskPool.system pool).restrict RiskPool.SparesAdmin).Step
      RiskPool.Scenario.wired funding funded :=
    ⟨trivial, step_sound (Option.some_get _).symm⟩
  exact .step (.step (.init ⟨rfl, rfl⟩) hwiring) hfunding

theorem insured_sparing : ((PolicyEngine.system engine).restrict
    PolicyEngine.SparesAdmin).Reachable insured := by
  have hrun : (PolicyEngine.system engine).Run PolicyEngine.Sample.genesis
      (preparation PolicyEngine.Sample.usdc) PolicyEngine.Sample.prepared :=
    TransitionSystem.run_of_execute (fun _ _ _ => step_sound)
      (Option.some_get _).symm
  have hbuying : ((PolicyEngine.system engine).restrict
      PolicyEngine.SparesAdmin).Step PolicyEngine.Sample.prepared
      (buying PolicyEngine.Sample.usdc) insured :=
    ⟨trivial, step_sound (Option.some_get _).symm⟩
  refine .step (TransitionSystem.Reachable.run (.init ⟨rfl, rfl⟩)
    (hrun.restrict ?_)) hbuying
  simp [preparation, PolicyEngine.SparesAdmin, PolicyEngine.Entry.SparesAdmin]

end Scenario

open Scenario

theorem admin_holds_no_interest_funded :
    RiskPool.Scenario.funded.machine.store.Disinterested ∧
      PolicyEngine.Sample.insured.machine.store.Disinterested := by
  obtain ⟨⟨hpool, -⟩, hengine, -⟩ :=
    admin_holds_no_interest funded_sparing insured_sparing
  exact ⟨hpool, hengine⟩

/-- A provider takes the administration of the pool, and a policy is handed
over to the administrator of the engine. -/
theorem admin_gains_interest :
    ((RiskPool.system RiskPool.Scenario.pool).Reachable succeeded ∧
      succeeded.machine.store.admin = some RiskPool.Scenario.provider ∧
      ((succeeded.machine.store.lpPosition RiskPool.Scenario.provider).map
        RiskPool.LpPosition.shares) = some 999999999999000) ∧
    ((PolicyEngine.system PolicyEngine.Sample.engine).Reachable gifted ∧
      gifted.machine.store.admin = some PolicyEngine.Sample.admin ∧
      ((gifted.machine.store.policies 1).map fun p =>
        (p.policyholder, p.status)) =
          some (PolicyEngine.Sample.admin, .active)) := by
  have hsuccession : (RiskPool.system RiskPool.Scenario.pool).Run
      RiskPool.Scenario.funded succession succeeded :=
    TransitionSystem.run_of_execute (fun _ _ _ => step_sound)
      (Option.some_get _).symm
  have hgift : (PolicyEngine.system PolicyEngine.Sample.engine).Step
      PolicyEngine.Sample.insured gift gifted :=
    step_sound (Option.some_get _).symm
  refine ⟨⟨funded_sparing.of_restrict.run hsuccession, ?_, ?_⟩,
    .step insured_sparing.of_restrict hgift, ?_, ?_⟩
  all_goals decide +kernel

end Parashield.Separation
