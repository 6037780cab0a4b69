import Parashield.Protocol.Filings
import Parashield.Protocol.Paths

/-!
# Escalated claims

Anyone escalates a claim that has waited for too long.  The claim leaves the
queue, and from then on the keepers' calls give it back as processed already:
nothing is evaluated and nothing is paid, until the administrator rejects it.
So a keeper's call comes to the same for the claim and for the claim as it was
before only if it is refused without a look at the claim.
-/

namespace Parashield.Protocol

open Support Support.Contract Invocation
open PolicyEngine (Policy)
open ClaimsProcessor

/-- The network with claim `c` escalated and off the queue. -/
def escalated (m : Machine Network) (id : ℕ) (c : Claim) : Machine Network :=
  { m with store :=
    { m.store with claims :=
      { m.store.claims with
        claim :=
          Function.update m.store.claims.claim id
            (some { c with status := .escalated })
        pendingClaims := m.store.claims.pendingClaims.erase id } } }

/-- The networks differ only in that claim `c`, which waits in `m₀`, has been
escalated in `m`. -/
structure Escalated (id : ℕ) (c : Claim) (m₀ m : Machine Network) : Prop where
  found : m₀.store.claims.claim id = some c
  pending : c.status = .pending
  eq : m = escalated m₀ id c

/-- The call gets as far as the claim: a registered keeper signed it and
nothing is paused. -/
structure Heard (env : Context) (m : Machine Network) (keeper : Address) :
    Prop where
  listed : m.store.claims.keeper keeper = true
  signed : keeper ∈ env.signers
  running : m.store.claims.paused = false

section Calls

variable {env : Context} {m m₀ m' : Machine Network} {id policyId : ℕ}
  {c : Claim} {p : Policy} {keeper : Address} {bps : Option ℕ}
  {r : ClaimResult}

theorem heard_iff_checks :
    Heard env m keeper ↔
      (m.store.claims.keeper keeper = true ∧ keeper ∈ env.signers) ∧
        m.store.claims.paused = false :=
  ⟨fun h => ⟨⟨h.listed, h.signed⟩, h.running⟩, fun h => ⟨h.1.1, h.1.2, h.2⟩⟩

/-- Escalation is this change and no other. -/
theorem escalateClaim_escalated {caller : Address} {u : Unit}
    (h : escalateClaim env caller id m₀ = .ok (u, m)) :
    ∃ c, Escalated id c m₀ m := by
  obtain ⟨_, _, hauth, hafter⟩ := bind_ok.mp h
  obtain ⟨-, rfl⟩ := requireAuth_ok.mp hauth
  obtain ⟨_, _, hrunning, hload⟩ := bind_ok.mp hafter
  obtain ⟨-, rfl⟩ := requireNotPaused_ok.mp hrunning
  obtain ⟨c, _, hfound, hchecks⟩ := bind_ok.mp hload
  obtain ⟨hc, rfl⟩ := loadClaim_ok.mp hfound
  simp only [bind_ok, ensure_ok, policyEngine_ok, getPolicy_ok, getProduct_ok,
    loadClaims_ok, storeClaim_ok, removeFromPending,
    updateClaims_ok] at hchecks
  obtain ⟨_, _, ⟨hpending, rfl⟩, _, _, ⟨-, rfl⟩, _, _, ⟨-, -, rfl⟩, _, _,
    ⟨-, -, rfl⟩, _, _, ⟨-, rfl⟩, _, _, ⟨-, rfl⟩, _, _, ⟨-, rfl⟩, _, _, rfl,
    rfl⟩ := hchecks
  exact ⟨c, hc, hpending, rfl⟩

theorem heard_iff (h : Escalated id c m₀ m) :
    Heard env m keeper ↔ Heard env m₀ keeper := by
  rw [h.eq]
  exact ⟨fun h => ⟨h.listed, h.signed, h.running⟩,
    fun h => ⟨h.listed, h.signed, h.running⟩⟩

/-- Nothing else that a sweep comes to looks like a claim given back. -/
theorem processPolicy_open
    (hlinked : m.store.claims.policyClaim policyId = some id)
    (hc : m.store.claims.claim id = some c) (hpending : c.status = .pending)
    (h : processPolicy env policyId bps m = .ok (r, m')) :
    r ≠ .alreadyProcessed := by
  have hevaluated : m.store.claims.evaluated policyId = false := by
    simp [ClaimsProcessor.State.evaluated, hlinked, hc, hpending]
  have hclaim : ∀ p i t, claimOfPolicy env p policyId m = .ok (i, t) ↔
      i = id ∧ t = m := by
    intro p i t
    simp [claimOfPolicy, hlinked]
  simp only [processPolicy, bind_ok, loadClaims_ok] at h
  obtain ⟨_, _, ⟨rfl, rfl⟩, h⟩ := h
  simp only [hevaluated, Bool.false_eq_true, if_false, bind_ok,
    policyEngine_ok, getPolicy_ok, ensure_ok] at h
  obtain ⟨_, _, ⟨-, rfl⟩, p, _, ⟨-, -, rfl⟩, _, _, ⟨-, rfl⟩, h⟩ := h
  cases hstatus : p.status with
  | active =>
      simp only [hstatus, ite_ok] at h
      rcases h with ⟨-, h⟩ | ⟨-, h⟩
      · rw [closeExpired_result h]
        rintro ⟨⟩
      · simp only [bind_ok, loadClaims_ok, unwrap_ok, hclaim] at h
        obtain ⟨_, _, ⟨rfl, rfl⟩, _, _, ⟨rfl, rfl⟩, c', _, ⟨hc', rfl⟩, h⟩ := h
        obtain rfl := Option.some.inj (hc.symm.trans hc')
        rw [if_neg (not_not.mpr hpending)] at h
        rintro rfl
        simpa [Decision] using evaluate_result h
  | _ =>
      simp only [hstatus] at h
      obtain ⟨rfl, -⟩ := pure_ok.mp h
      rintro ⟨⟩

/-- A claim that does not wait is given back. -/
theorem processClaim_closed (hc : m.store.claims.claim id = some c)
    (hstatus : c.status ≠ .pending) :
    processClaim env keeper id bps m = .ok (r, m') ↔
      Heard env m keeper ∧ r = .alreadyProcessed ∧ m' = m := by
  simp [processClaim, hc, hstatus, heard_iff_checks, and_assoc]

/-- So is its policy, once it is processed by its number. -/
theorem autoProcess_closed
    (hlinked : m.store.claims.policyClaim policyId = some id)
    (hc : m.store.claims.claim id = some c) (hstatus : c.status ≠ .pending) :
    autoProcess env keeper policyId bps m = .ok (r, m') ↔
      (Heard env m keeper ∧ m.store.claims.CooledDown policyId env.now) ∧
        r = .alreadyProcessed ∧ m' = noted m policyId env.now := by
  have hevaluated : (noted m policyId env.now).store.claims.evaluated policyId =
      true := by
    simp [noted, ClaimsProcessor.State.evaluated, hlinked, hc, hstatus]
  rw [autoProcess_ok, processPolicy_evaluated hevaluated]
  constructor
  · rintro ⟨hkeeper, hrunning, hcooled, hr⟩
    exact ⟨⟨⟨hkeeper.1, hkeeper.2, hrunning⟩, hcooled⟩, hr⟩
  · rintro ⟨⟨hheard, hcooled⟩, hr⟩
    exact ⟨⟨hheard.listed, hheard.signed⟩, hheard.running, hcooled, hr⟩

/-- A claim that waits is not. -/
theorem processClaim_open (hc : m.store.claims.claim id = some c)
    (hpending : c.status = .pending)
    (h : processClaim env keeper id bps m = .ok (r, m')) :
    Heard env m keeper ∧ r ≠ .alreadyProcessed := by
  obtain ⟨_, _, hkeeper, hafter⟩ := bind_ok.mp h
  obtain ⟨⟨hlisted, hsigned⟩, rfl⟩ := requireKeeper_ok.mp hkeeper
  obtain ⟨_, _, hpaused, hload⟩ := bind_ok.mp hafter
  obtain ⟨hrunning, rfl⟩ := requireNotPaused_ok.mp hpaused
  refine ⟨⟨hlisted, hsigned, hrunning⟩, ?_⟩
  obtain ⟨c', _, hfound, hdecide⟩ := bind_ok.mp hload
  obtain ⟨hc', rfl⟩ := loadClaim_ok.mp hfound
  obtain rfl := Option.some.inj (hc.symm.trans hc')
  simp only [hpending, ne_eq, not_true_eq_false, if_false, bind_ok,
    policyEngine_ok, getPolicy_ok, ensure_ok] at hdecide
  obtain ⟨_, _, -, p, _, -, _, _, -, hdecide⟩ := hdecide
  rintro rfl
  simpa [Decision] using evaluate_result hdecide

theorem autoProcess_open
    (hlinked : m.store.claims.policyClaim policyId = some id)
    (hc : m.store.claims.claim id = some c) (hpending : c.status = .pending)
    (h : autoProcess env keeper policyId bps m = .ok (r, m')) :
    (Heard env m keeper ∧ m.store.claims.CooledDown policyId env.now) ∧
      r ≠ .alreadyProcessed := by
  obtain ⟨⟨hlisted, hsigned⟩, hrunning, hcooled, h⟩ := autoProcess_ok.mp h
  refine ⟨⟨⟨hlisted, hsigned, hrunning⟩, hcooled⟩, ?_⟩
  exact processPolicy_open (m := noted m policyId env.now) hlinked hc hpending h

end Calls

/-! ## Runs -/

section Runs

variable {D : Sites} {w w' : World Network} {ls : List (Label Entry)} {id : ℕ}
  {c : Claim} {m₀ : Machine Network}

/-- Every network with an escalated claim differs by the escalation alone from
one in which the claim waits. -/
theorem exists_unescalated {m : Machine Network}
    (hc : m.store.claims.claim id = some c)
    (hstatus : c.status = .escalated) :
    ∃ m₀, Escalated id { c with status := .pending } m₀ m := by
  refine ⟨{ m with store :=
    { m.store with claims :=
      { m.store.claims with
        claim :=
          Function.update m.store.claims.claim id
            (some { c with status := .pending })
        pendingClaims := id :: m.store.claims.pendingClaims } } },
    Function.update_self .., rfl, ?_⟩
  have hback : Function.update m.store.claims.claim id
      (some { c with status := .escalated }) = m.store.claims.claim := by
    rw [← hstatus, ← hc, Function.update_eq_self]
  simp only [escalated, Function.update_idem, List.erase_cons_head, hback]

/-- Until the administrator rejects it, an escalated claim stays escalated. -/
theorem run_escalated (hw : (system D).Reachable w)
    (hrun : ((system D).restrict fun _ l => ¬ Rejects id l).Run w ls w')
    (h : HasStatus id .escalated (docket w.machine)) :
    HasStatus id .escalated (docket w'.machine) := by
  have hpreserved := hrun.preserves
    (Q := fun v => (system D).Reachable v ∧
      HasStatus id .escalated (docket v.machine)) ?_ ⟨hw, h⟩
  · exact hpreserved.2
  rintro v l v' ⟨hv, hstatus⟩ ⟨hspared, hstep⟩
  have hpending : ClaimStatus.escalated ≠ .pending := nofun
  have hdisputed : ClaimStatus.escalated ≠ .disputed := nofun
  rcases step_hasStatus hv hstep hspared hpending hdisputed hstatus with
    hkept | ⟨hopen, -⟩
  · exact ⟨hv.step hstep, hkept⟩
  · rcases hopen with hopen | hopen <;> cases hopen

/-- Calls of keepers come to the same for an escalated claim and for the claim
as it was before exactly if they are refused without a look at it.  As long as
the administrator does not reject the claim, every accepted call gives it back
as processed and pays nothing. -/
theorem escalation_decides (hw : (system D).Reachable w)
    (hescalated : Escalated id c m₀ w.machine) :
    (∀ signers keeper bps,
      (SameOutcome
          (processClaim (D.context w.now signers) keeper id bps m₀)
          (processClaim (D.context w.now signers) keeper id bps w.machine) ↔
        ¬ Heard (D.context w.now signers) w.machine keeper) ∧
      (SameOutcome
          (autoProcess (D.context w.now signers) keeper c.policyId bps m₀)
          (autoProcess (D.context w.now signers) keeper c.policyId bps
            w.machine) ↔
        ¬ (Heard (D.context w.now signers) w.machine keeper ∧
          w.machine.store.claims.CooledDown c.policyId w.now))) ∧
    ∀ ls w', ((system D).restrict fun _ l => ¬ Rejects id l).Run w ls w' →
      ∀ signers keeper bps r m',
        (processClaim (D.context w'.now signers) keeper id bps w'.machine =
            .ok (r, m') → r = .alreadyProcessed ∧ m' = w'.machine) ∧
        (autoProcess (D.context w'.now signers) keeper c.policyId bps
            w'.machine = .ok (r, m') →
          r = .alreadyProcessed ∧
            m' = noted w'.machine c.policyId w'.now) := by
  let c' : Claim := { c with status := .escalated }
  have hc' : w.machine.store.claims.claim id = some c' := by
    rw [hescalated.eq]
    exact Function.update_self ..
  have hlinked : w.machine.store.claims.policyClaim c.policyId = some id :=
    (reachable_sound hw).orderly.recorded id c' hc'
  have hlinked₀ : m₀.store.claims.policyClaim c.policyId = some id := by
    rw [hescalated.eq] at hlinked
    exact hlinked
  have hcooled : ∀ now, m₀.store.claims.CooledDown c.policyId now ↔
      w.machine.store.claims.CooledDown c.policyId now := by
    intro now
    rw [hescalated.eq]
    exact Iff.rfl
  refine ⟨fun signers keeper bps => ⟨?_, ?_⟩, fun ls w' hrun signers keeper bps
    r m' => ?_⟩
  · constructor
    · intro hsame hheard
      obtain ⟨r, hrun⟩ := hsame.right
        ((processClaim_closed hc' nofun).mpr ⟨hheard, rfl, rfl⟩)
      exact (processClaim_open hescalated.found hescalated.pending hrun).2 rfl
    · intro hunheard
      refine sameOutcome_of_ok (fun r m h => ?_) fun r m' h => ?_
      · have hheard := (processClaim_open hescalated.found hescalated.pending h).1
        exact (hunheard ((heard_iff hescalated).mpr hheard)).elim
      · exact (hunheard ((processClaim_closed hc' nofun).mp h).1).elim
  · constructor
    · intro hsame hheard
      obtain ⟨r, hrun⟩ := hsame.right
        ((autoProcess_closed hlinked hc' nofun).mpr ⟨hheard, rfl, rfl⟩)
      exact (autoProcess_open hlinked₀ hescalated.found hescalated.pending
        hrun).2 rfl
    · intro hunheard
      refine sameOutcome_of_ok (fun r m h => ?_) fun r m' h => ?_
      · have hheard := (autoProcess_open hlinked₀ hescalated.found
          hescalated.pending h).1
        exact (hunheard ⟨(heard_iff hescalated).mpr hheard.1,
          (hcooled w.now).mp hheard.2⟩).elim
      · exact (hunheard ((autoProcess_closed hlinked hc' nofun).mp h).1).elim
  · have hrun' : (system D).Run w ls w' := hrun.of_restrict
    obtain ⟨x, hx, hstatus⟩ := run_escalated hw hrun ⟨c', hc', rfl⟩
    have hx' : w'.machine.store.claims.claim id = some x := hx
    have hclosed : x.status ≠ .pending := by
      rw [hstatus]
      exact nofun
    obtain ⟨y, hy, hsubject⟩ := run_subject hw hrun' hc'
    obtain rfl := Option.some.inj (hy.symm.trans hx')
    have hlinked' : w'.machine.store.claims.policyClaim y.policyId = some id :=
      (reachable_sound (hw.run hrun')).orderly.recorded id y hy
    rw [hsubject.policyId] at hlinked'
    exact ⟨fun h => ((processClaim_closed hy hclosed).mp h).2,
      fun h => ((autoProcess_closed hlinked' hy hclosed).mp h).2⟩

end Runs

namespace Scenario

/-- The claim waits for a week. -/
def overdue : World Network :=
  (step sites filed (.tick 604800)).get (by decide +kernel)

/-- Somebody who has nothing to do with it escalates the claim. -/
def escalating : Label Entry :=
  .call [stranger] (.claims (.escalateClaim stranger 1))

def handedOver : World Network :=
  (step sites overdue escalating).get (by decide +kernel)

theorem overdue_reached : (system sites).Reachable overdue :=
  filed_reached.step (step_sound (Option.some_get _).symm)

theorem escalating_step : (system sites).Step overdue escalating handedOver :=
  step_sound (Option.some_get _).symm

end Scenario

open Scenario in
theorem escalation_decides_handedOver : ∃ c,
    Escalated 1 c overdue.machine handedOver.machine ∧
      ∀ signers keeper bps,
        SameOutcome
            (processClaim (sites.context handedOver.now signers) keeper 1 bps
              overdue.machine)
            (processClaim (sites.context handedOver.now signers) keeper 1 bps
              handedOver.machine) ↔
          ¬ Heard (sites.context handedOver.now signers) handedOver.machine
            keeper := by
  obtain ⟨-, -, hexec⟩ := call_exec escalating_step
  obtain ⟨c, hescalated⟩ := escalateClaim_escalated hexec
  have hreached : (system sites).Reachable handedOver :=
    overdue_reached.step escalating_step
  exact ⟨c, hescalated, fun signers keeper bps =>
    ((escalation_decides hreached hescalated).1 signers keeper bps).1⟩

open Scenario in
/-- A claim whose trigger is met, and which a keeper could have paid, is
escalated by a stranger and given back unpaid. -/
theorem escalated_claim_unpaid :
    (system sites).Reachable overdue ∧
      (system sites).Step overdue escalating handedOver ∧
      (processClaim (sites.context overdue.now [keeper]) keeper 1 none
        overdue.machine).toOption.map Prod.fst = some .paid ∧
      (processClaim (sites.context handedOver.now [keeper]) keeper 1 none
        handedOver.machine).toOption.map Prod.fst =
          some .alreadyProcessed ∧
      (autoProcess (sites.context overdue.now [keeper]) keeper 1 none
        overdue.machine).toOption.map Prod.fst = some .paid ∧
      (autoProcess (sites.context handedOver.now [keeper]) keeper 1 none
        handedOver.machine).toOption.map Prod.fst =
          some .alreadyProcessed :=
  ⟨overdue_reached, escalating_step, by decide +kernel, by decide +kernel,
    by decide +kernel, by decide +kernel⟩

end Parashield.Protocol
