import Parashield.ClaimsProcessor.Office
import Parashield.Protocol.System
import Parashield.RiskPool.Office

/-!
# The guardian committees

What the administrator alone can do to the guardians of the claims processor
and of the risk pool.  The claims processor lets the administrator replace a
committee at will; the risk pool keeps every member but not the threshold; and
neither looks for an address that is listed twice.
-/

namespace Parashield

open Support Support.Contract Invocation TransitionSystem

/-- A committee and the number of members that decide. -/
structure Committee where
  members : List Address
  threshold : ℕ

namespace Committee

variable {c c' c'' : Committee}

/-- Somebody is on the committee, and somebody has to agree. -/
def Configured (c : Committee) : Prop :=
  c.members ≠ [] ∧ 0 < c.threshold

instance (c : Committee) : Decidable c.Configured :=
  inferInstanceAs (Decidable (_ ∧ _))

/-- Nobody is listed twice, and there are enough members to decide. -/
structure Sound (c : Committee) : Prop where
  nodup : c.members.Nodup
  threshold_le : c.threshold ≤ c.members.length

/-- As many different members are listed as have to agree. -/
theorem Sound.threshold_le_dedup (h : c.Sound) :
    c.threshold ≤ c.members.dedup.length := by
  rw [h.nodup.dedup]
  exact h.threshold_le

/-- Every member is kept, and no fewer have to agree. -/
structure Keeps (c c' : Committee) : Prop where
  members : c.members ⊆ c'.members
  threshold_le : c.threshold ≤ c'.threshold

theorem Keeps.refl (c : Committee) : c.Keeps c :=
  ⟨List.Subset.refl _, le_rfl⟩

theorem Keeps.trans (h : c.Keeps c') (h' : c'.Keeps c'') : c.Keeps c'' :=
  ⟨List.Subset.trans h.members h'.members,
    h.threshold_le.trans h'.threshold_le⟩

/-- The members stay the same, and no fewer have to agree. -/
structure Stands (c c' : Committee) : Prop where
  members : c'.members = c.members
  threshold_le : c.threshold ≤ c'.threshold

theorem Stands.refl (c : Committee) : c.Stands c :=
  ⟨rfl, le_rfl⟩

theorem Stands.trans (h : c.Stands c') (h' : c'.Stands c'') : c.Stands c'' :=
  ⟨h'.members.trans h.members, h.threshold_le.trans h'.threshold_le⟩

theorem Stands.configured (h : c.Stands c') (hset : c.Configured) :
    c'.Configured := by
  refine ⟨?_, hset.2.trans_le h.threshold_le⟩
  rw [h.members]
  exact hset.1

end Committee

/-! ## Risk pool -/

namespace RiskPool

def Office.committee (o : Office) : Committee where
  members := o.guardians
  threshold := o.guardianThreshold

def committee (w : World State) : Committee :=
  w.machine.store.office.committee

/-- Guardians are set without listing anybody twice, and the threshold is not
lowered. -/
def Entry.KeepsThreshold (c : Committee) : Entry → Prop
  | .setGuardians _ guardians threshold =>
      guardians.Nodup ∧ c.threshold ≤ threshold
  | _ => True

instance (c : Committee) (e : Entry) : Decidable (e.KeepsThreshold c) := by
  cases e <;> unfold Entry.KeepsThreshold <;> infer_instance

def KeepsThreshold (w : World State) : Label Entry → Prop
  | .call _ e => e.KeepsThreshold (committee w)
  | _ => True

instance (w : World State) (l : Label Entry) :
    Decidable (KeepsThreshold w l) := by
  cases l <;> unfold KeepsThreshold <;> infer_instance

/-- Nobody but the administrator has signed, and not to approve a removal as a
guardian. -/
def ByAdmin (w : World State) : Label Entry → Prop
  | .call _ (.approveRemoveGuardian _) => False
  | .call signers _ => ∀ a ∈ signers, w.machine.store.admin = some a
  | _ => True

section Act

variable {env : Env} {e : Entry} {o o' : Office}

theorem Act.committee_sound (h : Act env e o o')
    (he : e.KeepsThreshold o.committee) (hsound : o.committee.Sound) :
    o'.committee.Sound := by
  cases h with
  | appoint _ hle _ => exact ⟨he.1, hle⟩
  | remove => exact ⟨hsound.nodup.filter _, Nat.min_le_right _ _⟩
  | _ => exact hsound

/-- Without the approval of a guardian no member is removed. -/
theorem Act.committee_kept (h : Act env e o o')
    (he : e.KeepsThreshold o.committee)
    (hother : ∀ guardian, e ≠ .approveRemoveGuardian guardian) :
    o.committee.Keeps o'.committee := by
  cases h with
  | appoint _ _ hkept => exact ⟨hkept, he.2⟩
  | remove => exact absurd rfl (hother _)
  | _ => exact .refl _

end Act

variable {self : Address} {w w' : World State}

theorem committee_sound
    (h : ((system self).restrict KeepsThreshold).Reachable w) :
    (committee w).Sound := by
  induction h with
  | init hfresh =>
      unfold committee
      rw [hfresh.1]
      exact ⟨List.nodup_nil, le_rfl⟩
  | step _ hstep ih =>
      obtain ⟨hguard, hstep⟩ := hstep
      cases hstep with
      | call _ hexec => exact (exec_act hexec).committee_sound hguard ih
      | tick => exact ih
      | transfer => exact ih
      | mint => exact ih

theorem run_committee_kept {ls : List (Label Entry)}
    (hrun : ((system self).restrict fun t l =>
      KeepsThreshold t l ∧ ByAdmin t l).Run w ls w') :
    (committee w).Keeps (committee w') := by
  refine hrun.relation (R := fun t u => (committee t).Keeps (committee u))
    (fun _ => .refl _) (fun _ _ _ => .trans) ?_
  rintro t l u ⟨⟨hguard, hadmin⟩, hstep⟩
  cases hstep with
  | call _ hexec =>
      refine (exec_act hexec).committee_kept hguard ?_
      rintro guardian rfl
      exact hadmin
  | tick => exact .refl _
  | transfer => exact .refl _
  | mint => exact .refl _

end RiskPool

/-! ## Claims processor -/

namespace ClaimsProcessor

def Office.committee (o : Office) : Committee where
  members := o.guardians
  threshold := o.guardianThreshold

/-- Guardians are set without listing anybody twice; those there are stay, and
the threshold is not lowered. -/
def Entry.KeepsGuardians (c : Committee) : Entry → Prop
  | .setGuardians _ guardians threshold =>
      guardians.Nodup ∧ (c.Configured → guardians = c.members) ∧
        c.threshold ≤ threshold
  | .setGuardianThreshold _ threshold => c.threshold ≤ threshold
  | _ => True

instance (c : Committee) (e : Entry) : Decidable (e.KeepsGuardians c) := by
  cases e <;> unfold Entry.KeepsGuardians <;> infer_instance

section Act

variable {env : Context} {e : Entry} {o o' : Office}

theorem Act.committee_sound (h : Act env e o o')
    (he : e.KeepsGuardians o.committee) (hsound : o.committee.Sound) :
    o'.committee.Sound := by
  cases h with
  | appoint _ hle _ => exact ⟨he.1, hle⟩
  | adjust _ hle _ => exact ⟨hsound.nodup, hle⟩
  | _ => exact hsound

theorem Act.committee_stands (h : Act env e o o')
    (he : e.KeepsGuardians o.committee) (hset : o.committee.Configured) :
    o.committee.Stands o'.committee := by
  cases h with
  | appoint => exact ⟨he.2.1 hset, he.2.2⟩
  | adjust => exact ⟨rfl, he⟩
  | _ => exact .refl _

end Act

end ClaimsProcessor

namespace Protocol

open ClaimsProcessor (Network)

def committee (w : World Network) : Committee :=
  w.machine.store.claims.office.committee

def KeepsGuardians (w : World Network) : Label Entry → Prop
  | .call _ (.claims e) => e.KeepsGuardians (committee w)
  | _ => True

instance (w : World Network) (l : Label Entry) :
    Decidable (KeepsGuardians w l) :=
  match l with
  | .call _ (.claims e) =>
      inferInstanceAs (Decidable (e.KeepsGuardians (committee w)))
  | .call _ (.pool _) | .call _ (.engine _) | .call _ (.oracle _)
  | .tick _ | .transfer .. | .mint .. => .isTrue trivial

/-- Nobody but the administrator of the claims processor has signed a call of
it. -/
def ByAdmin (w : World Network) : Label Entry → Prop
  | .call signers (.claims _) =>
      ∀ a ∈ signers, w.machine.store.claims.admin = some a
  | _ => True

variable {D : Sites} {w w' : World Network}

/-- What every call of the claims processor does to its committee, every step
of the protocol does. -/
theorem step_committee {R : Committee → Committee → Prop} {l : Label Entry}
    (hrefl : ∀ c, R c c) (hstep : (system D).Step w l w')
    (hcall : ∀ signers e env o', l = .call signers (.claims e) →
      ClaimsProcessor.Act env e w.machine.store.claims.office o' →
      R (committee w) o'.committee) :
    R (committee w) (committee w') := by
  obtain ⟨-, hstep⟩ := hstep
  cases hstep with
  | @call signers e m' _ hexec =>
      cases e with
      | claims e => exact hcall signers e _ _ rfl (ClaimsProcessor.exec_act hexec)
      | engine =>
          obtain ⟨s, B, -, rfl⟩ := exec_engine_ok.mp hexec
          exact hrefl _
      | pool =>
          obtain ⟨s, B, -, rfl⟩ := exec_pool_ok.mp hexec
          exact hrefl _
      | oracle =>
          obtain ⟨s, B, -, rfl⟩ := exec_oracle_ok.mp hexec
          exact hrefl _
  | tick => exact hrefl _
  | transfer => exact hrefl _
  | mint => exact hrefl _

theorem committee_sound
    (h : ((system D).restrict KeepsGuardians).Reachable w) :
    (committee w).Sound := by
  induction h with
  | init hfresh =>
      unfold committee
      rw [hfresh.1]
      exact ⟨List.nodup_nil, le_rfl⟩
  | @step t u l _ hstep ih =>
      refine step_committee (R := fun c c' => c.Sound → c'.Sound)
        (fun _ h => h) hstep.2 ?_ ih
      rintro signers e env o' rfl hact hsound
      exact hact.committee_sound hstep.1 hsound

theorem run_committee_stands {ls : List (Label Entry)}
    (hrun : ((system D).restrict fun t l =>
      KeepsGuardians t l ∧ ByAdmin t l).Run w ls w')
    (hset : (committee w).Configured) :
    (committee w).Stands (committee w') := by
  refine hrun.relation
    (R := fun t u => (committee t).Configured →
      (committee t).Stands (committee u))
    (fun _ _ => .refl _) ?_ ?_ hset
  · intro t u v htu huv ht
    exact (htu ht).trans (huv ((htu ht).configured ht))
  · rintro t l u ⟨⟨hguard, -⟩, hstep⟩
    refine step_committee (R := fun c c' => c.Configured → c.Stands c')
      (fun _ _ => .refl _) hstep ?_
    rintro signers e env o' rfl hact ht
    exact hact.committee_stands hguard ht

/-- While the guardians are set without listing anybody twice and neither
replaced nor outvoted, the administrator alone leaves both committees as they
should be. -/
theorem committees_withstand_admin (self : Address) (D : Sites) :
    (∀ (w w' : World Network) (ls : List (Label Entry)),
      (committee w).Configured →
      ((system D).restrict fun t l =>
        KeepsGuardians t l ∧ ByAdmin t l).Run w ls w' →
      (committee w).Stands (committee w')) ∧
    (∀ (w w' : World RiskPool.State) (ls : List (Label RiskPool.Entry)),
      (RiskPool.committee w).Configured →
      ((RiskPool.system self).restrict fun t l =>
        RiskPool.KeepsThreshold t l ∧ RiskPool.ByAdmin t l).Run w ls w' →
      (RiskPool.committee w).Keeps (RiskPool.committee w')) ∧
    (∀ w : World Network, ((system D).restrict KeepsGuardians).Reachable w →
      (committee w).members.Nodup ∧
        (committee w).threshold ≤ (committee w).members.dedup.length) ∧
    ∀ w : World RiskPool.State,
      ((RiskPool.system self).restrict RiskPool.KeepsThreshold).Reachable w →
      (RiskPool.committee w).members.Nodup ∧
        (RiskPool.committee w).threshold ≤
          (RiskPool.committee w).members.dedup.length := by
  refine ⟨fun w w' ls hset hrun => run_committee_stands hrun hset,
    fun w w' ls _ hrun => RiskPool.run_committee_kept hrun,
    fun w h => ?_, fun w h => ?_⟩
  · have hsound := committee_sound h
    exact ⟨hsound.nodup, hsound.threshold_le_dedup⟩
  · have hsound := RiskPool.committee_sound h
    exact ⟨hsound.nodup, hsound.threshold_le_dedup⟩

namespace Scenario

def sentinel : Address := .account 13
def deputy : Address := .account 14

/-- The claims processor is set up. -/
def founding : Label Entry :=
  .call [admin] (.claims (.initializeProcessor admin sites.engine sites.pool
    sites.oracle 604800))

def founded : World Network :=
  (step sites genesis founding).get (by decide +kernel)

/-- It gets its first guardian, or the same one again. -/
def electing : Label Entry :=
  .call [admin] (.claims (.setGuardians admin [sentinel] 1))

def guarded : World Network :=
  (step sites founded electing).get (by decide +kernel)

def confirmed : World Network :=
  (step sites guarded electing).get (by decide +kernel)

/-- The pool gets its first guardian. -/
def poolElecting : Label RiskPool.Entry :=
  .call [admin] (.setGuardians admin [sentinel] 1)

def poolGuarded : World RiskPool.State :=
  (Parashield.step RiskPool.exec RiskPool.Scenario.pool
    RiskPool.Scenario.wired poolElecting).get (by decide +kernel)

/-- The administrator adds a guardian to the pool. -/
def enlarging : Label RiskPool.Entry :=
  .call [admin] (.setGuardians admin [sentinel, deputy] 2)

def poolEnlarged : World RiskPool.State :=
  (Parashield.step RiskPool.exec RiskPool.Scenario.pool poolGuarded
    enlarging).get (by decide +kernel)

theorem founded_step : (system sites).Step genesis founding founded :=
  step_sound (Option.some_get _).symm

theorem guarded_step : (system sites).Step founded electing guarded :=
  step_sound (Option.some_get _).symm

theorem poolGuarded_step : (RiskPool.system RiskPool.Scenario.pool).Step
    RiskPool.Scenario.wired poolElecting poolGuarded :=
  Parashield.step_sound (Option.some_get _).symm

end Scenario

open Scenario in
theorem committees_withstand_admin_once :
    (committee guarded).Stands (committee confirmed) ∧
      (RiskPool.committee poolGuarded).Keeps
        (RiskPool.committee poolEnlarged) ∧
      ((committee confirmed).members.Nodup ∧
        (committee confirmed).threshold ≤
          (committee confirmed).members.dedup.length) ∧
      ((RiskPool.committee poolEnlarged).members.Nodup ∧
        (RiskPool.committee poolEnlarged).threshold ≤
          (RiskPool.committee poolEnlarged).members.dedup.length) := by
  have hconfirmed : (system sites).Step guarded electing confirmed :=
    step_sound (Option.some_get _).symm
  have henlarged : (RiskPool.system RiskPool.Scenario.pool).Step poolGuarded
      enlarging poolEnlarged :=
    Parashield.step_sound (Option.some_get _).symm
  have hfirst : KeepsGuardians founded electing := by decide +kernel
  have hagain : KeepsGuardians guarded electing := by decide +kernel
  have hpool : RiskPool.KeepsThreshold RiskPool.Scenario.wired poolElecting :=
    by decide +kernel
  have hmore : RiskPool.KeepsThreshold poolGuarded enlarging := by
    decide +kernel
  have hadmin : ByAdmin guarded electing := by
    show ∀ a ∈ [admin], guarded.machine.store.claims.admin = some a
    decide +kernel
  have hpoolAdmin : RiskPool.ByAdmin poolGuarded enlarging := by
    show ∀ a ∈ [admin], poolGuarded.machine.store.admin = some a
    decide +kernel
  obtain ⟨hstands, hkeeps, hsound, hpoolSound⟩ :=
    committees_withstand_admin RiskPool.Scenario.pool sites
  refine ⟨hstands _ _ [electing] (by decide +kernel)
      (.cons ⟨⟨hagain, hadmin⟩, hconfirmed⟩ (.nil _)),
    hkeeps _ _ [enlarging] (by decide +kernel)
      (.cons ⟨⟨hmore, hpoolAdmin⟩, henlarged⟩ (.nil _)),
    hsound _ ?_, hpoolSound _ ?_⟩
  · have hfounded : ((system sites).restrict KeepsGuardians).Reachable
        founded :=
      .step (.init ⟨rfl, rfl⟩) ⟨by decide +kernel, founded_step⟩
    exact .step (.step hfounded ⟨hfirst, guarded_step⟩) ⟨hagain, hconfirmed⟩
  · have hwired : ((RiskPool.system RiskPool.Scenario.pool).restrict
        RiskPool.KeepsThreshold).Reachable RiskPool.Scenario.wired :=
      .step (s := RiskPool.Scenario.genesis) (l := RiskPool.Scenario.wiring)
        (.init ⟨rfl, rfl⟩)
        ⟨by decide +kernel, Parashield.step_sound (Option.some_get _).symm⟩
    exact .step (.step hwired ⟨hpool, poolGuarded_step⟩) ⟨hmore, henlarged⟩

namespace Scenario

def clearing : Label Entry :=
  .call [admin] (.claims (.setGuardians admin [] 0))

def cleared : World Network :=
  (step sites guarded clearing).get (by decide +kernel)

def disarming : Label RiskPool.Entry :=
  .call [admin] (.setGuardians admin [sentinel] 0)

def poolDisarmed : World RiskPool.State :=
  (Parashield.step RiskPool.exec RiskPool.Scenario.pool poolGuarded
    disarming).get (by decide +kernel)

/-- One guardian is listed twice. -/
def doubled : World Network :=
  (step sites founded
    (.call [admin] (.claims (.setGuardians admin [sentinel, sentinel] 2)))).get
    (by decide +kernel)

def poolDoubled : World RiskPool.State :=
  (Parashield.step RiskPool.exec RiskPool.Scenario.pool
    RiskPool.Scenario.wired
    (.call [admin] (.setGuardians admin [sentinel, sentinel] 2))).get
    (by decide +kernel)

end Scenario

open Scenario in
/-- The administrator alone clears the committee of the claims processor and
takes the threshold of the pool away, and both list one guardian twice. -/
theorem committees_dismantled :
    (¬ ∀ (D : Sites) (w w' : World Network) (ls : List (Label Entry)),
      (system D).Reachable w → (committee w).Configured →
      ((system D).restrict ByAdmin).Run w ls w' →
      (committee w).Stands (committee w')) ∧
    (¬ ∀ (self : Address) (w w' : World RiskPool.State)
        (ls : List (Label RiskPool.Entry)),
      (RiskPool.system self).Reachable w → (RiskPool.committee w).Configured →
      ((RiskPool.system self).restrict RiskPool.ByAdmin).Run w ls w' →
      (RiskPool.committee w).Keeps (RiskPool.committee w')) ∧
    (¬ ∀ (D : Sites) (w : World Network), (system D).Reachable w →
      (committee w).members.Nodup ∧
        (committee w).threshold ≤ (committee w).members.dedup.length) ∧
    ¬ ∀ (self : Address) (w : World RiskPool.State),
      (RiskPool.system self).Reachable w →
      (RiskPool.committee w).members.Nodup ∧
        (RiskPool.committee w).threshold ≤
          (RiskPool.committee w).members.dedup.length := by
  have hfounded : (system sites).Reachable founded :=
    .step (.init ⟨rfl, rfl⟩) founded_step
  refine ⟨fun h => ?_, fun h => ?_, fun h => ?_, fun h => ?_⟩
  · have hadmin : ByAdmin guarded clearing := by
      show ∀ a ∈ [admin], guarded.machine.store.claims.admin = some a
      decide +kernel
    have hstands := h sites guarded cleared [clearing]
      (.step hfounded guarded_step) (by decide +kernel)
      (.cons ⟨hadmin, step_sound (Option.some_get _).symm⟩ (.nil _))
    exact absurd hstands.members (by decide +kernel)
  · have hadmin : RiskPool.ByAdmin poolGuarded disarming := by
      show ∀ a ∈ [admin], poolGuarded.machine.store.admin = some a
      decide +kernel
    have hkeeps := h RiskPool.Scenario.pool poolGuarded poolDisarmed [disarming]
      (.step RiskPool.Scenario.wired_reachable poolGuarded_step)
      (by decide +kernel)
      (.cons ⟨hadmin, Parashield.step_sound (Option.some_get _).symm⟩
        (.nil _))
    exact absurd hkeeps.threshold_le (by decide +kernel)
  · have hsound := h sites doubled
      (.step hfounded (step_sound (Option.some_get _).symm))
    exact absurd hsound.1 (by decide +kernel)
  · have hsound := h RiskPool.Scenario.pool poolDoubled
      (.step RiskPool.Scenario.wired_reachable
        (Parashield.step_sound (Option.some_get _).symm))
    exact absurd hsound.1 (by decide +kernel)

end Protocol

end Parashield
