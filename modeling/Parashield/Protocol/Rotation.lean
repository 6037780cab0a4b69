import Parashield.ClaimsProcessor.Office
import Parashield.OracleVerifier.Agreement
import Parashield.OracleVerifier.Writes
import Parashield.Protocol.System
import Parashield.RiskPool.Office
import Parashield.Support.Handover

/-!
# Administrator rotation

Risk pool, claims processor and oracle verifier hand the administration over
in the same way: a new administrator is armed, by the administrator or by the
guardians, and accepts after the timelock.  An approval that arms somebody
else than the armed candidate leaves the clock of the first one running.
-/

namespace Parashield

open Support Support.Contract Invocation TransitionSystem

/-- What an approval finds: the hand-over, the approvals of the pending
proposal, and how many of them arm its candidate. -/
structure Rotation where
  handover : Handover Address
  approvals : Option ℕ
  threshold : ℕ

namespace Rotation

/-- If one more approval arms `newAdmin`, it does not push somebody else
out. -/
def Vacant (r : Rotation) (newAdmin : Address) : Prop :=
  ∀ n ∈ r.approvals, r.threshold ≤ n + 1 →
    ∀ a ∈ r.handover.candidate, a = newAdmin

instance (r : Rotation) (newAdmin : Address) : Decidable (r.Vacant newAdmin) :=
  inferInstanceAs (Decidable (∀ n ∈ r.approvals, _))

/-- The end of the timelock is a ledger time. -/
def InTime (r : Rotation) : Prop :=
  r.handover.since.getD 0 + adminTransferTimelock ≤ maxU64

instance (r : Rotation) : Decidable r.InTime :=
  inferInstanceAs (Decidable (_ ≤ _))

/-- An approval that finds the place vacant confirms the candidate. -/
theorem confirm_move {r : Rotation} {newAdmin : Address} {n now : ℕ}
    (hvacant : r.Vacant newAdmin) (hn : r.approvals = some n)
    (hreached : r.threshold ≤ n + 1) :
    Handover.Move now r.handover
      ⟨some newAdmin, some (r.handover.since.getD now)⟩ := by
  refine .confirm newAdmin ?_
  cases hcandidate : r.handover.candidate with
  | none => exact .inl rfl
  | some a =>
      rw [hvacant n hn hreached a hcandidate]
      exact .inr rfl

end Rotation

/-- In the run `ls` from `s` to `w`, `x` became the pending administrator at
least the timelock before the end and has been so since. -/
def Awaited {S En : Type} (T : TransitionSystem (World S) (Label En))
    (pendingAdmin : World S → Option Address) (x : Address) (s : World S)
    (ls : List (Label En)) (w : World S) : Prop :=
  ∃ time, CandidateSince T pendingAdmin World.now x time s ls w ∧
    time + adminTransferTimelock ≤ w.now

section Awaited

variable {S En : Type} {T : TransitionSystem (World S) (Label En)}
  {G : World S → Label En → Prop} {view : World S → Handover Address}
  {s w : World S} {ls : List (Label En)} {x : Address}

/-- If every step moves the hand-over, who may accept has been waiting. -/
theorem Awaited.of_run
    (hstep : ∀ t l u, (T.restrict G).Step t l u →
      Handover.Move t.now (view t) (view u))
    (hrun : (T.restrict G).Run s ls w) (hs : view s = ⟨none, none⟩)
    (hx : (view w).candidate = some x)
    (hdue : satAddU64 ((view w).since.getD 0) adminTransferTimelock ≤ w.now)
    (hintime : (view w).since.getD 0 + adminTransferTimelock ≤ maxU64) :
    Awaited T (fun t => (view t).candidate) x s ls w := by
  obtain ⟨time, hcandidate, hsince⟩ := hrun.candidateSince hstep hs hx
  refine ⟨time, hcandidate.of_restrict, ?_⟩
  rw [hsince, Option.getD_some] at hdue hintime
  rwa [satAddU64, min_eq_left hintime] at hdue

end Awaited

/-! ## Risk pool -/

namespace RiskPool

def Office.rotation (o : Office) : Rotation where
  handover := { candidate := o.pendingAdmin, since := o.pendingAdminSince }
  approvals := o.pendingAdminChange.map fun p => p.approvals.length
  threshold := o.guardianThreshold

/-- No approval pushes an armed candidate out, and no acceptance rests on a
timelock beyond the last ledger time. -/
def Unhurried (w : World State) : Label Entry → Prop
  | .call _ (.approveAdminChange _ newAdmin) =>
      w.machine.store.office.rotation.Vacant newAdmin
  | .call _ (.acceptAdmin _) => w.machine.store.office.rotation.InTime
  | _ => True

theorem Act.handover_move {env : Env} {e : Entry} {o o' : Office}
    (h : Act env e o o')
    (hvacant : ∀ guardian newAdmin, e = .approveAdminChange guardian newAdmin →
      o.rotation.Vacant newAdmin) :
    Handover.Move env.now o.rotation.handover o'.rotation.handover := by
  cases h with
  | arm _ hnone _ => exact .propose _ hnone
  | @confirm guardian newAdmin p _ _ _ hpending _ _ hreached =>
      refine Rotation.confirm_move (hvacant guardian newAdmin rfl)
        (n := p.approvals.length) ?_ hreached
      simp [Office.rotation, hpending]
  | accept => exact .clear _
  | _ => exact .rest _

theorem step_handover_move {self : Address} {w w' : World State}
    {l : Label Entry} (h : ((system self).restrict Unhurried).Step w l w') :
    Handover.Move w.now w.machine.store.office.rotation.handover
      w'.machine.store.office.rotation.handover := by
  obtain ⟨hguard, hstep⟩ := h
  cases hstep with
  | call _ hexec =>
      refine (exec_act hexec).handover_move ?_
      rintro guardian newAdmin rfl
      exact hguard
  | tick => exact .rest _
  | transfer => exact .rest _
  | mint => exact .rest _

end RiskPool

/-! ## Oracle verifier -/

namespace OracleVerifier

def State.rotation (s : State) : Rotation where
  handover := { candidate := s.pendingAdmin, since := s.pendingAdminSince }
  approvals := s.pendingAdminChange.map fun p => p.approvals.length
  threshold := s.guardianThreshold

/-- No approval pushes an armed candidate out, and no acceptance rests on a
timelock beyond the last ledger time. -/
def Unhurried (w : World State) : Label Entry → Prop
  | .call _ (.approveAdminChange _ newAdmin) =>
      w.machine.store.rotation.Vacant newAdmin
  | .call _ (.acceptAdmin _) => w.machine.store.rotation.InTime
  | _ => True

/-- Only the four entry points of the rotation move the hand-over. -/
theorem Write.handover_eq {env : Env} {e : Entry} {s : State} {c c' : Core}
    (he : e.rotates = false) (h : Write env e s c c') :
    c'.pendingAdmin = c.pendingAdmin ∧
      c'.pendingAdminSince = c.pendingAdminSince := by
  cases h with
  | rotate hrotates =>
      rw [he] at hrotates
      cases hrotates
  | _ => exact ⟨rfl, rfl⟩

theorem Writes.handover_eq {env : Env} {e : Entry} {s : State} {c c' : Core}
    (he : e.rotates = false) (h : Writes env e s c c') :
    c'.pendingAdmin = c.pendingAdmin ∧
      c'.pendingAdminSince = c.pendingAdminSince := by
  induction h with
  | refl => exact ⟨rfl, rfl⟩
  | tail _ hwrite ih =>
      obtain ⟨hpending, hsince⟩ := hwrite.handover_eq he
      exact ⟨hpending.trans ih.1, hsince.trans ih.2⟩

theorem exec_handover_move {env : Env} {e : Entry} {m m' : Machine State}
    (h : exec env e m = .ok ((), m'))
    (hvacant : ∀ guardian newAdmin, e = .approveAdminChange guardian newAdmin →
      m.store.rotation.Vacant newAdmin) :
    Handover.Move env.now m.store.rotation.handover
      m'.store.rotation.handover := by
  cases e with
  | initializeVerifier =>
      simp [exec, initializeVerifier] at h
      obtain ⟨-, -, rfl⟩ := h
      exact .rest _
  | proposeNewAdmin =>
      simp [exec, proposeNewAdmin, ite_ok] at h
      obtain ⟨-, hnone, ⟨-, rfl⟩ | ⟨-, rfl⟩⟩ := h
      · exact .propose _ hnone
      · exact .rest _
  | approveAdminChange guardian newAdmin =>
      simp [exec, approveAdminChange, ite_ok] at h
      obtain ⟨-, -, p, hpending, -, -, ⟨hreached, rfl⟩ | ⟨-, rfl⟩⟩ := h
      · refine Rotation.confirm_move (hvacant guardian newAdmin rfl)
          (n := p.approvals.length) ?_ hreached
        simp [State.rotation, hpending]
      · exact .rest _
  | acceptAdmin =>
      simp [exec, acceptAdmin] at h
      obtain ⟨-, -, -, -, rfl⟩ := h
      exact .clear _
  | _ =>
      obtain ⟨hpending, hsince⟩ := Writes.handover_eq rfl (exec_wrote h)
      have hsame : m'.store.rotation.handover = m.store.rotation.handover :=
        congrArg₂ Handover.mk hpending hsince
      rw [hsame]
      exact .rest _

theorem step_handover_move {self : Address} {w w' : World State}
    {l : Label Entry} (h : ((system self).restrict Unhurried).Step w l w') :
    Handover.Move w.now w.machine.store.rotation.handover
      w'.machine.store.rotation.handover := by
  obtain ⟨hguard, hstep⟩ := h
  cases hstep with
  | call _ hexec =>
      refine exec_handover_move hexec ?_
      rintro guardian newAdmin rfl
      exact hguard
  | tick => exact .rest _
  | transfer => exact .rest _
  | mint => exact .rest _

end OracleVerifier

/-! ## Claims processor -/

namespace ClaimsProcessor

def Office.rotation (o : Office) : Rotation where
  handover := { candidate := o.pendingAdmin, since := o.pendingAdminSince }
  approvals := o.pendingAdminChange.map fun p => p.approvals.length
  threshold := o.guardianThreshold

theorem Act.handover_move {env : Context} {e : Entry} {o o' : Office}
    (h : Act env e o o')
    (hvacant : ∀ guardian newAdmin, e = .approveAdminChange guardian newAdmin →
      o.rotation.Vacant newAdmin) :
    Handover.Move env.now o.rotation.handover o'.rotation.handover := by
  cases h with
  | arm _ hnone _ => exact .propose _ hnone
  | @confirm guardian newAdmin p _ _ _ hpending _ _ hreached =>
      refine Rotation.confirm_move (hvacant guardian newAdmin rfl)
        (n := p.approvals.length) ?_ hreached
      simp [Office.rotation, hpending]
  | accept => exact .clear _
  | _ => exact .rest _

end ClaimsProcessor

namespace Protocol

open ClaimsProcessor (Network)

/-- No approval of the claims processor pushes an armed candidate out, and no
acceptance rests on a timelock beyond the last ledger time. -/
def Unhurried (w : World Network) : Label Entry → Prop
  | .call _ (.claims (.approveAdminChange _ newAdmin)) =>
      w.machine.store.claims.office.rotation.Vacant newAdmin
  | .call _ (.claims (.acceptAdmin _)) =>
      w.machine.store.claims.office.rotation.InTime
  | _ => True

theorem step_handover_move {D : Sites} {w w' : World Network}
    {l : Label Entry} (h : ((system D).restrict Unhurried).Step w l w') :
    Handover.Move w.now w.machine.store.claims.office.rotation.handover
      w'.machine.store.claims.office.rotation.handover := by
  obtain ⟨hguard, -, hstep⟩ := h
  cases hstep with
  | @call _ e _ _ hexec =>
      cases e with
      | claims e =>
          refine (ClaimsProcessor.exec_act hexec).handover_move ?_
          rintro guardian newAdmin rfl
          exact hguard
      | engine =>
          obtain ⟨s, B, -, rfl⟩ := exec_engine_ok.mp hexec
          exact .rest _
      | pool =>
          obtain ⟨s, B, -, rfl⟩ := exec_pool_ok.mp hexec
          exact .rest _
      | oracle =>
          obtain ⟨s, B, -, rfl⟩ := exec_oracle_ok.mp hexec
          exact .rest _
  | tick => exact .rest _
  | transfer => exact .rest _
  | mint => exact .rest _

/-- In a run of the risk pool, the oracle verifier or the claims processor in
which no approval pushes an armed candidate out, whoever accepts the
administration has been the pending administrator for the timelock. -/
theorem accepted_admin_awaited (self : Address) (D : Sites)
    (signers : List Address) (x : Address) :
    (∀ (s w w' : World RiskPool.State) (ls : List (Label RiskPool.Entry)),
      (RiskPool.system self).Init s →
      ((RiskPool.system self).restrict RiskPool.Unhurried).Run s ls w →
      ((RiskPool.system self).restrict RiskPool.Unhurried).Step w
        (.call signers (.acceptAdmin x)) w' →
      Awaited (RiskPool.system self)
        (fun v => v.machine.store.pendingAdmin) x s ls w) ∧
    (∀ (s w w' : World OracleVerifier.State)
        (ls : List (Label OracleVerifier.Entry)),
      (OracleVerifier.system self).Init s →
      ((OracleVerifier.system self).restrict OracleVerifier.Unhurried).Run s
        ls w →
      ((OracleVerifier.system self).restrict OracleVerifier.Unhurried).Step w
        (.call signers (.acceptAdmin x)) w' →
      Awaited (OracleVerifier.system self)
        (fun v => v.machine.store.pendingAdmin) x s ls w) ∧
    ∀ (s w w' : World Network) (ls : List (Label Entry)),
      (system D).Init s → ((system D).restrict Unhurried).Run s ls w →
      ((system D).restrict Unhurried).Step w
        (.call signers (.claims (.acceptAdmin x))) w' →
      Awaited (system D) (fun v => v.machine.store.claims.pendingAdmin) x s
        ls w := by
  refine ⟨?_, ?_, ?_⟩
  · rintro s w w' ls ⟨hfresh, -⟩ hrun ⟨hintime, hstep⟩
    have hexec := hstep.exec_eq.2
    simp [RiskPool.exec, RiskPool.acceptAdmin,
      RiskPool.requireNotZeroAddress] at hexec
    obtain ⟨hpending, -, -, hdue, -⟩ := hexec
    refine Awaited.of_run (fun _ _ _ => RiskPool.step_handover_move) hrun ?_
      hpending hdue hintime
    rw [hfresh]
    rfl
  · rintro s w w' ls ⟨hfresh, -⟩ hrun ⟨hintime, hstep⟩
    have hexec := hstep.exec_eq.2
    simp [OracleVerifier.exec, OracleVerifier.acceptAdmin] at hexec
    obtain ⟨hpending, -, -, hdue, -⟩ := hexec
    refine Awaited.of_run (fun _ _ _ => OracleVerifier.step_handover_move)
      hrun ?_ hpending hdue hintime
    rw [hfresh]
    rfl
  · rintro s w w' ls ⟨hfresh, -⟩ hrun ⟨hintime, -, hstep⟩
    have hexec := hstep.exec_eq.2
    simp [exec, ClaimsProcessor.exec, ClaimsProcessor.acceptAdmin] at hexec
    obtain ⟨hpending, -, hdue, -⟩ := hexec
    refine Awaited.of_run (fun _ _ _ => step_handover_move) hrun ?_
      hpending hdue hintime
    rw [hfresh]
    rfl

namespace Scenario

def successor : Address := .account 9
def rival : Address := .account 10
def guardian : Address := .account 11

/-- The pool's administrator arms a successor, and the timelock passes. -/
def poolRotation : List (Label RiskPool.Entry) :=
  [RiskPool.Scenario.wiring,
    .call [admin] (.proposeNewAdmin admin successor),
    .tick adminTransferTimelock]

def poolArmed : World RiskPool.State :=
  (execute (Parashield.step RiskPool.exec sites.pool) poolRotation
    RiskPool.Scenario.genesis).get (by decide +kernel)

def oracleRotation : List (Label OracleVerifier.Entry) :=
  [.call [admin] (.initializeVerifier admin),
    .call [admin] (.proposeNewAdmin admin successor),
    .tick adminTransferTimelock]

def oracleArmed : World OracleVerifier.State :=
  (execute (Parashield.step OracleVerifier.exec sites.oracle) oracleRotation
    OracleVerifier.Scenario.genesis).get (by decide +kernel)

def claimsRotation : List (Label Entry) :=
  [.call [admin] (.claims (.initializeProcessor admin sites.engine sites.pool
      sites.oracle 604800)),
    .call [admin] (.claims (.proposeNewAdmin admin successor)),
    .tick adminTransferTimelock]

def claimsArmed : World Network :=
  (execute (step sites) claimsRotation genesis).get (by decide +kernel)

def poolAccepting : Label RiskPool.Entry :=
  .call [successor] (.acceptAdmin successor)

def oracleAccepting : Label OracleVerifier.Entry :=
  .call [successor] (.acceptAdmin successor)

def claimsAccepting : Label Entry :=
  .call [successor] (.claims (.acceptAdmin successor))

def poolTaken : World RiskPool.State :=
  (Parashield.step RiskPool.exec sites.pool poolArmed poolAccepting).get
    (by decide +kernel)

def oracleTaken : World OracleVerifier.State :=
  (Parashield.step OracleVerifier.exec sites.oracle oracleArmed
    oracleAccepting).get (by decide +kernel)

def claimsTaken : World Network :=
  (step sites claimsArmed claimsAccepting).get (by decide +kernel)

end Scenario

open Scenario in
theorem accepted_admin_awaited_successor :
    Awaited (RiskPool.system sites.pool)
        (fun v => v.machine.store.pendingAdmin) successor
        RiskPool.Scenario.genesis poolRotation poolArmed ∧
      Awaited (OracleVerifier.system sites.oracle)
        (fun v => v.machine.store.pendingAdmin) successor
        OracleVerifier.Scenario.genesis oracleRotation oracleArmed ∧
      Awaited (system sites)
        (fun v => v.machine.store.claims.pendingAdmin) successor genesis
        claimsRotation claimsArmed := by
  have hpool : (RiskPool.system sites.pool).Run RiskPool.Scenario.genesis
      poolRotation poolArmed :=
    run_of_execute (fun _ _ _ => Parashield.step_sound)
      (Option.some_get _).symm
  have horacle : (OracleVerifier.system sites.oracle).Run
      OracleVerifier.Scenario.genesis oracleRotation oracleArmed :=
    run_of_execute (fun _ _ _ => Parashield.step_sound)
      (Option.some_get _).symm
  have hclaims : (system sites).Run genesis claimsRotation claimsArmed :=
    run_of_execute (fun _ _ _ => step_sound) (Option.some_get _).symm
  have hpoolGuard : RiskPool.Unhurried poolArmed poolAccepting := by
    show poolArmed.machine.store.office.rotation.InTime
    decide +kernel
  have horacleGuard : OracleVerifier.Unhurried oracleArmed oracleAccepting := by
    show oracleArmed.machine.store.rotation.InTime
    decide +kernel
  have hclaimsGuard : Unhurried claimsArmed claimsAccepting := by
    show claimsArmed.machine.store.claims.office.rotation.InTime
    decide +kernel
  refine ⟨(accepted_admin_awaited sites.pool sites [successor] successor).1
      _ _ poolTaken _ ⟨rfl, rfl⟩ (hpool.restrict ?_)
      ⟨hpoolGuard, Parashield.step_sound (Option.some_get _).symm⟩,
    (accepted_admin_awaited sites.oracle sites [successor] successor).2.1
      _ _ oracleTaken _ ⟨rfl, rfl⟩ (horacle.restrict ?_)
      ⟨horacleGuard, Parashield.step_sound (Option.some_get _).symm⟩,
    (accepted_admin_awaited sites.pool sites [successor] successor).2.2
      _ _ claimsTaken _ ⟨rfl, rfl⟩ (hclaims.restrict ?_)
      ⟨hclaimsGuard, step_sound (Option.some_get _).symm⟩⟩
  · simp [poolRotation, RiskPool.Scenario.wiring, RiskPool.Unhurried]
  · simp [oracleRotation, OracleVerifier.Unhurried]
  · simp [claimsRotation, Unhurried]

namespace Scenario

/-- A rotation to a rival waits for its guardian while the administrator arms
a successor without one. -/
def stalledRotation : List (Label RiskPool.Entry) :=
  [RiskPool.Scenario.wiring,
    .call [admin] (.setGuardians admin [guardian] 1),
    .call [admin] (.proposeNewAdmin admin rival),
    .call [admin] (.setGuardians admin [guardian] 0),
    .call [admin] (.proposeNewAdmin admin successor),
    .tick adminTransferTimelock]

def stalled : World RiskPool.State :=
  (execute (Parashield.step RiskPool.exec sites.pool) stalledRotation
    RiskPool.Scenario.genesis).get (by decide +kernel)

/-- The guardian approves the rival on the successor's clock. -/
def displacing : Label RiskPool.Entry :=
  .call [guardian] (.approveAdminChange guardian rival)

def displaced : World RiskPool.State :=
  (Parashield.step RiskPool.exec sites.pool stalled displacing).get
    (by decide +kernel)

def usurped : World RiskPool.State :=
  (Parashield.step RiskPool.exec sites.pool displaced
    (.call [rival] (.acceptAdmin rival))).get (by decide +kernel)

end Scenario

open Scenario in
/-- The rival takes the administration at the moment it is armed. -/
theorem accepted_admin_not_awaited :
    ¬ ∀ (self : Address) (s w w' : World RiskPool.State)
        (ls : List (Label RiskPool.Entry)) (signers : List Address)
        (x : Address),
      (RiskPool.system self).Init s → (RiskPool.system self).Run s ls w →
      (RiskPool.system self).Step w (.call signers (.acceptAdmin x)) w' →
      Awaited (RiskPool.system self)
        (fun v => v.machine.store.pendingAdmin) x s ls w := by
  intro h
  have hrun : (RiskPool.system sites.pool).Run RiskPool.Scenario.genesis
      stalledRotation stalled :=
    run_of_execute (fun _ _ _ => Parashield.step_sound)
      (Option.some_get _).symm
  have hdisplaced : (RiskPool.system sites.pool).Step stalled displacing
      displaced :=
    Parashield.step_sound (Option.some_get _).symm
  obtain ⟨time, hcandidate, hwaited⟩ := h sites.pool _ displaced usurped _
    [rival] rival ⟨rfl, rfl⟩ (hrun.concat hdisplaced)
    (Parashield.step_sound (Option.some_get _).symm)
  have htime := hcandidate.of_concat (fun _ _ _ _ => Step.unique) hrun
    (by decide +kernel)
  have hnow : stalled.now = displaced.now := by decide +kernel
  have hpos : 0 < adminTransferTimelock := by decide
  omega

end Protocol

end Parashield
