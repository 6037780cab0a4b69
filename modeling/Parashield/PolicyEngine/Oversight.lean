import Parashield.PolicyEngine.Administration
import Parashield.Support.Recording

/-!
# Who controls the oracle

The administrator proposes and executes a change of the oracle, the guardian
approves it in between.  That the guardian is somebody else is checked when
the guardian is set, not when the administration is handed over: whoever is
both decides alone.
-/

namespace Parashield.PolicyEngine

open Support Support.Contract Invocation

/-- The part of the storage that says who controls the oracle. -/
structure Oversight where
  initialized : Bool
  admin : Option Address
  oracleAddress : Option Address
  oracleGuardian : Option Address
  pendingOracleChange : Option PendingOracleChange

def State.oversight (s : State) : Oversight where
  initialized := s.initialized
  admin := s.admin
  oracleAddress := s.oracleAddress
  oracleGuardian := s.oracleGuardian
  pendingOracleChange := s.pendingOracleChange

def Administration.oversight (a : Administration) : Oversight where
  initialized := a.initialized
  admin := a.admin
  oracleAddress := a.oracleAddress
  oracleGuardian := a.oracleGuardian
  pendingOracleChange := a.pendingOracleChange

/-- The entry points that write the oversight. -/
def Entry.oversees : Entry → Bool
  | .initializeEngine .. | .setOracleGuardian .. | .proposeOracleChange ..
  | .approveOracleChange .. | .executeOracleChange .. | .acceptAdmin .. => true
  | _ => false

/-! ## Calls that leave the oversight alone -/

/-- The oversight is `o`. -/
def Overseen (o : Oversight) (m : Machine State) : Prop :=
  m.store.oversight = o

/-- All other entry points leave the oversight alone. -/
theorem exec_overseen {env : Env} {o : Oversight} {e : Entry}
    (he : e.oversees = false) : Keeps (Overseen o) (exec env e) := by
  rintro m u m' rfl h
  cases e with
  | setClaimsProcessor =>
      simp [exec, setClaimsProcessor] at h
      rw [h.2]
      rfl
  | registerCategory =>
      simp [exec, registerCategory, ite_ok] at h
      obtain ⟨-, ⟨-, rfl⟩ | ⟨-, rfl⟩⟩ := h
      · rfl
      · rfl
  | unregisterCategory =>
      simp [exec, unregisterCategory] at h
      rw [h.2.2]
      rfl
  | registerOracleDataType =>
      simp [exec, registerOracleDataType, ite_ok] at h
      obtain ⟨-, ⟨-, rfl⟩ | ⟨-, rfl⟩⟩ := h
      · rfl
      · rfl
  | emergencyPause =>
      simp [exec, emergencyPause] at h
      rw [h.2]
      rfl
  | emergencyResume =>
      simp [exec, emergencyResume] at h
      rw [h.2]
      rfl
  | proposeNewAdmin =>
      simp [exec, proposeNewAdmin] at h
      rw [h.2.2]
      rfl
  | cancelAdminTransfer =>
      simp [exec, cancelAdminTransfer] at h
      rw [h.2]
      rfl
  | setMaxProductsPerPool =>
      simp [exec, setMaxProductsPerPool] at h
      rw [h.2.2]
      rfl
  | setExpiryWarningWindow =>
      simp [exec, setExpiryWarningWindow] at h
      rw [h.2.2]
      rfl
  | initializeEngine | setOracleGuardian | proposeOracleChange
  | approveOracleChange | executeOracleChange | acceptAdmin => cases he
  | _ => exact congrArg Administration.oversight (exec_administration rfl h)

/-! ## What the other calls do -/

namespace Oversight

/-- The administrator `a` has signed. -/
def Signed (o : Oversight) (env : Env) (a : Address) : Prop :=
  o.admin = some a ∧ a ∈ env.signers

/-- What an accepted call does to the oversight. -/
inductive Act (env : Env) : Entry → Oversight → Oversight → Prop
  | rest {e : Entry} {o : Oversight} : e.oversees = false → Act env e o o
  | found {admin usdcToken oracleAddress : Address} {o : Oversight} :
      o.initialized = false →
      Act env (.initializeEngine admin usdcToken oracleAddress) o
        { o with
          initialized := true
          admin := some admin
          oracleAddress := some oracleAddress }
  | appoint {admin guardian : Address} {o : Oversight} :
      o.Signed env admin → guardian ≠ admin →
      Act env (.setOracleGuardian admin guardian) o
        { o with oracleGuardian := some guardian }
  | propose {admin newOracle : Address} {o : Oversight} :
      o.Signed env admin → o.pendingOracleChange = none →
      Act env (.proposeOracleChange admin newOracle) o
        { o with
          pendingOracleChange :=
            some
              { newOracle := newOracle
                executeAfter := satAddU64 env.now oracleChangeTimelockSeconds
                guardianApproved := false } }
  | approve {guardian : Address} {change : PendingOracleChange}
      {o : Oversight} :
      guardian ∈ env.signers → o.oracleGuardian = some guardian →
      o.pendingOracleChange = some change →
      Act env (.approveOracleChange guardian) o
        { o with
          pendingOracleChange :=
            some { change with guardianApproved := true } }
  | execute {admin : Address} {change : PendingOracleChange} {o : Oversight} :
      o.Signed env admin → o.pendingOracleChange = some change →
      change.guardianApproved = true → change.executeAfter ≤ env.now →
      Act env (.executeOracleChange admin) o
        { o with
          oracleAddress := some change.newOracle
          pendingOracleChange := none }
  | accept {admin : Address} {o : Oversight} :
      admin ∈ env.signers →
      Act env (.acceptAdmin admin) o { o with admin := some admin }

end Oversight

section Act

variable {env : Env} {m m' : Machine State} {u : Unit}

/-- Every accepted call does to the oversight what `Act` says. -/
theorem exec_oversight {e : Entry} (h : exec env e m = .ok (u, m')) :
    Oversight.Act env e m.store.oversight m'.store.oversight := by
  cases e with
  | initializeEngine =>
      simp [exec, initializeEngine] at h
      obtain ⟨hfresh, -, -, -, -, B, -, -, rfl⟩ := h
      exact .found hfresh
  | setOracleGuardian =>
      simp [exec, setOracleGuardian] at h
      obtain ⟨hadmin, hother, rfl⟩ := h
      exact .appoint hadmin hother
  | proposeOracleChange =>
      simp [exec, proposeOracleChange] at h
      obtain ⟨hadmin, hnone, -, -, rfl⟩ := h
      exact .propose hadmin hnone
  | approveOracleChange =>
      simp [exec, approveOracleChange] at h
      obtain ⟨hauth, hguardian, change, hpending, rfl⟩ := h
      exact .approve hauth hguardian hpending
  | executeOracleChange =>
      simp [exec, executeOracleChange] at h
      obtain ⟨hadmin, change, hpending, happroved, hdue, rfl⟩ := h
      exact .execute hadmin hpending happroved hdue
  | acceptAdmin =>
      simp [exec, acceptAdmin] at h
      obtain ⟨-, hauth, -, rfl⟩ := h
      exact .accept hauth
  | _ =>
      have hsame : m'.store.oversight = m.store.oversight :=
        exec_overseen rfl m u m' rfl h
      rw [hsame]
      exact .rest rfl

end Act

end Parashield.PolicyEngine
