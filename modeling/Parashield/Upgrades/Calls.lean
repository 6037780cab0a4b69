import Parashield.Deployment

/-!
# Guarded upgrades

Risk pool, claims processor and DAO replace their WASM in the same way: the
administrator alone while no guardian threshold is set, else a request of the
administrator and the approvals of as many guardians as the threshold asks for.
The storage of a contract is extended by what these calls keep.
-/

namespace Parashield.Upgrades

open Support Support.Contract Invocation

/-! ## Storage -/

structure PendingUpgrade where
  newWasmHash : Bytes
  newVersion : ℕ
  approvals : List Address
  deriving DecidableEq, Repr

/-- The storage of a contract and its upgrades. -/
structure Upgradable (S : Type) where
  base : S
  version : ℕ
  pendingUpgrade : Option PendingUpgrade
  /-- The hashes the WASM was replaced by so far, newest first. -/
  installed : List Bytes

/-- Storage of a fresh deployment, whose version is unset and read as one. -/
def Upgradable.deployed {S : Type} (base : S) : Upgradable S where
  base := base
  version := 1
  pendingUpgrade := none
  installed := []

/-- What the upgrades of a contract read of its storage, and the error codes
they report. -/
structure Terms (E S : Type) where
  admin : S → Option Address
  guardians : S → List Address
  guardianThreshold : S → ℕ
  notInitialized : E
  unauthorized : E
  invalidVersion : E
  notGuardian : E
  noPendingUpgrade : E
  alreadyApprovedAction : E

/-- The contract itself within its extended storage. -/
def basePart (S : Type) : Part (Machine (Upgradable S)) (Machine S) where
  get m := ⟨m.store.base, m.bank⟩
  put t m := ⟨{ m.store with base := t.store }, t.bank⟩
  get_put _ _ := rfl
  put_get _ := rfl
  put_put _ _ _ := rfl

section Calls

variable {E S En : Type}

/-! ## Entry points -/

def requireAdmin (T : Terms E S) (env : Env) (caller : Address) :
    Invocation E (Upgradable S) Unit := do
  let s ← load
  let admin ← unwrap (T.admin s.base) (.error T.notInitialized)
  ensure (caller = admin) T.unauthorized
  requireAuth env caller

/-- Store the version and replace the WASM.  Migrations do nothing yet. -/
def install (newWasmHash : Bytes) (newVersion : ℕ) :
    Invocation E (Upgradable S) Unit :=
  update fun s =>
    { s with version := newVersion, installed := newWasmHash :: s.installed }

def storePending (pending : Option PendingUpgrade) :
    Invocation E (Upgradable S) Unit :=
  update fun s => { s with pendingUpgrade := pending }

/-- Upgrade at once without a guardian threshold, else wait for approvals. -/
def upgrade (T : Terms E S) (env : Env) (admin : Address)
    (newWasmHash : Bytes) (newVersion : ℕ) :
    Invocation E (Upgradable S) Unit := do
  requireAdmin T env admin
  let s ← load
  ensure (s.version < newVersion) T.invalidVersion
  if T.guardianThreshold s.base = 0 then
    install newWasmHash newVersion
  else
    storePending
      (some
        { newWasmHash := newWasmHash
          newVersion := newVersion
          approvals := [] })

/-- The approval that reaches the threshold upgrades.  The version is not
compared again. -/
def approveUpgrade (T : Terms E S) (env : Env) (guardian : Address)
    (newWasmHash : Bytes) : Invocation E (Upgradable S) Unit := do
  requireAuth env guardian
  let s ← load
  ensure (guardian ∈ T.guardians s.base) T.notGuardian
  let pending ← unwrap s.pendingUpgrade (.error T.noPendingUpgrade)
  ensure (pending.newWasmHash = newWasmHash) T.noPendingUpgrade
  ensure (guardian ∉ pending.approvals) T.alreadyApprovedAction
  let approvals := pending.approvals ++ [guardian]
  if T.guardianThreshold s.base ≤ approvals.length then do
    storePending none
    install newWasmHash pending.newVersion
  else
    storePending (some { pending with approvals := approvals })

def cancelPendingUpgrade (T : Terms E S) (env : Env) (admin : Address) :
    Invocation E (Upgradable S) Unit := do
  requireAdmin T env admin
  let s ← load
  ensure (s.pendingUpgrade.isSome = true) T.noPendingUpgrade
  storePending none

/-- The entry points of a contract with its upgrades. -/
inductive Entry (En : Type) where
  | base (e : En)
  | upgrade (admin : Address) (newWasmHash : Bytes) (newVersion : ℕ)
  | approveUpgrade (guardian : Address) (newWasmHash : Bytes)
  | cancelPendingUpgrade (admin : Address)

/-- All entry points, of which those of the contract itself run as `run`. -/
def exec (T : Terms E S) (run : Env → En → Invocation E S Unit) (env : Env) :
    Entry En → Invocation E (Upgradable S) Unit
  | .base e => zoom (basePart S) id (run env e)
  | .upgrade admin newWasmHash newVersion =>
      Upgrades.upgrade T env admin newWasmHash newVersion
  | .approveUpgrade guardian newWasmHash =>
      Upgrades.approveUpgrade T env guardian newWasmHash
  | .cancelPendingUpgrade admin => Upgrades.cancelPendingUpgrade T env admin

/-- Runs of a contract with its upgrades. -/
def system (T : Terms E S) (run : Env → En → Invocation E S Unit)
    (deployed : S) (self : Address) :
    TransitionSystem (World (Upgradable S)) (Label (Entry En)) :=
  deployment (exec T run) (.deployed deployed) self

/-! ## What the calls do -/

variable {T : Terms E S} {run : Env → En → Invocation E S Unit} {env : Env}
  {m m' : Machine (Upgradable S)} {u : Unit}

@[simp] theorem requireAdmin_ok {caller : Address} :
    requireAdmin T env caller m = .ok (u, m') ↔
      (T.admin m.store.base = some caller ∧ caller ∈ env.signers) ∧
        m' = m := by
  simp [requireAdmin]
  tauto

/-- One call, as far as upgrades are concerned. -/
inductive Change (T : Terms E S) (run : Env → En → Invocation E S Unit)
    (env : Env) (m m' : Machine (Upgradable S)) : Entry En → Prop
  | base {e : En} {t : Machine S} :
      run env e ⟨m.store.base, m.bank⟩ = .ok ((), t) →
      m' = ⟨{ m.store with base := t.store }, t.bank⟩ →
      Change T run env m m' (.base e)
  | direct {admin : Address} {newWasmHash : Bytes} {newVersion : ℕ} :
      T.guardianThreshold m.store.base = 0 → m.store.version < newVersion →
      m' = ⟨{ m.store with
          version := newVersion
          installed := newWasmHash :: m.store.installed }, m.bank⟩ →
      Change T run env m m' (.upgrade admin newWasmHash newVersion)
  | requested {admin : Address} {newWasmHash : Bytes} {newVersion : ℕ} :
      T.guardianThreshold m.store.base ≠ 0 → m.store.version < newVersion →
      m' = ⟨{ m.store with
          pendingUpgrade := some ⟨newWasmHash, newVersion, []⟩ }, m.bank⟩ →
      Change T run env m m' (.upgrade admin newWasmHash newVersion)
  | approved {guardian : Address} {p : PendingUpgrade} :
      guardian ∈ T.guardians m.store.base →
      m.store.pendingUpgrade = some p → guardian ∉ p.approvals →
      p.approvals.length + 1 < T.guardianThreshold m.store.base →
      m' = ⟨{ m.store with
          pendingUpgrade :=
            some { p with approvals := p.approvals ++ [guardian] } },
        m.bank⟩ →
      Change T run env m m' (.approveUpgrade guardian p.newWasmHash)
  | executed {guardian : Address} {p : PendingUpgrade} :
      guardian ∈ T.guardians m.store.base →
      m.store.pendingUpgrade = some p → guardian ∉ p.approvals →
      T.guardianThreshold m.store.base ≤ p.approvals.length + 1 →
      m' = ⟨{ m.store with
          pendingUpgrade := none
          version := p.newVersion
          installed := p.newWasmHash :: m.store.installed }, m.bank⟩ →
      Change T run env m m' (.approveUpgrade guardian p.newWasmHash)
  | cancelled {admin : Address} :
      m' = ⟨{ m.store with pendingUpgrade := none }, m.bank⟩ →
      Change T run env m m' (.cancelPendingUpgrade admin)

theorem exec_change {e : Entry En} (h : exec T run env e m = .ok (u, m')) :
    Change T run env m m' e := by
  cases e with
  | base e =>
      obtain ⟨t, hrun, rfl⟩ := zoom_ok.mp h
      exact .base hrun rfl
  | upgrade admin newWasmHash newVersion =>
      simp only [exec, upgrade, bind_ok, requireAdmin_ok, load_ok,
        ensure_ok] at h
      obtain ⟨_, _, ⟨-, rfl⟩, s, _, ⟨hs, rfl⟩, _, m, ⟨hnewer, rfl⟩, h⟩ := h
      subst hs
      rcases ite_ok.mp h with ⟨hnone, h⟩ | ⟨hset, h⟩
      · exact .direct hnone hnewer (update_ok.mp h)
      · exact .requested hset hnewer (update_ok.mp h)
  | approveUpgrade guardian newWasmHash =>
      simp only [exec, approveUpgrade, bind_ok, requireAuth_ok, load_ok,
        unwrap_ok, ensure_ok] at h
      obtain ⟨_, _, ⟨-, rfl⟩, s, _, ⟨hs, rfl⟩, _, _, ⟨hguardian, rfl⟩, p, _,
        ⟨hp, rfl⟩, _, _, ⟨hhash, rfl⟩, _, m, ⟨hnew, rfl⟩, h⟩ := h
      subst hs
      subst hhash
      rcases ite_ok.mp h with ⟨hreached, h⟩ | ⟨hshort, h⟩
      · simp only [storePending, install, bind_ok, update_ok] at h
        obtain ⟨_, _, rfl, rfl⟩ := h
        exact .executed hguardian hp hnew (by simpa using hreached) rfl
      · exact .approved hguardian hp hnew (by simpa using hshort)
          (update_ok.mp h)
  | cancelPendingUpgrade admin =>
      simp only [exec, cancelPendingUpgrade, storePending, bind_ok,
        requireAdmin_ok, load_ok, ensure_ok, update_ok] at h
      obtain ⟨_, _, ⟨-, rfl⟩, _, _, ⟨rfl, rfl⟩, _, _, ⟨-, rfl⟩, rfl⟩ := h
      exact .cancelled rfl

end Calls

end Parashield.Upgrades
