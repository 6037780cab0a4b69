import Parashield.ClaimsProcessor.Moves
import Parashield.OracleVerifier.Calls
import Parashield.PolicyEngine.Calls
import Parashield.RiskPool.Calls

/-!
# The composed protocol

Claims processor, policy engine, risk pool and oracle verifier next to all
tokens.  Anyone calls any entry point of any of them in any order while time
passes and tokens move elsewhere.
-/

namespace Parashield.Protocol

open Support Support.Contract Invocation
open ClaimsProcessor (Network Context enginePart poolPart oraclePart)

/-- Where the contracts are deployed. -/
structure Sites where
  claims : Address
  engine : Address
  pool : Address
  oracle : Address
  /-- The host admits a second authorization of one address in a frame. -/
  repeatedAuth : Bool
  distinct : [claims, engine, pool, oracle].Nodup

def Sites.members (D : Sites) : List Address :=
  [D.claims, D.engine, D.pool, D.oracle]

/-- The entry points of all contracts. -/
inductive Entry where
  | claims (e : ClaimsProcessor.Entry)
  | engine (e : PolicyEngine.Entry)
  | pool (e : RiskPool.Entry)
  | oracle (e : OracleVerifier.Entry)

/-- The environment of a call into the claims processor. -/
def Sites.context (D : Sites) (now : ℕ) (signers : List Address) :
    Context where
  now := now
  self := D.claims
  signers := signers
  engine := D.engine
  pool := D.pool
  oracle := D.oracle
  repeatedAuth := D.repeatedAuth

/-- Run a call of any of the contracts.  A failed call leaves no trace, so
its error is not kept apart. -/
def exec (D : Sites) (env : Env) : Entry → ClaimsProcessor.Call Unit
  | .claims e => ClaimsProcessor.exec (D.context env.now env.signers) e
  | .engine e =>
      zoom enginePart (fun _ => .trap)
        (PolicyEngine.exec ⟨env.now, D.engine, env.signers⟩ e)
  | .pool e =>
      zoom poolPart (fun _ => .trap)
        (RiskPool.exec ⟨env.now, D.pool, env.signers⟩ e)
  | .oracle e =>
      zoom oraclePart (fun _ => .trap)
        (OracleVerifier.exec ⟨env.now, D.oracle, env.signers⟩ e)

section Exec

variable {D : Sites} {env : Env} {m m' : Machine Network} {u : Unit}

@[simp] theorem exec_engine_ok {e : PolicyEngine.Entry} :
    exec D env (.engine e) m = .ok (u, m') ↔ ∃ s B,
      PolicyEngine.exec ⟨env.now, D.engine, env.signers⟩ e
        ⟨m.store.engine, m.bank⟩ = .ok (u, ⟨s, B⟩) ∧
      m' = { store := { m.store with engine := s }, bank := B } := by
  simp only [exec, zoom_ok]
  constructor
  · rintro ⟨t, h, rfl⟩
    exact ⟨t.store, t.bank, h, rfl⟩
  · rintro ⟨s, B, h, rfl⟩
    exact ⟨⟨s, B⟩, h, rfl⟩

@[simp] theorem exec_pool_ok {e : RiskPool.Entry} :
    exec D env (.pool e) m = .ok (u, m') ↔ ∃ s B,
      RiskPool.exec ⟨env.now, D.pool, env.signers⟩ e
        ⟨m.store.pool, m.bank⟩ = .ok (u, ⟨s, B⟩) ∧
      m' = { store := { m.store with pool := s }, bank := B } := by
  simp only [exec, zoom_ok]
  constructor
  · rintro ⟨t, h, rfl⟩
    exact ⟨t.store, t.bank, h, rfl⟩
  · rintro ⟨s, B, h, rfl⟩
    exact ⟨⟨s, B⟩, h, rfl⟩

@[simp] theorem exec_oracle_ok {e : OracleVerifier.Entry} :
    exec D env (.oracle e) m = .ok (u, m') ↔ ∃ s B,
      OracleVerifier.exec ⟨env.now, D.oracle, env.signers⟩ e
        ⟨m.store.oracle, m.bank⟩ = .ok (u, ⟨s, B⟩) ∧
      m' = { store := { m.store with oracle := s }, bank := B } := by
  simp only [exec, zoom_ok]
  constructor
  · rintro ⟨t, h, rfl⟩
    exact ⟨t.store, t.bank, h, rfl⟩
  · rintro ⟨s, B, h, rfl⟩
    exact ⟨⟨s, B⟩, h, rfl⟩

end Exec

/-- None of the contracts signs a call or sends a plain transfer. -/
def Foreign (D : Sites) : Label Entry → Prop
  | .call signers _ => ∀ a ∈ D.members, a ∉ signers
  | .transfer _ sender _ _ => sender ∉ D.members
  | .tick _ | .mint .. => True

instance (D : Sites) (l : Label Entry) : Decidable (Foreign D l) := by
  cases l <;> unfold Foreign <;> infer_instance

/-- Runs of the protocol, from fresh deployments next to any tokens that have
not moved yet. -/
def system (D : Sites) :
    TransitionSystem (World Network) (Label Entry) :=
  (deployment (exec D) Network.deployed D.claims).restrict
    fun _ l => Foreign D l

/-- The step function behind `system`. -/
def step (D : Sites) (w : World Network) (l : Label Entry) :
    Option (World Network) :=
  if Foreign D l then Parashield.step (exec D) D.claims w l else none

theorem step_sound {D : Sites} {w w' : World Network} {l : Label Entry}
    (h : step D w l = some w') : (system D).Step w l w' := by
  simp only [step, Option.ite_none_right_eq_some] at h
  exact ⟨h.1, Parashield.step_sound h.2⟩

/-- What a call step executed. -/
theorem call_exec {D : Sites} {w w' : World Network} {signers : List Address}
    {e : Entry} (h : (system D).Step w (.call signers e) w') :
    w'.now = w.now ∧ (∀ a ∈ D.members, a ∉ signers) ∧
      exec D (callEnv D.claims w signers) e w.machine =
        .ok ((), w'.machine) := by
  obtain ⟨hforeign, hstep⟩ := h
  cases hstep with
  | call _ hexec => exact ⟨rfl, hforeign, hexec⟩

/-! ## A deployment with one policy -/

namespace Scenario

def sites : Sites where
  claims := .contract 4
  engine := .contract 1
  pool := .contract 2
  oracle := .contract 7
  repeatedAuth := false
  distinct := by decide

def usdc : Address := .contract 20
def feed : Address := .contract 8
def admin : Address := .account 1
def provider : Address := .account 2
def holder : Address := .account 3
def keeper : Address := .account 4
def stranger : Address := .account 5
def rain : Symbol := ⟨['r', 'a', 'i', 'n']⟩

/-- Nothing is set up, and the engine already has tokens to pay with. -/
def genesis : World Network where
  now := 1000000
  machine :=
    { store := .deployed
      bank :=
        ((Bank.mint ⟨fun _ => none, []⟩ usdc provider (10 ^ 9)).mint usdc
          holder (10 ^ 9)).mint usdc sites.engine (10 ^ 9) }

def rainProduct : PolicyEngine.CreateProductParams where
  name := rain
  category := Symbols.crop
  oracleKey := rain
  expectedToken := usdc
  triggerType := .threshold
  oracleDataType := Symbols.weather
  triggerThreshold := 500
  triggerComparison := .lessThan
  coverageMin := 1
  coverageMax := 1000000000
  premiumRateBps := 500
  maxDurationDays := 365

def setUp : List (Label Entry) :=
  [.call [admin] (.oracle (.initializeVerifier admin)),
    .call [admin] (.oracle (.setMinOracleCount admin 1)),
    .call [admin] (.oracle (.addOracle admin feed Symbols.weather 100)),
    .call [admin] (.engine (.initializeEngine admin usdc sites.oracle)),
    .call [admin] (.engine (.setClaimsProcessor admin sites.claims)),
    .call [admin] (.engine (.createProduct admin rainProduct)),
    .call [admin] (.pool (.initializePool admin usdc (.contract 5)
      (.contract 6) Symbols.crop sites.engine sites.claims)),
    .call [provider] (.pool (.deposit provider 10000000 0 false)),
    .call [admin] (.claims (.initializeProcessor admin sites.engine sites.pool
      sites.oracle 604800)),
    .call [admin] (.claims (.addKeeper admin keeper))]

/-- A policy over 1000000 is bought and locked in the pool. -/
def purchase : List (Label Entry) :=
  [.call [holder] (.engine (.buyPolicy holder 1 1000000 365 rain usdc)),
    .call [admin] (.pool (.lockForPolicy admin 1 1000000))]

def insured : World Network :=
  (TransitionSystem.execute (step sites) (setUp ++ purchase) genesis).get
    (by decide +kernel)

/-- The trigger is met, and the holder files a claim. -/
def loss : List (Label Entry) :=
  [.call [feed] (.oracle
      (.submitData feed Symbols.weather rain 300 90 1000000)),
    .call [holder] (.claims (.submitClaim holder 1))]

def filed : World Network :=
  (TransitionSystem.execute (step sites) loss insured).get (by decide +kernel)

section Reachable

variable {G : World Network → Label Entry → Prop}

theorem insured_reachable (hG : ∀ l ∈ setUp ++ purchase, ∀ t, G t l) :
    ((system sites).restrict G).Reachable insured := by
  have hrun : (system sites).Run genesis (setUp ++ purchase) insured :=
    TransitionSystem.run_of_execute (fun _ _ _ => step_sound)
      (Option.some_get _).symm
  exact TransitionSystem.Reachable.run (.init ⟨rfl, rfl⟩) (hrun.restrict hG)

theorem filed_reachable (hG : ∀ l ∈ setUp ++ purchase, ∀ t, G t l)
    (hG' : ∀ l ∈ loss, ∀ t, G t l) :
    ((system sites).restrict G).Reachable filed := by
  have hrun : (system sites).Run insured loss filed :=
    TransitionSystem.run_of_execute (fun _ _ _ => step_sound)
      (Option.some_get _).symm
  exact (insured_reachable hG).run (hrun.restrict hG')

end Reachable

end Scenario

end Parashield.Protocol
