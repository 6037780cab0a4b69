import Parashield.RiskPool.Types

/-!
# Risk pool: positions and their yield

Who may call what, the settlement of yield, and the token that mirrors a
position.
-/

namespace Parashield.RiskPool

open Support Support.Contract Invocation

abbrev Call (α : Type) := Invocation Error State α

/-- A read-only computation of the pool. -/
abbrev View (α : Type) := Check (Fault Error) α

/-! ## Callers and status -/

def requireAdmin (env : Env) (caller : Address) : Call Unit := do
  let s ← load
  let admin ← unwrap s.admin (.error .notInitialized)
  ensure (caller = admin) .unauthorized
  requireAuth env caller

/-- Only the administrator, the policy engine and the claims processor. -/
def requireProtocolCaller (env : Env) (caller : Address) : Call Unit := do
  let s ← load
  let admin ← unwrap s.admin (.error .notInitialized)
  let pe ← unwrap s.policyEngine (.error .notInitialized)
  let cp ← unwrap s.claimsProcessor (.error .notInitialized)
  ensure (caller = admin ∨ caller = pe ∨ caller = cp) .unauthorized
  requireAuth env caller

/-- One of the three protocol parties of the pool. -/
def State.IsProtocolCaller (s : State) (caller : Address) : Prop :=
  ∃ admin pe cp, s.admin = some admin ∧ s.policyEngine = some pe ∧
    s.claimsProcessor = some cp ∧
    (caller = admin ∨ caller = pe ∨ caller = cp)

@[simp] theorem requireProtocolCaller_ok {env : Env} {caller : Address}
    {m m' : Machine State} {u : Unit} :
    requireProtocolCaller env caller m = .ok (u, m') ↔
      m.store.IsProtocolCaller caller ∧ caller ∈ env.signers ∧ m' = m := by
  simp only [requireProtocolCaller, State.IsProtocolCaller, bind_ok, load_ok,
    unwrap_ok, ensure_ok, requireAuth_ok]
  constructor
  · rintro ⟨_, _, ⟨rfl, rfl⟩, admin, _, ⟨hadmin, rfl⟩, pe, _, ⟨hpe, rfl⟩, cp, _,
      ⟨hcp, rfl⟩, _, _, ⟨hparty, rfl⟩, hauth, rfl⟩
    exact ⟨⟨admin, pe, cp, hadmin, hpe, hcp, hparty⟩, hauth, rfl⟩
  · rintro ⟨⟨admin, pe, cp, hadmin, hpe, hcp, hparty⟩, hauth, rfl⟩
    exact ⟨_, _, ⟨rfl, rfl⟩, admin, _, ⟨hadmin, rfl⟩, pe, _, ⟨hpe, rfl⟩, cp, _,
      ⟨hcp, rfl⟩, (), _, ⟨hparty, rfl⟩, hauth, rfl⟩

def requireNotAdmin (caller : Address) : Call Unit := do
  let s ← load
  ensure (s.admin ≠ some caller) .adminCannotBeLp

def requireNotZeroAddress (a : Address) : Call Unit :=
  ensure (a ≠ .zero) .invalidAddress

def assertActive : Call Unit := do
  let s ← load
  ensure (s.status = .active) .poolNotActive

def assertWithdrawable : Call Unit := do
  let s ← load
  ensure (s.status ≠ .paused) .poolNotActive

/-! ## Yield -/

/-- A settled position and the yield it is owed. -/
structure Settlement where
  owed : ℤ
  position : LpPosition
  deriving DecidableEq, Repr

namespace State

/-- Unlocked liquidity. -/
def getAvailableLiquidity (s : State) : ℤ :=
  satI128 (s.totalDeposited - s.totalLocked)

/-- Count the yield of a position up to now. -/
def settleYield (s : State) (now : ℕ) (position : LpPosition) :
    View Settlement :=
  if s.totalShares = 0 then
    pure { owed := 0, position := position }
  else do
    let v ← Check.i128 (s.accumulatedPerShare * position.shares) (.overflow none)
    let entitled := v.tdiv perShareScale
    let claimable := satI128 (entitled - position.yieldDebt)
    if 0 < claimable then do
      let claimed ← Check.i128 (position.yieldClaimed + claimable) (.overflow none)
      pure
        { owed := claimable
          position :=
            { position with
              yieldClaimed := claimed
              lastYieldClaim := now
              yieldDebt := entitled } }
    else
      pure { owed := claimable, position := position }

/-- The debt of a position that holds `shares` from now on. -/
def yieldDebt (s : State) (shares : ℤ) (fault : Fault Error) : View ℤ := do
  let v ← Check.i128 (s.accumulatedPerShare * shares) fault
  pure (v.tdiv perShareScale)

def setPosition (s : State) (provider : Address) (position : LpPosition) :
    State :=
  { s with
    lpPosition := Function.update s.lpPosition provider (some position) }

def withTotals (s : State) (deposited shares : ℤ) : State :=
  { s with totalDeposited := deposited, totalShares := shares }

/-- The position token follows the position. -/
def updateLpNft (s : State) (provider : Address) (position : LpPosition) :
    State :=
  match s.providerNft provider with
  | none => s
  | some tokenId =>
      match s.lpNft tokenId with
      | none => s
      | some nft =>
          { s with
            lpNft :=
              Function.update s.lpNft tokenId
                (some
                  { nft with
                    shares := position.shares
                    deposited := position.deposited
                    active := decide (0 < position.shares) }) }

end State

/-- Transfer settled yield, if there is any. -/
def payOutYield (env : Env) (provider : Address) (amount : ℤ) : Call Unit :=
  whenever (0 < amount) do
    let s ← load
    let usdc ← unwrap s.usdcToken .trap
    transferToken env usdc env.self provider amount

/-! ## Position tokens and provider slots -/

def mintLpNft (provider : Address) (category : Symbol) (mintedAt : ℕ)
    (position : LpPosition) : Call Unit := do
  let s ← load
  ensure (s.providerNft provider = none) .providerAlreadyHasNft
  let tokenId := s.nextNftId
  let nextTokenId ← unsigned 64 (tokenId + 1) (.error .overflow)
  update fun s =>
    { s with
      nextNftId := nextTokenId
      lpNft :=
        Function.update s.lpNft tokenId
          (some
            { tokenId := tokenId
              provider := provider
              category := category
              mintedAt := mintedAt
              shares := position.shares
              deposited := position.deposited
              active := true })
      providerNft := Function.update s.providerNft provider (some tokenId) }

def updateLpNft (provider : Address) (position : LpPosition) : Call Unit :=
  update fun s => s.updateLpNft provider position

/-- A slot for a provider the pool has not seen. -/
def registerProvider (provider : Address) : Call Unit := do
  let s ← load
  let count ← unsigned 32 (s.lpCount + 1) .trap
  update fun s =>
    { s with
      lpAddress := Function.update s.lpAddress s.lpCount (some provider)
      lpCount := count }

/-- Mint the token of a new position, or bring the existing one up to date. -/
def recordNft (env : Env) (provider : Address) (isNewLp : Bool)
    (category : Symbol) (position : LpPosition) : Call Unit :=
  if isNewLp then
    mintLpNft provider category env.now position
  else
    updateLpNft provider position

end Parashield.RiskPool
