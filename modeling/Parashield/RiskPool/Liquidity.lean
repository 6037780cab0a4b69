import Parashield.RiskPool.Positions

/-!
# Risk pool: deposits, withdrawals and exits

Everything a liquidity provider can do, and the sweep that settles expired
exit requests on the way.
-/

namespace Parashield.RiskPool

open Support Support.Contract Invocation

/-! ## Withdrawals -/

/-- What burning shares is worth, and the yield settled on the way. -/
structure Redemption where
  amount : ℤ
  owed : ℤ
  deriving DecidableEq, Repr

/-- Burn `shares` of a position out of unlocked liquidity.  `drained` is the
error raised when there is none. -/
def redeem (env : Env) (provider : Address) (shares : ℤ)
    (position : LpPosition) (drained : Error) : Call Redemption := do
  let s ← load
  let available := s.getAvailableLiquidity
  ensure (0 < available) drained
  let amount ← check
    (Check.mulDiv shares s.totalDeposited s.totalShares
      (.overflow (some .overflow)) (.error .overflow))
  ensure (amount ≠ 0) .zeroAmount
  ensure (amount ≤ available) .undercollateralized
  let settled ← check (s.settleYield env.now position)
  let left ← i128 (settled.position.shares - shares) (.overflow none)
  let debt ← check (s.yieldDebt left (.overflow none))
  let newPosition : LpPosition :=
    { settled.position with
      deposited := satI128 (settled.position.deposited - amount)
      shares := left
      yieldDebt := debt }
  let deposited ← i128 (s.totalDeposited - amount) (.overflow (some .overflow))
  let remaining ← i128 (s.totalShares - shares) (.overflow none)
  update fun s =>
    (s.setPosition provider newPosition).withTotals deposited remaining
  updateLpNft provider newPosition
  pure { amount := amount, owed := settled.owed }

/-- The settlement body of every regular withdrawal. -/
def withdrawInner (env : Env) (provider : Address) (shares : ℤ) :
    Call ℤ := do
  ensure (0 < shares) .zeroAmount
  assertWithdrawable
  let s ← load
  let position ← unwrap (s.lpPosition provider) (.error .noShares)
  ensure (shares ≤ position.shares) .insufficientFunds
  ensure (s.totalShares ≠ 0) .noShares
  -- The share of locked capital is computed and not used.
  whenever (0 < s.totalShares) do
    let _ ← i128 (position.shares * s.totalLocked) (.overflow none)
    pure ()
  let redemption ← redeem env provider shares position .poolDrained
  let usdc ← unwrap s.usdcToken .trap
  let m ← get
  ensure (redemption.amount ≤ m.bank.balance usdc env.self)
    .insufficientFunds
  transferToken env usdc env.self provider redemption.amount
  payOutYield env provider redemption.owed
  pure redemption.amount

/-! ## Expired exits -/

/-- Remove an exit request and its reservation. -/
def clearExitReservation (provider : Address) (shares : ℤ) : Call Unit :=
  update fun s =>
    { s with
      exitReq := Function.update s.exitReq provider none
      queuedExitShares := max 0 (satI128 (s.queuedExitShares - shares)) }

/-- What an exit of `shares` would return now, or zero. -/
def State.exitAmount (s : State) (shares : ℤ) : ℤ :=
  if InI128 (shares * s.totalDeposited) ∧ 0 < s.totalShares then
    (shares * s.totalDeposited).tdiv s.totalShares
  else
    0

/-- Inspect one slot; `true` if its exit was settled. -/
def sweepSlot (env : Env) (skip : Option Address) (idx : ℕ) :
    Call Bool := do
  let s ← load
  match s.lpAddress idx with
  | none => pure false
  | some provider =>
      if skip = some provider then
        pure false
      else
        match s.exitReq provider with
        | none => pure false
        | some request =>
            if env.now < request.claimableAt then
              pure false
            else
              let held :=
                match s.lpPosition provider with
                | some position => position.shares
                | none => 0
              let shares := min request.shares held
              if shares ≤ 0 then do
                clearExitReservation provider request.shares
                pure false
              else
                let amount := s.exitAmount shares
                if amount ≤ 0 ∨ s.getAvailableLiquidity < amount then
                  pure false
                else do
                  clearExitReservation provider request.shares
                  let _ ← withdrawInner env provider shares
                  pure true

/-- Settle expired exits among the next `maxScan` slots. -/
def sweepExpiredExits (env : Env) (maxScan : ℕ) (skip : Option Address) :
    Call ℕ := do
  let s ← load
  if maxScan = 0 ∨ s.lpCount = 0 ∨ s.status = .paused then
    pure 0
  else do
    let scan := min maxScan s.lpCount
    let start := s.exitCursor % s.lpCount
    let settled ← collect (List.range scan) fun step =>
      sweepSlot env skip ((start + step) % s.lpCount)
    update fun t => { t with exitCursor := (start + scan) % s.lpCount }
    pure (settled.count true)

/-! ## Deposits -/

namespace State

/-- Utilization as the deposit path computes it, cast to 32 bits. -/
def currentUtilizationBps (s : State) : ℕ :=
  if 0 < s.totalDeposited then
    let bps :=
      if InI128 (s.totalLocked * 10000) then
        (s.totalLocked * 10000).tdiv s.totalDeposited
      else
        0
    (bps % 2 ^ 32).toNat
  else
    0

/-- Shares minted for a deposit, and the shares locked with the first one. -/
def mintedShares (s : State) (amount : ℤ) : View (ℤ × ℤ) :=
  if s.totalShares = 0 then do
    let minted ← Check.i128 (amount * 1000000000) (.overflow (some .overflow))
    Check.require (lockedShares < minted) (.error .depositTooSmall)
    pure (minted - lockedShares, lockedShares)
  else do
    let minted ←
      Check.mulDiv amount s.totalShares s.totalDeposited
        (.overflow (some .overflow)) (.error .overflow)
    pure (minted, 0)

end State

/-- The position after a deposit, with the yield it was owed. -/
def creditDeposit (env : Env) (provider : Address) (amount newShares : ℤ)
    (compoundEnabled : Bool) : Call Settlement := do
  let s ← load
  match s.lpPosition provider with
  | some position => do
      let settled ← check (s.settleYield env.now position)
      let deposited ← i128 (settled.position.deposited + amount)
        (.overflow (some .overflow))
      let shares ← i128 (settled.position.shares + newShares)
        (.overflow (some .overflow))
      let debt ← check (s.yieldDebt shares (.overflow (some .overflow)))
      pure
        { owed := settled.owed
          position :=
            { settled.position with
              deposited := deposited
              shares := shares
              yieldDebt := debt
              compoundEnabled := compoundEnabled } }
  | none => do
      registerProvider provider
      let debt ← check (s.yieldDebt newShares (.overflow (some .overflow)))
      pure
        { owed := 0
          position :=
            { provider := provider
              deposited := amount
              shares := newShares
              yieldClaimed := 0
              yieldDebt := debt
              depositedAt := env.now
              lastYieldClaim := env.now
              compoundEnabled := compoundEnabled
              insuranceEnabled := false
              insurancePaid := 0 } }

/-- Take the deposit from the provider and check that it arrived. -/
def pullDeposit (env : Env) (usdc provider : Address) (amount : ℤ) :
    Call Unit := do
  let before ← get
  transferToken env usdc provider env.self amount (.error .invalidToken)
  let after ← get
  ensure
    ((after.bank.balance usdc env.self : ℤ) -
        before.bank.balance usdc env.self = amount)
    .invalidToken

def deposit (env : Env) (provider : Address) (amount minSharesOut : ℤ)
    (compoundEnabled : Bool) : Call ℤ := do
  requireNotZeroAddress provider
  requireAuth env provider
  requireNotAdmin provider
  ensure (0 < amount) .zeroAmount
  ensure (minDeposit ≤ amount) .depositTooSmall
  ensure (amount.tmod minDeposit = 0) .invalidAmount
  assertActive
  let _ ← sweepExpiredExits env maxAutoExitScan (some provider)
  let s ← load
  let newTotalDeposited ← i128 (s.totalDeposited + amount)
    (.overflow (some .overflow))
  ensure (newTotalDeposited ≤ s.capacity.maxTotalDeposited) .poolCapExceeded
  ensure (s.currentUtilizationBps < s.capacity.maxUtilizationBps)
    .poolCapExceeded
  let (newShares, burnShares) ← check (s.mintedShares amount)
  ensure (minShares ≤ newShares) .zeroAmount
  ensure (minSharesOut ≤ newShares) .insufficientShares
  let usdc ← unwrap s.usdcToken .trap
  pullDeposit env usdc provider amount
  let isNewLp := (s.lpPosition provider).isNone
  let credited ← creditDeposit env provider amount newShares compoundEnabled
  let newTotalShares ← i128 (s.totalShares + newShares + burnShares)
    (.overflow (some .overflow))
  update fun s =>
    (s.setPosition provider credited.position).withTotals newTotalDeposited
      newTotalShares
  let category ← unwrap s.category .trap
  recordNft env provider isNewLp category credited.position
  -- With compounding on, the settled yield stays in the pool.
  whenever (¬ (compoundEnabled = true ∧ 0 < credited.owed)) do
    payOutYield env provider credited.owed
  pure newShares

def depositWithToken (env : Env) (provider depositToken : Address)
    (amount minSharesOut : ℤ) (compoundEnabled : Bool) : Call ℤ := do
  let s ← load
  let usdc ← unwrap s.usdcToken (.error .notInitialized)
  ensure (depositToken = usdc) .invalidToken
  deposit env provider amount minSharesOut compoundEnabled

/-! ## Leaving -/

def withdraw (env : Env) (provider : Address) (shares : ℤ) : Call ℤ := do
  requireAuth env provider
  ensure (0 < shares) .zeroAmount
  let _ ← sweepExpiredExits env maxAutoExitScan (some provider)
  withdrawInner env provider shares

/-- A withdrawal the administrator approves, also while the pool is paused. -/
def emergencyWithdraw (env : Env) (provider admin : Address) (shares : ℤ) :
    Call ℤ := do
  requireAuth env provider
  requireAdmin env admin
  ensure (0 < shares) .zeroAmount
  let s ← load
  let position ← unwrap (s.lpPosition provider) (.error .noShares)
  ensure (shares ≤ position.shares) .insufficientFunds
  let redemption ← redeem env provider shares position .undercollateralized
  let usdc ← unwrap s.usdcToken .trap
  let totalPayout ← i128 (redemption.amount + redemption.owed) (.overflow none)
  transferToken env usdc env.self provider totalPayout
  pure redemption.amount

def claimYield (env : Env) (provider : Address) : Call ℤ := do
  requireAuth env provider
  let s ← load
  let position ← unwrap (s.lpPosition provider) (.error .noShares)
  let settled ← check (s.settleYield env.now position)
  whenever (0 < settled.owed) do
    update fun s => s.setPosition provider settled.position
  payOutYield env provider settled.owed
  pure settled.owed

/-! ## The exit queue -/

/-- Queue `shares` for an exit, on top of what is already queued. -/
def requestExit (env : Env) (provider : Address) (shares : ℤ) :
    Call Unit := do
  requireAuth env provider
  ensure (0 < shares) .zeroAmount
  assertWithdrawable
  let _ ← sweepExpiredExits env maxAutoExitScan (some provider)
  let s ← load
  let position ← unwrap (s.lpPosition provider) (.error .noShares)
  let request : ExitRequest :=
    match s.exitReq provider with
    | some prev => { prev with
        provider := provider
        shares := satI128 (prev.shares + shares) }
    | none =>
        { provider := provider
          shares := shares
          requestedAt := env.now
          claimableAt := satAddU64 env.now s.exitDelay }
  ensure (request.shares ≤ position.shares) .insufficientFunds
  update fun s =>
    { s with
      exitReq := Function.update s.exitReq provider (some request)
      queuedExitShares := satI128 (s.queuedExitShares + shares) }

def claimExit (env : Env) (provider : Address) : Call ℤ := do
  requireAuth env provider
  let s ← load
  let request ← unwrap (s.exitReq provider) (.error .noExitRequest)
  ensure (request.claimableAt ≤ env.now) .exitDelayNotElapsed
  clearExitReservation provider request.shares
  withdrawInner env provider request.shares

def processExpiredExits (env : Env) (maxScan : ℕ) : Call ℕ :=
  sweepExpiredExits env (min maxScan maxAutoExitScan) none

def cancelExit (env : Env) (provider : Address) : Call Unit := do
  requireAuth env provider
  let s ← load
  let request ← unwrap (s.exitReq provider) (.error .noExitRequest)
  clearExitReservation provider request.shares

/-! ## Transfers of positions -/

/-- Credit the receiving side of a transfer; returns its position. -/
def creditTransfer (env : Env) (recipient : Address) (shares amount : ℤ) :
    Call LpPosition := do
  let s ← load
  match s.lpPosition recipient with
  | some position => do
      let settled ← check (s.settleYield env.now position)
      let deposited ← i128 (settled.position.deposited + amount) (.overflow none)
      let held ← i128 (settled.position.shares + shares) (.overflow none)
      let debt ← check (s.yieldDebt held (.overflow none))
      let newPosition : LpPosition :=
        { settled.position with
          deposited := deposited, shares := held, yieldDebt := debt }
      update fun s => s.setPosition recipient newPosition
      payOutYield env recipient settled.owed
      pure newPosition
  | none => do
      registerProvider recipient
      let debt ← check (s.yieldDebt shares (.overflow none))
      let newPosition : LpPosition :=
        { provider := recipient
          deposited := amount
          shares := shares
          yieldClaimed := 0
          yieldDebt := debt
          depositedAt := env.now
          lastYieldClaim := env.now
          compoundEnabled := false
          insuranceEnabled := false
          insurancePaid := 0 }
      update fun s => s.setPosition recipient newPosition
      pure newPosition

def transferPosition (env : Env) (sender recipient : Address) (shares : ℤ) :
    Call ℤ := do
  requireAuth env sender
  ensure (0 < shares) .zeroAmount
  ensure (sender ≠ recipient) .invalidAddress
  requireNotAdmin recipient
  assertActive
  let s ← load
  let position ← unwrap (s.lpPosition sender) (.error .noShares)
  ensure (shares ≤ position.shares) .insufficientShares
  let amount ← check
    (Check.mulDiv shares position.deposited position.shares
      (.overflow (some .overflow)) (.error .overflow))
  ensure (amount ≠ 0) .zeroAmount
  let settled ← check (s.settleYield env.now position)
  let left ← i128 (settled.position.shares - shares) (.overflow none)
  let debt ← check (s.yieldDebt left (.overflow none))
  let newPosition : LpPosition :=
    { settled.position with
      deposited := satI128 (settled.position.deposited - amount)
      shares := left
      yieldDebt := debt }
  update fun s => s.setPosition sender newPosition
  updateLpNft sender newPosition
  payOutYield env sender settled.owed
  let isNewLp := (s.lpPosition recipient).isNone
  let toPosition ← creditTransfer env recipient shares amount
  let category ← unwrap s.category .trap
  recordNft env recipient isNewLp category toPosition
  pure amount

def transferShares (env : Env) (sender recipient : Address) (shares : ℤ) :
    Call ℤ := do
  ensure (0 < shares) .zeroAmount
  transferPosition env sender recipient shares

def toggleCompound (env : Env) (provider : Address) (enabled : Bool) :
    Call Unit := do
  requireAuth env provider
  let s ← load
  let position ← unwrap (s.lpPosition provider) (.error .noShares)
  update fun s =>
    s.setPosition provider { position with compoundEnabled := enabled }

end Parashield.RiskPool
