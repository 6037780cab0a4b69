import Parashield.RiskPool.Positions

/-!
# Risk pool: premiums, capital locks and reinsurance

Premiums come in and are forwarded; capital is earmarked for policies and
released; losses are recovered from a reinsurer; positions are liquidated.
-/

namespace Parashield.RiskPool

open Support Support.Contract Invocation

/-! ## Premiums -/

/-- One part of a premium. -/
def premiumShare (amount bps : ℤ) : View ℤ := do
  let v ← Check.i128 (amount * bps) (.overflow none)
  pure (v.tdiv 10000)

/-- What a premium for the LPs adds to the accumulator. -/
def State.perShareIncrement (s : State) (lpShare : ℤ) : View ℤ :=
  if 0 < s.totalShares then do
    let increment ←
      Check.mulDiv lpShare perShareScale s.totalShares
        (.overflow (some .overflow)) (.error .overflow)
    let _ ← Check.i128 (s.accumulatedPerShare + increment) (.overflow none)
    pure increment
  else
    pure 0

def receivePremium (env : Env) (caller : Address) (amount : ℤ) :
    Call Unit := do
  requireAuth env caller
  whenever (0 < amount) do
    let s ← load
    let usdc ← unwrap s.usdcToken .trap
    transferToken env usdc caller env.self amount
    let lpShare ← check (premiumShare amount s.premiumSplit.lpBps)
    let treasShare ← check (premiumShare amount s.premiumSplit.treasBps)
    let backstopShare ← check (premiumShare amount s.premiumSplit.backstopBps)
    let premium ← i128 (s.accumulatedPremium + lpShare) (.overflow none)
    let increment ← check (s.perShareIncrement lpShare)
    let backstopPremium ← i128 (s.accumulatedBackstop + backstopShare)
      (.overflow none)
    update fun s =>
      { s with
        accumulatedPremium := premium
        accumulatedPerShare := s.accumulatedPerShare + increment
        accumulatedBackstop := backstopPremium }
    let treasury ← unwrap s.treasury .trap
    transferToken env usdc env.self treasury treasShare
    let backstop ← unwrap s.backstop .trap
    transferToken env usdc env.self backstop backstopShare

/-- Forward `amount` of the pool's tokens to `recipient`. -/
def sendPremium (env : Env) (amount : ℤ) (recipient : State → Option Address) :
    Call Unit := do
  let s ← load
  let usdc ← unwrap s.usdcToken .trap
  let account ← unwrap (recipient s) .trap
  transferToken env usdc env.self account amount

def sendPremiumToTreasury (env : Env) (caller : Address) (amount : ℤ) :
    Call Unit := do
  requireAdmin env caller
  ensure (0 < amount) .zeroAmount
  sendPremium env amount State.treasury

def sendPremiumToBackstop (env : Env) (caller : Address) (amount : ℤ) :
    Call Unit := do
  requireAdmin env caller
  ensure (0 < amount) .zeroAmount
  sendPremium env amount State.backstop

/-! ## Capital locks -/

def lockForPolicy (env : Env) (caller : Address) (policyId : ℕ)
    (amount : ℤ) : Call Unit := do
  requireProtocolCaller env caller
  assertActive
  ensure (0 < amount) .zeroAmount
  let s ← load
  ensure (amount ≤ s.getAvailableLiquidity) .undercollateralized
  whenever (s.capacity.maxUtilizationBps < 10000) do
    let maxLockable :=
      (satI128 (s.totalDeposited * s.capacity.maxUtilizationBps)).tdiv 10000
    ensure (satI128 (s.totalLocked + amount) ≤ maxLockable)
      .utilizationCapExceeded
  ensure (s.lock policyId = none) .alreadyLocked
  let locked ← i128 (s.totalLocked + amount) (.overflow (some .overflow))
  update fun s =>
    { s with
      lock :=
        Function.update s.lock policyId
          (some
            { policyId := policyId
              amount := amount
              lockedAt := env.now
              released := false })
      totalLocked := locked }

/-- Mark a lock released and take it off the locked total. -/
def releaseLock (policyId : ℕ) (lock : CapitalLock) : Call Unit :=
  update fun s =>
    { s with
      lock :=
        Function.update s.lock policyId (some { lock with released := true })
      totalLocked := satI128 (s.totalLocked - lock.amount) }

def releaseForClaim (env : Env) (caller : Address) (policyId : ℕ) :
    Call Unit := do
  requireProtocolCaller env caller
  let s ← load
  let lock ← unwrap (s.lock policyId) (.error .lockNotFound)
  ensure (0 < lock.amount) .zeroAmount
  ensure (lock.released = false) .alreadyReleased
  releaseLock policyId lock

def releaseForExpiry (env : Env) (caller : Address) (policyId : ℕ) :
    Call Unit := do
  requireProtocolCaller env caller
  let s ← load
  let lock ← unwrap (s.lock policyId) (.error .lockNotFound)
  ensure (lock.released = false) .alreadyReleased
  releaseLock policyId lock

/-! ## Reinsurance -/

/-- What the reinsurer does when asked to recover a loss: the amount it
reports, and the amount it transfers to the pool.  The reinsurer is an
external contract. -/
structure ReinsurerAnswer where
  report : ℤ
  paid : ℤ
  deriving DecidableEq, Repr

/-- The call of `recover`; it fails if there is no answer. -/
def recover (env : Env) (usdc reinsurer : Address)
    (answer : Option ReinsurerAnswer) : Call ℤ := do
  require (reinsurer.isContract = true ∧ reinsurer ≠ env.self) .trap
  let a ← unwrap answer .trap
  let report ← i128 a.report (.overflow none)
  transferToken (env.enter reinsurer) usdc reinsurer env.self a.paid
  pure report

/-- `probe` says whether the reinsurer accepts the test call. -/
def setReinsurance (env : Env) (admin reinsurer : Address)
    (attachmentPoint coverageLimit : ℤ) (probe : Bool) : Call Unit := do
  requireAdmin env admin
  ensure (0 ≤ attachmentPoint ∧ 0 ≤ coverageLimit) .invalidReinsuranceConfig
  ensure (probe = true ∧ reinsurer.isContract = true ∧ reinsurer ≠ env.self)
    .invalidReinsuranceConfig
  update fun s =>
    { s with
      reinsurance :=
        some
          { reinsurer := reinsurer
            attachmentPoint := attachmentPoint
            coverageLimit := coverageLimit
            active := true } }

def setReinsuranceActive (env : Env) (admin : Address) (active : Bool) :
    Call Unit := do
  requireAdmin env admin
  let s ← load
  let config ← unwrap s.reinsurance (.error .reinsuranceNotConfigured)
  update fun s => { s with reinsurance := some { config with active := active } }

def sendPremiumToReinsurer (env : Env) (caller : Address) (amount : ℤ) :
    Call Unit := do
  requireAdmin env caller
  ensure (0 < amount) .zeroAmount
  let s ← load
  let config ← unwrap s.reinsurance (.error .reinsuranceNotConfigured)
  update fun s =>
    { s with
      reinsurancePremiumPaid := satI128 (s.reinsurancePremiumPaid + amount) }
  sendPremium env amount fun _ => some config.reinsurer

namespace State

/-- The part of a loss the reinsurer is asked for, if any. -/
def recoveryRequest (s : State) (lossAmount : ℤ) :
    Option (ReinsuranceConfig × ℤ) :=
  if lossAmount ≤ 0 then
    none
  else
    match s.reinsurance with
    | none => none
    | some config =>
        if config.active = false ∨ lossAmount ≤ config.attachmentPoint then
          none
        else
          let remaining :=
            max (satI128 (config.coverageLimit - s.reinsuranceRecovered)) 0
          if remaining ≤ 0 then
            none
          else
            some (config, min (lossAmount - config.attachmentPoint) remaining)

end State

def requestReinsuranceRecovery (env : Env) (caller : Address)
    (lossAmount : ℤ) (answer : Option ReinsurerAnswer) : Call ℤ := do
  requireProtocolCaller env caller
  let s ← load
  match s.recoveryRequest lossAmount with
  | none => pure 0
  | some (config, requested) => do
      let usdc ← unwrap s.usdcToken .trap
      let report ← recover env usdc config.reinsurer answer
      let recovered := max 0 (min report requested)
      whenever (0 < recovered) do
        let deposited ← i128 (s.totalDeposited + recovered)
          (.overflow (some .overflow))
        update fun s =>
          { s with
            totalDeposited := deposited
            reinsuranceRecovered :=
              satI128 (s.reinsuranceRecovered + recovered) }
      pure recovered

/-! ## Liquidation -/

/-- `checked_mul` and `checked_div`, zero when either fails. -/
def mulDivOrZero (x y d : ℤ) : ℤ :=
  if InI128 (x * y) ∧ d ≠ 0 ∧ InI128 ((x * y).tdiv d) then
    (x * y).tdiv d
  else
    0

def State.getCollateralizationRatio (s : State) (provider : Address) :
    View CollateralizationInfo := do
  let position ← Check.unwrap (s.lpPosition provider) (.error .noShares)
  if s.totalShares = 0 ∨ position.shares = 0 then
    pure
      { provider := provider
        positionValue := 0
        positionLiability := 0
        collateralizationBps := maxU32 }
  else
    let value :=
      mulDivOrZero position.shares s.getAvailableLiquidity s.totalShares
    let liability :=
      mulDivOrZero position.shares s.totalLocked s.totalShares
    let ratio := mulDivOrZero value 10000 liability
    pure
      { provider := provider
        positionValue := value
        positionLiability := liability
        collateralizationBps :=
          if liability ≤ 0 then maxU32
          else if (maxU32 : ℤ) < ratio then maxU32
          else (ratio % 2 ^ 32).toNat }

def liquidatePosition (env : Env) (caller provider : Address) :
    Call LiquidationResult := do
  requireProtocolCaller env caller
  let s ← load
  let position ← unwrap (s.lpPosition provider) (.error .noShares)
  let info ← check (s.getCollateralizationRatio provider)
  ensure (info.collateralizationBps < 10000 ∧ 0 < info.positionLiability)
    .undercollateralized
  let undercollateralBps : ℤ := 10000 - info.collateralizationBps
  let seized := mulDivOrZero position.shares undercollateralBps 10000
  ensure (0 < seized) .undercollateralized
  let recovered :=
    if 0 < s.totalShares then
      mulDivOrZero seized s.totalDeposited s.totalShares
    else
      0
  let newPosition : LpPosition :=
    { position with
      shares := satI128 (position.shares - seized)
      deposited := satI128 (position.deposited - recovered) }
  update fun s =>
    { s with
      lpPosition :=
        Function.update s.lpPosition provider
          (if newPosition.shares ≤ 0 then none else some newPosition)
      totalShares := satI128 (s.totalShares - seized)
      totalDeposited := satI128 (s.totalDeposited - recovered) }
  pure
    { provider := provider
      sharesSeized := seized
      amountRecovered := recovered
      previousRatioBps := info.collateralizationBps }

end Parashield.RiskPool
