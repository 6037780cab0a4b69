import Parashield.RiskPool.Admin
import Parashield.RiskPool.Capital
import Parashield.RiskPool.Liquidity
import Parashield.Support.Transition
import Parashield.Support.Yield

/-!
# Risk pool: the pool book

The part of the pool its providers depend on: positions, locks, totals, the
exit queue and the tokens.  `Book.Change` lists everything that can happen to
it, with everything each change writes; every call of the pool performs a
sequence of these changes.
-/

namespace Parashield.RiskPool

open Support Support.Contract

/-- The shares of a position and its yield debt. -/
def LpPosition.account (p : LpPosition) : Yield.Account where
  shares := p.shares
  debt := p.yieldDebt

/-- The pool book. -/
@[ext] structure Book where
  initialized : Bool
  usdcToken : Option Address
  totalDeposited : ℤ
  totalLocked : ℤ
  totalShares : ℤ
  accumulatedPerShare : ℤ
  premiumSplit : PremiumSplit
  lpPosition : Address → Option LpPosition
  lock : ℕ → Option CapitalLock
  exitReq : Address → Option ExitRequest
  queuedExitShares : ℤ
  bank : Bank

/-- The book kept by a machine. -/
def book (m : Machine State) : Book where
  initialized := m.store.initialized
  usdcToken := m.store.usdcToken
  totalDeposited := m.store.totalDeposited
  totalLocked := m.store.totalLocked
  totalShares := m.store.totalShares
  accumulatedPerShare := m.store.accumulatedPerShare
  premiumSplit := m.store.premiumSplit
  lpPosition := m.store.lpPosition
  lock := m.store.lock
  exitReq := m.store.exitReq
  queuedExitShares := m.store.queuedExitShares
  bank := m.bank

/-- Payments of the pool at `self` in its own token, if it has one. -/
def Pays (self : Address) (token : Option Address)
    (payments : List (Address × ℤ)) (B B' : Bank) : Prop :=
  (payments = [] ∧ B' = B) ∨
    ∃ usdc, token = some usdc ∧
      Bank.payAll usdc self payments B = some B'

theorem Pays.single {self usdc recipient : Address} {token : Option Address}
    {amount : ℤ} {B B' : Bank} (htoken : token = some usdc)
    (h : B.transfer usdc self recipient amount = some B') :
    Pays self token [(recipient, amount)] B B' :=
  .inr ⟨usdc, htoken, Bank.payAll_cons_eq_some.mpr ⟨B', h, rfl⟩⟩

theorem Pays.append {self : Address} {token : Option Address}
    {payments payments' : List (Address × ℤ)} {B B₁ B₂ : Bank}
    (h : Pays self token payments B B₁)
    (h' : Pays self token payments' B₁ B₂) :
    Pays self token (payments ++ payments') B B₂ := by
  rcases h with ⟨rfl, rfl⟩ | ⟨usdc, htoken, hall⟩
  · exact h'
  · rcases h' with ⟨rfl, rfl⟩ | ⟨usdc', htoken', hall'⟩
    · rw [List.append_nil]
      exact .inr ⟨usdc, htoken, hall⟩
    · obtain rfl := Option.some.inj (htoken.symm.trans htoken')
      exact .inr ⟨usdc, htoken, Bank.payAll_append hall hall'⟩

/-- The payment of settled yield, if there is any. -/
def yieldPayment (provider : Address) (owed : ℤ) : List (Address × ℤ) :=
  if 0 < owed then [(provider, owed)] else []

namespace Book

/-- The account of `a`; empty where there is no position. -/
def account (b : Book) (a : Address) : Yield.Account :=
  match b.lpPosition a with
  | some p => p.account
  | none => { shares := 0, debt := 0 }

/-- Coverage still earmarked for policy `id`. -/
def lockedFor (b : Book) (id : ℕ) : ℤ :=
  match b.lock id with
  | some l => if l.released then 0 else l.amount
  | none => 0

def setPosition (b : Book) (a : Address) (p : LpPosition) :
    Address → Option LpPosition :=
  Function.update b.lpPosition a (some p)

def debtOf (b : Book) (shares : ℤ) : ℤ :=
  (b.accumulatedPerShare * shares).tdiv perShareScale

/-- The position with its yield counted up to `now`. -/
def settled (b : Book) (now : ℕ) (p : LpPosition) : Settlement :=
  if b.totalShares = 0 then
    { owed := 0, position := p }
  else
    let claimable := satI128 (b.debtOf p.shares - p.yieldDebt)
    { owed := claimable
      position :=
        if 0 < claimable then
          { p with
            yieldClaimed := p.yieldClaimed + claimable
            lastYieldClaim := now
            yieldDebt := b.debtOf p.shares }
        else
          p }

/-- The position after giving up `shares` worth `amount`. -/
def reduced (b : Book) (now : ℕ) (p : LpPosition) (shares amount : ℤ) :
    LpPosition :=
  let r := (b.settled now p).position
  { r with
    deposited := satI128 (r.deposited - amount)
    shares := p.shares - shares
    yieldDebt := b.debtOf (p.shares - shares) }

/-- The position of `a` after receiving `shares` worth `amount`, and the yield
it was owed. -/
def increased (b : Book) (now : ℕ) (a : Address) (shares amount : ℤ)
    (compound : Option Bool) : Settlement :=
  match b.lpPosition a with
  | some p =>
      let r := b.settled now p
      { owed := r.owed
        position :=
          { r.position with
            deposited := r.position.deposited + amount
            shares := p.shares + shares
            yieldDebt := b.debtOf (p.shares + shares)
            compoundEnabled := compound.getD r.position.compoundEnabled } }
  | none =>
      { owed := 0
        position :=
          { provider := a
            deposited := amount
            shares := shares
            yieldClaimed := 0
            yieldDebt := b.debtOf shares
            depositedAt := now
            lastYieldClaim := now
            compoundEnabled := compound.getD false
            insuranceEnabled := false
            insurancePaid := 0 } }

def available (b : Book) : ℤ :=
  satI128 (b.totalDeposited - b.totalLocked)

/-- What `shares` are worth. -/
def redeemed (b : Book) (shares : ℤ) : ℤ :=
  (shares * b.totalDeposited).tdiv b.totalShares

/-- `shares` of `provider` may be redeemed now. -/
structure Redeems (b : Book) (provider : Address) (shares : ℤ)
    (p : LpPosition) : Prop where
  found : b.lpPosition provider = some p
  pos : 0 < shares
  held : shares ≤ p.shares
  issued : b.totalShares ≠ 0
  amount_ne : b.redeemed shares ≠ 0
  affordable : b.redeemed shares ≤ b.available
  deposited_range : InI128 (b.totalDeposited - b.redeemed shares)
  shares_range : InI128 (b.totalShares - shares)

/-- What a redemption pays: the amount and the yield, apart or in one. -/
def redeemPayments (b : Book) (now : ℕ) (provider : Address) (shares : ℤ)
    (p : LpPosition) (joint : Bool) : List (Address × ℤ) :=
  if joint then
    [(provider, b.redeemed shares + (b.settled now p).owed)]
  else
    (provider, b.redeemed shares) ::
      yieldPayment provider (b.settled now p).owed

/-- Shares minted for a deposit; the first one leaves some to nobody. -/
structure Mints (b : Book) (amount newShares burnShares : ℤ) : Prop where
  amount_ge : minDeposit ≤ amount
  shares_ge : minShares ≤ newShares
  first : b.totalShares = 0 →
    newShares = amount * 1000000000 - lockedShares ∧ burnShares = lockedShares
  later : b.totalShares ≠ 0 →
    newShares = (amount * b.totalShares).tdiv b.totalDeposited ∧
      burnShares = 0
  deposited_range : InI128 (b.totalDeposited + amount)
  shares_range : InI128 (b.totalShares + newShares + burnShares)

/-- What a premium for the LPs adds to the accumulator. -/
def increment (b : Book) (lpShare : ℤ) : ℤ :=
  if 0 < b.totalShares then
    (lpShare * perShareScale).tdiv b.totalShares
  else
    0

/-- Shares seized by a liquidation at `bps` below full collateral. -/
structure Seizes (b : Book) (provider : Address) (p : LpPosition)
    (bps seized : ℤ) : Prop where
  found : b.lpPosition provider = some p
  bps_pos : 0 < bps
  bps_le : bps ≤ 10000
  seized_eq : seized = mulDivOrZero p.shares bps 10000
  seized_pos : 0 < seized

/-- What a liquidation takes off the deposits. -/
def recovered (b : Book) (seized : ℤ) : ℤ :=
  if 0 < b.totalShares then
    mulDivOrZero seized b.totalDeposited b.totalShares
  else
    0

def seizedPosition (b : Book) (p : LpPosition) (seized : ℤ) : LpPosition :=
  { p with
    shares := satI128 (p.shares - seized)
    deposited := satI128 (p.deposited - b.recovered seized) }

/-- What a change does. -/
inductive Kind where
  | wire
  | burn (provider : Address) (shares : ℤ) (joint : Bool)
  | mint (provider : Address) (newShares : ℤ) (compound : Bool)
  | move (sender recipient : Address) (shares : ℤ)
  | collect (provider : Address)
  | accrue (lpShare : ℤ)
  | forward (amount : ℤ)
  | recover (recovered paid : ℤ)
  | adminWithdraw (amount : ℤ)
  | lock (id : ℕ) (amount : ℤ)
  | release (id : ℕ)
  | liquidate (provider : Address) (seized : ℤ)
  | resplit
  | toggle (provider : Address)
  | enqueue (provider : Address)
  | clear (provider : Address)

/-- One change of the book under the environment of a call. -/
inductive Change (env : Env) : Kind → Book → Book → Prop
  | wire {b : Book} {usdc : Address} :
      b.initialized = false →
      Change env .wire b
        { b with
          initialized := true
          usdcToken := some usdc
          totalDeposited := 0
          totalLocked := 0
          totalShares := 0
          accumulatedPerShare := 0 }
  | burn {b : Book} {provider : Address} {shares : ℤ} {p : LpPosition}
      {joint : Bool} {B : Bank} :
      Redeems b provider shares p →
      Pays env.self b.usdcToken
        (b.redeemPayments env.now provider shares p joint) b.bank B →
      Change env (.burn provider shares joint) b
        { b with
          lpPosition :=
            b.setPosition provider
              (b.reduced env.now p shares (b.redeemed shares))
          totalDeposited := b.totalDeposited - b.redeemed shares
          totalShares := b.totalShares - shares
          bank := B }
  | mint {b : Book} {provider : Address}
      {amount newShares burnShares : ℤ} {compound : Bool} {usdc : Address}
      {B B' : Bank} :
      Mints b amount newShares burnShares →
      b.usdcToken = some usdc →
      b.bank.transfer usdc provider env.self amount = some B →
      (B.balance usdc env.self : ℤ) = b.bank.balance usdc env.self + amount →
      Pays env.self b.usdcToken
        (if compound then []
          else yieldPayment provider
            (b.increased env.now provider newShares amount
              (some compound)).owed) B B' →
      Change env (.mint provider newShares compound) b
        { b with
          lpPosition :=
            b.setPosition provider
              (b.increased env.now provider newShares amount
                (some compound)).position
          totalDeposited := b.totalDeposited + amount
          totalShares := b.totalShares + newShares + burnShares
          bank := B' }
  | move {b : Book} {sender recipient : Address} {shares amount : ℤ}
      {p : LpPosition} {B : Bank} :
      sender ≠ recipient →
      b.lpPosition sender = some p →
      0 < shares →
      shares ≤ p.shares →
      amount = (shares * p.deposited).tdiv p.shares →
      amount ≠ 0 →
      Pays env.self b.usdcToken
        (yieldPayment sender (b.settled env.now p).owed ++
          yieldPayment recipient
            (b.increased env.now recipient shares amount none).owed)
        b.bank B →
      Change env (.move sender recipient shares) b
        { b with
          lpPosition :=
            Function.update
              (b.setPosition sender (b.reduced env.now p shares amount))
              recipient
              (some (b.increased env.now recipient shares amount
                none).position)
          bank := B }
  | collect {b : Book} {provider : Address} {p : LpPosition} {B : Bank} :
      b.lpPosition provider = some p →
      0 < (b.settled env.now p).owed →
      Pays env.self b.usdcToken
        [(provider, (b.settled env.now p).owed)] b.bank B →
      Change env (.collect provider) b
        { b with
          lpPosition :=
            b.setPosition provider (b.settled env.now p).position
          bank := B }
  | accrue {b : Book} {caller usdc treasury backstop : Address}
      {amount lpShare : ℤ} {B B' : Bank} :
      0 < amount →
      caller ∈ env.signers →
      b.usdcToken = some usdc →
      b.bank.transfer usdc caller env.self amount = some B →
      Bank.payAll usdc env.self
        [(treasury, (amount * b.premiumSplit.treasBps).tdiv 10000),
          (backstop, (amount * b.premiumSplit.backstopBps).tdiv 10000)] B =
        some B' →
      lpShare = (amount * b.premiumSplit.lpBps).tdiv 10000 →
      Change env (.accrue lpShare) b
        { b with
          accumulatedPerShare := b.accumulatedPerShare + b.increment lpShare
          bank := B' }
  | forward {b : Book} {usdc account : Address} {amount : ℤ} {B : Bank} :
      0 < amount →
      b.usdcToken = some usdc →
      Bank.payAll usdc env.self [(account, amount)] b.bank = some B →
      Change env (.forward amount) b { b with bank := B }
  | recover {b : Book} {usdc reinsurer : Address} {recovered paid : ℤ}
      {B : Bank} :
      reinsurer ≠ env.self →
      0 ≤ recovered →
      (0 < recovered → InI128 (b.totalDeposited + recovered)) →
      b.usdcToken = some usdc →
      b.bank.transfer usdc reinsurer env.self paid = some B →
      Change env (.recover recovered paid) b
        { b with
          totalDeposited := b.totalDeposited + recovered
          bank := B }
  | adminWithdraw {b : Book} {usdc treasury : Address} {amount : ℤ}
      {B : Bank} :
      amount ≤ b.available →
      b.usdcToken = some usdc →
      Bank.payAll usdc env.self [(treasury, amount)] b.bank = some B →
      Change env (.adminWithdraw amount) b
        { b with
          totalDeposited := satI128 (b.totalDeposited - amount)
          bank := B }
  | lock {b : Book} {id : ℕ} {amount : ℤ} :
      b.lock id = none →
      0 < amount →
      amount ≤ b.available →
      InI128 (b.totalLocked + amount) →
      Change env (.lock id amount) b
        { b with
          lock :=
            Function.update b.lock id
              (some
                { policyId := id
                  amount := amount
                  lockedAt := env.now
                  released := false })
          totalLocked := b.totalLocked + amount }
  | release {b : Book} {id : ℕ} {l : CapitalLock} :
      b.lock id = some l →
      l.released = false →
      Change env (.release id) b
        { b with
          lock := Function.update b.lock id (some { l with released := true })
          totalLocked := satI128 (b.totalLocked - l.amount) }
  | liquidate {b : Book} {provider : Address} {p : LpPosition}
      {bps seized : ℤ} :
      Seizes b provider p bps seized →
      Change env (.liquidate provider seized) b
        { b with
          lpPosition :=
            Function.update b.lpPosition provider
              (if (b.seizedPosition p seized).shares ≤ 0 then none
                else some (b.seizedPosition p seized))
          totalShares := satI128 (b.totalShares - seized)
          totalDeposited := satI128 (b.totalDeposited - b.recovered seized) }
  | resplit {b : Book} {split : PremiumSplit} :
      0 ≤ split.lpBps → 0 ≤ split.treasBps → 0 ≤ split.backstopBps →
      split.lpBps + split.treasBps + split.backstopBps = 10000 →
      Change env .resplit b { b with premiumSplit := split }
  | toggle {b : Book} {provider : Address} {p : LpPosition} {enabled : Bool} :
      b.lpPosition provider = some p →
      Change env (.toggle provider) b
        { b with
          lpPosition :=
            b.setPosition provider { p with compoundEnabled := enabled } }
  | enqueue {b : Book} {provider : Address} {p : LpPosition} {shares : ℤ}
      {request : ExitRequest} :
      b.lpPosition provider = some p →
      0 < shares →
      request.provider = provider →
      request.shares =
        (match b.exitReq provider with
          | some prev => satI128 (prev.shares + shares)
          | none => shares) →
      request.shares ≤ p.shares →
      Change env (.enqueue provider) b
        { b with
          exitReq := Function.update b.exitReq provider (some request)
          queuedExitShares := satI128 (b.queuedExitShares + shares) }
  | clear {b : Book} {provider : Address} {request : ExitRequest} :
      b.exitReq provider = some request →
      Change env (.clear provider) b
        { b with
          exitReq := Function.update b.exitReq provider none
          queuedExitShares :=
            max 0 (satI128 (b.queuedExitShares - request.shares)) }

/-- Sequences of changes made by one call. -/
def changes (env : Env) : TransitionSystem Book Kind where
  Init _ := True
  Step b k b' := Change env k b b'

theorem Change.run {env : Env} {k : Kind} {b b' : Book}
    (h : Change env k b b') : (changes env).Run b [k] b' :=
  .cons h (.nil b')

end Book

end Parashield.RiskPool
