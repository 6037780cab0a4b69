import Parashield.Deployment
import Parashield.RiskPool.Changes
import Parashield.RiskPool.Registry

/-!
# Risk pool: entry points and runs

All state-changing entry points of the pool, and what those of the
administrator and of the other contracts do to the pool book.
-/

namespace Parashield.RiskPool

open Support Support.Contract Invocation Book

/-- The state-changing entry points with their arguments.  What the external
reinsurer does during a call comes with the call. -/
inductive Entry where
  | initializePool (admin usdcToken treasury backstop : Address)
      (category : Symbol) (policyEngine claimsProcessor : Address)
  | depositWithToken (provider depositToken : Address)
      (amount minSharesOut : ℤ) (compoundEnabled : Bool)
  | deposit (provider : Address) (amount minSharesOut : ℤ)
      (compoundEnabled : Bool)
  | withdraw (provider : Address) (shares : ℤ)
  | emergencyWithdraw (provider admin : Address) (shares : ℤ)
  | transferShares (sender recipient : Address) (shares : ℤ)
  | transferPosition (sender recipient : Address) (shares : ℤ)
  | receivePremium (caller : Address) (amount : ℤ)
  | sendPremiumToTreasury (caller : Address) (amount : ℤ)
  | sendPremiumToBackstop (caller : Address) (amount : ℤ)
  | claimYield (provider : Address)
  | setCapacity (admin : Address) (maxTotalDeposited : ℤ)
      (maxUtilizationBps : ℕ)
  | setExitDelay (admin : Address) (delaySeconds : ℕ)
  | requestExit (provider : Address) (shares : ℤ)
  | claimExit (provider : Address)
  | processExpiredExits (maxScan : ℕ)
  | cancelExit (provider : Address)
  | lockForPolicy (caller : Address) (policyId : ℕ) (amount : ℤ)
  | releaseForClaim (caller : Address) (policyId : ℕ)
  | releaseForExpiry (caller : Address) (policyId : ℕ)
  | setReinsurance (admin reinsurer : Address)
      (attachmentPoint coverageLimit : ℤ) (probe : Bool)
  | setReinsuranceActive (admin : Address) (active : Bool)
  | sendPremiumToReinsurer (caller : Address) (amount : ℤ)
  | requestReinsuranceRecovery (caller : Address) (policyId : ℕ)
      (lossAmount : ℤ) (answer : Option ReinsurerAnswer)
  | pause (admin : Address)
  | resume (admin : Address)
  | startWindingDown (admin : Address)
  | updatePremiumSplit (admin : Address) (lpBps treasBps backstopBps : ℤ)
  | proposeParameterChange (admin : Address)
      (lpBps treasBps backstopBps : ℤ)
  | executeParameterChange (admin : Address)
  | cancelParameterChange (admin : Address)
  | requestAdminWithdrawal (admin : Address) (amount : ℤ)
  | approveAdminWithdrawal (guardian : Address)
  | executeAdminWithdrawal (admin : Address)
  | cancelAdminWithdrawal (admin : Address)
  | setGuardians (admin : Address) (guardians : List Address)
      (threshold : ℕ)
  | proposeRemoveGuardian (admin guardianToRemove : Address)
  | approveRemoveGuardian (guardian : Address)
  | cancelPendingGuardianRemoval (admin : Address)
  | proposeNewAdmin (admin newAdmin : Address)
  | approveAdminChange (guardian newAdmin : Address)
  | acceptAdmin (admin : Address)
  | toggleCompound (provider : Address) (enabled : Bool)
  | liquidatePosition (caller provider : Address)

def exec (env : Env) : Entry → Call Unit
  | .initializePool admin usdc treasury backstop category pe cp =>
      initializePool env admin usdc treasury backstop category pe cp
  | .depositWithToken provider token amount least compound =>
      perform (depositWithToken env provider token amount least compound)
  | .deposit provider amount least compound =>
      perform (deposit env provider amount least compound)
  | .withdraw provider shares => perform (withdraw env provider shares)
  | .emergencyWithdraw provider admin shares =>
      perform (emergencyWithdraw env provider admin shares)
  | .transferShares sender recipient shares =>
      perform (transferShares env sender recipient shares)
  | .transferPosition sender recipient shares =>
      perform (transferPosition env sender recipient shares)
  | .receivePremium caller amount => receivePremium env caller amount
  | .sendPremiumToTreasury caller amount =>
      sendPremiumToTreasury env caller amount
  | .sendPremiumToBackstop caller amount =>
      sendPremiumToBackstop env caller amount
  | .claimYield provider => perform (claimYield env provider)
  | .setCapacity admin total bps => setCapacity env admin total bps
  | .setExitDelay admin seconds => setExitDelay env admin seconds
  | .requestExit provider shares => requestExit env provider shares
  | .claimExit provider => perform (claimExit env provider)
  | .processExpiredExits maxScan => perform (processExpiredExits env maxScan)
  | .cancelExit provider => cancelExit env provider
  | .lockForPolicy caller id amount => lockForPolicy env caller id amount
  | .releaseForClaim caller id => releaseForClaim env caller id
  | .releaseForExpiry caller id => releaseForExpiry env caller id
  | .setReinsurance admin reinsurer attachment limit probe =>
      setReinsurance env admin reinsurer attachment limit probe
  | .setReinsuranceActive admin active => setReinsuranceActive env admin active
  | .sendPremiumToReinsurer caller amount =>
      sendPremiumToReinsurer env caller amount
  | .requestReinsuranceRecovery caller _ loss answer =>
      perform (requestReinsuranceRecovery env caller loss answer)
  | .pause admin => pause env admin
  | .resume admin => resume env admin
  | .startWindingDown admin => startWindingDown env admin
  | .updatePremiumSplit admin lp treas backstop =>
      updatePremiumSplit env admin lp treas backstop
  | .proposeParameterChange admin lp treas backstop =>
      proposeParameterChange env admin lp treas backstop
  | .executeParameterChange admin => executeParameterChange env admin
  | .cancelParameterChange admin => cancelParameterChange env admin
  | .requestAdminWithdrawal admin amount =>
      requestAdminWithdrawal env admin amount
  | .approveAdminWithdrawal guardian => approveAdminWithdrawal env guardian
  | .executeAdminWithdrawal admin => executeAdminWithdrawal env admin
  | .cancelAdminWithdrawal admin => cancelAdminWithdrawal env admin
  | .setGuardians admin guardians threshold =>
      setGuardians env admin guardians threshold
  | .proposeRemoveGuardian admin guardian =>
      proposeRemoveGuardian env admin guardian
  | .approveRemoveGuardian guardian => approveRemoveGuardian env guardian
  | .cancelPendingGuardianRemoval admin =>
      cancelPendingGuardianRemoval env admin
  | .proposeNewAdmin admin newAdmin => proposeNewAdmin env admin newAdmin
  | .approveAdminChange guardian newAdmin =>
      approveAdminChange env guardian newAdmin
  | .acceptAdmin admin => acceptAdmin env admin
  | .toggleCompound provider enabled => toggleCompound env provider enabled
  | .liquidatePosition caller provider =>
      perform (liquidatePosition env caller provider)

/-- Runs of the pool deployed at `self`. -/
def system (self : Address) : TransitionSystem (World State) (Label Entry) :=
  deployment exec State.deployed self

variable {env : Env} {m m' : Machine State}

/-! ## Settings leave the book and the registry alone -/

/-- What the pool takes and commits at most, and what it may recover. -/
structure Limits where
  capacity : PoolCapacity
  reinsurance : Option ReinsuranceConfig
  reinsuranceRecovered : ℤ

def State.limits (s : State) : Limits where
  capacity := s.capacity
  reinsurance := s.reinsurance
  reinsuranceRecovered := s.reinsuranceRecovered

/-- The entry points that write the limits. -/
def Entry.limits : Entry → Bool
  | .setCapacity .. | .setReinsurance .. | .setReinsuranceActive ..
  | .requestReinsuranceRecovery .. => true
  | _ => false

/-- Entry points that write nothing in the book. -/
def Entry.isSetting : Entry → Bool
  | .setCapacity .. | .setExitDelay .. | .setReinsurance ..
  | .setReinsuranceActive .. | .pause .. | .resume .. | .startWindingDown ..
  | .proposeParameterChange .. | .cancelParameterChange ..
  | .requestAdminWithdrawal .. | .approveAdminWithdrawal ..
  | .cancelAdminWithdrawal .. | .setGuardians .. | .proposeRemoveGuardian ..
  | .approveRemoveGuardian .. | .cancelPendingGuardianRemoval ..
  | .proposeNewAdmin .. | .approveAdminChange .. | .acceptAdmin .. => true
  | _ => false

theorem exec_setting {e : Entry} {u : Unit} (he : e.isSetting = true)
    (h : exec env e m = .ok (u, m')) :
    book m' = book m ∧ m'.store.registry = m.store.registry ∧
      (e.limits = false → m'.store.limits = m.store.limits) := by
  cases e with
  | setCapacity =>
      simp [exec, setCapacity, setting, requireAdmin] at h
      obtain ⟨-, -, -, rfl⟩ := h
      exact ⟨rfl, rfl, by rintro ⟨⟩⟩
  | setExitDelay =>
      simp [exec, setExitDelay, setting, requireAdmin] at h
      obtain ⟨-, -, -, rfl⟩ := h
      exact ⟨rfl, rfl, fun _ => rfl⟩
  | setReinsurance =>
      simp [exec, setReinsurance, requireAdmin] at h
      obtain ⟨-, -, -, -, rfl⟩ := h
      exact ⟨rfl, rfl, by rintro ⟨⟩⟩
  | setReinsuranceActive =>
      simp [exec, setReinsuranceActive, requireAdmin] at h
      obtain ⟨-, -, config, -, rfl⟩ := h
      exact ⟨rfl, rfl, by rintro ⟨⟩⟩
  | pause =>
      simp [exec, pause, requireAdmin] at h
      obtain ⟨-, -, rfl⟩ := h
      exact ⟨rfl, rfl, fun _ => rfl⟩
  | resume =>
      simp [exec, resume, requireAdmin] at h
      obtain ⟨-, -, rfl⟩ := h
      exact ⟨rfl, rfl, fun _ => rfl⟩
  | startWindingDown =>
      simp [exec, startWindingDown, requireAdmin, assertActive] at h
      obtain ⟨-, -, -, rfl⟩ := h
      exact ⟨rfl, rfl, fun _ => rfl⟩
  | proposeParameterChange =>
      simp [exec, proposeParameterChange, requireAdmin] at h
      obtain ⟨-, -, -, -, -, rfl⟩ := h
      exact ⟨rfl, rfl, fun _ => rfl⟩
  | cancelParameterChange =>
      simp [exec, cancelParameterChange, requireAdmin] at h
      obtain ⟨-, -, -, rfl⟩ := h
      exact ⟨rfl, rfl, fun _ => rfl⟩
  | requestAdminWithdrawal =>
      simp [exec, requestAdminWithdrawal, requireAdmin] at h
      obtain ⟨-, -, -, -, -, -, -, rfl⟩ := h
      exact ⟨rfl, rfl, fun _ => rfl⟩
  | approveAdminWithdrawal =>
      simp [exec, approveAdminWithdrawal] at h
      obtain ⟨-, -, -, rfl⟩ := h
      exact ⟨rfl, rfl, fun _ => rfl⟩
  | cancelAdminWithdrawal =>
      simp [exec, cancelAdminWithdrawal, requireAdmin] at h
      obtain ⟨-, -, -, rfl⟩ := h
      exact ⟨rfl, rfl, fun _ => rfl⟩
  | setGuardians =>
      simp [exec, setGuardians, requireAdmin] at h
      obtain ⟨-, -, -, -, rfl⟩ := h
      exact ⟨rfl, rfl, fun _ => rfl⟩
  | proposeRemoveGuardian =>
      simp [exec, proposeRemoveGuardian, requireAdmin] at h
      obtain ⟨-, -, -, -, -, -, rfl⟩ := h
      exact ⟨rfl, rfl, fun _ => rfl⟩
  | approveRemoveGuardian =>
      simp [exec, approveRemoveGuardian, ite_ok] at h
      obtain ⟨-, -, pending, -, -, -, ⟨-, -, rfl⟩ | ⟨-, rfl⟩⟩ := h
      · exact ⟨rfl, rfl, fun _ => rfl⟩
      · exact ⟨rfl, rfl, fun _ => rfl⟩
  | cancelPendingGuardianRemoval =>
      simp [exec, cancelPendingGuardianRemoval, requireAdmin] at h
      obtain ⟨-, -, -, rfl⟩ := h
      exact ⟨rfl, rfl, fun _ => rfl⟩
  | proposeNewAdmin =>
      simp [exec, proposeNewAdmin, requireAdmin, requireNotZeroAddress,
        ite_ok] at h
      obtain ⟨-, -, -, -, ⟨-, rfl⟩ | ⟨-, rfl⟩⟩ := h
      · exact ⟨rfl, rfl, fun _ => rfl⟩
      · exact ⟨rfl, rfl, fun _ => rfl⟩
  | approveAdminChange =>
      simp [exec, approveAdminChange, ite_ok] at h
      obtain ⟨-, -, pending, -, -, -, ⟨-, rfl⟩ | ⟨-, rfl⟩⟩ := h
      · exact ⟨rfl, rfl, fun _ => rfl⟩
      · exact ⟨rfl, rfl, fun _ => rfl⟩
  | acceptAdmin =>
      simp [exec, acceptAdmin, requireNotZeroAddress] at h
      obtain ⟨-, -, -, -, rfl⟩ := h
      exact ⟨rfl, rfl, fun _ => rfl⟩
  | _ => cases he

/-! ## Capital moves -/

theorem initializePool_change {admin usdc treasury backstop pe cp : Address}
    {category : Symbol} {u : Unit}
    (h : initializePool env admin usdc treasury backstop category pe cp m =
      .ok (u, m')) :
    Change env .wire (book m) (book m') := by
  simp [initializePool, requireNotZeroAddress] at h
  obtain ⟨hfresh, -, -, -, -, -, -, rfl⟩ := h
  exact .wire hfresh

theorem premiumShare_ok {amount bps share : ℤ}
    (h : premiumShare amount bps = .ok share) :
    share = (amount * bps).tdiv 10000 := by
  simp [premiumShare] at h
  exact h.2

theorem perShareIncrement_ok {lpShare increment : ℤ}
    (h : m.store.perShareIncrement lpShare = .ok increment) :
    increment = (book m).increment lpShare := by
  unfold State.perShareIncrement at h
  unfold Book.increment
  split at h
  · next hpos =>
      simp at h
      rw [if_pos (show 0 < (book m).totalShares from hpos)]
      exact h.1.2.2.2
  · next hpos =>
      rw [if_neg (show ¬ 0 < (book m).totalShares from hpos)]
      exact Check.pure_ok.mp h

theorem receivePremium_change {caller : Address} {amount : ℤ} {u : Unit}
    (h : receivePremium env caller amount m = .ok (u, m')) :
    (amount ≤ 0 ∧ book m' = book m) ∨
      Change env (.accrue ((amount * m.store.premiumSplit.lpBps).tdiv 10000))
        (book m) (book m') := by
  simp [receivePremium] at h
  obtain ⟨hauth, ⟨hpos, usdc, husdc, B, ⟨-, hB⟩, lp, hlp, treas, htreas, backs,
    hbacks, -, increment, hincrement, -, treasury, -, B₁, hB₁, backstop, -, B₂,
    hB₂, rfl⟩ | ⟨hnone, rfl⟩⟩ := h
  · right
    obtain rfl := premiumShare_ok hlp
    obtain rfl := premiumShare_ok htreas
    obtain rfl := premiumShare_ok hbacks
    obtain rfl := perShareIncrement_ok hincrement
    exact .accrue hpos hauth husdc hB (Bank.payAll_cons_eq_some.mpr
      ⟨B₁, hB₁, Bank.payAll_cons_eq_some.mpr ⟨B₂, hB₂, rfl⟩⟩) rfl
  · exact .inl ⟨hnone, rfl⟩

theorem sendPremium_change {amount : ℤ} {recipient : State → Option Address}
    {u : Unit} (hpos : 0 < amount)
    (h : sendPremium env amount recipient m = .ok (u, m')) :
    Change env (.forward amount) (book m) (book m') := by
  simp [sendPremium] at h
  obtain ⟨usdc, husdc, account, -, B, hB, rfl⟩ := h
  exact .forward hpos husdc (Bank.payAll_cons_eq_some.mpr ⟨B, hB, rfl⟩)

theorem sendPremiumToTreasury_change {caller : Address} {amount : ℤ}
    {u : Unit} (h : sendPremiumToTreasury env caller amount m = .ok (u, m')) :
    Change env (.forward amount) (book m) (book m') := by
  simp [sendPremiumToTreasury, requireAdmin] at h
  obtain ⟨-, -, hpos, h⟩ := h
  exact sendPremium_change hpos h

theorem sendPremiumToBackstop_change {caller : Address} {amount : ℤ}
    {u : Unit} (h : sendPremiumToBackstop env caller amount m = .ok (u, m')) :
    Change env (.forward amount) (book m) (book m') := by
  simp [sendPremiumToBackstop, requireAdmin] at h
  obtain ⟨-, -, hpos, h⟩ := h
  exact sendPremium_change hpos h

theorem sendPremiumToReinsurer_change {caller : Address} {amount : ℤ}
    {u : Unit} (h : sendPremiumToReinsurer env caller amount m = .ok (u, m')) :
    Change env (.forward amount) (book m) (book m') := by
  simp [sendPremiumToReinsurer, requireAdmin] at h
  obtain ⟨-, -, hpos, config, -, h⟩ := h
  exact sendPremium_change (m := { m with
    store := { m.store with
      reinsurancePremiumPaid :=
        satI128 (m.store.reinsurancePremiumPaid + amount) } }) hpos h

theorem lockForPolicy_change {caller : Address} {id : ℕ} {amount : ℤ}
    {u : Unit} (h : lockForPolicy env caller id amount m = .ok (u, m')) :
    Change env (.lock id amount) (book m) (book m') := by
  simp [lockForPolicy, assertActive] at h
  obtain ⟨-, -, hpos, hafford, t, ht, hnone, hrange, rfl⟩ := h
  obtain rfl : t = m := by
    rcases ht with ⟨-, -, rfl⟩ | ⟨-, rfl⟩
    · rfl
    · rfl
  exact .lock hnone hpos hafford hrange

theorem releaseForClaim_change {caller : Address} {id : ℕ} {u : Unit}
    (h : releaseForClaim env caller id m = .ok (u, m')) :
    Change env (.release id) (book m) (book m') := by
  simp [releaseForClaim, releaseLock] at h
  obtain ⟨-, lock, hlock, -, hheld, rfl⟩ := h
  exact .release hlock hheld

theorem releaseForExpiry_change {caller : Address} {id : ℕ} {u : Unit}
    (h : releaseForExpiry env caller id m = .ok (u, m')) :
    Change env (.release id) (book m) (book m') := by
  simp [releaseForExpiry, releaseLock] at h
  obtain ⟨-, lock, hlock, hheld, rfl⟩ := h
  exact .release hlock hheld

theorem recover_ok {usdc reinsurer : Address}
    {answer : Option ReinsurerAnswer} {report : ℤ}
    (h : recover env usdc reinsurer answer m = .ok (report, m')) :
    reinsurer ≠ env.self ∧ ∃ a B, answer = some a ∧ report = a.report ∧
      m.bank.transfer usdc reinsurer env.self a.paid = some B ∧
      m' = { m with bank := B } := by
  simp [recover] at h
  obtain ⟨⟨-, hne⟩, a, rfl, ⟨-, rfl⟩, B, hB, rfl⟩ := h
  exact ⟨hne, a, B, rfl, rfl, hB, rfl⟩

theorem requestReinsuranceRecovery_change {caller : Address} {loss r : ℤ}
    {answer : Option ReinsurerAnswer}
    (h : requestReinsuranceRecovery env caller loss answer m = .ok (r, m')) :
    book m' = book m ∨ ∃ config requested a,
      m.store.recoveryRequest loss = some (config, requested) ∧
      answer = some a ∧
      Change env (.recover (max 0 (min a.report requested)) a.paid)
        (book m) (book m') := by
  unfold requestReinsuranceRecovery at h
  simp only [bind_ok, load_ok, requireProtocolCaller_ok] at h
  obtain ⟨_, t, ⟨-, -, ht⟩, s, t', ⟨hs, ht'⟩, h⟩ := h
  rw [hs, ht', ht] at h
  cases hrequest : m.store.recoveryRequest loss with
  | none =>
      rw [hrequest] at h
      obtain ⟨-, rfl⟩ := pure_ok.mp h
      exact .inl rfl
  | some request =>
      obtain ⟨config, requested⟩ := request
      simp only [hrequest, bind_ok, unwrap_ok, pure_ok] at h
      obtain ⟨usdc, t₀, ⟨husdc, ht₀⟩, report, t₁, hrecover, _, t₂, hcredit,
        -, rfl⟩ := h
      rw [ht₀] at hrecover
      obtain ⟨hne, a, B, rfl, rfl, hB, rfl⟩ := recover_ok hrecover
      refine .inr ⟨config, requested, a, rfl, rfl, ?_⟩
      have hcredited : (0 < max 0 (min a.report requested) →
            InI128 (m.store.totalDeposited +
              max 0 (min a.report requested))) ∧
          book m' =
            { book m with
              totalDeposited :=
                m.store.totalDeposited + max 0 (min a.report requested)
              bank := B } := by
        simp only [whenever_ok, bind_ok, i128_ok, update_ok] at hcredit
        rcases hcredit with ⟨-, d, _, ⟨hrange, rfl, rfl⟩, rfl⟩ | ⟨hzero, rfl⟩
        · exact ⟨fun _ => hrange, rfl⟩
        · have heq : max 0 (min a.report requested) = 0 := by omega
          refine ⟨fun hpos => absurd hpos hzero, ?_⟩
          rw [heq, add_zero]
          rfl
      rw [hcredited.2]
      exact .recover hne (le_max_left _ _) hcredited.1 husdc hB

theorem executeAdminWithdrawal_change {admin : Address} {u : Unit}
    (h : executeAdminWithdrawal env admin m = .ok (u, m')) :
    ∃ request, m.store.adminWithdrawalRequest = some request ∧
      Change env (.adminWithdraw request.amount) (book m) (book m') := by
  simp [executeAdminWithdrawal, requireAdmin] at h
  obtain ⟨-, -, req, hreq, -, -, -, hafford, usdc, husdc, treasury, -, B, hB,
    rfl⟩ := h
  exact ⟨req, hreq, .adminWithdraw hafford husdc
    (Bank.payAll_cons_eq_some.mpr ⟨B, hB, rfl⟩)⟩

theorem executeParameterChange_change {admin : Address} {u : Unit}
    (h : executeParameterChange env admin m = .ok (u, m')) :
    Change env .resplit (book m) (book m') := by
  simp [executeParameterChange, requireAdmin] at h
  obtain ⟨-, -, pending, -, -, -, ⟨hlp, htreas, hbackstop, hsum⟩, rfl⟩ := h
  exact .resplit hlp htreas hbackstop hsum

theorem updatePremiumSplit_change {admin : Address}
    {lpBps treasBps backstopBps : ℤ} {u : Unit}
    (h : updatePremiumSplit env admin lpBps treasBps backstopBps m =
      .ok (u, m')) :
    Change env .resplit (book m) (book m') := by
  simp [updatePremiumSplit, setting, requireAdmin] at h
  obtain ⟨-, -, ⟨hlp, htreas, hbackstop, hsum⟩, rfl⟩ := h
  exact .resplit hlp.1 htreas.1 hbackstop.1 hsum

/-- Shares a liquidation seizes, in proportion to the missing collateral. -/
def State.seizedShares (s : State) (provider : Address) : ℤ :=
  match s.lpPosition provider, s.getCollateralizationRatio provider with
  | some position, .ok info =>
      mulDivOrZero position.shares (10000 - info.collateralizationBps) 10000
  | _, _ => 0

theorem liquidatePosition_change {caller provider : Address}
    {r : LiquidationResult}
    (h : liquidatePosition env caller provider m = .ok (r, m')) :
    Change env (.liquidate provider (m.store.seizedShares provider))
      (book m) (book m') := by
  simp [liquidatePosition] at h
  obtain ⟨-, p, hfound, info, hinfo, ⟨hbps, -⟩, hseized, rfl, -⟩ := h
  have hpos : 0 < 10000 - (info.collateralizationBps : ℤ) := by omega
  simp only [State.seizedShares, hfound, hinfo]
  exact .liquidate ⟨hfound, hpos, by omega, rfl, hseized⟩

/-! ## Every call -/

/-- The change an entry point makes, for those that make at most one. -/
def Entry.kind (s : State) : Entry → Option Kind
  | .initializePool .. => some .wire
  | .emergencyWithdraw provider _ shares => some (.burn provider shares true)
  | .transferShares sender recipient shares
  | .transferPosition sender recipient shares =>
      some (.move sender recipient shares)
  | .receivePremium _ amount =>
      some (.accrue ((amount * s.premiumSplit.lpBps).tdiv 10000))
  | .sendPremiumToTreasury _ amount
  | .sendPremiumToBackstop _ amount
  | .sendPremiumToReinsurer _ amount => some (.forward amount)
  | .claimYield provider => some (.collect provider)
  | .cancelExit provider => some (.clear provider)
  | .lockForPolicy _ id amount => some (.lock id amount)
  | .releaseForClaim _ id | .releaseForExpiry _ id => some (.release id)
  | .requestReinsuranceRecovery _ _ loss (some answer) =>
      match s.recoveryRequest loss with
      | some (_, requested) =>
          some (.recover (max 0 (min answer.report requested)) answer.paid)
      | none => none
  | .updatePremiumSplit .. | .executeParameterChange _ => some .resplit
  | .executeAdminWithdrawal _ =>
      s.adminWithdrawalRequest.map fun request =>
        .adminWithdraw request.amount
  | .toggleCompound provider _ => some (.toggle provider)
  | .liquidatePosition _ provider =>
      some (.liquidate provider (s.seizedShares provider))
  | _ => none

/-- Entry points that may be accepted without writing in the book. -/
def Entry.mayIdle (e : Entry) : Bool :=
  e.isSetting ||
    match e with
    | .receivePremium .. | .claimYield _ | .requestReinsuranceRecovery .. =>
        true
    | _ => false

/-- What an accepted call of an entry point does to the book: the changes in
order, with the state they start from. -/
inductive Performs (env : Env) (m : Machine State) : Entry → Book → Prop
  | idle {e : Entry} : e.mayIdle = true → Performs env m e (book m)
  | single {e : Entry} {k : Kind} {b : Book} :
      e.kind m.store = some k → Change env k (book m) b → Performs env m e b
  | deposit {provider : Address} {amount least minted burnShares : ℤ}
      {compound : Bool} {t : Machine State} {n : ℕ} {b : Book} :
      sweepExpiredExits env maxAutoExitScan (some provider) m = .ok (n, t) →
      t.store.mintedShares amount = .ok (minted, burnShares) →
      Change env (.mint provider minted compound) (book t) b →
      Performs env m (.deposit provider amount least compound) b
  | depositWithToken {provider token : Address} {amount least : ℤ}
      {compound : Bool} {b : Book} :
      Performs env m (.deposit provider amount least compound) b →
      Performs env m (.depositWithToken provider token amount least compound) b
  | withdraw {provider : Address} {shares : ℤ} {t : Machine State} {n : ℕ}
      {b : Book} :
      sweepExpiredExits env maxAutoExitScan (some provider) m = .ok (n, t) →
      Change env (.burn provider shares false) (book t) b →
      Performs env m (.withdraw provider shares) b
  | requestExit {provider : Address} {shares : ℤ} {t : Machine State} {n : ℕ}
      {b : Book} :
      sweepExpiredExits env maxAutoExitScan (some provider) m = .ok (n, t) →
      Change env (.enqueue provider) (book t) b →
      Performs env m (.requestExit provider shares) b
  | claimExit {provider : Address} {request : ExitRequest} {b b' : Book} :
      m.store.exitReq provider = some request →
      Change env (.clear provider) (book m) b →
      Change env (.burn provider request.shares false) b b' →
      Performs env m (.claimExit provider) b'
  | processExpiredExits {maxScan n : ℕ} {t : Machine State} :
      sweepExpiredExits env (min maxScan maxAutoExitScan) none m =
        .ok (n, t) →
      Performs env m (.processExpiredExits maxScan) (book t)

theorem exec_performs {e : Entry} {u : Unit}
    (h : exec env e m = .ok (u, m')) : Performs env m e (book m') := by
  have setting : e.isSetting = true → Performs env m e (book m') := by
    intro he
    rw [(exec_setting he h).1]
    refine .idle ?_
    unfold Entry.mayIdle
    rw [he]
    rfl
  cases e with
  | initializePool => exact .single rfl (initializePool_change h)
  | deposit =>
      obtain ⟨minted, h⟩ := perform_ok.mp h
      obtain ⟨t, n, burnShares, hsweep, hminted, hchange⟩ := deposit_change h
      exact .deposit hsweep hminted hchange
  | depositWithToken =>
      obtain ⟨minted, h⟩ := perform_ok.mp h
      simp [depositWithToken] at h
      obtain ⟨-, h⟩ := h
      obtain ⟨t, n, burnShares, hsweep, hminted, hchange⟩ := deposit_change h
      exact .depositWithToken (.deposit hsweep hminted hchange)
  | withdraw =>
      obtain ⟨amount, h⟩ := perform_ok.mp h
      simp [withdraw] at h
      obtain ⟨-, -, n, t, hsweep, h⟩ := h
      exact .withdraw hsweep (withdrawInner_change h)
  | emergencyWithdraw =>
      obtain ⟨amount, h⟩ := perform_ok.mp h
      exact .single rfl (emergencyWithdraw_change h)
  | transferShares =>
      obtain ⟨amount, h⟩ := perform_ok.mp h
      simp [transferShares] at h
      obtain ⟨-, h⟩ := h
      exact .single rfl (transferPosition_change h)
  | transferPosition =>
      obtain ⟨amount, h⟩ := perform_ok.mp h
      exact .single rfl (transferPosition_change h)
  | receivePremium =>
      rcases receivePremium_change h with ⟨-, hsame⟩ | hchange
      · rw [hsame]
        exact .idle rfl
      · exact .single rfl hchange
  | sendPremiumToTreasury => exact .single rfl (sendPremiumToTreasury_change h)
  | sendPremiumToBackstop => exact .single rfl (sendPremiumToBackstop_change h)
  | sendPremiumToReinsurer =>
      exact .single rfl (sendPremiumToReinsurer_change h)
  | claimYield =>
      obtain ⟨claimed, h⟩ := perform_ok.mp h
      rcases claimYield_change h with hsame | hchange
      · rw [hsame]
        exact .idle rfl
      · exact .single rfl hchange
  | requestExit =>
      obtain ⟨t, n, hsweep, hchange⟩ := requestExit_sweeps h
      exact .requestExit hsweep hchange
  | claimExit =>
      obtain ⟨amount, h⟩ := perform_ok.mp h
      obtain ⟨request, hrequest, -, hrun⟩ := claimExit_run h
      obtain ⟨b, hclear, hrun⟩ := TransitionSystem.run_cons_iff.mp hrun
      obtain ⟨b', hburn, hrun⟩ := TransitionSystem.run_cons_iff.mp hrun
      obtain rfl := TransitionSystem.run_nil_iff.mp hrun
      exact .claimExit hrequest hclear hburn
  | processExpiredExits =>
      obtain ⟨n, h⟩ := perform_ok.mp h
      exact .processExpiredExits h
  | cancelExit => exact .single rfl (cancelExit_change h)
  | lockForPolicy => exact .single rfl (lockForPolicy_change h)
  | releaseForClaim => exact .single rfl (releaseForClaim_change h)
  | releaseForExpiry => exact .single rfl (releaseForExpiry_change h)
  | requestReinsuranceRecovery =>
      obtain ⟨recovered, h⟩ := perform_ok.mp h
      rcases requestReinsuranceRecovery_change h with
        hsame | ⟨config, requested, a, hrequest, rfl, hchange⟩
      · rw [hsame]
        exact .idle rfl
      · refine .single ?_ hchange
        simp only [Entry.kind, hrequest]
  | updatePremiumSplit => exact .single rfl (updatePremiumSplit_change h)
  | executeParameterChange =>
      exact .single rfl (executeParameterChange_change h)
  | executeAdminWithdrawal =>
      obtain ⟨request, hrequest, hchange⟩ := executeAdminWithdrawal_change h
      refine .single ?_ hchange
      simp only [Entry.kind, hrequest, Option.map_some]
  | toggleCompound => exact .single rfl (toggleCompound_change h)
  | liquidatePosition =>
      obtain ⟨r, h⟩ := perform_ok.mp h
      exact .single rfl (liquidatePosition_change h)
  | _ => exact setting rfl

/-! ## A pool with one provider and one premium -/

namespace Scenario

def pool : Address := .contract 2
def usdc : Address := .contract 20
def admin : Address := .account 1
def provider : Address := .account 2
def buyer : Address := .account 3
def other : Address := .account 4

def genesis : World State where
  now := 1000000
  machine :=
    { store := State.deployed
      bank :=
        ((Bank.mint ⟨fun _ => none, []⟩ usdc provider (10 ^ 16)).mint usdc
          other (10 ^ 16)).mint usdc buyer (10 ^ 16) }

def wiring : Label Entry :=
  .call [admin] (.initializePool admin usdc (.contract 5) (.contract 6)
    Symbols.crop (.contract 1) (.contract 4))

def wired : World State :=
  (step exec pool genesis wiring).get (by decide +kernel)

def funding : Label Entry :=
  .call [provider] (.deposit provider 1000000 0 false)

def funded : World State :=
  (step exec pool wired funding).get (by decide +kernel)

/-- A premium comes in, and most of it is earned by the provider. -/
def premium : Label Entry :=
  .call [buyer] (.receivePremium buyer 10000)

def earning : World State :=
  (step exec pool funded premium).get (by decide +kernel)

theorem wired_reachable : (system pool).Reachable wired :=
  .step (.init ⟨rfl, rfl⟩) (step_sound (Option.some_get _).symm)

theorem earning_reachable : (system pool).Reachable earning :=
  .step (.step wired_reachable (step_sound (Option.some_get _).symm))
    (step_sound (Option.some_get _).symm)

end Scenario

end Parashield.RiskPool
