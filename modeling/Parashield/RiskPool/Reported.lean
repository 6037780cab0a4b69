import Parashield.RiskPool.Intake
import Parashield.RiskPool.Office
import Parashield.RiskPool.Queue

/-!
# Risk pool: what is reported and what is enforced

The pool reports how much it can still take in and commit, and how much of it
is utilized.  Deposits and locks compute their limits in their own ways.  The
reports agree with them, and with the value of the shares that wait for an
exit, under the conditions stated here.
-/

namespace Parashield.RiskPool

open Support Support.Contract Invocation Book

/-! ## The reports -/

/-- Utilization in basis points, at most the whole. -/
def utilizationBps (totalLocked totalDeposited : ℤ) : ℕ :=
  if totalDeposited ≤ 0 then
    0
  else
    let bps := (satI128 (totalLocked * 10000)).tdiv totalDeposited
    (max 0 (min bps 10000)).toNat

structure CapacityStatus where
  totalDeposited : ℤ
  totalLocked : ℤ
  maxTotalDeposited : ℤ
  utilizationBps : ℕ
  maxUtilizationBps : ℕ
  remainingDepositCapacity : ℤ
  remainingCoverageCapacity : ℤ
  deriving DecidableEq, Repr

namespace State

/-- What may be locked before the utilization cap binds. -/
def maxLockable (s : State) : ℤ :=
  (satI128 (s.totalDeposited * s.capacity.maxUtilizationBps)).tdiv 10000

def getCapacityStatus (s : State) : CapacityStatus where
  totalDeposited := s.totalDeposited
  totalLocked := s.totalLocked
  maxTotalDeposited := s.capacity.maxTotalDeposited
  utilizationBps := utilizationBps s.totalLocked s.totalDeposited
  maxUtilizationBps := s.capacity.maxUtilizationBps
  remainingDepositCapacity :=
    max 0 (satI128 (s.capacity.maxTotalDeposited - s.totalDeposited))
  remainingCoverageCapacity := max 0 (satI128 (s.maxLockable - s.totalLocked))

/-- Utilization with the shares that wait for an exit, cast to 32 bits. -/
def getUtilizationRate (s : State) : ℕ :=
  if s.totalDeposited = 0 then
    0
  else
    let effectiveLocked := satI128 (s.totalLocked + s.queuedExitShares)
    let utilBps := mulDivOrZero effectiveLocked 10000 s.totalDeposited
    if (maxU32 : ℤ) < utilBps then
      maxU32
    else
      (utilBps % 2 ^ 32).toNat

/-- The capacity checks of a deposit; the total with it. -/
def checkCapacity (s : State) (amount : ℤ) : View ℤ := do
  let newTotalDeposited ← Check.i128 (s.totalDeposited + amount)
    (.overflow (some .overflow))
  Check.require (newTotalDeposited ≤ s.capacity.maxTotalDeposited)
    (.error .poolCapExceeded)
  Check.require (s.currentUtilizationBps < s.capacity.maxUtilizationBps)
    (.error .poolCapExceeded)
  pure newTotalDeposited

end State

/-- A deposit of `provider` comes past the capacity checks, which follow the
sweep of expired exits. -/
def PassesCapacity (env : Env) (provider : Address) (amount : ℤ)
    (m : Machine State) : Prop :=
  ∃ n t, sweepExpiredExits env maxAutoExitScan (some provider) m =
    .ok (n, t) ∧ ∃ total, t.store.checkCapacity amount = .ok total

/-! ## The limits that can be set -/

/-- Limits the administrator may set. -/
structure PoolCapacity.Valid (c : PoolCapacity) : Prop where
  deposits : 0 < c.maxTotalDeposited
  used : 0 < c.maxUtilizationBps
  whole : c.maxUtilizationBps ≤ 10000

section Limits

variable {env : Env} {m m' : Machine State} {u : Unit}

theorem requestReinsuranceRecovery_capacity {caller : Address}
    {loss recovered : ℤ} {answer : Option ReinsurerAnswer}
    (h : requestReinsuranceRecovery env caller loss answer m =
      .ok (recovered, m')) : m'.store.capacity = m.store.capacity := by
  have hkeeps : Keeps (fun t => t.store.capacity = m.store.capacity)
      (requestReinsuranceRecovery env caller loss answer) := by
    refine keeps_bind keeps_requireProtocolCaller fun _ => ?_
    refine keeps_bind keeps_load fun s => ?_
    split
    · exact keeps_pure _
    · refine keeps_bind (keeps_unwrap _ _) fun usdc => ?_
      refine keeps_bind (keeps_recover ?_) fun report => ?_
      · exact fun ht _ _ hsame => (congrArg Limits.capacity hsame).trans ht
      · refine keeps_bind (keeps_whenever fun _ => ?_) fun _ => keeps_pure _
        exact keeps_bind (keeps_i128 _ _) fun _ => keeps_update fun _ ht => ht
  exact hkeeps m recovered m' rfl h

theorem exec_capacity {e : Entry} (hvalid : m.store.capacity.Valid)
    (h : exec env e m = .ok (u, m')) : m'.store.capacity.Valid := by
  have same : m'.store.capacity = m.store.capacity →
      m'.store.capacity.Valid := by
    intro hsame
    rw [hsame]
    exact hvalid
  cases hl : e.limits with
  | false => exact same (congrArg Limits.capacity (exec_limits hl h))
  | true =>
      cases e with
      | setCapacity =>
          simp [exec, setCapacity, setting, requireAdmin] at h
          obtain ⟨-, -, ⟨hdeposits, hused, hwhole⟩, rfl⟩ := h
          exact ⟨hdeposits, Nat.pos_of_ne_zero hused, hwhole⟩
      | setReinsurance =>
          simp [exec, setReinsurance, requireAdmin] at h
          obtain ⟨-, -, -, -, rfl⟩ := h
          exact same rfl
      | setReinsuranceActive =>
          simp [exec, setReinsuranceActive, requireAdmin] at h
          obtain ⟨-, -, config, -, rfl⟩ := h
          exact same rfl
      | requestReinsuranceRecovery =>
          obtain ⟨recovered, h⟩ := perform_ok.mp h
          exact same (requestReinsuranceRecovery_capacity h)
      | _ => cases hl

end Limits

theorem capacity_inductive (self : Address) :
    (system self).Inductive fun w => w.machine.store.capacity.Valid where
  init w hinit := by
    obtain ⟨now, store, bank⟩ := w
    obtain ⟨rfl, -⟩ := hinit
    have hdefault : State.deployed.capacity.Valid :=
      ⟨by decide, by decide, by decide⟩
    exact hdefault
  step w l w' hvalid hstep := by
    cases hstep with
    | call _ hexec => exact exec_capacity hvalid hexec
    | tick => exact hvalid
    | transfer => exact hvalid
    | mint => exact hvalid

/-! ## Locks -/

section Locks

variable {env : Env} {m : Machine State} {caller : Address} {id : ℕ}
  {amount : ℤ}

/-- Coverage up to the limits can be locked. -/
theorem lockForPolicy_succeeds_iff (hb : Sound (book m))
    (hactive : m.store.status = .active)
    (hcaller : m.store.IsProtocolCaller caller) (hsigned : caller ∈ env.signers)
    (hfree : m.store.lock id = none) (hpos : 0 < amount) :
    (∃ u m', lockForPolicy env caller id amount m = .ok (u, m')) ↔
      m.store.totalLocked + amount ≤ m.store.totalDeposited ∧
        (m.store.capacity.maxUtilizationBps < 10000 →
          m.store.totalLocked + amount ≤ m.store.maxLockable) := by
  have havailable : m.store.getAvailableLiquidity =
      m.store.totalDeposited - m.store.totalLocked := hb.available_eq
  have hlocked : 0 ≤ m.store.totalLocked := hb.locked_nonneg
  obtain ⟨-, hdeposited⟩ : InI128 m.store.totalDeposited := hb.deposited_range
  have hsum : m.store.totalLocked + amount ≤ m.store.totalDeposited →
      InI128 (m.store.totalLocked + amount) := by
    intro hle
    unfold InI128
    omega
  constructor
  · rintro ⟨u, m', h⟩
    simp [lockForPolicy, assertActive, havailable] at h
    obtain ⟨-, -, -, havail, t, hceiling, -, hrange, -⟩ := h
    refine ⟨by omega, fun hbelow => ?_⟩
    rcases hceiling with ⟨-, hceiling, -⟩ | ⟨hfull, -⟩
    · rwa [satI128_eq hrange] at hceiling
    · exact absurd hbelow (not_lt.mpr hfull)
  · rintro ⟨hle, hceiling⟩
    have hrange := hsum hle
    have hbelow : amount ≤ m.store.totalDeposited - m.store.totalLocked := by
      omega
    unfold State.maxLockable at hceiling
    by_cases hfull : m.store.capacity.maxUtilizationBps < 10000
    · simp [lockForPolicy, assertActive, havailable, hactive, hcaller, hsigned,
        hfree, hpos, hbelow, hrange, satI128_eq hrange, hfull, hceiling hfull]
    · simp [lockForPolicy, assertActive, havailable, hactive, hcaller, hsigned,
        hfree, hpos, hbelow, hrange, satI128_eq hrange, not_lt.mp hfull]

/-- What the utilization cap leaves of the deposits. -/
theorem maxLockable_bounds (hb : Sound (book m)) :
    0 ≤ m.store.maxLockable ∧
      (m.store.capacity.maxUtilizationBps ≤ 10000 →
        m.store.maxLockable ≤ m.store.totalDeposited) := by
  have hdeposited : 0 ≤ m.store.totalDeposited := hb.deposited_nonneg
  have hprod : 0 ≤ m.store.totalDeposited *
      m.store.capacity.maxUtilizationBps :=
    mul_nonneg hdeposited (Int.natCast_nonneg _)
  have hsat : 0 ≤ satI128 (m.store.totalDeposited *
      m.store.capacity.maxUtilizationBps) := by
    unfold satI128 minI128 maxI128
    omega
  unfold State.maxLockable
  refine ⟨Int.tdiv_nonneg hsat (by decide), fun hwhole => ?_⟩
  rw [Int.tdiv_eq_ediv_of_nonneg hsat]
  have hle : m.store.totalDeposited * m.store.capacity.maxUtilizationBps ≤
      m.store.totalDeposited * 10000 :=
    mul_le_mul_of_nonneg_left (by exact_mod_cast hwhole) hdeposited
  unfold satI128 minI128 maxI128 at *
  omega

/-- Nothing is cut off what may be locked at full utilization, unless the
deposits are too large to be counted in basis points. -/
theorem maxLockable_full (hb : Sound (book m))
    (hfull : m.store.capacity.maxUtilizationBps = 10000) :
    m.store.maxLockable =
      min m.store.totalDeposited (maxI128 / 10000) := by
  have hdeposited : 0 ≤ m.store.totalDeposited := hb.deposited_nonneg
  unfold State.maxLockable
  rw [hfull, Int.tdiv_eq_ediv_of_nonneg]
  all_goals
    unfold satI128 minI128 maxI128
    push_cast
    omega

theorem remainingCoverage_iff (hb : Sound (book m))
    (hvalid : m.store.capacity.Valid) (hpos : 0 < amount) :
    amount ≤ m.store.getCapacityStatus.remainingCoverageCapacity ↔
      m.store.totalLocked + amount ≤ m.store.maxLockable := by
  obtain ⟨hnonneg, hle⟩ := maxLockable_bounds hb
  have hbound := hle hvalid.whole
  have hlocked : 0 ≤ m.store.totalLocked := hb.locked_nonneg
  obtain ⟨-, hrange⟩ : InI128 m.store.totalLocked := hb.locked_range
  obtain ⟨-, hdeposited⟩ : InI128 m.store.totalDeposited := hb.deposited_range
  simp only [State.getCapacityStatus]
  unfold satI128 minI128 maxI128
  omega

/-- Locks and the report agree on the coverage that is left. -/
theorem coverage_agrees_iff (hb : Sound (book m))
    (hvalid : m.store.capacity.Valid) (hactive : m.store.status = .active)
    (hcaller : m.store.IsProtocolCaller caller) (hsigned : caller ∈ env.signers)
    (hfree : m.store.lock id = none) :
    (∀ amount, 0 < amount →
        ((∃ u m', lockForPolicy env caller id amount m = .ok (u, m')) ↔
          amount ≤ m.store.getCapacityStatus.remainingCoverageCapacity)) ↔
      m.store.capacity.maxUtilizationBps < 10000 ∨
        m.store.totalDeposited * 10000 ≤ maxI128 ∨
        m.store.totalDeposited ≤ m.store.totalLocked := by
  obtain ⟨-, hle⟩ := maxLockable_bounds hb
  have hbound := hle hvalid.whole
  constructor
  · intro h
    by_contra hnot
    rw [not_or, not_or, not_lt, not_le, not_le] at hnot
    obtain ⟨hfull, hlarge, hroom⟩ := hnot
    have hfull := le_antisymm hvalid.whole hfull
    have hpos : 0 < m.store.totalDeposited - m.store.totalLocked := by omega
    have hcut := maxLockable_full hb hfull
    have hagrees := h _ hpos
    rw [lockForPolicy_succeeds_iff hb hactive hcaller hsigned hfree hpos,
      remainingCoverage_iff hb hvalid hpos] at hagrees
    unfold maxI128 at hlarge hcut
    omega
  · intro h amount hpos
    rw [lockForPolicy_succeeds_iff hb hactive hcaller hsigned hfree hpos,
      remainingCoverage_iff hb hvalid hpos]
    by_cases hbelow : m.store.capacity.maxUtilizationBps < 10000
    · exact ⟨fun h => h.2 hbelow, fun h => ⟨h.trans hbound, fun _ => h⟩⟩
    · have hfull := le_antisymm hvalid.whole (not_lt.mp hbelow)
      have hcut := maxLockable_full hb hfull
      unfold maxI128 at h hcut
      omega

end Locks

/-! ## Deposits -/

section Deposits

variable {env : Env} {m t : Machine State} {provider : Address} {amount : ℤ}

theorem State.checkCapacity_ok {s : State} {total : ℤ} :
    s.checkCapacity amount = .ok total ↔
      InI128 (s.totalDeposited + amount) ∧
        s.totalDeposited + amount ≤ s.capacity.maxTotalDeposited ∧
        s.currentUtilizationBps < s.capacity.maxUtilizationBps ∧
        total = s.totalDeposited + amount := by
  simp [State.checkCapacity]

/-- Without an expired exit, the checks see what the pool holds before. -/
theorem passesCapacity_iff
    (hdue : ¬ m.store.ExitDue env.now (some provider)) :
    PassesCapacity env provider amount m ↔
      InI128 (m.store.totalDeposited + amount) ∧
        m.store.totalDeposited + amount ≤ m.store.capacity.maxTotalDeposited ∧
        m.store.currentUtilizationBps < m.store.capacity.maxUtilizationBps := by
  obtain ⟨n, cursor, hsweep⟩ := sweepExpiredExits_passes maxAutoExitScan hdue
  constructor
  · rintro ⟨n', t, hsweep', total, hcheck⟩
    obtain ⟨-, rfl⟩ := Prod.mk.inj (Except.ok.inj (hsweep.symm.trans hsweep'))
    obtain ⟨hrange, hsized, hutilized, -⟩ := State.checkCapacity_ok.mp hcheck
    exact ⟨hrange, hsized, hutilized⟩
  · rintro ⟨hrange, hsized, hutilized⟩
    exact ⟨n, _, hsweep, _,
      State.checkCapacity_ok.mpr ⟨hrange, hsized, hutilized, rfl⟩⟩

/-- Utilization is below the cap, as deposits compute it. -/
def State.BelowCap (s : State) : Prop :=
  s.totalDeposited = 0 ∨ maxI128 < s.totalLocked * 10000 ∨
    s.totalLocked * 10000 / s.totalDeposited % 2 ^ 32 <
      s.capacity.maxUtilizationBps

theorem belowCap_iff (hb : Sound (book m)) (hvalid : m.store.capacity.Valid) :
    m.store.currentUtilizationBps < m.store.capacity.maxUtilizationBps ↔
      m.store.BelowCap := by
  have hdeposited : 0 ≤ m.store.totalDeposited := hb.deposited_nonneg
  have hlocked : 0 ≤ m.store.totalLocked := hb.locked_nonneg
  have hused := hvalid.used
  unfold State.currentUtilizationBps State.BelowCap
  by_cases hempty : m.store.totalDeposited = 0
  · rw [if_neg (by omega)]
    exact ⟨fun _ => .inl hempty, fun _ => hused⟩
  rw [if_pos (by omega)]
  by_cases hrange : InI128 (m.store.totalLocked * 10000)
  · have hsmall : ¬ maxI128 < m.store.totalLocked * 10000 := by
      unfold InI128 at hrange
      unfold maxI128
      omega
    simp only [if_pos hrange, Int.tdiv_eq_ediv_of_nonneg (a := _)
      (mul_nonneg hlocked (by decide : (0 : ℤ) ≤ 10000))]
    omega
  · have hlarge : maxI128 < m.store.totalLocked * 10000 := by
      unfold InI128 at hrange
      unfold maxI128
      omega
    simp only [if_neg hrange]
    exact ⟨fun _ => .inr (.inl hlarge), fun _ => hused⟩

/-- Deposits and the report agree on the room that is left. -/
theorem room_agrees_iff (hb : Sound (book m))
    (hvalid : m.store.capacity.Valid)
    (hrange : InI128 m.store.capacity.maxTotalDeposited)
    (hdue : ¬ m.store.ExitDue env.now (some provider)) :
    (∀ amount, 0 < amount →
        (PassesCapacity env provider amount m ↔
          amount ≤ m.store.getCapacityStatus.remainingDepositCapacity)) ↔
      m.store.BelowCap ∨
        m.store.capacity.maxTotalDeposited ≤ m.store.totalDeposited := by
  have hdeposited : 0 ≤ m.store.totalDeposited := hb.deposited_nonneg
  obtain ⟨-, hlarge⟩ : InI128 m.store.totalDeposited := hb.deposited_range
  obtain ⟨-, hlimit⟩ := hrange
  have hpositive := hvalid.deposits
  have hroom : ∀ amount, 0 < amount →
      (amount ≤ m.store.getCapacityStatus.remainingDepositCapacity ↔
        m.store.totalDeposited + amount ≤
          m.store.capacity.maxTotalDeposited) := by
    intro amount hpos
    simp only [State.getCapacityStatus]
    unfold satI128 minI128 maxI128
    omega
  rw [← belowCap_iff hb hvalid]
  constructor
  · intro h
    by_contra hnot
    rw [not_or, not_le] at hnot
    have hpos : 0 < m.store.capacity.maxTotalDeposited -
        m.store.totalDeposited := by omega
    have hpasses := (h _ hpos).mpr ((hroom _ hpos).mpr (by omega))
    exact hnot.1 ((passesCapacity_iff hdue).mp hpasses).2.2
  · intro h amount hpos
    rw [passesCapacity_iff hdue, hroom amount hpos]
    refine ⟨fun h => h.2.1, fun hsized => ⟨?_, hsized, ?_⟩⟩
    · unfold InI128
      omega
    · exact h.resolve_right (by omega)

end Deposits

/-! ## Capacity -/

section Runs

variable {self : Address} {w : World State} {caller provider : Address}

/-- What the pool reports as left is what locks and deposits leave, exactly if
the deposits are not too large to be counted in basis points or not all of them
may be locked, and if utilization is below the cap or no deposit fits. -/
theorem capacity_status_enforced_iff (env : Env) (id : ℕ)
    (hw : (system self).Reachable w)
    (hactive : w.machine.store.status = .active)
    (hrange : InI128 w.machine.store.capacity.maxTotalDeposited)
    (hcaller : w.machine.store.IsProtocolCaller caller)
    (hsigned : caller ∈ env.signers)
    (hfree : w.machine.store.lock id = none)
    (hdue : ¬ w.machine.store.ExitDue env.now (some provider)) :
    ((∀ amount, 0 < amount →
        ((∃ u m', lockForPolicy env caller id amount w.machine =
            .ok (u, m')) ↔
          amount ≤ w.machine.store.getCapacityStatus.remainingCoverageCapacity)) ∧
      ∀ amount, 0 < amount →
        (PassesCapacity env provider amount w.machine ↔
          amount ≤
            w.machine.store.getCapacityStatus.remainingDepositCapacity)) ↔
      (w.machine.store.capacity.maxUtilizationBps < 10000 ∨
        w.machine.store.totalDeposited * 10000 ≤ maxI128 ∨
        w.machine.store.totalDeposited ≤ w.machine.store.totalLocked) ∧
      (w.machine.store.BelowCap ∨
        w.machine.store.capacity.maxTotalDeposited ≤
          w.machine.store.totalDeposited) := by
  have hb := hw.invariant (sound_inductive self)
  have hvalid := hw.invariant (capacity_inductive self)
  exact and_congr (coverage_agrees_iff hb hvalid hactive hcaller hsigned hfree)
    (room_agrees_iff hb hvalid hrange hdue)

end Runs

namespace Scenario

/-- All that is deposited is locked for one policy. -/
def pledging : Label Entry :=
  .call [admin] (.lockForPolicy admin 1 1000000)

def pledged : World State :=
  (step exec pool funded pledging).get (by decide +kernel)

theorem pledged_reachable : (system pool).Reachable pledged :=
  .step funded_reachable (step_sound (Option.some_get _).symm)

end Scenario

open Scenario in
/-- As long as nothing is locked, both limits are reported as enforced. -/
theorem capacity_status_enforced_iff_funded :
    (∃ u m', lockForPolicy (callEnv pool funded [admin]) admin 1 1000000
        funded.machine = .ok (u, m')) ∧
      PassesCapacity (callEnv pool funded [admin]) other 1000000
        funded.machine ∧
      ¬ PassesCapacity (callEnv pool funded [admin]) other (10 ^ 15)
        funded.machine := by
  have hcaller : funded.machine.store.IsProtocolCaller admin :=
    ⟨admin, .contract 1, .contract 4, by decide +kernel, by decide +kernel,
      by decide +kernel, .inl rfl⟩
  have hidle : ¬ funded.machine.store.ExitDue funded.now (some other) := by
    rintro ⟨idx, a, request, -, -, -, hrequest, -⟩
    have hnone : funded.machine.store.exitReq a = none := by
      with_unfolding_all rfl
    rw [hnone] at hrequest
    cases hrequest
  obtain ⟨hlocks, hdeposits⟩ := (capacity_status_enforced_iff
    (callEnv pool funded [admin]) 1 funded_reachable
    (by decide +kernel) (by decide +kernel) hcaller
    (show admin ∈ [admin] by simp) (by decide +kernel) hidle).mpr
    ⟨.inr (.inl (by decide +kernel)), .inl (.inr (.inr (by decide +kernel)))⟩
  exact ⟨(hlocks _ (by decide)).mpr (by decide +kernel),
    (hdeposits _ (by decide)).mpr (by decide +kernel),
    fun h => absurd ((hdeposits _ (by decide)).mp h) (by decide +kernel)⟩

open Scenario in
/-- Room for almost the default capacity is reported, and no deposit is
taken. -/
theorem capacity_status_not_enforced :
    (system pool).Reachable pledged ∧
      pledged.machine.store.status = .active ∧
      (∀ a, pledged.machine.store.exitReq a = none) ∧
      pledged.machine.store.getCapacityStatus.remainingDepositCapacity =
        10 ^ 15 - 10 ^ 6 ∧
      ValidDeposit 1000000 ∧
      deposit (callEnv pool pledged [other]) other 1000000 0 false
        pledged.machine = .error (.error .poolCapExceeded) ∧
      ¬ (PassesCapacity (callEnv pool pledged [other]) other 1000000
          pledged.machine ↔
        1000000 ≤
          pledged.machine.store.getCapacityStatus.remainingDepositCapacity) := by
  have hnone : ∀ a, pledged.machine.store.exitReq a = none := by
    intro a
    with_unfolding_all rfl
  have hidle : ¬ pledged.machine.store.ExitDue
      (callEnv pool pledged [other]).now (some other) := by
    rintro ⟨idx, a, request, -, -, -, hrequest, -⟩
    rw [hnone a] at hrequest
    cases hrequest
  have hroom : pledged.machine.store.getCapacityStatus.remainingDepositCapacity =
      10 ^ 15 - 10 ^ 6 := by
    decide +kernel
  refine ⟨pledged_reachable, by decide +kernel, hnone, hroom,
    ⟨by decide, by decide⟩, failure_eq_some.mp (by decide +kernel), ?_⟩
  rw [hroom]
  intro hiff
  have hpasses := (passesCapacity_iff hidle).mp (hiff.mpr (by decide))
  exact absurd hpasses.2.2 (by decide +kernel)

/-! ## Utilization -/

/-- The count of queued shares is between zero and the largest number. -/
def Book.QueueCounted (b : Book) : Prop :=
  0 ≤ b.queuedExitShares ∧ b.queuedExitShares ≤ maxI128

theorem Book.Change.queueCounted {env : Env} {b b' : Book} {k : Kind}
    (hb : QueueCounted b) (h : Change env k b b') : QueueCounted b' := by
  obtain ⟨hnonneg, hle⟩ := hb
  cases k with
  | enqueue provider =>
      cases h with
      | enqueue _ hpos =>
          unfold QueueCounted satI128 maxI128 minI128 at *
          simp only
          omega
  | clear provider =>
      cases h with
      | clear =>
          unfold QueueCounted satI128 maxI128 minI128 at *
          simp only
          omega
  | _ =>
      cases h
      exact ⟨hnonneg, hle⟩

theorem queueCounted_inductive (self : Address) :
    (system self).Inductive fun w => QueueCounted (book w.machine) where
  init w hinit := by
    obtain ⟨now, store, bank⟩ := w
    obtain ⟨rfl, -⟩ := hinit
    exact ⟨le_rfl, (by decide : (0 : ℤ) ≤ maxI128)⟩
  step w l w' hcounted hstep := by
    cases hstep with
    | call _ hexec =>
        exact (exec_performs hexec).preserves
          (fun _ _ _ hb hchange => hchange.queueCounted hb) hcounted
    | tick => exact hcounted
    | transfer => exact hcounted
    | mint => exact hcounted

namespace State

/-- What the queued shares are worth. -/
def queuedValue (s : State) : ℤ :=
  s.queuedExitShares * s.totalDeposited / s.totalShares

/-- Taking the number of queued shares for their value makes no difference in
basis points of the deposits, and at most twice the deposits are committed. -/
def CountsAsValue (s : State) : Prop :=
  let committed := (s.totalLocked + s.queuedValue) * 10000
  let excess := (s.queuedExitShares - s.queuedValue) * 10000
  (s.totalLocked + s.queuedExitShares) * 10000 ≤ maxI128 ∧
      committed < 20001 * s.totalDeposited ∧
      0 ≤ committed % s.totalDeposited + excess ∧
      committed % s.totalDeposited + excess < s.totalDeposited ∨
    maxI128 < (s.totalLocked + s.queuedExitShares) * 10000 ∧
      committed < s.totalDeposited

end State

section Utilization

variable {m : Machine State}

/-- The rate adds the number of queued shares to what is locked. -/
theorem getUtilizationRate_eq (hb : Sound (book m))
    (hqueued : QueueCounted (book m)) (hpos : 0 < m.store.totalDeposited) :
    (m.store.getUtilizationRate : ℤ) =
      if (m.store.totalLocked + m.store.queuedExitShares) * 10000 ≤ maxI128
      then min ((m.store.totalLocked + m.store.queuedExitShares) * 10000 /
        m.store.totalDeposited) maxU32
      else 0 := by
  have hlocked : 0 ≤ m.store.totalLocked := hb.locked_nonneg
  obtain ⟨hnonneg, -⟩ : 0 ≤ m.store.queuedExitShares ∧ _ := hqueued
  unfold State.getUtilizationRate
  rw [if_neg hpos.ne']
  by_cases hfits : (m.store.totalLocked + m.store.queuedExitShares) * 10000 ≤
      maxI128
  · have hnum : 0 ≤
        (m.store.totalLocked + m.store.queuedExitShares) * 10000 := by
      omega
    have hsum : satI128 (m.store.totalLocked + m.store.queuedExitShares) =
        m.store.totalLocked + m.store.queuedExitShares := by
      unfold satI128 minI128
      unfold maxI128 at *
      omega
    have hrange : InI128
        ((m.store.totalLocked + m.store.queuedExitShares) * 10000) := by
      unfold InI128
      unfold maxI128 at hfits
      omega
    have hbps : mulDivOrZero
        (satI128 (m.store.totalLocked + m.store.queuedExitShares)) 10000
        m.store.totalDeposited =
        (m.store.totalLocked + m.store.queuedExitShares) * 10000 /
          m.store.totalDeposited := by
      unfold mulDivOrZero
      rw [hsum, if_pos ⟨hrange, hpos.ne', inI128_tdiv hpos.le hrange⟩,
        Int.tdiv_eq_ediv_of_nonneg hnum]
    have hrate := Int.ediv_nonneg hnum hpos.le
    simp only [hbps]
    rw [if_pos hfits]
    unfold maxU32
    split <;> omega
  · have hover : ¬ InI128
        (satI128 (m.store.totalLocked + m.store.queuedExitShares) * 10000) := by
      unfold InI128 satI128 minI128
      unfold maxI128 at *
      omega
    have hbps : mulDivOrZero
        (satI128 (m.store.totalLocked + m.store.queuedExitShares)) 10000
        m.store.totalDeposited = 0 := by
      unfold mulDivOrZero
      rw [if_neg fun h => hover h.1]
    simp only [hbps]
    rw [if_neg hfits]
    rfl

/-- A number has the same quotient after `x` is added exactly if `x` keeps the
remainder in range. -/
theorem ediv_add_eq_iff {n x d : ℤ} (hd : 0 < d) :
    (n + x) / d = n / d ↔ 0 ≤ n % d + x ∧ n % d + x < d := by
  have hsplit := Int.ediv_mul_add_emod n d
  rw [Int.ediv_eq_iff_of_pos hd]
  omega

/-- The rate is that of the value that is queued, and at most 20,000. -/
theorem utilization_agrees_iff (hb : Sound (book m))
    (hqueued : QueueCounted (book m)) (hpos : 0 < m.store.totalDeposited)
    (hshares : 0 < m.store.totalShares) :
    ((m.store.getUtilizationRate : ℤ) =
        (m.store.totalLocked + m.store.queuedValue) * 10000 /
          m.store.totalDeposited ∧
      m.store.getUtilizationRate ≤ 20000) ↔
      m.store.CountsAsValue := by
  have hlocked : 0 ≤ m.store.totalLocked := hb.locked_nonneg
  have hnonneg : 0 ≤ m.store.queuedExitShares := hqueued.1
  have hvalue : 0 ≤ m.store.queuedValue :=
    Int.ediv_nonneg (mul_nonneg hnonneg hpos.le) hshares.le
  have hrate := getUtilizationRate_eq hb hqueued hpos
  have hcounted : (m.store.totalLocked + m.store.queuedExitShares) * 10000 =
      (m.store.totalLocked + m.store.queuedValue) * 10000 +
        (m.store.queuedExitShares - m.store.queuedValue) * 10000 := by
    ring
  have hbound : (m.store.totalLocked + m.store.queuedValue) * 10000 /
      m.store.totalDeposited ≤ 20000 ↔
      (m.store.totalLocked + m.store.queuedValue) * 10000 <
        20001 * m.store.totalDeposited := by
    rw [← Int.lt_add_one_iff, Int.ediv_lt_iff_lt_mul hpos]
    rfl
  have hnone : (m.store.totalLocked + m.store.queuedValue) * 10000 /
      m.store.totalDeposited = 0 ↔
      (m.store.totalLocked + m.store.queuedValue) * 10000 <
        m.store.totalDeposited := by
    rw [Int.ediv_eq_iff_of_pos hpos]
    omega
  have hsame := ediv_add_eq_iff
    (n := (m.store.totalLocked + m.store.queuedValue) * 10000)
    (x := (m.store.queuedExitShares - m.store.queuedValue) * 10000) hpos
  unfold State.CountsAsValue
  by_cases hfits : (m.store.totalLocked + m.store.queuedExitShares) * 10000 ≤
      maxI128
  · rw [if_pos hfits, hcounted] at hrate
    unfold maxU32 at hrate
    simp only
    rw [hcounted] at *
    omega
  · rw [if_neg hfits] at hrate
    simp only
    omega

end Utilization

/-- With deposits and shares, the reported utilization counts queued exits at
their value, and is at most 20,000, exactly if their number does instead. -/
theorem utilization_rate_in_value_iff {self : Address} {w : World State}
    (hw : (system self).Reachable w)
    (hpos : 0 < w.machine.store.totalDeposited)
    (hshares : 0 < w.machine.store.totalShares) :
    ((w.machine.store.getUtilizationRate : ℤ) =
        (w.machine.store.totalLocked +
            w.machine.store.queuedExitShares *
              w.machine.store.totalDeposited / w.machine.store.totalShares) *
          10000 / w.machine.store.totalDeposited ∧
      w.machine.store.getUtilizationRate ≤ 20000) ↔
      w.machine.store.CountsAsValue :=
  utilization_agrees_iff (hw.invariant (sound_inductive self))
    (hw.invariant (queueCounted_inductive self)) hpos hshares

open Scenario in
/-- With all deposits locked and nothing queued, the pool is utilized once. -/
theorem utilization_rate_in_value_iff_pledged :
    pledged.machine.store.getUtilizationRate ≤ 20000 :=
  ((utilization_rate_in_value_iff pledged_reachable (by decide +kernel)
    (by decide +kernel)).mpr (.inl (by decide +kernel))).2

open Scenario in
/-- Half of the shares wait for an exit; the rate is the largest number of 32
bits and not 5,000. -/
theorem utilization_rate_counts_shares :
    (system pool).Reachable queued ∧
      0 < queued.machine.store.totalDeposited ∧
      0 < queued.machine.store.totalShares ∧
      queued.machine.store.getUtilizationRate = 4294967295 ∧
      (queued.machine.store.totalLocked +
          queued.machine.store.queuedExitShares *
            queued.machine.store.totalDeposited /
            queued.machine.store.totalShares) * 10000 /
        queued.machine.store.totalDeposited = 5000 := by
  refine ⟨?_, by decide +kernel, by decide +kernel, by decide +kernel,
    by decide +kernel⟩
  have hinit : (system pool).Init genesis := ⟨rfl, rfl⟩
  exact ((TransitionSystem.Reachable.init hinit).run delayed_run).step
    (step_sound (l := queueing) (Option.some_get _).symm)

end Parashield.RiskPool
