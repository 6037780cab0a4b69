import Parashield.RiskPool.Price

/-!
# Risk pool: what a deposit keeps

Shares are minted and redeemed for what they are worth, rounded down, and
nothing but a withdrawal by the administrator lowers their price.  So whatever
others do in between, a deposit is redeemed for all but the price of a share
and one unit: nobody can dilute it.
-/

namespace Parashield.RiskPool

open Support Support.Contract Invocation Book

variable {env : Env} {m m' : Machine State}

namespace Book

variable {b b' : Book} {amount newShares burnShares shares paid : ℤ}

/-- The minted shares, the locked ones and one more are worth more than the
deposit. -/
theorem Mints.worth_lower (hb : Sound b)
    (h : Mints b amount newShares burnShares) :
    amount * (b.totalShares + newShares + burnShares) <
      (newShares + burnShares + 1) * (b.totalDeposited + amount) := by
  have hamount := h.amount_ge
  have hshares := h.shares_ge
  unfold minDeposit at hamount
  unfold minShares at hshares
  have hdeposited := hb.deposited_nonneg
  by_cases hissued : b.totalShares = 0
  · have hminted : 0 ≤ newShares + burnShares := by
      have hburned := (h.first hissued).2
      unfold lockedShares at hburned
      omega
    have hheld := mul_nonneg hminted hdeposited
    rw [hissued]
    linarith
  · obtain ⟨hnew, hburned⟩ := h.later hissued
    have hprod : 0 ≤ amount * b.totalShares :=
      mul_nonneg (by omega) hb.total_nonneg
    rw [Int.tdiv_eq_ediv_of_nonneg hprod] at hnew
    have hpos : 0 < b.totalDeposited := by
      refine hdeposited.lt_of_ne' fun hzero => ?_
      rw [hzero, Int.ediv_zero] at hnew
      omega
    have hbought := Int.lt_ediv_add_one_mul_self (amount * b.totalShares) hpos
    rw [← hnew] at hbought
    rw [hburned]
    linarith

theorem redeemed_lower (hb : Issued b) (hshares : 0 ≤ shares) :
    shares * b.totalDeposited < (b.redeemed shares + 1) * b.totalShares := by
  have hpos : 0 < b.totalShares := hb.sound.total_nonneg.lt_of_ne' hb.issued
  have hprod := mul_nonneg hshares hb.sound.deposited_nonneg
  unfold redeemed
  rw [Int.tdiv_eq_ediv_of_nonneg hprod]
  exact Int.lt_ediv_add_one_mul_self _ hpos

/-- Shares that were worth `amount` up to the price of `k` shares still are,
at a price that was kept. -/
theorem PriceKept.redeemed_lower {k : ℤ} (hb : Issued b) (hb' : Issued b')
    (h : PriceKept b b') (hshares : 0 ≤ shares)
    (hworth : amount * b.totalShares < (shares + k) * b.totalDeposited) :
    amount ≤ b'.redeemed shares + 1 +
      k * b.totalDeposited / b.totalShares := by
  have hpos : 0 < b.totalShares := hb.sound.total_nonneg.lt_of_ne' hb.issued
  have hpos' : 0 < b'.totalShares :=
    hb'.sound.total_nonneg.lt_of_ne' hb'.issued
  have hpaid := Book.redeemed_lower hb' hshares
  have hprice := mul_le_mul_of_nonneg_left h hshares
  have hscaled := mul_lt_mul_of_pos_right hpaid hpos
  have hbought := mul_lt_mul_of_pos_right hworth hpos'
  have hleft : (amount - b'.redeemed shares - 1) * b.totalShares <
      k * b.totalDeposited := by
    refine lt_of_mul_lt_mul_right ?_ hpos'.le
    linarith
  have hquot := (Int.le_ediv_iff_mul_le hpos).mpr hleft.le
  linarith

end Book

/-- A redemption pays what its shares are worth in a pool whose price has not
fallen since before the call. -/
theorem Redeemed.exists_redeemed {provider : Address} {shares paid : ℤ}
    (h : Redeemed env provider shares paid m m') (hb : Issued (book m)) :
    ∃ b, Issued b ∧ PriceKept (book m) b ∧ paid = b.redeemed shares := by
  cases h with
  | withdraw h =>
      simp [RiskPool.withdraw] at h
      obtain ⟨-, -, n, t, hsweep, h⟩ := h
      obtain ⟨ht, hprice⟩ := sweepExpiredExits_priceKept hsweep hb
      exact ⟨_, ht, hprice, withdrawInner_paid h⟩
  | @claimExit request hrequest hshares h =>
      simp [RiskPool.claimExit] at h
      obtain ⟨-, request', hrequest', -, _, t, hclear, h⟩ := h
      obtain rfl := Option.some.inj (hrequest.symm.trans hrequest')
      subst hshares
      have hchange : Change env (.clear provider) (book m) (book t) :=
        clearExitReservation_change hrequest hclear
      exact ⟨_, hchange.issued_of hb,
        hchange.priceKept hb (fun _ heq => by cases heq),
        withdrawInner_paid h⟩
  | emergencyWithdraw h =>
      exact ⟨_, hb, .refl _, emergencyWithdraw_paid h⟩

/-- Shares that are never redeemed, left behind by the first deposit. -/
def State.leavesLocked (s : State) : ℤ :=
  if s.totalShares = 0 then lockedShares else 0

theorem deposit_worth_lower {provider : Address} {amount least minted : ℤ}
    {compound : Bool}
    (h : deposit env provider amount least compound m = .ok (minted, m'))
    (hb : Sound (book m)) (hall : AllHeld (book m)) :
    0 ≤ minted ∧ m'.store.totalShares ≠ 0 ∧
      amount * m'.store.totalShares <
        (minted + (m.store.leavesLocked + 1)) * m'.store.totalDeposited := by
  obtain ⟨t, n, burnShares, hsweep, hmints, hdeposited, hshares⟩ :=
    deposit_credits h
  obtain ⟨_, -, hsweeps⟩ := sweepExpiredExits_sweeps hsweep
  obtain ⟨hsound, -, hcontracted⟩ := hsweeps.contracted hb hall
  have hworth := hmints.worth_lower hsound
  have hminted := hmints.shares_ge
  have htotal := hsound.total_nonneg
  unfold minShares at hminted
  have hburned : burnShares = m.store.leavesLocked := by
    unfold State.leavesLocked
    split
    · next hzero =>
        exact (hmints.first (hcontracted.issued.mp hzero)).2
    · next hne =>
        exact (hmints.later (mt hcontracted.issued.mpr hne)).2
  have hnonneg := hmints.burn_nonneg
  have hbook : (book t).totalShares = t.store.totalShares := rfl
  have hbook' : (book t).totalDeposited = t.store.totalDeposited := rfl
  rw [hbook, hbook', ← hshares, ← hdeposited, hburned] at hworth
  refine ⟨by omega, by omega, ?_⟩
  linarith

/-- A deposit, any run of calls in which the administrator withdraws no
capital, and a redemption of the minted shares: it pays the deposit back but
for one unit and the price, at the deposit, of a share and of those that the
first deposit leaves locked. -/
theorem deposit_not_diluted {self : Address} {w w' : World State}
    {ls : List (Label Entry)} {signers signers' : List Address}
    {provider : Address} {amount least minted paid : ℤ} {compound : Bool}
    {m m' : Machine State} (hw : (system self).Reachable w)
    (hself : self ∉ signers)
    (hdeposit : deposit (callEnv self w signers) provider amount least compound
      w.machine = .ok (minted, m))
    (hrun : (system self).Run { w with machine := m } ls w')
    (hls : ∀ l ∈ ls, isCallOf Entry.withdrawsCapital l = false)
    (hredeemed : Redeemed (callEnv self w' signers') provider minted paid
      w'.machine m') :
    amount ≤ paid + 1 + (w.machine.store.leavesLocked + 1) *
      m.store.totalDeposited / m.store.totalShares := by
  obtain ⟨hsound, hall, -⟩ := hw.invariant (allHeld_inductive self)
  obtain ⟨hminted, hissued, hworth⟩ := deposit_worth_lower hdeposit hsound hall
  have hstep : (system self).Step w
      (.call signers (.deposit provider amount least compound))
      { w with machine := m } :=
    .call hself (perform_ok.mpr ⟨minted, hdeposit⟩)
  have hb : Issued (book m) := Reachable.issued (hw.step hstep) hissued
  obtain ⟨hb', hprice⟩ := run_priceKept hrun hls hb
  obtain ⟨b, hb'', hkept, rfl⟩ := hredeemed.exists_redeemed hb'
  exact (hb.priceKept_trans hb' hb'' hprice hkept).redeemed_lower hb hb''
    hminted hworth

namespace Scenario

theorem joined_eq : { seeded with machine := joined.machine } = joined := by
  have hnow : seeded.now = joined.now := by
    decide +kernel
  exact congrArg (World.mk · joined.machine) hnow

/-- Others redeem in between, at a loss that stays in the pool. -/
theorem deposit_not_diluted_joined :
    9000000 ≤ (9000001 : ℤ) + 1 +
      (seeded.machine.store.leavesLocked + 1) *
        joined.machine.store.totalDeposited /
          joined.machine.store.totalShares :=
  deposit_not_diluted seeded_reachable (by decide) joined_minted
    (joined_eq.symm ▸ rounding_run) (by decide) (.withdraw redeemed_paid)

end Scenario

end Parashield.RiskPool
