import Parashield.RiskPool.Shares

/-!
# Risk pool: the price of a share

Deposits mint, and redemptions and liquidations take, no more than what the
shares are worth, rounded down.  So nothing but a withdrawal by the
administrator lowers the deposits behind a share; what rounding leaves in the
pool raises it for those who stay.
-/

namespace Parashield.RiskPool

open Support Support.Contract Invocation Book

namespace Book

variable {env : Env} {b b' b'' : Book}

/-- A share is backed by no less than before, compared by cross
multiplication. -/
def PriceKept (b b' : Book) : Prop :=
  b.totalDeposited * b'.totalShares ≤ b'.totalDeposited * b.totalShares

theorem PriceKept.refl (b : Book) : PriceKept b b :=
  le_refl (b.totalDeposited * b.totalShares)

theorem PriceKept.trans (hb : 0 ≤ b.totalShares) (hb' : 0 < b'.totalShares)
    (hb'' : 0 ≤ b''.totalShares) (h : PriceKept b b')
    (h' : PriceKept b' b'') : PriceKept b b'' := by
  unfold PriceKept at *
  have hfirst := mul_le_mul_of_nonneg_right h hb''
  have hsecond := mul_le_mul_of_nonneg_right h' hb
  refine le_of_mul_le_mul_right ?_ hb'
  linarith

/-- What the shares of `a` are worth. -/
def value (b : Book) (a : Address) : ℤ :=
  b.redeemed (b.held a)

/-- Who keeps its shares keeps their value. -/
theorem PriceKept.value_le (hb : Issued b) (hb' : Issued b')
    (h : PriceKept b b') {a : Address} (hheld : b'.held a = b.held a) :
    b.value a ≤ b'.value a := by
  have hnonneg := hb.sound.held_nonneg a
  have hpos : 0 < b.totalShares :=
    hb.sound.total_nonneg.lt_of_ne' hb.issued
  have hpos' : 0 < b'.totalShares :=
    hb'.sound.total_nonneg.lt_of_ne' hb'.issued
  have hprod := mul_nonneg hnonneg hb.sound.deposited_nonneg
  have hprod' := mul_nonneg hnonneg hb'.sound.deposited_nonneg
  unfold value redeemed
  rw [hheld, Int.tdiv_eq_ediv_of_nonneg hprod,
    Int.tdiv_eq_ediv_of_nonneg hprod']
  refine (Int.le_ediv_iff_mul_le hpos').mpr ?_
  have hquot := Int.ediv_mul_le (b.held a * b.totalDeposited) hpos.ne'
  have hscaled := mul_le_mul_of_nonneg_right hquot hpos'.le
  have hprice := mul_le_mul_of_nonneg_left h hnonneg
  refine le_of_mul_le_mul_right ?_ hpos
  linarith

/-- Shares minted later than the first are worth at most the deposit. -/
theorem Mints.worth {amount newShares burnShares : ℤ} (hb : Sound b)
    (h : Mints b amount newShares burnShares) (hissued : b.totalShares ≠ 0) :
    newShares * b.totalDeposited ≤ amount * b.totalShares ∧
      burnShares = 0 := by
  obtain ⟨hnew, hburned⟩ := h.later hissued
  have hamount := h.amount_ge
  unfold minDeposit at hamount
  have hprod : 0 ≤ amount * b.totalShares :=
    mul_nonneg (by omega) hb.total_nonneg
  refine ⟨?_, hburned⟩
  rw [hnew, Int.tdiv_eq_ediv_of_nonneg hprod]
  rcases hb.deposited_nonneg.lt_or_eq with hpos | hzero
  · exact Int.ediv_mul_le _ hpos.ne'
  · rwa [← hzero, mul_zero]

/-- Nothing but a withdrawal by the administrator lowers the price. -/
theorem Change.priceKept {k : Kind} (hb : Issued b) (h : Change env k b b')
    (hk : ∀ amount, k ≠ .adminWithdraw amount) : PriceKept b b' := by
  have htotal := hb.sound.total_nonneg
  cases k with
  | burn =>
      have hprice := (h.contracted_burn hb.sound hb.allHeld).price
      unfold PriceKept
      linarith
  | wire =>
      cases h with
      | wire hfresh =>
          have hzero := (hb.sound.unwired (hb.sound.uninitialized hfresh)).2.2.1
          exact absurd hzero hb.issued
  | mint =>
      cases h with
      | mint hmints =>
          obtain ⟨hworth, hburned⟩ := hmints.worth hb.sound hb.issued
          unfold PriceKept
          simp only [hburned]
          linarith
  | liquidate provider seized =>
      cases h with
      | @liquidate _ _ p bps _ h =>
          obtain ⟨hnonneg, hle⟩ := h.recovered_bounds hb.sound
          have hseized :=
            (h.le_shares hb.sound).trans (hb.sound.held_le h.found)
          have hpos := h.seized_pos
          have hworth := (mulDivOrZero_bounds hpos.le
            hb.sound.deposited_nonneg (hpos.trans_le hseized)).2
          have hshares : InI128 (b.totalShares - seized) := by
            have hrange := hb.sound.shares_range
            simp only [InI128] at hrange ⊢
            omega
          have hdeposited : InI128 (b.totalDeposited - b.recovered seized) := by
            have hrange := hb.sound.deposited_range
            simp only [InI128] at hrange ⊢
            omega
          have hrecovered : b.recovered seized * b.totalShares ≤
              seized * b.totalDeposited := by
            rwa [recovered, if_pos (hpos.trans_le hseized)]
          unfold PriceKept
          simp only [satI128_eq hshares, satI128_eq hdeposited]
          linarith
  | adminWithdraw amount => exact absurd rfl (hk amount)
  | recover =>
      cases h with
      | recover _ hnonneg =>
          exact mul_le_mul_of_nonneg_right (by simp only; omega) htotal
  | _ =>
      cases h
      exact .refl _

/-- A pool with all shares accounted for whose price did not fall. -/
theorem Issued.priceKept_trans (hb : Issued b) (hb' : Issued b')
    (hb'' : Issued b'') (h : PriceKept b b') (h' : PriceKept b' b'') :
    PriceKept b b'' :=
  h.trans hb.sound.total_nonneg
    (hb'.sound.total_nonneg.lt_of_ne' hb'.issued) hb''.sound.total_nonneg h'

end Book

/-! ## Calls -/

variable {env : Env} {m m' : Machine State} {b b' : Book}

theorem Sweeps.priceKept {n : ℕ} (h : Sweeps env n b b') (hb : Issued b) :
    Issued b' ∧ PriceKept b b' := by
  induction h with
  | refl => exact ⟨hb, .refl _⟩
  | clear _ hclear ih =>
      obtain ⟨hb', hprice⟩ := ih hb
      have hb'' := hclear.issued_of hb'
      exact ⟨hb'', hb.priceKept_trans hb' hb'' hprice
        (hclear.priceKept hb' nofun)⟩
  | burn _ hburn ih =>
      obtain ⟨hb', hprice⟩ := ih hb
      have hb'' := hburn.issued_of hb'
      exact ⟨hb'', hb.priceKept_trans hb' hb'' hprice
        (hburn.priceKept hb' nofun)⟩

theorem sweepExpiredExits_priceKept {skip : Option Address} {maxScan n : ℕ}
    (h : sweepExpiredExits env maxScan skip m = .ok (n, m'))
    (hb : Issued (book m)) :
    Issued (book m') ∧ PriceKept (book m) (book m') := by
  obtain ⟨_, -, hsweeps⟩ := sweepExpiredExits_sweeps h
  exact hsweeps.priceKept hb

/-- The administrator takes deposits out of the pool. -/
def Entry.withdrawsCapital : Entry → Bool
  | .executeAdminWithdrawal _ => true
  | _ => false

theorem Entry.kind_of_not_withdrawsCapital {e : Entry} {k : Kind}
    (he : e.withdrawsCapital = false) (hk : e.kind m.store = some k)
    (amount : ℤ) : k ≠ .adminWithdraw amount := by
  rintro rfl
  cases e with
  | executeAdminWithdrawal => cases he
  | requestReinsuranceRecovery _ _ loss answer =>
      cases answer with
      | none => cases hk
      | some answer =>
          simp only [Entry.kind] at hk
          split at hk <;> cases hk
  | _ => cases hk

theorem Performs.priceKept {e : Entry} (h : Performs env m e b)
    (he : e.withdrawsCapital = false) (hb : Issued (book m)) :
    PriceKept (book m) b := by
  induction h with
  | idle => exact .refl _
  | single hkind hchange =>
      exact hchange.priceKept hb (Entry.kind_of_not_withdrawsCapital he hkind)
  | deposit hsweep _ hchange =>
      obtain ⟨hb', hprice⟩ := sweepExpiredExits_priceKept hsweep hb
      exact hb.priceKept_trans hb' (hchange.issued_of hb') hprice
        (hchange.priceKept hb' nofun)
  | depositWithToken _ ih => exact ih rfl
  | withdraw hsweep hchange =>
      obtain ⟨hb', hprice⟩ := sweepExpiredExits_priceKept hsweep hb
      exact hb.priceKept_trans hb' (hchange.issued_of hb') hprice
        (hchange.priceKept hb' nofun)
  | requestExit hsweep hchange =>
      obtain ⟨hb', hprice⟩ := sweepExpiredExits_priceKept hsweep hb
      exact hb.priceKept_trans hb' (hchange.issued_of hb') hprice
        (hchange.priceKept hb' nofun)
  | claimExit _ hclear hburn =>
      have hb' := hclear.issued_of hb
      exact hb.priceKept_trans hb' (hburn.issued_of hb')
        (hclear.priceKept hb nofun) (hburn.priceKept hb' nofun)
  | processExpiredExits hsweep =>
      exact (sweepExpiredExits_priceKept hsweep hb).2

/-- Every call but a withdrawal of capital by the administrator keeps the
price. -/
theorem system_priceKept {self : Address} {w w' : World State}
    {l : Label Entry} (h : (system self).Step w l w')
    (hl : isCallOf Entry.withdrawsCapital l = false)
    (hb : Issued (book w.machine)) :
    PriceKept (book w.machine) (book w'.machine) := by
  cases h with
  | call _ hexec => exact (exec_performs hexec).priceKept hl hb
  | tick => exact .refl _
  | transfer => exact .refl _
  | mint => exact .refl _

theorem run_priceKept {self : Address} {w w' : World State}
    {ls : List (Label Entry)} (hrun : (system self).Run w ls w')
    (hls : ∀ l ∈ ls, isCallOf Entry.withdrawsCapital l = false)
    (hb : Issued (book w.machine)) :
    Issued (book w'.machine) ∧
      PriceKept (book w.machine) (book w'.machine) := by
  induction hrun with
  | nil => exact ⟨hb, .refl _⟩
  | cons hstep _ ih =>
      obtain ⟨hl, hls⟩ := List.forall_mem_cons.mp hls
      have hb' := system_issued hstep hb
      obtain ⟨hb'', hprice⟩ := ih hls hb'
      exact ⟨hb'', hb.priceKept_trans hb' hb'' (system_priceKept hstep hl hb)
        hprice⟩

/-! ## Deposits and redemptions -/

/-- What a deposit adds to the totals, after the sweep. -/
theorem deposit_credits {provider : Address} {amount least minted : ℤ}
    {compound : Bool}
    (h : deposit env provider amount least compound m = .ok (minted, m')) :
    ∃ t n burnShares,
      sweepExpiredExits env maxAutoExitScan (some provider) m = .ok (n, t) ∧
      Mints (book t) amount minted burnShares ∧
      m'.store.totalDeposited = t.store.totalDeposited + amount ∧
      m'.store.totalShares = t.store.totalShares + minted + burnShares := by
  obtain ⟨burnShares, credited, t, t₁, t₂, h⟩ := deposit_ok h
  obtain ⟨n, hsweep⟩ := h.sweep
  obtain ⟨category, u, -, hnft⟩ := h.record
  have hbook := recordNft_book hnft
  have hpaid : m'.store = t₂.store := by
    rcases h.pay with ⟨u, -, hpay⟩ | ⟨-, rfl⟩
    · obtain ⟨B', rfl, -⟩ := payOutYield_ok hpay
      rfl
    · rfl
  refine ⟨t, n, burnShares, hsweep, h.mints, ?_, ?_⟩
  · rw [hpaid]
    exact congrArg Book.totalDeposited hbook
  · rw [hpaid]
    exact congrArg Book.totalShares hbook

/-- New shares are worth no more than what was deposited for them. -/
theorem deposit_worth {provider : Address} {amount least minted : ℤ}
    {compound : Bool}
    (h : deposit env provider amount least compound m = .ok (minted, m'))
    (hb : Sound (book m)) (hall : AllHeld (book m))
    (hempty : m.store.totalShares = 0 → m.store.totalDeposited = 0) :
    minted * m'.store.totalDeposited ≤ amount * m'.store.totalShares := by
  obtain ⟨t, n, burnShares, hsweep, hmints, hdeposited, hshares⟩ :=
    deposit_credits h
  obtain ⟨_, -, hsweeps⟩ := sweepExpiredExits_sweeps hsweep
  obtain ⟨hsound, -, hcontracted⟩ := hsweeps.contracted hb hall
  have hamount := hmints.amount_ge
  have htotal := hsound.total_nonneg
  have hpool := hsound.deposited_nonneg
  unfold minDeposit at hamount
  rw [hdeposited, hshares]
  by_cases hzero : (book t).totalShares = 0
  · have hnone : t.store.totalDeposited = 0 := by
      have hle : t.store.totalDeposited ≤ m.store.totalDeposited :=
        hcontracted.deposited
      rw [hempty (hcontracted.issued.mpr hzero)] at hle
      exact le_antisymm hle hpool
    have hburned := mul_nonneg (show 0 ≤ amount by omega) hmints.burn_nonneg
    have hfresh : t.store.totalShares = 0 := hzero
    rw [hnone, hfresh]
    linarith
  · obtain ⟨hworth, hburned⟩ := hmints.worth hsound hzero
    have hbought : minted * t.store.totalDeposited ≤
        amount * t.store.totalShares := hworth
    rw [hburned]
    linarith

theorem withdrawInner_paid {provider : Address} {shares paid : ℤ}
    (h : withdrawInner env provider shares m = .ok (paid, m')) :
    paid = (book m).redeemed shares := by
  simp [withdrawInner, assertWithdrawable] at h
  obtain ⟨hpos, -, p, hfound, hheld, -, t, ht, r, t₁, hredeem, usdc, -, -, B,
    -, ⟨_, -⟩, rfl⟩ := h
  obtain rfl : t = m := by
    rcases ht with ⟨-, -, rfl⟩ | ⟨-, rfl⟩
    · rfl
    · rfl
  obtain ⟨-, rfl, -⟩ := redeem_ok hfound hpos hheld hredeem
  rfl

theorem emergencyWithdraw_paid {provider admin : Address} {shares paid : ℤ}
    (h : emergencyWithdraw env provider admin shares m = .ok (paid, m')) :
    paid = (book m).redeemed shares := by
  simp [emergencyWithdraw, requireAdmin] at h
  obtain ⟨-, -, -, hpos, p, hfound, hheld, r, t, hredeem, usdc, -, -,
    ⟨B, -, rfl⟩, rfl⟩ := h
  obtain ⟨-, rfl, -⟩ := redeem_ok hfound hpos hheld hredeem
  rfl

/-- `provider` redeems `shares` in one of the three ways there are, and is
paid `paid` for them. -/
inductive Redeemed (env : Env) (provider : Address) (shares paid : ℤ)
    (m m' : Machine State) : Prop
  | withdraw : withdraw env provider shares m = .ok (paid, m') →
      Redeemed env provider shares paid m m'
  | claimExit {request : ExitRequest} :
      m.store.exitReq provider = some request → request.shares = shares →
      claimExit env provider m = .ok (paid, m') →
      Redeemed env provider shares paid m m'
  | emergencyWithdraw {admin : Address} :
      emergencyWithdraw env provider admin shares m = .ok (paid, m') →
      Redeemed env provider shares paid m m'

/-- A redemption from a pool `b` that pays `paid` and leaves the totals of
`b'`. -/
structure PaidFrom (b b' : Book) (shares paid : ℤ) : Prop where
  issued : Issued b
  deposited_eq : b.totalDeposited = b'.totalDeposited + paid
  shares_eq : b.totalShares = b'.totalShares + shares
  worth : paid * b.totalShares ≤ shares * b.totalDeposited

theorem Book.Change.paidFrom {provider : Address} {shares : ℤ} {joint : Bool}
    (hb : Issued b) (h : Change env (.burn provider shares joint) b b') :
    PaidFrom b b' shares (b.redeemed shares) := by
  cases h with
  | burn hredeems =>
      have hprod :=
        mul_nonneg hredeems.pos.le hb.sound.deposited_nonneg
      refine ⟨hb, by simp, by simp, ?_⟩
      rw [redeemed, Int.tdiv_eq_ediv_of_nonneg hprod]
      exact Int.ediv_mul_le _ hb.issued

/-- What a redemption pays comes out of a pool whose price has not fallen
since before the call. -/
theorem Redeemed.paidFrom {provider : Address} {shares paid : ℤ}
    (h : Redeemed env provider shares paid m m') (hb : Issued (book m)) :
    ∃ b, PriceKept (book m) b ∧ PaidFrom b (book m') shares paid := by
  cases h with
  | withdraw h =>
      simp [RiskPool.withdraw] at h
      obtain ⟨-, -, n, t, hsweep, h⟩ := h
      obtain ⟨ht, hprice⟩ := sweepExpiredExits_priceKept hsweep hb
      rw [withdrawInner_paid h]
      exact ⟨_, hprice, (withdrawInner_change h).paidFrom ht⟩
  | @claimExit request hrequest hshares h =>
      simp [RiskPool.claimExit] at h
      obtain ⟨-, request', hrequest', -, _, t, hclear, h⟩ := h
      obtain rfl := Option.some.inj (hrequest.symm.trans hrequest')
      subst hshares
      have hchange : Change env (.clear provider) (book m) (book t) :=
        clearExitReservation_change hrequest hclear
      rw [withdrawInner_paid h]
      exact ⟨_, hchange.priceKept hb (by rintro _ ⟨⟩),
        (withdrawInner_change h).paidFrom (hchange.issued_of hb)⟩
  | emergencyWithdraw h =>
      rw [emergencyWithdraw_paid h]
      exact ⟨_, .refl _, (emergencyWithdraw_change h).paidFrom hb⟩

/-! ## Runs -/

theorem Reachable.issued {self : Address} {w : World State}
    (hw : (system self).Reachable w)
    (hissued : w.machine.store.totalShares ≠ 0) : Issued (book w.machine) := by
  obtain ⟨hsound, hall, hfinite⟩ := hw.invariant (allHeld_inductive self)
  exact ⟨hsound, hall, hfinite, hissued⟩

/-- From any state with shares on, as long as the administrator withdraws no
capital, the price does not fall, and the shares of a provider that keeps them
lose no value.  If the run starts with a deposit of `amount`, not made into a
pool that held capital without shares, then redeeming the minted shares at its
end pays at most `amount` and what these shares have gained in price since. -/
theorem share_price_kept {self : Address} {w w' : World State}
    {ls : List (Label Entry)} (hw : (system self).Reachable w)
    (hissued : w.machine.store.totalShares ≠ 0)
    (hrun : (system self).Run w ls w')
    (hls : ∀ l ∈ ls, isCallOf Entry.withdrawsCapital l = false) :
    w.machine.store.totalDeposited * w'.machine.store.totalShares ≤
        w'.machine.store.totalDeposited * w.machine.store.totalShares ∧
      (∀ a, (book w'.machine).held a = (book w.machine).held a →
        (book w.machine).value a ≤ (book w'.machine).value a) ∧
      ∀ t signers signers' provider amount least compound minted paid m',
        (system self).Reachable t →
        (t.machine.store.totalShares = 0 →
          t.machine.store.totalDeposited = 0) →
        deposit (callEnv self t signers) provider amount least compound
          t.machine = .ok (minted, w.machine) →
        Redeemed (callEnv self w' signers') provider minted paid w'.machine
          m' →
        w.machine.store.totalDeposited * (m'.store.totalShares + minted) ≤
            (m'.store.totalDeposited + paid) * w.machine.store.totalShares ∧
          paid * (w.machine.store.totalShares *
              (m'.store.totalShares + minted)) ≤
            amount * (w.machine.store.totalShares *
                (m'.store.totalShares + minted)) +
              minted * ((m'.store.totalDeposited + paid) *
                  w.machine.store.totalShares -
                w.machine.store.totalDeposited *
                  (m'.store.totalShares + minted)) := by
  have hb := Reachable.issued hw hissued
  obtain ⟨hb', hprice⟩ := run_priceKept hrun hls hb
  refine ⟨hprice, fun a ha => hprice.value_le hb hb' ha, ?_⟩
  intro t signers signers' provider amount least compound minted paid m' ht
    hempty hdeposit hredeemed
  obtain ⟨hsound, hall, -⟩ := ht.invariant (allHeld_inductive self)
  have hworth := deposit_worth hdeposit hsound hall hempty
  obtain ⟨b, hsweep, hpaid⟩ := hredeemed.paidFrom hb'
  have hkept := hb.priceKept_trans hb' hpaid.issued hprice hsweep
  have htotal := hb.sound.total_nonneg
  have hleft := hpaid.issued.sound.total_nonneg
  have hpays := hpaid.worth
  have hdeposited : m'.store.totalDeposited + paid = b.totalDeposited :=
    hpaid.deposited_eq.symm
  have hshares : m'.store.totalShares + minted = b.totalShares :=
    hpaid.shares_eq.symm
  rw [hdeposited, hshares]
  refine ⟨hkept, ?_⟩
  have hin := mul_le_mul_of_nonneg_right hworth hleft
  have hout := mul_le_mul_of_nonneg_right hpays htotal
  have hbook : (book w.machine).totalShares = w.machine.store.totalShares := rfl
  rw [hbook] at hout
  linarith

/-! ## A redemption worth more than its deposit -/

namespace Scenario

def seeding : Label Entry :=
  .call [other] (.deposit other 1000000 0 false)

def seeded : World State :=
  (step exec pool wired seeding).get (by decide +kernel)

/-- The provider buys nine tenths of the pool. -/
def joining : Label Entry :=
  .call [provider] (.deposit provider 9000000 0 false)

def joined : World State :=
  (step exec pool seeded joining).get (by decide +kernel)

/-- Shares worth almost two units are redeemed for one unit, twice. -/
def rounding : List (Label Entry) :=
  [.call [other] (.withdraw other 1999999000),
    .call [other] (.withdraw other 1999999000)]

def roundedOff : World State :=
  (TransitionSystem.execute (step exec pool) rounding joined).get
    (by decide +kernel)

/-- A reinsurer pays for a loss before anybody has deposited. -/
def reinsurer : Address := .contract 30

def recovery : List (Label Entry) :=
  [.mint usdc reinsurer 500000,
    .call [admin] (.setReinsurance admin reinsurer 0 (10 ^ 9) true),
    .call [admin] (.requestReinsuranceRecovery admin 1 500000
      (some ⟨500000, 500000⟩))]

def recouped : World State :=
  (TransitionSystem.execute (step exec pool) recovery wired).get
    (by decide +kernel)

def late : World State :=
  (step exec pool recouped funding).get (by decide +kernel)

/-- The provider redeems `shares`. -/
def redeeming (shares : ℤ) : Label Entry :=
  .call [provider] (.withdraw provider shares)

def redeemed : World State :=
  (step exec pool roundedOff (redeeming 9000000000000000)).get
    (by decide +kernel)

def lateRedeemed : World State :=
  (step exec pool late (redeeming 999999999999000)).get (by decide +kernel)

end Scenario

/-- What an accepted call returned. -/
theorem returned_eq {α : Type} {c : Invocation Error State α} {u : Unit}
    {a : α} (h : perform c m = .ok (u, m'))
    (ha : (c m).toOption.map Prod.fst = some a) : c m = .ok (a, m') := by
  obtain ⟨a', hc⟩ := perform_ok.mp h
  rw [hc] at ha ⊢
  simp only [Except.toOption, Option.map_some, Option.some.injEq] at ha
  rw [ha]

section Example

open Scenario

theorem seeded_reachable : (system pool).Reachable seeded :=
  .step wired_reachable (step_sound (Option.some_get _).symm)

theorem joined_minted :
    deposit (callEnv pool seeded [provider]) provider 9000000 0 false
      seeded.machine = .ok (9000000000000000, joined.machine) := by
  have hstep : Step exec pool seeded joining joined :=
    step_sound (Option.some_get _).symm
  exact returned_eq hstep.exec_eq.2 (by decide +kernel)

theorem rounding_run : (system pool).Run joined rounding roundedOff :=
  TransitionSystem.run_of_execute (fun _ _ _ => step_sound)
    (Option.some_get _).symm

theorem redeemed_paid :
    withdraw (callEnv pool roundedOff [provider]) provider 9000000000000000
      roundedOff.machine = .ok (9000001, redeemed.machine) := by
  have hstep : Step exec pool roundedOff (redeeming 9000000000000000)
      redeemed := step_sound (Option.some_get _).symm
  exact returned_eq hstep.exec_eq.2 (by decide +kernel)

/-- The price of a share has risen by the two roundings. -/
theorem share_price_kept_joined :
    joined.machine.store.totalDeposited * roundedOff.machine.store.totalShares <
        roundedOff.machine.store.totalDeposited *
          joined.machine.store.totalShares ∧
      (book joined.machine).value provider ≤
        (book roundedOff.machine).value provider ∧
      (9000001 : ℤ) * (10000000000000000 * 9999996000002000) ≤
        9000000 * (10000000000000000 * 9999996000002000) +
          9000000000000000 * (9999998 * 10000000000000000 -
            10000000 * 9999996000002000) := by
  have hstep : (system pool).Step seeded joining joined :=
    step_sound (Option.some_get _).symm
  obtain ⟨-, hvalue, hround⟩ := share_price_kept
    (seeded_reachable.step hstep) (by decide +kernel) rounding_run
    (by
      intro l hl
      simp only [rounding, List.mem_cons, List.not_mem_nil, or_false] at hl
      rcases hl with rfl | rfl <;> rfl)
  have hkept : (book roundedOff.machine).held provider =
      (book joined.machine).held provider := by
    decide +kernel
  obtain ⟨-, hpaid⟩ := hround seeded [provider] [provider] provider 9000000 0
    false _ _ _ seeded_reachable (fun h => absurd h (by decide +kernel))
    joined_minted (.withdraw redeemed_paid)
  refine ⟨by decide +kernel, hvalue provider hkept, ?_⟩
  have hjoined : joined.machine.store.totalShares = 10000000000000000 := by
    decide +kernel
  have hfunds : joined.machine.store.totalDeposited = 10000000 := by
    decide +kernel
  have hleft : redeemed.machine.store.totalShares = 999996000002000 := by
    decide +kernel
  have hrest : redeemed.machine.store.totalDeposited = 999997 := by
    decide +kernel
  rw [hjoined, hfunds, hleft, hrest] at hpaid
  exact hpaid

/-- A provider deposits 9000000 and redeems exactly the minted shares for
9000001 after two roundings of somebody else's redemptions; the first provider
of a pool that has recovered a loss redeems its shares for more as well. -/
theorem redeemed_more_than_deposited :
    ((system pool).Reachable seeded ∧
      deposit (callEnv pool seeded [provider]) provider 9000000 0 false
        seeded.machine = .ok (9000000000000000, joined.machine) ∧
      (system pool).Run joined rounding roundedOff ∧
      withdraw (callEnv pool roundedOff [provider]) provider 9000000000000000
        roundedOff.machine = .ok (9000001, redeemed.machine)) ∧
    (system pool).Reachable recouped ∧
      deposit (callEnv pool recouped [provider]) provider 1000000 0 false
        recouped.machine = .ok (999999999999000, late.machine) ∧
      withdraw (callEnv pool late [provider]) provider 999999999999000
        late.machine = .ok (1499999, lateRedeemed.machine) := by
  have hrecovery : (system pool).Run wired recovery recouped :=
    TransitionSystem.run_of_execute (fun _ _ _ => step_sound)
      (Option.some_get _).symm
  have hfunding : Step exec pool recouped funding late :=
    step_sound (Option.some_get _).symm
  have hredeeming : Step exec pool late (redeeming 999999999999000)
      lateRedeemed := step_sound (Option.some_get _).symm
  exact ⟨⟨seeded_reachable, joined_minted, rounding_run, redeemed_paid⟩,
    wired_reachable.run hrecovery,
    returned_eq hfunding.exec_eq.2 (by decide +kernel),
    returned_eq hredeeming.exec_eq.2 (by decide +kernel)⟩

end Example

end Parashield.RiskPool
