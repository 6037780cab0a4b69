import Parashield.RiskPool.Earnings
import Parashield.RiskPool.Premiums

/-!
# Risk pool: sizes that fit 128 bits

Deposits, withdrawals, exits and transfers multiply shares by totals and by
the accumulator.  Shares carry nine digits more than the deposits they stand
for, so the products leave the 128-bit range long before a deposit reaches the
default capacity.  As long as they fit, no call fails for lack of range.
-/

namespace Parashield.RiskPool

open Support Support.Contract Invocation Book

/-! ## Products within range -/

theorem inI128_of_le {x y : ℤ} (hx : 0 ≤ x) (hle : x ≤ y) (hy : InI128 y) :
    InI128 x := by
  unfold InI128 at *
  omega

/-- A quotient is no larger than the number divided. -/
theorem inI128_tdiv {x d : ℤ} (hd : 0 ≤ d) (h : InI128 x) :
    InI128 (x.tdiv d) := by
  have hquot : ∀ y : ℤ, 0 ≤ y → 0 ≤ y.tdiv d ∧ y.tdiv d ≤ y := by
    intro y hy
    refine ⟨Int.tdiv_nonneg hy hd, ?_⟩
    rw [Int.tdiv_eq_ediv_of_nonneg hy]
    exact Int.ediv_le_self d hy
  unfold InI128 at *
  rcases le_total 0 x with hx | hx
  · have hpos := hquot x hx
    omega
  · have hneg := hquot (-x) (neg_nonneg.mpr hx)
    rw [Int.neg_tdiv] at hneg
    omega

namespace Book

/-- The yield of `a` can be counted. -/
structure YieldFits (b : Book) (a : Address) : Prop where
  earned : InI128 (b.accumulatedPerShare * b.held a)
  claimed : InI128 (b.yieldClaimed a + b.pending a)

/-- Any shares of `a` can be redeemed. -/
structure RedeemFits (b : Book) (a : Address) : Prop
    extends YieldFits b a where
  worth : InI128 (b.held a * b.totalDeposited)

/-- Any shares of `a` can be withdrawn. -/
structure WithdrawFits (b : Book) (a : Address) : Prop
    extends RedeemFits b a where
  locked : InI128 (b.held a * b.totalLocked)

variable {env : Env} {b b' : Book} {a provider : Address} {p : LpPosition}

theorem account_at (h : b'.lpPosition a = b.lpPosition a) :
    b'.account a = b.account a := by
  simp only [account, h]

/-- A settlement pays all pending yield. -/
theorem YieldFits.owed_eq (hb : Sound b) (hfits : YieldFits b a)
    (hfound : b.lpPosition a = some p) (now : ℕ) :
    max 0 (b.settled now p).owed = b.pending a := by
  have hpaid : 0 < (b.settled now p).owed ↔ 0 < b.pending a :=
    hb.owed_pos_iff hfound
  have hearned := hfits.earned
  have hshares := hb.shares_nonneg hfound
  have hdebt := (hb.accounts a).2
  rw [account_of_position hfound] at hdebt
  have hdebt' : 0 ≤ p.yieldDebt := hdebt
  rw [held_of_position hfound] at hearned
  have hrange : InI128 (b.debtOf p.shares) :=
    inI128_tdiv perShareScale_pos.le hearned
  have hnonneg := hb.debtOf_nonneg hshares
  rw [hb.pending_eq hfound] at hpaid ⊢
  unfold settled at hpaid ⊢
  split
  · next hzero =>
      simp only [if_pos hzero] at hpaid ⊢
      omega
  · simp only [satI128, maxI128, minI128, InI128] at hrange ⊢
    omega

/-- Smaller figures fit as well. -/
theorem WithdrawFits.mono (hb : Sound b) (hb' : Sound b')
    (hfits : WithdrawFits b a)
    (hheld : b'.held a ≤ b.held a)
    (hdeposited : b'.totalDeposited ≤ b.totalDeposited)
    (hlocked : b'.totalLocked = b.totalLocked)
    (hacc : b'.accumulatedPerShare = b.accumulatedPerShare)
    (hclaimed : b'.yieldClaimed a + b'.pending a =
      b.yieldClaimed a + b.pending a) : WithdrawFits b' a := by
  have hnonneg := hb'.held_nonneg a
  have hworth : b'.held a * b'.totalDeposited ≤ b.held a * b.totalDeposited :=
    mul_le_mul hheld hdeposited hb'.deposited_nonneg (hb.held_nonneg a)
  have hlock : b'.held a * b'.totalLocked ≤ b.held a * b.totalLocked := by
    rw [hlocked]
    exact mul_le_mul_of_nonneg_right hheld hb.locked_nonneg
  have hearned : b'.accumulatedPerShare * b'.held a ≤
      b.accumulatedPerShare * b.held a := by
    rw [hacc]
    exact mul_le_mul_of_nonneg_left hheld hb.acc_nonneg
  exact
    { worth := inI128_of_le (mul_nonneg hnonneg hb'.deposited_nonneg) hworth
        hfits.worth
      locked := inI128_of_le (mul_nonneg hnonneg hb'.locked_nonneg) hlock
        hfits.locked
      earned := inI128_of_le (mul_nonneg hb'.acc_nonneg hnonneg) hearned
        hfits.earned
      claimed := hclaimed ▸ hfits.claimed }

/-- Redeeming shares makes room. -/
theorem Change.fits_burn {shares : ℤ} {joint : Bool} (hb : Sound b)
    (h : Change env (.burn provider shares joint) b b')
    (hfits : WithdrawFits b a) : WithdrawFits b' a := by
  have hb' := h.sound hb
  cases h with
  | @burn _ _ _ p _ B hredeems _ =>
      have hpos := hredeems.pos
      have hheld := hredeems.held
      obtain ⟨hredeemed, -⟩ :=
        hb.redeemed_le hpos (hheld.trans (hb.held_le hredeems.found))
      by_cases ha : a = provider
      · subst ha
        have hposition : { b with
            lpPosition := b.setPosition a
              (b.reduced env.now p shares (b.redeemed shares))
            totalDeposited := b.totalDeposited - b.redeemed shares
            totalShares := b.totalShares - shares
            bank := B }.lpPosition a =
            some (b.reduced env.now p shares (b.redeemed shares)) :=
          Function.update_self ..
        refine hfits.mono hb hb' ?_ ?_ rfl rfl ?_
        · rw [held_of_position hposition, held_of_position hredeems.found]
          show p.shares - shares ≤ p.shares
          omega
        · simp only
          omega
        · rw [yieldClaimed_of_position hposition,
            yieldClaimed_of_position hredeems.found,
            hb'.pending_eq hposition, ← hfits.owed_eq hb hredeems.found env.now]
          show (b.settled env.now p).position.yieldClaimed + max 0 _ = _
          rw [b.settled_yieldClaimed env.now p]
          show _ + max 0 (b.debtOf (p.shares - shares) -
            b.debtOf (p.shares - shares)) = _
          rw [sub_self, max_self, add_zero]
      · have hposition : { b with
            lpPosition := b.setPosition provider
              (b.reduced env.now p shares (b.redeemed shares))
            totalDeposited := b.totalDeposited - b.redeemed shares
            totalShares := b.totalShares - shares
            bank := B }.lpPosition a = b.lpPosition a :=
          Function.update_of_ne ha ..
        have haccount := account_at hposition
        refine hfits.mono hb hb' ?_ ?_ rfl rfl ?_
        · exact (congrArg Yield.Account.shares haccount).le
        · simp only
          omega
        · rw [yieldClaimed_congr hposition, pending, haccount]
          rfl

theorem Change.fits_clear (h : Change env (.clear provider) b b')
    (hfits : WithdrawFits b a) : WithdrawFits b' a := by
  obtain ⟨⟨⟨hearned, hclaimed⟩, hworth⟩, hlocked⟩ := hfits
  cases h with
  | clear => exact ⟨⟨⟨hearned, hclaimed⟩, hworth⟩, hlocked⟩

end Book

/-! ## Calls within range -/

section Calls

variable {env : Env} {m m' : Machine State} {provider : Address}
  {p : LpPosition}

theorem settleYield_avoids (hb : Sound (book m))
    (hfound : m.store.lpPosition provider = some p)
    (hfits : YieldFits (book m) provider) (now : ℕ) :
    (m.store.settleYield now p).Avoids Fault.IsOverflow := by
  have hbook : (book m).lpPosition provider = some p := hfound
  have hearned := hfits.earned
  have hclaimed := hfits.claimed
  have hdebt := (hb.accounts provider).2
  rw [held_of_position hbook] at hearned
  rw [yieldClaimed_of_position hbook, hb.pending_eq hbook] at hclaimed
  rw [account_of_position hbook] at hdebt
  simp [State.settleYield]
  intro _
  refine ⟨hearned, fun _ hpos => ?_⟩
  have hdebt' : 0 ≤ p.yieldDebt := hdebt
  have hrange : InI128 ((book m).debtOf p.shares) :=
    inI128_tdiv perShareScale_pos.le hearned
  change 0 < satI128 ((book m).debtOf p.shares - p.yieldDebt) at hpos
  change InI128 (p.yieldClaimed +
    satI128 ((book m).debtOf p.shares - p.yieldDebt))
  simp only [satI128, maxI128, minI128, InI128] at *
  omega

theorem redeem_avoids (hb : Sound (book m))
    (hfound : m.store.lpPosition provider = some p)
    (hfits : RedeemFits (book m) provider) {shares : ℤ} (hpos : 0 < shares)
    (hheld : shares ≤ p.shares) (drained : Error) :
    Avoids Fault.IsOverflow (redeem env provider shares p drained) m := by
  have hbook : (book m).lpPosition provider = some p := hfound
  obtain ⟨hredeemed, hredeemedle⟩ :=
    hb.redeemed_le hpos (hheld.trans (hb.held_le hbook))
  have hworth : InI128 (shares * m.store.totalDeposited) := by
    have hle := mul_le_mul_of_nonneg_right hheld hb.deposited_nonneg
    have hall := hfits.worth
    rw [held_of_position hbook] at hall
    exact inI128_of_le (mul_nonneg hpos.le hb.deposited_nonneg) hle hall
  have hquotient : InI128 ((book m).redeemed shares) :=
    inI128_tdiv hb.total_nonneg hworth
  have hearned : InI128 (m.store.accumulatedPerShare * (p.shares - shares)) := by
    have hle := mul_le_mul_of_nonneg_left
      (show p.shares - shares ≤ p.shares by omega) hb.acc_nonneg
    have hall := hfits.earned
    rw [held_of_position hbook] at hall
    exact inI128_of_le (mul_nonneg hb.acc_nonneg (by omega)) hle hall
  have htotal := hb.shares_range
  have hdeposited := hb.deposited_range
  have hheldle := hb.held_le hbook
  have hissued : (book m).totalShares = m.store.totalShares := rfl
  have hrecorded : (book m).totalDeposited = m.store.totalDeposited := rfl
  simp [redeem, updateLpNft, State.yieldDebt]
  intro _
  refine ⟨⟨hworth, fun _ _ => hquotient⟩, ?_⟩
  rintro amount t - - - hamount rfl - -
  have hamount' : amount = (book t).redeemed shares := hamount
  refine ⟨settleYield_avoids hb hfound hfits.toYieldFits env.now, ?_⟩
  intro settled hsettled
  have hshares : settled.position.shares = p.shares := by
    rw [settleYield_ok hsettled, settled_shares]
  rw [hshares]
  unfold InI128 at htotal hdeposited
  refine ⟨by unfold InI128; omega, ?_⟩
  rintro left _ - rfl rfl
  refine ⟨hearned, ?_⟩
  rintro debt _ - - rfl
  refine ⟨by unfold InI128; omega, ?_⟩
  rintro deposited _ - - rfl
  unfold InI128
  omega

theorem withdrawInner_avoids (hb : Sound (book m))
    (hfits : WithdrawFits (book m) provider) (shares : ℤ) :
    Avoids Fault.IsOverflow (withdrawInner env provider shares) m := by
  simp [withdrawInner, assertWithdrawable, payOutYield]
  rintro hpos - p hfound hheld -
  have hlocked := hfits.locked
  rw [held_of_position (b := book m) hfound] at hlocked
  refine ⟨fun _ => hlocked, ?_⟩
  rintro t (⟨-, -, rfl⟩ | ⟨-, rfl⟩)
  all_goals exact redeem_avoids hb hfound hfits.toRedeemFits hpos hheld _

/-- A settlement owes less than the scale of the accumulator allows. -/
theorem Book.YieldFits.owed_lt {b : Book} {a : Address} (hb : Sound b)
    (hfits : YieldFits b a) (hfound : b.lpPosition a = some p) (now : ℕ) :
    -2 ^ 127 ≤ (b.settled now p).owed ∧ (b.settled now p).owed < 2 ^ 88 := by
  have howed := hb.settled_owed_le now hfound
  have hshares := hb.shares_nonneg hfound
  have hearned := hfits.earned
  have hdebt := (hb.accounts a).2
  rw [account_of_position hfound] at hdebt
  have hdebt' : 0 ≤ p.yieldDebt := hdebt
  rw [held_of_position hfound] at hearned
  have hcounted := hb.debtOf_eq hshares
  rw [hb.pending_eq hfound] at howed
  unfold perShareScale at hcounted
  unfold InI128 at hearned
  constructor
  · unfold settled satI128 minI128
    split
    · norm_num
    · exact le_max_left _ _
  · omega

theorem emergencyWithdraw_avoids (hb : Sound (book m))
    (hfits : RedeemFits (book m) provider)
    (hcap : m.store.totalDeposited ≤ maxTotalDeposited) (admin : Address)
    (shares : ℤ) :
    Avoids Fault.IsOverflow (emergencyWithdraw env provider admin shares) m := by
  simp [emergencyWithdraw, requireAdmin]
  rintro - _ - - - hpos p hfound hheld
  refine ⟨redeem_avoids hb hfound hfits hpos hheld _, ?_⟩
  rintro r t hredeem - -
  obtain ⟨-, rfl, -⟩ := redeem_ok hfound hpos hheld hredeem
  have hbook : (book m).lpPosition provider = some p := hfound
  obtain ⟨hlow, hhigh⟩ :=
    hb.redeemed_le hpos (hheld.trans (hb.held_le hbook))
  obtain ⟨hleast, hmost⟩ := hfits.owed_lt hb hbook env.now
  have hsize : (book m).totalDeposited ≤ maxTotalDeposited := hcap
  unfold maxTotalDeposited at hsize
  unfold InI128
  simp only
  omega

/-! ## Sweeps within range -/

/-- The providers in `Q` can withdraw, and they include all that wait for an
exit. -/
structure Book.Settleable (Q : Address → Prop) (b : Book) : Prop where
  sound : Sound b
  fits : ∀ a, Q a → WithdrawFits b a
  queued : ∀ a, b.exitReq a ≠ none → Q a

variable {Q : Address → Prop} {skip : Option Address}

theorem Book.Change.settleable_clear {b b' : Book}
    (h : Change env (.clear provider) b b') (hb : Settleable Q b) :
    Settleable Q b' := by
  have hsound := h.sound hb.sound
  have hfits := fun a ha => h.fits_clear (hb.fits a ha)
  cases h with
  | clear =>
      refine ⟨hsound, hfits, fun a ha => ?_⟩
      refine hb.queued a fun hnone => ha ?_
      by_cases hprovider : a = provider
      · rw [hprovider]
        exact Function.update_self ..
      · exact (Function.update_of_ne hprovider ..).trans hnone

theorem Book.Change.settleable_burn {b b' : Book} {shares : ℤ} {joint : Bool}
    (h : Change env (.burn provider shares joint) b b')
    (hb : Settleable Q b) : Settleable Q b' := by
  have hsound := h.sound hb.sound
  have hfits := fun a ha => h.fits_burn hb.sound (hb.fits a ha)
  cases h with
  | burn => exact ⟨hsound, hfits, hb.queued⟩

@[simp] theorem clearExitReservation_avoids {shares : ℤ} :
    Avoids Fault.IsOverflow (clearExitReservation provider shares) m :=
  avoids_update _

theorem sweepSlot_settleable (idx : ℕ) :
    Keeps (fun m => Settleable Q (book m)) (sweepSlot env skip idx) := by
  rintro m settled m' hb h
  rcases sweepSlot_change h with hsame | ⟨_, _, b, -, hclear, hrest⟩
  · exact hsame ▸ hb
  · have hcleared := hclear.settleable_clear hb
    rcases hrest with hsame | ⟨_, -, hburn⟩
    · exact hsame ▸ hcleared
    · exact hburn.settleable_burn hcleared

theorem sweepSlot_avoids (hb : Settleable Q (book m)) (idx : ℕ) :
    Avoids Fault.IsOverflow (sweepSlot env skip idx) m := by
  unfold sweepSlot
  simp only [avoids_bind, avoids_load, load_ok, true_and]
  rintro s t ⟨rfl, rfl⟩
  cases haddress : t.store.lpAddress idx with
  | none => exact avoids_pure false
  | some provider =>
      rw [avoids_ite]
      refine ⟨fun _ => avoids_pure false, fun _ => ?_⟩
      cases hrequest : t.store.exitReq provider with
      | none => exact avoids_pure false
      | some request =>
          simp
          intro _
          have hprovider : Q provider := by
            refine hb.queued provider ?_
            show t.store.exitReq provider ≠ none
            rw [hrequest]
            exact Option.some_ne_none _
          rintro - - - - u t' hclear
          have hchange : Change env (.clear provider) (book t) (book t') :=
            clearExitReservation_change hrequest hclear
          have hcleared := hchange.settleable_clear hb
          exact withdrawInner_avoids hcleared.sound
            (hcleared.fits provider hprovider) _

theorem sweepExpiredExits_avoids (hb : Settleable Q (book m)) (maxScan : ℕ) :
    Avoids Fault.IsOverflow (sweepExpiredExits env maxScan skip) m := by
  simp [sweepExpiredExits]
  intro _ _ _
  exact avoids_collect (fun _ _ _ ht => sweepSlot_avoids ht _)
    (fun _ _ => sweepSlot_settleable _) hb

theorem sweepExpiredExits_settleable {maxScan n : ℕ}
    (hb : Settleable Q (book m))
    (h : sweepExpiredExits env maxScan skip m = .ok (n, m')) :
    Settleable Q (book m') := by
  obtain ⟨_, -, hsweeps⟩ := sweepExpiredExits_sweeps h
  generalize book m = b at hb hsweeps
  generalize book m' = b' at hsweeps
  induction hsweeps with
  | refl => exact hb
  | clear _ hclear ih => exact hclear.settleable_clear (ih hb)
  | burn _ hburn ih => exact hburn.settleable_burn (ih hb)

theorem withdraw_avoids (hb : Settleable Q (book m)) (hprovider : Q provider)
    (shares : ℤ) :
    Avoids Fault.IsOverflow (withdraw env provider shares) m := by
  simp [withdraw]
  intro _ _
  refine ⟨sweepExpiredExits_avoids hb _, fun n t hsweep => ?_⟩
  have hswept := sweepExpiredExits_settleable hb hsweep
  exact withdrawInner_avoids hswept.sound (hswept.fits provider hprovider) _

theorem claimExit_avoids (hb : Sound (book m))
    (hfits : WithdrawFits (book m) provider) :
    Avoids Fault.IsOverflow (claimExit env provider) m := by
  simp [claimExit]
  rintro - request hrequest - u t hclear
  have hchange : Change env (.clear provider) (book m) (book t) :=
    clearExitReservation_change hrequest hclear
  exact withdrawInner_avoids (hchange.sound hb) (hchange.fits_clear hfits) _

/-! ## Transfers within range -/

namespace Book

/-- The deposit recorded for `a`. -/
def recorded (b : Book) (a : Address) : ℤ :=
  match b.lpPosition a with
  | some p => p.deposited
  | none => 0

/-- What a transfer of `shares` computes fits. -/
structure TransferFits (b : Book) (sender recipient : Address) (shares : ℤ) :
    Prop where
  giver : YieldFits b sender
  taker : YieldFits b recipient
  moved : InI128 (shares * b.recorded sender)
  received : InI128 (b.accumulatedPerShare * (b.held recipient + shares))
  credited : InI128 (b.recorded recipient +
    (shares * b.recorded sender).tdiv (b.held sender))

end Book

@[simp] theorem settled_deposited (b : Book) (now : ℕ) (p : LpPosition) :
    (b.settled now p).position.deposited = p.deposited := by
  unfold settled
  split
  · rfl
  · dsimp only
    split
    · rfl
    · rfl

theorem payOutYield_avoids {owed : ℤ} :
    Avoids Fault.IsOverflow (payOutYield env provider owed) m := by
  simp [payOutYield]

theorem recordNft_avoids {isNewLp : Bool} {category : Symbol} :
    Avoids Fault.IsOverflow (recordNft env provider isNewLp category p) m := by
  unfold recordNft
  split
  · simp [mintLpNft]
  · exact avoids_update _

/-- Settling depends on the accumulator and the number of shares only. -/
theorem settleYield_congr (hshares : m'.store.totalShares = m.store.totalShares)
    (hacc : m'.store.accumulatedPerShare = m.store.accumulatedPerShare)
    (now : ℕ) : m'.store.settleYield now p = m.store.settleYield now p := by
  unfold State.settleYield
  rw [hshares, hacc]

theorem creditTransfer_avoids {recipient : Address} {shares amount : ℤ}
    (hsettle : ∀ p, m.store.lpPosition recipient = some p →
      (m.store.settleYield env.now p).Avoids Fault.IsOverflow)
    (hshares : InI128 ((book m).held recipient + shares))
    (hreceived : InI128 ((book m).accumulatedPerShare *
      ((book m).held recipient + shares)))
    (hcredited : InI128 ((book m).recorded recipient + amount)) :
    Avoids Fault.IsOverflow (creditTransfer env recipient shares amount) m := by
  have hbook : (book m).lpPosition recipient = m.store.lpPosition recipient :=
    rfl
  unfold creditTransfer
  simp only [avoids_bind, avoids_load, load_ok, true_and]
  rintro s t ⟨rfl, rfl⟩
  cases hp : t.store.lpPosition recipient with
  | none =>
      rw [hp] at hbook
      have hnone : (book t).held recipient = 0 :=
        congrArg Yield.Account.shares (account_of_none hbook)
      rw [hnone, zero_add] at hreceived
      simp [registerProvider, State.yieldDebt]
      rintro - - _ - -
      exact hreceived
  | some p =>
      rw [hp] at hbook
      have hheld := held_of_position hbook
      rw [hheld] at hshares hreceived
      simp only [recorded, hbook] at hcredited
      simp [payOutYield, State.yieldDebt]
      refine ⟨hsettle p hp, fun settled hsettled => ?_⟩
      have hsettled' := settleYield_ok hsettled
      rw [hsettled', settled_deposited, settled_shares]
      refine ⟨hcredited, ?_⟩
      rintro deposited _ - - rfl
      refine ⟨hshares, ?_⟩
      rintro held _ - rfl -
      exact hreceived

/-- The receiving side is credited after the position of the giver changed. -/
theorem creditTransfer_avoids_after {sender recipient : Address}
    {shares amount : ℤ} {q : LpPosition} {B : Bank} (hb : Sound (book m))
    (hne : sender ≠ recipient) (hfits : YieldFits (book m) recipient)
    (hshares : InI128 ((book m).held recipient + shares))
    (hreceived : InI128 ((book m).accumulatedPerShare *
      ((book m).held recipient + shares)))
    (hcredited : InI128 ((book m).recorded recipient + amount))
    (hbook : book m' =
      { book m with
        lpPosition := (book m).setPosition sender q, bank := B }) :
    Avoids Fault.IsOverflow (creditTransfer env recipient shares amount)
      m' := by
  have hposition : (book m').lpPosition recipient =
      (book m).lpPosition recipient := by
    rw [hbook]
    exact Function.update_of_ne hne.symm ..
  have hacc : (book m').accumulatedPerShare =
      (book m).accumulatedPerShare := by
    rw [hbook]
  have htotal : (book m').totalShares = (book m).totalShares := by
    rw [hbook]
  have hheld : (book m').held recipient = (book m).held recipient :=
    congrArg Yield.Account.shares (account_at hposition)
  have hrecorded : (book m').recorded recipient =
      (book m).recorded recipient := by
    simp only [recorded, hposition]
  refine creditTransfer_avoids (fun p hp => ?_) (hheld ▸ hshares)
    (hheld ▸ hacc ▸ hreceived) (hrecorded ▸ hcredited)
  rw [settleYield_congr htotal hacc env.now]
  exact settleYield_avoids hb (hposition.symm.trans hp) hfits env.now

theorem transferPosition_avoids {sender recipient : Address} {shares : ℤ}
    (hb : Sound (book m))
    (hfits : TransferFits (book m) sender recipient shares) :
    Avoids Fault.IsOverflow (transferPosition env sender recipient shares)
      m := by
  obtain ⟨hgiver, htaker, hmoved, hreceived, hcredited⟩ := hfits
  simp [transferPosition, requireNotAdmin, assertActive, State.yieldDebt,
    updateLpNft, payOutYield_avoids, recordNft_avoids]
  rintro - hpos hne - - p hfound hheld
  have hbook : (book m).lpPosition sender = some p := hfound
  have hrecorded : (book m).recorded sender = p.deposited := by
    simp only [recorded, hbook]
  rw [hrecorded] at hmoved hcredited
  rw [held_of_position hbook] at hcredited
  have hshares := hb.shares_nonneg hbook
  refine ⟨⟨hmoved, fun _ _ => inI128_tdiv hshares hmoved⟩, ?_⟩
  rintro amount t - - - rfl ht -
  refine ⟨settleYield_avoids hb hfound hgiver env.now, ?_⟩
  intro settled hsettled
  have hleft : settled.position.shares = p.shares := by
    rw [settleYield_ok hsettled, settled_shares]
  rw [hleft]
  have htotal := hb.shares_range
  have hheldle := hb.held_le hbook
  have hrange : InI128 (p.shares - shares) := by
    unfold InI128 at *
    omega
  have htaken : InI128 ((book m).held recipient + shares) := by
    have hboth := hb.issued {sender, recipient}
    rw [Finset.sum_pair hne, held_of_position hbook] at hboth
    have hnonneg := hb.held_nonneg recipient
    unfold InI128 at *
    omega
  have hearned : InI128 (m.store.accumulatedPerShare * (p.shares - shares)) := by
    have hle := mul_le_mul_of_nonneg_left
      (show p.shares - shares ≤ p.shares by omega) hb.acc_nonneg
    have hall := hgiver.earned
    rw [held_of_position hbook] at hall
    exact inI128_of_le (mul_nonneg hb.acc_nonneg (by omega)) hle hall
  refine ⟨hrange, ?_⟩
  rintro left _ - rfl rfl
  refine ⟨hearned, ?_⟩
  rintro debt _ - - rfl _ t' hpay
  rw [ht] at hpay
  obtain ⟨B, rfl, -⟩ := payOutYield_ok hpay
  exact creditTransfer_avoids_after hb hne htaker htaken hreceived hcredited
    (updateLpNft_book _ B _)

/-! ## Deposits within range -/

namespace Book

/-- What a deposit of `amount` by `provider` computes fits. -/
structure DepositFits (b : Book) (provider : Address) (amount : ℤ) : Prop
    extends YieldFits b provider where
  priced : InI128 (amount * b.totalShares)
  issued : InI128 (b.totalShares + b.bought amount)
  received : InI128 (b.accumulatedPerShare *
    (b.held provider + b.bought amount))
  credited : InI128 (b.recorded provider + amount)

/-- Shares were redeemed at no less than they are worth. -/
structure Contracted (b b' : Book) : Prop where
  issued : b.totalShares = 0 ↔ b'.totalShares = 0
  shares : b'.totalShares ≤ b.totalShares
  deposited : b'.totalDeposited ≤ b.totalDeposited
  price : b'.totalShares * b.totalDeposited ≤
    b.totalShares * b'.totalDeposited

theorem Contracted.refl (b : Book) : Contracted b b :=
  ⟨Iff.rfl, le_rfl, le_rfl, le_rfl⟩

theorem Contracted.trans {b b' b'' : Book} (hb : Sound b) (hb' : Sound b')
    (hb'' : Sound b'') (h : Contracted b b') (h' : Contracted b' b'') :
    Contracted b b'' := by
  refine ⟨h.issued.trans h'.issued, h'.shares.trans h.shares,
    h'.deposited.trans h.deposited, ?_⟩
  have hfirst := mul_le_mul_of_nonneg_right h.price hb''.deposited_nonneg
  have hsecond := mul_le_mul_of_nonneg_right h'.price hb.deposited_nonneg
  rcases hb'.deposited_nonneg.lt_or_eq with hpos | hzero
  · refine le_of_mul_le_mul_left ?_ hpos
    linarith
  · have hnone : b''.totalDeposited = 0 := by
      have hle := h'.deposited
      have hnonneg := hb''.deposited_nonneg
      omega
    have hprice := h.price
    have hless := mul_le_mul_of_nonneg_right h'.shares hb.deposited_nonneg
    rw [← hzero, mul_zero] at hprice
    rw [hnone, mul_zero]
    exact hless.trans hprice

theorem Change.contracted_burn {b b' : Book} {provider : Address} {shares : ℤ}
    {joint : Bool} (hb : Sound b) (hall : AllHeld b)
    (h : Change env (.burn provider shares joint) b b') : Contracted b b' := by
  cases h with
  | @burn _ _ _ p _ B hredeems _ =>
      have hpos := hredeems.pos
      have hheld := hredeems.held
      have hissued := hredeems.issued
      have hle := hheld.trans (hb.held_le hredeems.found)
      obtain ⟨hredeemed, -⟩ := hb.redeemed_le hpos hle
      have hworth : b.redeemed shares * b.totalShares ≤
          shares * b.totalDeposited := by
        have hprod := mul_nonneg hpos.le hb.deposited_nonneg
        rw [redeemed, Int.tdiv_eq_ediv_of_nonneg hprod]
        exact Int.ediv_mul_le _ hissued
      have hrest : 0 < b.totalShares - shares := by
        have howned : p.shares ≤ b.totalShares - lockedShares := by
          have hone := HasTotal.apply_le hall hb.held_nonneg provider
          rwa [held_of_position hredeems.found, outstanding, if_neg hissued]
            at hone
        unfold lockedShares at howned
        omega
      refine ⟨⟨fun hzero => absurd hzero hissued, fun hzero => ?_⟩, ?_, ?_, ?_⟩
      · simp only at hzero
        omega
      · simp only
        omega
      · simp only
        omega
      · simp only
        rw [sub_mul, mul_sub, mul_comm b.totalShares (b.redeemed shares)]
        omega

/-- A deposit that fitted before shares were redeemed fits afterwards. -/
theorem Contracted.bought_le {b b' : Book} (hb : Sound b) (hb' : Sound b')
    (h : Contracted b b') {amount : ℤ} (hamount : 0 ≤ amount) :
    b'.bought amount ≤ b.bought amount := by
  unfold bought
  by_cases hzero : b.totalShares = 0
  · rw [if_pos hzero, if_pos (h.issued.mp hzero)]
  · rw [if_neg hzero, if_neg fun hz => hzero (h.issued.mpr hz)]
    have hprod := mul_nonneg hamount hb.total_nonneg
    have hprod' := mul_nonneg hamount hb'.total_nonneg
    rw [Int.tdiv_eq_ediv_of_nonneg hprod, Int.tdiv_eq_ediv_of_nonneg hprod']
    rcases hb'.deposited_nonneg.lt_or_eq with hpos | hnone
    · have hfull : 0 < b.totalDeposited := hpos.trans_le h.deposited
      refine (Int.le_ediv_iff_mul_le hfull).mpr ?_
      have hquot := Int.ediv_mul_le (amount * b'.totalShares) hpos.ne'
      have hscaled := mul_le_mul_of_nonneg_right hquot hb.deposited_nonneg
      have hprice := mul_le_mul_of_nonneg_left h.price hamount
      refine le_of_mul_le_mul_right ?_ hpos
      linarith
    · rw [← hnone, Int.ediv_zero]
      exact Int.ediv_nonneg hprod hb.deposited_nonneg

theorem bought_nonneg {b : Book} (hb : Sound b) {amount : ℤ}
    (hamount : minDeposit ≤ amount) : 0 ≤ b.bought amount := by
  unfold minDeposit at hamount
  unfold bought
  split
  · unfold lockedShares
    omega
  · exact Int.tdiv_nonneg (mul_nonneg (by omega) hb.total_nonneg)
      hb.deposited_nonneg

theorem DepositFits.contracted {b b' : Book} {provider : Address}
    {amount : ℤ} (hb : Sound b) (hb' : Sound b')
    (hfits : DepositFits b provider amount) (h : Contracted b b')
    (hamount : minDeposit ≤ amount)
    (hposition : b'.lpPosition provider = b.lpPosition provider)
    (hacc : b'.accumulatedPerShare = b.accumulatedPerShare) :
    DepositFits b' provider amount := by
  have hpos : 0 ≤ amount := by
    unfold minDeposit at hamount
    omega
  have haccount := account_at hposition
  have hheld : b'.held provider = b.held provider :=
    congrArg Yield.Account.shares haccount
  have hless := h.bought_le hb hb' hpos
  have hbought := bought_nonneg hb' hamount
  have hnonneg := hb'.held_nonneg provider
  have hshares := h.shares
  have htotal := hb'.total_nonneg
  refine ⟨⟨?_, ?_⟩, ?_, ?_, ?_, ?_⟩
  · rw [hacc, hheld]
    exact hfits.earned
  · rw [yieldClaimed_congr hposition, pending, haccount, hacc]
    exact hfits.claimed
  · exact inI128_of_le (mul_nonneg hpos htotal)
      (mul_le_mul_of_nonneg_left hshares hpos) hfits.priced
  · exact inI128_of_le (by omega) (by omega) hfits.issued
  · refine inI128_of_le
      (mul_nonneg hb'.acc_nonneg (add_nonneg hnonneg hbought)) ?_
      hfits.received
    rw [hacc]
    exact mul_le_mul_of_nonneg_left (by omega) hb.acc_nonneg
  · have hrecorded : b'.recorded provider = b.recorded provider := by
      simp only [recorded, hposition]
    rw [hrecorded]
    exact hfits.credited

end Book

theorem Sweeps.contracted {n : ℕ} {b b' : Book} (h : Sweeps env n b b')
    (hb : Sound b) (hall : AllHeld b) :
    Sound b' ∧ AllHeld b' ∧ Contracted b b' := by
  induction h with
  | refl => exact ⟨hb, hall, .refl _⟩
  | clear _ hclear ih =>
      obtain ⟨hb', hall', hsmall⟩ := ih hb hall
      refine ⟨hclear.sound hb', hclear.allHeld hb' hall', ?_⟩
      obtain ⟨hissued, hshares, hdeposited, hprice⟩ := hsmall
      cases hclear
      exact ⟨hissued, hshares, hdeposited, hprice⟩
  | burn _ hburn ih =>
      obtain ⟨hb', hall', hsmall⟩ := ih hb hall
      have hb'' := hburn.sound hb'
      exact ⟨hb'', hburn.allHeld hb' hall',
        hsmall.trans hb hb' hb'' (hburn.contracted_burn hb' hall')⟩

theorem creditDeposit_avoids {amount newShares : ℤ} {compound : Bool}
    (hsettle : ∀ p, m.store.lpPosition provider = some p →
      (m.store.settleYield env.now p).Avoids Fault.IsOverflow)
    (hshares : InI128 ((book m).held provider + newShares))
    (hreceived : InI128 ((book m).accumulatedPerShare *
      ((book m).held provider + newShares)))
    (hcredited : InI128 ((book m).recorded provider + amount)) :
    Avoids Fault.IsOverflow
      (creditDeposit env provider amount newShares compound) m := by
  have hbook : (book m).lpPosition provider = m.store.lpPosition provider :=
    rfl
  unfold creditDeposit
  simp only [avoids_bind, avoids_load, load_ok, true_and]
  rintro s t ⟨rfl, rfl⟩
  cases hp : t.store.lpPosition provider with
  | none =>
      rw [hp] at hbook
      have hnone : (book t).held provider = 0 :=
        congrArg Yield.Account.shares (account_of_none hbook)
      rw [hnone, zero_add] at hreceived
      simp [registerProvider, State.yieldDebt]
      rintro _ _ - - -
      exact hreceived
  | some p =>
      rw [hp] at hbook
      have hheld := held_of_position hbook
      rw [hheld] at hshares hreceived
      simp only [recorded, hbook] at hcredited
      simp [State.yieldDebt]
      refine ⟨hsettle p hp, fun settled hsettled => ?_⟩
      rw [settleYield_ok hsettled, settled_deposited, settled_shares]
      refine ⟨hcredited, ?_⟩
      rintro deposited _ - - rfl
      refine ⟨hshares, ?_⟩
      rintro held _ - rfl -
      exact hreceived

theorem mintedShares_avoids {amount : ℤ} (hb : Sound (book m))
    (hpos : 0 ≤ amount) (hamount : amount ≤ maxTotalDeposited)
    (hpriced : InI128 (amount * (book m).totalShares)) :
    (m.store.mintedShares amount).Avoids Fault.IsOverflow := by
  unfold maxTotalDeposited at hamount
  simp [State.mintedShares]
  refine ⟨fun _ => ?_, fun _ => ⟨hpriced, fun _ _ => ?_⟩⟩
  · unfold InI128
    omega
  · exact inI128_tdiv hb.deposited_nonneg hpriced

/-- What a deposit mints, and the total with it. -/
theorem mintedShares_bought {amount minted burnShares : ℤ}
    (hpos : 0 ≤ amount) (hamount : amount ≤ maxTotalDeposited)
    (hissued : InI128 ((book m).totalShares + (book m).bought amount))
    (h : m.store.mintedShares amount = .ok (minted, burnShares)) :
    minted = (book m).bought amount ∧
      InI128 (m.store.totalShares + minted + burnShares) := by
  obtain ⟨hfirst, hlater⟩ := mintedShares_ok h
  have htotal : (book m).totalShares = m.store.totalShares := rfl
  unfold maxTotalDeposited at hamount
  unfold bought at hissued ⊢
  by_cases hzero : (book m).totalShares = 0
  · obtain ⟨rfl, rfl⟩ := hfirst hzero
    rw [if_pos hzero]
    refine ⟨rfl, ?_⟩
    rw [← htotal, hzero]
    unfold InI128
    omega
  · obtain ⟨rfl, rfl⟩ := hlater hzero
    rw [if_neg hzero] at hissued ⊢
    rw [add_zero]
    exact ⟨rfl, hissued⟩

theorem deposit_avoids {amount minSharesOut : ℤ} {compound : Bool}
    (hb : Settleable Q (book m)) (hall : AllHeld (book m))
    (hcap : m.store.totalDeposited ≤ maxTotalDeposited)
    (hamount : amount ≤ maxTotalDeposited)
    (hfits : DepositFits (book m) provider amount) :
    Avoids Fault.IsOverflow
      (deposit env provider amount minSharesOut compound) m := by
  simp [deposit, requireNotZeroAddress, requireNotAdmin, assertActive,
    pullDeposit, payOutYield_avoids, recordNft_avoids]
  rintro - - - hpos hleast - -
  refine ⟨sweepExpiredExits_avoids hb _, fun n t hsweep => ?_⟩
  obtain ⟨_, -, hsweeps⟩ := sweepExpiredExits_sweeps hsweep
  obtain ⟨hsound, -, hsmall⟩ := hsweeps.contracted hb.sound hall
  obtain ⟨hposition, hacc⟩ := sweepExpiredExits_skips hsweep
  have hfits' := hfits.contracted hb.sound hsound hsmall hleast hposition hacc
  have hdeposited : (book t).totalDeposited ≤ maxTotalDeposited :=
    hsmall.deposited.trans hcap
  have hnonneg := hsound.deposited_nonneg
  have hsum : InI128 ((book t).totalDeposited + amount) := by
    unfold maxTotalDeposited at hdeposited hamount
    unfold InI128
    omega
  refine ⟨hsum, ?_⟩
  rintro _ t' - - rfl - -
  refine ⟨mintedShares_avoids hsound hpos.le hamount hfits'.priced, ?_⟩
  rintro minted burnShares hminted - - usdc - t'' - B - rfl -
  obtain ⟨rfl, hissued⟩ :=
    mintedShares_bought hpos.le hamount hfits'.issued hminted
  refine ⟨?_, fun _ _ _ => hissued⟩
  have hheld := hsound.issued.apply_le provider
  have hshares := hsound.held_nonneg provider
  have hbought := bought_nonneg hsound hleast
  have hrange : InI128 ((book t').held provider + (book t').bought amount) :=
    inI128_of_le (by omega) (by omega) hfits'.issued
  exact creditDeposit_avoids
    (fun p hp => settleYield_avoids hsound hp hfits'.toYieldFits env.now)
    hrange hfits'.received hfits'.credited

end Calls

/-! ## Every reachable state -/

/-- The sizes a call computes with fit 128 bits: those of the caller, and
those of the providers whose exits it may settle on the way. -/
def Entry.FitsRange (b : Book) : Entry → Prop
  | .deposit provider amount _ _ =>
      amount ≤ maxTotalDeposited ∧ DepositFits b provider amount ∧
        ∀ a, b.exitReq a ≠ none → WithdrawFits b a
  | .withdraw provider _ =>
      WithdrawFits b provider ∧ ∀ a, b.exitReq a ≠ none → WithdrawFits b a
  | .emergencyWithdraw provider _ _ => RedeemFits b provider
  | .claimExit provider => WithdrawFits b provider
  | .transferPosition sender recipient shares =>
      TransferFits b sender recipient shares
  | _ => False

/-- Within the default capacity, no deposit, withdrawal, exit or transfer whose
sizes fit fails because a result leaves the 128-bit range. -/
theorem no_overflow_of_fits {self : Address} {w : World State}
    (hw : (system self).Reachable w)
    (hcap : w.machine.store.totalDeposited ≤ maxTotalDeposited)
    (signers : List Address) {e : Entry}
    (he : e.FitsRange (book w.machine)) (code : Option Error) :
    exec (callEnv self w signers) e w.machine ≠ .error (.overflow code) := by
  obtain ⟨hsound, hall, -⟩ := hw.invariant (allHeld_inductive self)
  suffices havoids : Avoids Fault.IsOverflow
      (exec (callEnv self w signers) e) w.machine from
    fun h => havoids _ h ⟨code, rfl⟩
  have hsettleable : (∀ a, (book w.machine).exitReq a ≠ none →
      WithdrawFits (book w.machine) a) →
      Settleable (fun a => WithdrawFits (book w.machine) a)
        (book w.machine) :=
    fun hqueued => ⟨hsound, fun _ h => h, hqueued⟩
  cases e with
  | deposit provider amount least compound =>
      obtain ⟨hamount, hfits, hqueued⟩ := he
      rw [exec, perform, avoids_bind]
      exact ⟨deposit_avoids (hsettleable hqueued) hall hcap hamount hfits,
        fun _ _ _ => avoids_pure ()⟩
  | withdraw provider shares =>
      obtain ⟨hfits, hqueued⟩ := he
      rw [exec, perform, avoids_bind]
      exact ⟨withdraw_avoids (hsettleable hqueued) hfits shares,
        fun _ _ _ => avoids_pure ()⟩
  | emergencyWithdraw provider admin shares =>
      rw [exec, perform, avoids_bind]
      exact ⟨emergencyWithdraw_avoids hsound he hcap admin shares,
        fun _ _ _ => avoids_pure ()⟩
  | claimExit provider =>
      rw [exec, perform, avoids_bind]
      exact ⟨claimExit_avoids hsound he, fun _ _ _ => avoids_pure ()⟩
  | transferPosition sender recipient shares =>
      rw [exec, perform, avoids_bind]
      exact ⟨transferPosition_avoids hsound he, fun _ _ _ => avoids_pure ()⟩
  | _ => exact he.elim

/-! ## Withdrawing from a small pool and from a full one -/

namespace Scenario

/-- All shares of the only provider, after a deposit of 1000000. -/
def leave : Entry :=
  .withdraw provider 999999999999000

/-- All shares of the only provider, after a deposit of the default
capacity. -/
def leaveFull : Entry :=
  .withdraw provider 999999999999999999999000

end Scenario

open Scenario in
theorem no_overflow_of_fits_leave :
    exec (callEnv pool earning [provider]) leave earning.machine ≠
      .error (.overflow (some .overflow)) := by
  have hnone : ∀ a, earning.machine.store.exitReq a = none := by
    intro a
    with_unfolding_all rfl
  have hfits : leave.FitsRange (book earning.machine) := by
    refine ⟨⟨⟨⟨?_, ?_⟩, ?_⟩, ?_⟩, fun a ha => absurd (hnone a) ha⟩
    all_goals decide +kernel
  exact no_overflow_of_fits earning_reachable (by decide +kernel) [provider]
    hfits (some .overflow)

open Scenario in
/-- The worth of all shares of a full pool cannot be computed. -/
theorem overflow_at_capacity :
    (system pool).Reachable full ∧
      full.machine.store.totalDeposited ≤ maxTotalDeposited ∧
      (full.machine.store.lpPosition provider).map LpPosition.shares =
        some 999999999999999999999000 ∧
      exec (callEnv pool full [provider]) leaveFull full.machine =
        .error (.overflow (some .overflow)) :=
  ⟨.step wired_reachable (step_sound (Option.some_get _).symm),
    by decide +kernel, by decide +kernel,
    failure_eq_some.mp (by decide +kernel)⟩

end Parashield.RiskPool
