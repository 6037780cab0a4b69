import Parashield.RiskPool.Capacity
import Parashield.RiskPool.Solvency

/-!
# Risk pool: when shares can be redeemed

The checks every way of burning shares makes, and what it writes once they
pass.  What is left to each of them is how it pays.
-/

namespace Parashield.RiskPool

open Support Support.Contract Invocation Book

namespace Book

/-- `shares` of `provider` may be redeemed now, and every figure on the way
fits 128 bits. -/
structure Redeemable (b : Book) (provider : Address) (shares : ℤ)
    (p : LpPosition) : Prop extends Redeems b provider shares p where
  worth : InI128 (shares * b.totalDeposited)
  earned : InI128 (b.accumulatedPerShare * p.shares)
  claimed : 0 < b.pending provider →
    InI128 (p.yieldClaimed + b.pending provider)

/-- Tokens the pool at `self` can spend. -/
def Holds (b : Book) (self : Address) (amount : ℤ) : Prop :=
  ∃ usdc, b.usdcToken = some usdc ∧ b.bank.Affords usdc self amount

variable {b : Book} {provider : Address} {shares : ℤ} {p : LpPosition}

theorem holds_iff {usdc : Address} (h : b.usdcToken = some usdc)
    (self : Address) (amount : ℤ) :
    b.Holds self amount ↔ b.bank.Affords usdc self amount := by
  simp only [Holds, h, Option.some.injEq, exists_eq_left']

theorem Redeemable.redeemed_pos (hb : Sound b)
    (h : b.Redeemable provider shares p) : 0 < b.redeemed shares :=
  lt_of_le_of_ne
    (hb.redeemed_le h.pos (h.held.trans (hb.held_le h.found))).1 h.amount_ne.symm

/-- Earned yield that fits is settled in full. -/
theorem Sound.owed_eq_pending (hb : Sound b) (hfound : b.lpPosition provider = some p)
    (hissued : b.totalShares ≠ 0)
    (hearned : InI128 (b.accumulatedPerShare * p.shares)) (now : ℕ) :
    max 0 (b.settled now p).owed = b.pending provider := by
  have hdebt := (hb.accounts provider).2
  rw [account_of_position hfound] at hdebt
  have hnonneg : 0 ≤ p.yieldDebt := hdebt
  have hrange : InI128 (b.debtOf p.shares) :=
    inI128_tdiv perShareScale_pos.le hearned
  have hcounted := hb.debtOf_nonneg (hb.shares_nonneg hfound)
  rw [hb.pending_eq hfound, settled, if_neg hissued]
  simp only [satI128, maxI128, minI128, InI128] at hrange ⊢
  omega

/-- All payments of a redemption go to its provider. -/
theorem redeemPayments_recipient {now : ℕ} {joint : Bool}
    {payment : Address × ℤ}
    (h : payment ∈ b.redeemPayments now provider shares p joint) :
    payment.1 = provider := by
  have hyield : ∀ owed, payment ∈ yieldPayment provider owed →
      payment.1 = provider := by
    intro owed hmem
    unfold yieldPayment at hmem
    split at hmem
    · exact congrArg Prod.fst (List.mem_singleton.mp hmem)
    · cases hmem
  cases joint with
  | true => exact congrArg Prod.fst (List.mem_singleton.mp h)
  | false =>
      rcases List.mem_cons.mp h with rfl | hmem
      · rfl
      · exact hyield _ hmem

theorem redeemPayments_apart_sum (now : ℕ) :
    ((b.redeemPayments now provider shares p false).map Prod.snd).sum =
      b.redeemed shares + max 0 (b.settled now p).owed := by
  simp only [redeemPayments, Bool.false_eq_true, if_false, List.map_cons,
    List.sum_cons, yieldPayment_sum]

/-- Two transfers pay the shares and the yield of whoever is not the pool. -/
theorem Redeemable.paysApart_iff (hb : Sound b)
    (h : b.Redeemable provider shares p) {self usdc : Address}
    (hother : self ≠ provider) (now : ℕ) :
    (∃ B, Bank.payAll usdc self (b.redeemPayments now provider shares p false)
        b.bank = some B) ↔
      b.bank.Affords usdc self
        (b.redeemed shares + max 0 (b.settled now p).owed) := by
  have hpos := h.redeemed_pos hb
  have hnonneg : ∀ payment ∈ b.redeemPayments now provider shares p false,
      0 ≤ payment.2 := by
    simp only [redeemPayments, Bool.false_eq_true, if_false, yieldPayment,
      List.forall_mem_cons]
    refine ⟨hpos.le, ?_⟩
    split
    · next howed => simp [howed.le]
    · simp
  rw [Bank.exists_payAll_iff
    (fun _ hmem => (redeemPayments_recipient hmem).symm ▸ hother) hnonneg (by rintro ⟨⟩),
    redeemPayments_apart_sum]

end Book

section Calls

variable {env : Env} {m m' : Machine State} {provider : Address} {shares : ℤ}
  {p : LpPosition}

/-- Storage after `shares` worth `amount` were burned, with the position of
`provider` reduced to `p`. -/
def State.burned (s : State) (provider : Address) (p : LpPosition)
    (shares amount : ℤ) : State :=
  ((s.setPosition provider p).withTotals (s.totalDeposited - amount)
    (s.totalShares - shares)).updateLpNft provider p

theorem burned_book (s : State) (B : Bank) (provider : Address)
    (p : LpPosition) (shares amount : ℤ) :
    book { store := s.burned provider p shares amount, bank := B } =
      { book { store := s, bank := B } with
        lpPosition := Function.update s.lpPosition provider (some p)
        totalDeposited := s.totalDeposited - amount
        totalShares := s.totalShares - shares } :=
  updateLpNft_book _ B p

theorem burned_usdcToken (s : State) (provider : Address) (p : LpPosition)
    (shares amount : ℤ) :
    (s.burned provider p shares amount).usdcToken = s.usdcToken :=
  congrArg Book.usdcToken (burned_book s ⟨fun _ => none, []⟩ provider p shares amount)

theorem settleYield_iff (hb : Sound (book m))
    (hfound : m.store.lpPosition provider = some p)
    (hissued : m.store.totalShares ≠ 0) {now : ℕ} {r : Settlement} :
    m.store.settleYield now p = .ok r ↔
      InI128 (m.store.accumulatedPerShare * p.shares) ∧
        (0 < (book m).pending provider →
          InI128 (p.yieldClaimed + (book m).pending provider)) ∧
        r = (book m).settled now p := by
  have hbook : (book m).lpPosition provider = some p := hfound
  have hsome : (book m).totalShares ≠ 0 := hissued
  have hpaid : 0 < ((book m).settled now p).owed ↔ 0 < (book m).pending provider :=
    hb.owed_pos_iff hbook
  constructor
  · intro h
    have hr := settleYield_ok h
    simp only [State.settleYield, if_neg hissued, Check.bind_ok,
      Check.i128_ok] at h
    obtain ⟨v, ⟨hearned, rfl⟩, h⟩ := h
    refine ⟨hearned, fun hpos => ?_, hr⟩
    have howed := hb.owed_eq_pending hbook hsome hearned now
    rw [← hpaid] at hpos
    rw [← howed, max_eq_right hpos.le]
    rw [settled, if_neg hsome] at hpos ⊢
    change 0 < satI128 ((book m).debtOf p.shares - p.yieldDebt) at hpos
    change (if 0 < satI128 ((book m).debtOf p.shares - p.yieldDebt) then _
      else _) = _ at h
    rw [if_pos hpos] at h
    simp only [Check.bind_ok, Check.i128_ok] at h
    obtain ⟨claimed, ⟨hclaimed, -⟩, -⟩ := h
    exact hclaimed
  · rintro ⟨hearned, hclaimed, rfl⟩
    have howed := hb.owed_eq_pending hbook hsome hearned now
    rw [← hpaid] at hclaimed
    simp only [settled, if_neg hsome] at howed hclaimed ⊢
    simp only [State.settleYield, if_neg hissued, Check.bind_ok, Check.i128_ok]
    refine ⟨_, ⟨hearned, rfl⟩, ?_⟩
    change (if 0 < satI128 ((book m).debtOf p.shares - p.yieldDebt) then _
      else _) = _
    by_cases hpos : 0 < satI128 ((book m).debtOf p.shares - p.yieldDebt)
    · have hfits := hclaimed hpos
      rw [← howed, max_eq_right hpos.le] at hfits
      rw [if_pos hpos, if_pos hpos]
      simp only [Check.bind_ok, Check.i128_ok, Check.pure_ok]
      exact ⟨_, ⟨hfits, rfl⟩, rfl⟩
    · rw [if_neg hpos, if_neg hpos]
      exact Check.pure_ok.mpr rfl

/-- A redemption passes its checks, and writes the reduced position. -/
theorem redeem_iff (hb : Sound (book m))
    (hfound : m.store.lpPosition provider = some p) (hpos : 0 < shares)
    (hheld : shares ≤ p.shares) {drained : Error} {r : Redemption} :
    redeem env provider shares p drained m = .ok (r, m') ↔
      (book m).Redeemable provider shares p ∧
        r = { amount := (book m).redeemed shares
              owed := ((book m).settled env.now p).owed } ∧
        m' = { m with
          store := m.store.burned provider
            ((book m).reduced env.now p shares ((book m).redeemed shares))
            shares ((book m).redeemed shares) } := by
  have hbook : (book m).lpPosition provider = some p := hfound
  constructor
  · intro h
    obtain ⟨hredeems, hr, -⟩ := redeem_ok hfound hpos hheld h
    simp [redeem, updateLpNft] at h
    obtain ⟨-, ⟨hworth, hissued, -⟩, -, -, settled, hsettled, -, debt,
      hdebt, -, -, rfl, rfl⟩ := h
    obtain ⟨hearned, hclaimed, rfl⟩ :=
      (settleYield_iff hb hfound hissued).mp hsettled
    obtain rfl := yieldDebt_ok hdebt
    refine ⟨⟨hredeems, hworth, hearned, hclaimed⟩, hr, ?_⟩
    simp only [settled_shares]
    rfl
  · rintro ⟨hredeems, rfl, rfl⟩
    have htotal := hb.total_nonneg
    have hheldle := hb.held_le hbook
    have hrange : InI128 m.store.totalShares := hb.shares_range
    have hpositive := hredeems.redeemed_pos hb
    have havailable : (book m).redeemed shares ≤
        m.store.getAvailableLiquidity := hredeems.affordable
    have hquotient : InI128 ((book m).redeemed shares) :=
      inI128_tdiv htotal hredeems.worth
    have hleft : InI128 (p.shares - shares) := by
      change p.shares ≤ m.store.totalShares at hheldle
      unfold InI128 at *
      omega
    have hdebt : InI128
        (m.store.accumulatedPerShare * (p.shares - shares)) :=
      inI128_of_le (mul_nonneg hb.acc_nonneg (sub_nonneg.mpr hheld))
        (mul_le_mul_of_nonneg_left (by omega) hb.acc_nonneg) hredeems.earned
    have hsettled : m.store.settleYield env.now p =
        .ok ((book m).settled env.now p) :=
      (settleYield_iff hb hfound hredeems.issued).mpr
        ⟨hredeems.earned, hredeems.claimed, rfl⟩
    simp [redeem, updateLpNft]
    refine ⟨hpositive.trans_le havailable,
      ⟨hredeems.worth, hredeems.issued, hquotient⟩, hredeems.amount_ne,
      havailable, _, hsettled, ?_⟩
    rw [settled_shares]
    refine ⟨hleft, (book m).debtOf (p.shares - shares), ?_,
      hredeems.deposited_range, hredeems.shares_range, rfl, rfl, rfl⟩
    simp only [State.yieldDebt, Check.bind_ok, Check.i128_ok, Check.pure_ok]
    exact ⟨_, ⟨hdebt, rfl⟩, rfl⟩

theorem payOutYield_iff {usdc : Address} (husdc : m.store.usdcToken = some usdc)
    {owed : ℤ} {u : Unit} :
    payOutYield env provider owed m = .ok (u, m') ↔
      ∃ B, Bank.payAll usdc env.self (yieldPayment provider owed) m.bank =
          some B ∧ m' = { m with bank := B } := by
  unfold yieldPayment
  simp only [payOutYield, whenever_ok, load_bind, husdc]
  by_cases hpos : 0 < owed
  · simp [hpos]
  · simp [hpos]

/-- A withdrawal pays the shares and the yield, one after the other. -/
theorem withdrawInner_iff (hb : Sound (book m)) {amount : ℤ} :
    withdrawInner env provider shares m = .ok (amount, m') ↔
      m.store.status ≠ .paused ∧ ∃ p usdc B,
        (book m).Redeemable provider shares p ∧
        InI128 (p.shares * m.store.totalLocked) ∧
        m.store.usdcToken = some usdc ∧
        Bank.payAll usdc env.self
          ((book m).redeemPayments env.now provider shares p false) m.bank =
            some B ∧
        amount = (book m).redeemed shares ∧
        m' =
          { store := m.store.burned provider
              ((book m).reduced env.now p shares ((book m).redeemed shares))
              shares ((book m).redeemed shares)
            bank := B } := by
  have htotal : 0 ≤ m.store.totalShares := hb.total_nonneg
  constructor
  · intro h
    simp [withdrawInner, assertWithdrawable] at h
    obtain ⟨hpos, hstatus, p, hfound, hheld, hissued, t, ht, r, t₁, hredeem,
      usdc, husdc, -, B, hB, ⟨_, hpay⟩, rfl⟩ := h
    obtain ⟨hlocked, rfl⟩ : InI128 (p.shares * m.store.totalLocked) ∧ t = m := by
      rcases ht with ⟨-, hlocked, rfl⟩ | ⟨hzero, rfl⟩
      · exact ⟨hlocked, rfl⟩
      · omega
    obtain ⟨hredeems, rfl, rfl⟩ := (redeem_iff hb hfound hpos hheld).mp hredeem
    have htoken := (burned_usdcToken t.store provider
      ((book t).reduced env.now p shares ((book t).redeemed shares)) shares
      ((book t).redeemed shares)).trans husdc
    obtain ⟨B', hB', rfl⟩ := (payOutYield_iff (by exact htoken)).mp hpay
    exact ⟨hstatus, p, usdc, B', hredeems, hlocked, husdc,
      Bank.payAll_cons_eq_some.mpr ⟨B, hB, hB'⟩, rfl, rfl⟩
  · rintro ⟨hstatus, p, usdc, B', hredeems, hlocked, husdc, hall, rfl, rfl⟩
    obtain ⟨B, hB, hB'⟩ := Bank.payAll_cons_eq_some.mp hall
    have hissued : m.store.totalShares ≠ 0 := hredeems.issued
    have hredeem : redeem env provider shares p .poolDrained m = .ok (_, _) :=
      (redeem_iff hb hredeems.found hredeems.pos hredeems.held).mpr
        ⟨hredeems, rfl, rfl⟩
    have hfunds := (Bank.exists_transfer_iff_affords.mp ⟨B, hB⟩).2.le_balance
    have htoken := (burned_usdcToken m.store provider
      ((book m).reduced env.now p shares ((book m).redeemed shares)) shares
      ((book m).redeemed shares)).trans husdc
    simp [withdrawInner, assertWithdrawable]
    refine ⟨hredeems.pos, hstatus, p, hredeems.found, hredeems.held, hissued,
      m, .inl ⟨htotal.lt_of_ne hissued.symm, hlocked, rfl⟩, _, _, hredeem, usdc,
      husdc, hfunds, B, hB, ⟨(), (payOutYield_iff (by exact htoken)).mpr
        ⟨B', hB', rfl⟩⟩, rfl⟩

end Calls

end Parashield.RiskPool
