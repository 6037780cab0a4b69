import Parashield.RiskPool.Calls

/-!
# Risk pool: the book stays sound

Shares are never over-issued, locks never exceed the locked total, and the
totals stay in range: an invariant of every change of the pool book.
-/

namespace Parashield.RiskPool

open Support Support.Contract Invocation

namespace Book

/-- Shares held by `a`. -/
def held (b : Book) (a : Address) : ℤ :=
  (b.account a).shares

/-- What `a` has earned, in units of `1 / perShareScale`. -/
def claim (b : Book) (a : Address) : ℤ :=
  Yield.claim perShareScale b.accumulatedPerShare (b.account a)

/-- What a settlement would pay `a`. -/
def pending (b : Book) (a : Address) : ℤ :=
  Yield.pending perShareScale b.accumulatedPerShare (b.account a)

/-- The invariant of the pool book. -/
structure Sound (b : Book) : Prop where
  accounts : ∀ a, 0 ≤ (b.account a).shares ∧ 0 ≤ (b.account a).debt
  issued : Capped b.held b.totalShares
  acc_nonneg : 0 ≤ b.accumulatedPerShare
  deposited_nonneg : 0 ≤ b.totalDeposited
  locked : Capped b.lockedFor b.totalLocked
  lock_pos : ∀ id l, b.lock id = some l → 0 < l.amount
  deposited_range : InI128 b.totalDeposited
  locked_range : InI128 b.totalLocked
  shares_range : InI128 b.totalShares
  split_nonneg : 0 ≤ b.premiumSplit.lpBps ∧ 0 ≤ b.premiumSplit.treasBps ∧
    0 ≤ b.premiumSplit.backstopBps
  split_sum : b.premiumSplit.lpBps + b.premiumSplit.treasBps +
    b.premiumSplit.backstopBps = 10000
  unwired : b.usdcToken = none → b.totalDeposited = 0 ∧ b.totalLocked = 0 ∧
    b.totalShares = 0 ∧ b.accumulatedPerShare = 0 ∧
    (∀ a, b.lpPosition a = none) ∧ ∀ id, b.lock id = none
  uninitialized : b.initialized = false → b.usdcToken = none

/-! ## Reading changed positions -/

section Positions

variable {b b' : Book} {a : Address} {p : LpPosition}

theorem account_of_position (h : b.lpPosition a = some p) :
    b.account a = p.account := by
  simp only [account, h]

theorem account_of_none (h : b.lpPosition a = none) :
    b.account a = { shares := 0, debt := 0 } := by
  simp only [account, h]

theorem account_update
    (h : b'.lpPosition = Function.update b.lpPosition a (some p)) :
    b'.account = Function.update b.account a p.account := by
  funext x
  by_cases hx : x = a
  · subst hx
    simp only [account, h, Function.update_self]
  · simp only [account, h, Function.update_of_ne hx]

theorem held_eq (h : b'.account = b.account) : b'.held = b.held := by
  unfold held
  rw [h]

theorem held_update {q : Yield.Account}
    (h : b'.account = Function.update b.account a q) :
    b'.held = Function.update b.held a q.shares := by
  funext x
  by_cases hx : x = a
  · subst hx
    simp only [held, h, Function.update_self]
  · simp only [held, h, Function.update_of_ne hx]

theorem claim_update {q : Yield.Account}
    (h : b'.account = Function.update b.account a q)
    (hacc : b'.accumulatedPerShare = b.accumulatedPerShare) :
    b'.claim = Function.update b.claim a
      (Yield.claim perShareScale b.accumulatedPerShare q) := by
  funext x
  by_cases hx : x = a
  · subst hx
    simp only [claim, h, hacc, Function.update_self]
  · simp only [claim, h, hacc, Function.update_of_ne hx]

end Positions

/-! ## Settled accounts -/

section Settled

variable {b : Book} {a : Address} {p : LpPosition} {now : ℕ}

theorem perShareScale_pos : 0 < perShareScale := by
  decide

theorem Sound.shares_nonneg (hb : Sound b) (h : b.lpPosition a = some p) :
    0 ≤ p.shares := by
  have hnonneg := (hb.accounts a).1
  rwa [account_of_position h] at hnonneg

theorem Sound.held_le (hb : Sound b) (h : b.lpPosition a = some p) :
    p.shares ≤ b.totalShares := by
  have hle := hb.issued.apply_le a
  rwa [held, account_of_position h] at hle

theorem Sound.total_nonneg (hb : Sound b) : 0 ≤ b.totalShares :=
  hb.issued.nonneg

theorem Sound.locked_nonneg (hb : Sound b) : 0 ≤ b.totalLocked :=
  hb.locked.nonneg

/-- In a sound book no liquidity saturates. -/
theorem Sound.available_eq (hb : Sound b) :
    b.available = b.totalDeposited - b.totalLocked := by
  have hlocked := hb.locked_nonneg
  obtain ⟨hlow, hhigh⟩ := hb.deposited_range
  obtain ⟨hlow', hhigh'⟩ := hb.locked_range
  have hnonneg := hb.deposited_nonneg
  unfold available satI128 maxI128 minI128
  omega

theorem Sound.debtOf_eq (hb : Sound b) {n : ℤ} (hn : 0 ≤ n) :
    b.debtOf n = b.accumulatedPerShare * n / perShareScale :=
  Int.tdiv_eq_ediv_of_nonneg (mul_nonneg hb.acc_nonneg hn)

theorem Sound.debtOf_nonneg (hb : Sound b) {n : ℤ} (hn : 0 ≤ n) :
    0 ≤ b.debtOf n := by
  rw [hb.debtOf_eq hn]
  exact Int.ediv_nonneg (mul_nonneg hb.acc_nonneg hn) perShareScale_pos.le

/-- A settlement pays at most the pending yield. -/
theorem Sound.settled_owed_le (hb : Sound b) (now : ℕ)
    (h : b.lpPosition a = some p) : max 0 (b.settled now p).owed ≤ b.pending a := by
  have hshares := hb.shares_nonneg h
  have hpending : b.pending a = max 0 (b.debtOf p.shares - p.yieldDebt) := by
    rw [pending, account_of_position h, hb.debtOf_eq hshares]
    rfl
  rw [hpending]
  unfold settled
  split
  · exact max_le (le_max_left _ _) (le_max_left _ _)
  · simp only [satI128, maxI128, minI128]
    omega

/-- The account of a position that gave up shares is counted anew. -/
theorem Sound.reduced_account (hb : Sound b) (now : ℕ) {shares : ℤ}
    (amount : ℤ) (hshares : shares ≤ p.shares) :
    (b.reduced now p shares amount).account =
      Yield.rebased perShareScale b.accumulatedPerShare
        (p.shares - shares) := by
  have hleft : 0 ≤ p.shares - shares := by omega
  unfold reduced LpPosition.account Yield.rebased
  rw [hb.debtOf_eq hleft]

/-- The account of a position that received shares is counted anew. -/
theorem Sound.increased_account (hb : Sound b) (now : ℕ) (a : Address)
    {shares : ℤ} (amount : ℤ) (compound : Option Bool) (hshares : 0 ≤ shares) :
    (b.increased now a shares amount compound).position.account =
      Yield.rebased perShareScale b.accumulatedPerShare
        (b.held a + shares) := by
  have hheld := (hb.accounts a).1
  unfold increased held
  cases h : b.lpPosition a with
  | none =>
      rw [account_of_none h]
      simp only [LpPosition.account, Yield.rebased, zero_add,
        hb.debtOf_eq hshares]
  | some p =>
      rw [account_of_position h] at hheld ⊢
      have hsum : 0 ≤ p.shares + shares := add_nonneg hheld hshares
      simp only [LpPosition.account, Yield.rebased, hb.debtOf_eq hsum]

/-- Yield that is paid out comes off the claim without rounding. -/
theorem Sound.settled_claim (hb : Sound b) (h : b.lpPosition a = some p)
    (hpos : 0 < (b.settled now p).owed) :
    perShareScale * (b.settled now p).owed +
        Yield.claim perShareScale b.accumulatedPerShare
          (b.settled now p).position.account ≤ b.claim a := by
  have hshares := hb.shares_nonneg h
  have hissued : b.totalShares ≠ 0 := by
    intro hzero
    simp only [settled, if_pos hzero, lt_self_iff_false] at hpos
  have haccount : (b.settled now p).position.account =
      Yield.rebased perShareScale b.accumulatedPerShare p.shares := by
    simp only [settled, if_neg hissued] at hpos ⊢
    rw [if_pos hpos]
    simp only [LpPosition.account, Yield.rebased, hb.debtOf_eq hshares]
  have howed : (b.settled now p).owed ≤ b.debtOf p.shares - p.yieldDebt := by
    simp only [settled, if_neg hissued] at hpos ⊢
    unfold satI128 maxI128 minI128 at hpos ⊢
    omega
  have hmoney := mul_le_mul_of_nonneg_left howed perShareScale_pos.le
  rw [haccount, Yield.claim_rebased perShareScale_pos, claim,
    account_of_position h]
  have hraw : b.accumulatedPerShare * p.shares -
      perShareScale * p.yieldDebt ≤
      Yield.claim perShareScale b.accumulatedPerShare p.account :=
    le_max_right _ _
  have hmod := Int.emod_add_mul_ediv (b.accumulatedPerShare * p.shares)
    perShareScale
  rw [hb.debtOf_eq hshares, mul_sub] at hmoney
  linarith

theorem Sound.increased_owed_le (hb : Sound b) (now : ℕ) (a : Address)
    (shares amount : ℤ) (compound : Option Bool) :
    max 0 (b.increased now a shares amount compound).owed ≤ b.pending a := by
  unfold increased
  cases h : b.lpPosition a with
  | none =>
      simp only [max_self]
      exact Yield.pending_nonneg
  | some p => exact hb.settled_owed_le now h

/-- Shares are worth at most what has been deposited. -/
theorem Sound.redeemed_le (hb : Sound b) {shares : ℤ} (hpos : 0 < shares)
    (hle : shares ≤ b.totalShares) :
    0 ≤ b.redeemed shares ∧ b.redeemed shares ≤ b.totalDeposited := by
  have htotal : 0 < b.totalShares := by omega
  have hprod : 0 ≤ shares * b.totalDeposited :=
    mul_nonneg hpos.le hb.deposited_nonneg
  unfold redeemed
  rw [Int.tdiv_eq_ediv_of_nonneg hprod]
  refine ⟨Int.ediv_nonneg hprod htotal.le, ?_⟩
  calc shares * b.totalDeposited / b.totalShares
      ≤ b.totalShares * b.totalDeposited / b.totalShares :=
        Int.ediv_le_ediv htotal
          (mul_le_mul_of_nonneg_right hle hb.deposited_nonneg)
    _ = b.totalDeposited :=
        Int.mul_ediv_cancel_left b.totalDeposited htotal.ne'

end Settled

/-! ## Every change keeps the book sound -/

section Preservation

variable {env : Env} {b b' : Book}

/-- One account replaced by another. -/
theorem Sound.accounts_replace (hb : Sound b) {a : Address}
    {q : Yield.Account} (h : b'.account = Function.update b.account a q)
    (hq : 0 ≤ q.shares ∧ 0 ≤ q.debt) (x : Address) :
    0 ≤ (b'.account x).shares ∧ 0 ≤ (b'.account x).debt := by
  rw [h]
  by_cases hx : x = a
  · rw [hx, Function.update_self]
    exact hq
  · rw [Function.update_of_ne hx]
    exact hb.accounts x

theorem Sound.issued_replace (hb : Sound b) {a : Address}
    {q : Yield.Account} (h : b'.account = Function.update b.account a q)
    (hq : 0 ≤ q.shares)
    (hle : b.totalShares + (q.shares - b.held a) ≤ b'.totalShares) :
    Capped b'.held b'.totalShares := by
  rw [held_update h]
  exact (hb.issued.update a hq).mono hle

theorem Sound.rebased_nonneg (hb : Sound b) {n : ℤ} (hn : 0 ≤ n) :
    0 ≤ (Yield.rebased perShareScale b.accumulatedPerShare n).shares ∧
      0 ≤ (Yield.rebased perShareScale b.accumulatedPerShare n).debt :=
  ⟨hn, Int.ediv_nonneg (mul_nonneg hb.acc_nonneg hn) perShareScale_pos.le⟩

/-- A pool with a position has its token. -/
theorem Sound.wired (hb : Sound b) {a : Address} {p : LpPosition}
    (h : b.lpPosition a = some p) : b.usdcToken ≠ none := by
  intro hnone
  have hempty := (hb.unwired hnone).2.2.2.2.1 a
  rw [h] at hempty
  cases hempty

theorem Sound.token (hb : Sound b) {a : Address} {p : LpPosition}
    (h : b.lpPosition a = some p) : ∃ usdc, b.usdcToken = some usdc :=
  Option.ne_none_iff_exists'.mp (hb.wired h)

theorem held_of_position {a : Address} {p : LpPosition}
    (h : b.lpPosition a = some p) : b.held a = p.shares := by
  rw [held, account_of_position h]
  rfl

theorem Change.sound_wire (hb : Sound b) (h : Change env .wire b b') :
    Sound b' := by
  cases h with
  | wire hfresh =>
      obtain ⟨-, hl, hs, -, -, -⟩ := hb.unwired (hb.uninitialized hfresh)
      have hissued := hb.issued
      have hlocked := hb.locked
      have hzero : InI128 0 := by decide
      rw [hs] at hissued
      rw [hl] at hlocked
      exact
        { accounts := hb.accounts
          issued := hissued
          acc_nonneg := le_rfl
          deposited_nonneg := le_rfl
          locked := hlocked
          lock_pos := hb.lock_pos
          deposited_range := hzero
          locked_range := hzero
          shares_range := hzero
          split_nonneg := hb.split_nonneg
          split_sum := hb.split_sum
          unwired := fun h => nomatch h
          uninitialized := fun h => nomatch h }

theorem Change.sound_burn {provider : Address} {shares : ℤ} {joint : Bool}
    (hb : Sound b) (h : Change env (.burn provider shares joint) b b') :
    Sound b' := by
  cases h with
  | @burn _ _ _ p _ _ h _ =>
      have hheld := h.held
      have hrebased := hb.rebased_nonneg (n := p.shares - shares) (by omega)
      have haccount := hb.reduced_account env.now (b.redeemed shares) hheld
      have hprovider := held_of_position h.found
      obtain ⟨-, hredeemed⟩ :=
        hb.redeemed_le h.pos (hheld.trans (hb.held_le h.found))
      rw [← haccount] at hrebased
      exact
        { hb with
          accounts := hb.accounts_replace (account_update rfl) hrebased
          issued := by
            refine hb.issued_replace (account_update rfl) hrebased.1 ?_
            rw [haccount, hprovider]
            simp only [Yield.rebased]
            omega
          deposited_nonneg := by simp only; omega
          deposited_range := h.deposited_range
          shares_range := h.shares_range
          unwired := fun hnone => absurd hnone (hb.wired h.found) }

theorem Mints.burn_nonneg {amount newShares burnShares : ℤ}
    (h : Mints b amount newShares burnShares) : 0 ≤ burnShares := by
  by_cases hzero : b.totalShares = 0
  · rw [(h.first hzero).2]
    decide
  · rw [(h.later hzero).2]

theorem Change.sound_mint {provider : Address} {newShares : ℤ}
    {compound : Bool} (hb : Sound b)
    (h : Change env (.mint provider newShares compound) b b') : Sound b' := by
  cases h with
  | @mint _ _ amount _ burnShares _ usdc _ _ h husdc _ _ _ =>
      have hamount := h.amount_ge
      have hnew := h.shares_ge
      have hburn := h.burn_nonneg
      have hheld := (hb.accounts provider).1
      have hdeposited := hb.deposited_nonneg
      unfold minDeposit at hamount
      unfold minShares at hnew
      have hrebased := hb.rebased_nonneg (n := b.held provider + newShares)
        (by unfold held; omega)
      have haccount := hb.increased_account env.now provider amount
        (some compound) (show 0 ≤ newShares by omega)
      rw [← haccount] at hrebased
      exact
        { hb with
          accounts := hb.accounts_replace (account_update rfl) hrebased
          issued := by
            refine hb.issued_replace (account_update rfl) hrebased.1 ?_
            rw [haccount]
            simp only [Yield.rebased]
            omega
          deposited_nonneg := by simp only; omega
          deposited_range := h.deposited_range
          shares_range := h.shares_range
          unwired := fun hnone => by
            rw [husdc] at hnone
            cases hnone }

theorem Change.sound_move {sender recipient : Address} {shares : ℤ}
    (hb : Sound b) (h : Change env (.move sender recipient shares) b b') :
    Sound b' := by
  cases h with
  | @move _ _ _ _ amount p _ hne hfound hpos hheld _ _ _ =>
      have hleft := hb.rebased_nonneg (n := p.shares - shares) (by omega)
      have hsender := hb.reduced_account env.now amount hheld
      have hright := hb.rebased_nonneg (n := b.held recipient + shares)
        (add_nonneg (hb.accounts recipient).1 hpos.le)
      have hrecipient :=
        hb.increased_account env.now recipient amount none hpos.le
      have hprovider := held_of_position hfound
      have htotal := hpos.le.trans (hheld.trans (hb.held_le hfound))
      rw [← hsender] at hleft
      rw [← hrecipient] at hright
      -- The shares are burned on one side and minted on the other.
      have hburned : Sound { b with
          lpPosition := b.setPosition sender (b.reduced env.now p shares amount)
          totalShares := b.totalShares - shares } :=
        { hb with
          accounts := hb.accounts_replace (account_update rfl) hleft
          issued := by
            refine hb.issued_replace (account_update rfl) hleft.1 ?_
            rw [hsender, hprovider]
            simp only [Yield.rebased]
            omega
          shares_range := by
            have hrange := hb.shares_range
            have hle := hheld.trans (hb.held_le hfound)
            simp only [InI128] at hrange ⊢
            omega
          unwired := fun hnone => absurd hnone (hb.wired hfound) }
      have hsame : held { b with
          lpPosition := b.setPosition sender (b.reduced env.now p shares amount)
          totalShares := b.totalShares - shares } recipient =
          b.held recipient := by
        simp only [held, account, setPosition,
          Function.update_of_ne (Ne.symm hne)]
      exact
        { hburned with
          accounts := hburned.accounts_replace (account_update rfl) hright
          issued := by
            refine hburned.issued_replace (account_update rfl) hright.1 ?_
            rw [hrecipient, hsame]
            simp only [Yield.rebased]
            omega
          shares_range := hb.shares_range
          unwired := fun hnone => absurd hnone (hb.wired hfound) }

theorem Sound.settled_account_nonneg (hb : Sound b) {a : Address}
    {p : LpPosition} (now : ℕ) (h : b.lpPosition a = some p) :
    0 ≤ (b.settled now p).position.account.shares ∧
      0 ≤ (b.settled now p).position.account.debt := by
  have hp := hb.accounts a
  rw [account_of_position h] at hp
  unfold settled
  split
  · exact hp
  · dsimp only
    split
    · exact ⟨hp.1, hb.debtOf_nonneg hp.1⟩
    · exact hp

theorem Change.sound_collect {provider : Address} (hb : Sound b)
    (h : Change env (.collect provider) b b') : Sound b' := by
  cases h with
  | @collect _ _ p _ hfound _ _ =>
      have hnonneg := hb.settled_account_nonneg env.now hfound
      exact
        { hb with
          accounts := hb.accounts_replace (account_update rfl) hnonneg
          issued := by
            refine hb.issued_replace (account_update rfl) hnonneg.1 ?_
            rw [held_of_position hfound]
            simp only [LpPosition.account, settled_shares, sub_self, add_zero]
            exact le_rfl
          unwired := fun hnone => absurd hnone (hb.wired hfound) }

/-- A premium share is a part of the premium, rounded down. -/
theorem premiumPart_nonneg {amount bps : ℤ} (hamount : 0 ≤ amount)
    (hbps : 0 ≤ bps) : 0 ≤ (amount * bps).tdiv 10000 ∧
      10000 * (amount * bps).tdiv 10000 ≤ amount * bps := by
  have hprod := mul_nonneg hamount hbps
  rw [Int.tdiv_eq_ediv_of_nonneg hprod]
  omega

theorem increment_bounds {lpShare : ℤ}
    (hlp : 0 ≤ lpShare) :
    0 ≤ b.increment lpShare ∧
      b.increment lpShare * b.totalShares ≤ lpShare * perShareScale := by
  have hprod : 0 ≤ lpShare * perShareScale :=
    mul_nonneg hlp perShareScale_pos.le
  unfold increment
  split
  · next hpos =>
      rw [Int.tdiv_eq_ediv_of_nonneg hprod]
      exact ⟨Int.ediv_nonneg hprod hpos.le,
        Int.ediv_mul_le _ hpos.ne'⟩
  · rw [zero_mul]
    exact ⟨le_rfl, hprod⟩

theorem Change.sound_accrue {lpShare : ℤ} (hb : Sound b)
    (h : Change env (.accrue lpShare) b b') : Sound b' := by
  cases h with
  | @accrue _ _ _ _ _ amount _ _ _ hpos _ husdc _ _ hshare =>
      subst hshare
      have hlp := premiumPart_nonneg hpos.le hb.split_nonneg.1
      obtain ⟨hincrement, -⟩ := increment_bounds (b := b) hlp.1
      exact
        { hb with
          acc_nonneg := add_nonneg hb.acc_nonneg hincrement
          unwired := fun hnone => by
            rw [husdc] at hnone
            cases hnone }

theorem Change.sound_recover {recovered paid : ℤ} (hb : Sound b)
    (h : Change env (.recover recovered paid) b b') : Sound b' := by
  cases h with
  | recover _ hnonneg hrange husdc _ =>
      have hdeposited : InI128 (b.totalDeposited + recovered) := by
        rcases hnonneg.lt_or_eq with hpos | hzero
        · exact hrange hpos
        · rw [← hzero, add_zero]
          exact hb.deposited_range
      exact
        { hb with
          deposited_nonneg := add_nonneg hb.deposited_nonneg hnonneg
          deposited_range := hdeposited
          unwired := fun hnone => by
            rw [husdc] at hnone
            cases hnone }

/-- In range, the saturating operations are exact. -/
theorem satI128_eq {x : ℤ} (h : InI128 x) : satI128 x = x := by
  obtain ⟨hlow, hhigh⟩ := h
  unfold satI128 maxI128 minI128
  omega

theorem Change.sound_adminWithdraw {amount : ℤ} (hb : Sound b)
    (h : Change env (.adminWithdraw amount) b b') : Sound b' := by
  cases h with
  | @adminWithdraw _ usdc treasury _ B hle husdc hpaid =>
      obtain ⟨_, htransfer, -⟩ := Bank.payAll_cons_eq_some.mp hpaid
      obtain ⟨hpos, -⟩ := Bank.transfer_eq_some htransfer
      have hlocked := hb.locked_nonneg
      have hrange := hb.deposited_range
      rw [hb.available_eq] at hle
      have hleft : InI128 (b.totalDeposited - amount) := by
        unfold InI128 at hrange ⊢
        omega
      exact
        { hb with
          deposited_nonneg := by
            simp only [satI128_eq hleft]
            omega
          deposited_range := by
            simp only [satI128_eq hleft]
            exact hleft
          unwired := fun hnone => by
            rw [husdc] at hnone
            cases hnone }

theorem lockedFor_update {id : ℕ} {l : CapitalLock}
    (h : b'.lock = Function.update b.lock id (some l)) :
    b'.lockedFor = Function.update b.lockedFor id
      (if l.released then 0 else l.amount) := by
  funext i
  by_cases hi : i = id
  · subst hi
    simp only [lockedFor, h, Function.update_self]
  · simp only [lockedFor, h, Function.update_of_ne hi]

theorem Change.sound_lock {id : ℕ} {amount : ℤ} (hb : Sound b)
    (h : Change env (.lock id amount) b b') : Sound b' := by
  cases h with
  | lock hfree hpos hle hrange =>
      have hnothing : b.lockedFor id = 0 := by
        simp only [lockedFor, hfree]
      exact
        { hb with
          locked := by
            rw [lockedFor_update rfl]
            refine (hb.locked.update id ?_).mono ?_
            · exact hpos.le
            · simp only [hnothing]
              omega
          locked_range := hrange
          lock_pos := by
            intro i l hl
            by_cases hi : i = id
            · subst hi
              simp only [Function.update_self, Option.some.injEq] at hl
              rw [← hl]
              exact hpos
            · simp only [Function.update_of_ne hi] at hl
              exact hb.lock_pos i l hl
          unwired := fun hnone => by
            obtain ⟨hd, hl, -⟩ := hb.unwired hnone
            rw [hb.available_eq, hd, hl] at hle
            omega }

/-- In a sound book a release takes the amount of the lock off the total. -/
theorem Sound.release_eq {id : ℕ} {l : CapitalLock} (hb : Sound b)
    (hlock : b.lock id = some l) (hheld : l.released = false) :
    InI128 (b.totalLocked - l.amount) ∧
      Capped (Function.update b.lockedFor id 0)
        (b.totalLocked - l.amount) := by
  have hamount : b.lockedFor id = l.amount := by
    simp only [lockedFor, hlock, hheld]
    rfl
  have hcapped := hb.locked.update id (le_refl 0)
  rw [hamount] at hcapped
  have hleft := hcapped.nonneg
  have hpos := hb.lock_pos id l hlock
  have htotal := hb.locked_range
  refine ⟨?_, hcapped.mono (by omega)⟩
  simp only [InI128] at htotal ⊢
  omega

theorem Change.sound_release {id : ℕ} (hb : Sound b)
    (h : Change env (.release id) b b') : Sound b' := by
  cases h with
  | @release _ _ l hlock hheld =>
      have hpos := hb.lock_pos id l hlock
      obtain ⟨hrange, hcapped⟩ := hb.release_eq hlock hheld
      exact
        { hb with
          locked := by
            rw [lockedFor_update rfl, satI128_eq hrange]
            exact hcapped
          locked_range := by
            simp only [satI128_eq hrange]
            exact hrange
          lock_pos := by
            intro i l' hl'
            by_cases hi : i = id
            · subst hi
              simp only [Function.update_self, Option.some.injEq] at hl'
              rw [← hl']
              exact hpos
            · simp only [Function.update_of_ne hi] at hl'
              exact hb.lock_pos i l' hl'
          unwired := fun hnone => by
            have hempty := (hb.unwired hnone).2.2.2.2.2 id
            rw [hlock] at hempty
            cases hempty }

/-! ### Liquidation -/

theorem mulDivOrZero_bounds {x y d : ℤ} (hx : 0 ≤ x) (hy : 0 ≤ y)
    (hd : 0 < d) : 0 ≤ mulDivOrZero x y d ∧ mulDivOrZero x y d * d ≤ x * y := by
  have hprod := mul_nonneg hx hy
  unfold mulDivOrZero
  split
  · rw [Int.tdiv_eq_ediv_of_nonneg hprod]
    exact ⟨Int.ediv_nonneg hprod hd.le, Int.ediv_mul_le _ hd.ne'⟩
  · rw [zero_mul]
    exact ⟨le_rfl, hprod⟩

section Seizure

variable {provider : Address} {p : LpPosition} {bps seized : ℤ}

theorem Seizes.le_shares (hb : Sound b)
    (h : Seizes b provider p bps seized) : seized ≤ p.shares := by
  have hshares := hb.shares_nonneg h.found
  have hbound := (mulDivOrZero_bounds hshares h.bps_pos.le
    (show (0 : ℤ) < 10000 by decide)).2
  rw [← h.seized_eq] at hbound
  have hscale : p.shares * bps ≤ p.shares * 10000 :=
    mul_le_mul_of_nonneg_left h.bps_le hshares
  omega

theorem Seizes.recovered_bounds (hb : Sound b)
    (h : Seizes b provider p bps seized) :
    0 ≤ b.recovered seized ∧ b.recovered seized ≤ b.totalDeposited := by
  have hseized := (h.le_shares hb).trans (hb.held_le h.found)
  have htotal : 0 < b.totalShares := h.seized_pos.trans_le hseized
  obtain ⟨hnonneg, hle⟩ := mulDivOrZero_bounds h.seized_pos.le
    hb.deposited_nonneg htotal
  unfold recovered
  rw [if_pos htotal]
  refine ⟨hnonneg, ?_⟩
  have hscale : seized * b.totalDeposited ≤
      b.totalDeposited * b.totalShares := by
    rw [mul_comm]
    exact mul_le_mul_of_nonneg_left hseized hb.deposited_nonneg
  exact le_of_mul_le_mul_right (hle.trans hscale) htotal

/-- The account a liquidation leaves behind. -/
theorem Seizes.account_left (hb : Sound b)
    (h : Seizes b provider p bps seized)
    (hposition : b'.lpPosition = Function.update b.lpPosition provider
      (if (b.seizedPosition p seized).shares ≤ 0 then none
        else some (b.seizedPosition p seized))) :
    ∃ q : Yield.Account,
      b'.account = Function.update b.account provider q ∧
      0 ≤ q.shares ∧ q.shares = p.shares - seized ∧ 0 ≤ q.debt ∧
      (q.debt = p.yieldDebt ∨ q = { shares := 0, debt := 0 }) := by
  have hle := h.le_shares hb
  have hheld := hb.held_le h.found
  have hdebt := (hb.accounts provider).2
  rw [account_of_position h.found] at hdebt
  have hshares : (b.seizedPosition p seized).shares = p.shares - seized := by
    refine satI128_eq ?_
    have hrange := hb.shares_range
    have hpos := h.seized_pos
    simp only [InI128] at hrange ⊢
    omega
  by_cases hempty : (b.seizedPosition p seized).shares ≤ 0
  · rw [if_pos hempty] at hposition
    refine ⟨{ shares := 0, debt := 0 }, ?_, le_rfl, by simp only; omega,
      le_rfl, .inr rfl⟩
    funext x
    by_cases hx : x = provider
    · subst hx
      simp only [account, hposition, Function.update_self]
    · simp only [account, hposition, Function.update_of_ne hx]
  · rw [if_neg hempty] at hposition
    refine ⟨(b.seizedPosition p seized).account, account_update hposition, ?_,
      hshares, hdebt, .inl rfl⟩
    exact (not_le.mp hempty).le

/-- A liquidation lets nobody claim more. -/
theorem Seizes.claim_left (hb : Sound b) (h : Seizes b provider p bps seized)
    {q : Yield.Account} (hleft : q.shares = p.shares - seized)
    (hdebt : q.debt = p.yieldDebt ∨ q = { shares := 0, debt := 0 }) :
    Yield.claim perShareScale b.accumulatedPerShare q ≤ b.claim provider := by
  have hpos := h.seized_pos
  rw [claim, account_of_position h.found]
  rcases hdebt with hdebt | rfl
  · refine Yield.claim_anti hb.acc_nonneg hdebt ?_
    show q.shares ≤ p.shares
    omega
  · refine le_trans (le_of_eq ?_) Yield.claim_nonneg
    simp [Yield.claim]

end Seizure

theorem Change.sound_liquidate {provider : Address} {seized : ℤ}
    (hb : Sound b) (h : Change env (.liquidate provider seized) b b') :
    Sound b' := by
  cases h with
  | @liquidate _ _ p bps _ h =>
      obtain ⟨q, haccount, hq, hle, hdebt, -⟩ :=
        h.account_left hb (show Book.lpPosition { b with
          lpPosition := Function.update b.lpPosition provider
            (if (b.seizedPosition p seized).shares ≤ 0 then none
              else some (b.seizedPosition p seized))
          totalShares := satI128 (b.totalShares - seized)
          totalDeposited := satI128 (b.totalDeposited - b.recovered seized) } =
          _ from rfl)
      obtain ⟨hnonneg, hrecovered⟩ := h.recovered_bounds hb
      have hseized := (h.le_shares hb).trans (hb.held_le h.found)
      have hpos := h.seized_pos
      have hshares : InI128 (b.totalShares - seized) := by
        have hrange := hb.shares_range
        simp only [InI128] at hrange ⊢
        omega
      have hdeposited : InI128 (b.totalDeposited - b.recovered seized) := by
        have hrange := hb.deposited_range
        simp only [InI128] at hrange ⊢
        omega
      exact
        { hb with
          accounts := hb.accounts_replace haccount ⟨hq, hdebt⟩
          issued := by
            refine hb.issued_replace haccount hq ?_
            rw [held_of_position h.found]
            simp only [satI128_eq hshares]
            omega
          deposited_nonneg := by
            simp only [satI128_eq hdeposited]
            omega
          deposited_range := by
            simp only [satI128_eq hdeposited]
            exact hdeposited
          shares_range := by
            simp only [satI128_eq hshares]
            exact hshares
          unwired := fun hnone => absurd hnone (hb.wired h.found) }

/-- Opting in or out of compounding leaves the account alone. -/
theorem account_toggle {provider : Address} {p : LpPosition}
    (h : b.lpPosition provider = some p) (enabled : Bool) :
    account { b with
      lpPosition :=
        b.setPosition provider { p with compoundEnabled := enabled } } =
      b.account := by
  rw [account_update rfl]
  refine Function.update_eq_iff.mpr ⟨?_, fun _ _ => rfl⟩
  exact (account_of_position h).symm

/-- Every change keeps the pool book sound. -/
theorem Change.sound {k : Kind} (hb : Sound b) (h : Change env k b b') :
    Sound b' := by
  cases k with
  | wire => exact h.sound_wire hb
  | burn => exact h.sound_burn hb
  | mint => exact h.sound_mint hb
  | move => exact h.sound_move hb
  | collect => exact h.sound_collect hb
  | accrue => exact h.sound_accrue hb
  | recover => exact h.sound_recover hb
  | adminWithdraw => exact h.sound_adminWithdraw hb
  | lock => exact h.sound_lock hb
  | release => exact h.sound_release hb
  | liquidate => exact h.sound_liquidate hb
  | forward =>
      cases h
      exact { hb with }
  | resplit =>
      cases h with
      | resplit hlp htreas hbackstop hsum =>
          exact
            { hb with
              split_nonneg := ⟨hlp, htreas, hbackstop⟩
              split_sum := hsum }
  | toggle provider =>
      cases h with
      | @toggle _ _ p enabled hfound =>
          have hsame := account_toggle hfound enabled
          exact
            { hb with
              accounts := by
                rw [hsame]
                exact hb.accounts
              issued := by
                rw [held_eq hsame]
                exact hb.issued
              unwired := fun hnone => absurd hnone (hb.wired hfound) }
  | enqueue =>
      cases h
      exact { hb with }
  | clear =>
      cases h
      exact { hb with }

end Preservation

end Book

/-! ## Every run keeps the book sound -/

section Runs

open Book

variable {env : Env} {m m' : Machine State}

/-! What every change preserves, every call preserves. -/

section Preserving

variable {I : Book → Prop}

theorem Sweeps.preserves
    (hI : ∀ k b b', I b → Change env k b b' → I b') {n : ℕ} {b b' : Book}
    (h : Sweeps env n b b') (hb : I b) : I b' := by
  induction h with
  | refl => exact hb
  | clear _ hclear ih => exact hI _ _ _ (ih hb) hclear
  | burn _ hburn ih => exact hI _ _ _ (ih hb) hburn

theorem sweepExpiredExits_preserves
    (hI : ∀ k b b', I b → Change env k b b' → I b')
    {skip : Option Address} {maxScan n : ℕ}
    (h : sweepExpiredExits env maxScan skip m = .ok (n, m'))
    (hb : I (book m)) : I (book m') := by
  obtain ⟨_, -, hsweeps⟩ := sweepExpiredExits_sweeps h
  exact hsweeps.preserves hI hb

theorem Performs.preserves
    (hI : ∀ k b b', I b → Change env k b b' → I b') {e : Entry} {b : Book}
    (h : Performs env m e b) (hb : I (book m)) : I b := by
  induction h with
  | idle => exact hb
  | single _ hchange => exact hI _ _ _ hb hchange
  | deposit hsweep _ hchange =>
      exact hI _ _ _ (sweepExpiredExits_preserves hI hsweep hb) hchange
  | depositWithToken _ ih => exact ih
  | withdraw hsweep hchange =>
      exact hI _ _ _ (sweepExpiredExits_preserves hI hsweep hb) hchange
  | requestExit hsweep hchange =>
      exact hI _ _ _ (sweepExpiredExits_preserves hI hsweep hb) hchange
  | claimExit _ hclear hburn => exact hI _ _ _ (hI _ _ _ hb hclear) hburn
  | processExpiredExits hsweep =>
      exact sweepExpiredExits_preserves hI hsweep hb

end Preserving

theorem Sweeps.sound {n : ℕ} {b b' : Book} (h : Sweeps env n b b')
    (hb : Sound b) : Sound b' :=
  h.preserves (fun _ _ _ hb hchange => hchange.sound hb) hb

theorem sweepExpiredExits_sound {skip : Option Address} {maxScan n : ℕ}
    (hb : Sound (book m))
    (h : sweepExpiredExits env maxScan skip m = .ok (n, m')) :
    Sound (book m') :=
  sweepExpiredExits_preserves (fun _ _ _ hb hchange => hchange.sound hb) h hb

theorem Performs.sound {e : Entry} {b : Book} (h : Performs env m e b)
    (hb : Sound (book m)) : Sound b :=
  h.preserves (fun _ _ _ hb hchange => hchange.sound hb) hb

theorem Sound.deployed (B : Bank) :
    Sound (book { store := State.deployed, bank := B }) where
  accounts _ := ⟨le_rfl, le_rfl⟩
  issued _ := Finset.sum_nonpos fun _ _ => le_rfl
  acc_nonneg := le_rfl
  deposited_nonneg := le_rfl
  locked _ := Finset.sum_nonpos fun _ _ => le_rfl
  lock_pos _ _ h := nomatch h
  deposited_range := show InI128 0 by decide
  locked_range := show InI128 0 by decide
  shares_range := show InI128 0 by decide
  split_nonneg := show 0 ≤ State.deployed.premiumSplit.lpBps ∧
    0 ≤ State.deployed.premiumSplit.treasBps ∧
    0 ≤ State.deployed.premiumSplit.backstopBps by decide
  split_sum := rfl
  unwired _ := ⟨rfl, rfl, rfl, rfl, fun _ => rfl, fun _ => rfl⟩
  uninitialized _ := rfl

/-- The pool book is sound in every reachable state. -/
theorem sound_inductive (self : Address) :
    (system self).Inductive fun w => Sound (book w.machine) where
  init w hinit := by
    obtain ⟨now, store, bank⟩ := w
    obtain ⟨rfl, -⟩ := hinit
    exact Sound.deployed bank
  step w l w' hsound hstep := by
    cases hstep with
    | call _ hexec => exact (exec_performs hexec).sound hsound
    | tick => exact hsound
    | transfer => exact { hsound with }
    | mint => exact { hsound with }

/-! Locks change by locking and releasing only. -/

/-- The change touches the locks or their total. -/
def Book.Kind.Commits : Kind → Prop
  | .wire | .lock .. | .release _ => True
  | _ => False

/-- The entry point touches the locks or their total. -/
def Entry.commits : Entry → Bool
  | .initializePool .. | .lockForPolicy .. | .releaseForClaim ..
  | .releaseForExpiry .. => true
  | _ => false

/-- The books agree on what is locked. -/
def SameLocks (b b' : Book) : Prop :=
  b'.lock = b.lock ∧ b'.totalLocked = b.totalLocked

theorem SameLocks.trans {b b' b'' : Book} (h : SameLocks b b')
    (h' : SameLocks b' b'') : SameLocks b b'' :=
  ⟨h'.1.trans h.1, h'.2.trans h.2⟩

theorem Book.Change.sameLocks {k : Kind} {b b' : Book}
    (h : Change env k b b') (hk : ¬ k.Commits) : SameLocks b b' := by
  cases h with
  | wire => exact (hk trivial).elim
  | lock => exact (hk trivial).elim
  | release => exact (hk trivial).elim
  | _ => exact ⟨rfl, rfl⟩

theorem Sweeps.sameLocks {n : ℕ} {b b' : Book} (h : Sweeps env n b b') :
    SameLocks b b' := by
  induction h with
  | refl => exact ⟨rfl, rfl⟩
  | clear _ hclear ih => exact ih.trans (hclear.sameLocks nofun)
  | burn _ hburn ih => exact ih.trans (hburn.sameLocks nofun)

theorem sweepExpiredExits_sameLocks {skip : Option Address} {maxScan n : ℕ}
    (h : sweepExpiredExits env maxScan skip m = .ok (n, m')) :
    SameLocks (book m) (book m') := by
  obtain ⟨_, -, hsweeps⟩ := sweepExpiredExits_sweeps h
  exact hsweeps.sameLocks

theorem Entry.not_commits_kind {e : Entry} (he : e.commits = false) {k : Kind}
    (hk : e.kind m.store = some k) : ¬ k.Commits := by
  cases e with
  | initializePool => cases he
  | lockForPolicy => cases he
  | releaseForClaim => cases he
  | releaseForExpiry => cases he
  | requestReinsuranceRecovery _ _ loss answer =>
      cases answer with
      | none => cases hk
      | some answer =>
          simp only [Entry.kind] at hk
          split at hk
          · cases hk
            rintro ⟨⟩
          · cases hk
  | executeAdminWithdrawal =>
      obtain ⟨_, -, rfl⟩ := Option.map_eq_some_iff.mp hk
      rintro ⟨⟩
  | _ => cases hk <;> rintro ⟨⟩

theorem Performs.sameLocks {e : Entry} {b : Book} (h : Performs env m e b)
    (he : e.commits = false) : SameLocks (book m) b := by
  induction h with
  | idle => exact ⟨rfl, rfl⟩
  | single hkind hchange =>
      exact hchange.sameLocks (Entry.not_commits_kind he hkind)
  | deposit hsweep _ hchange =>
      exact (sweepExpiredExits_sameLocks hsweep).trans (hchange.sameLocks nofun)
  | depositWithToken _ ih => exact ih rfl
  | withdraw hsweep hchange =>
      exact (sweepExpiredExits_sameLocks hsweep).trans (hchange.sameLocks nofun)
  | requestExit hsweep hchange =>
      exact (sweepExpiredExits_sameLocks hsweep).trans (hchange.sameLocks nofun)
  | claimExit _ hclear hburn =>
      exact (hclear.sameLocks nofun).trans (hburn.sameLocks nofun)
  | processExpiredExits hsweep => exact sweepExpiredExits_sameLocks hsweep

/-! The locks that are held make the locked total. -/

theorem lockedFor_congr {b b' : Book} (h : b'.lock = b.lock) :
    b'.lockedFor = b.lockedFor := by
  funext id
  simp only [lockedFor, h]

theorem hasTotal_of_unlocked {b : Book} (hlock : ∀ id, b.lock id = none)
    (htotal : b.totalLocked = 0) : HasTotal b.lockedFor b.totalLocked := by
  have hzero : b.lockedFor = fun _ => 0 := by
    funext id
    simp only [lockedFor, hlock id]
  rw [hzero, htotal]
  exact HasTotal.zero

theorem SameLocks.hasTotal {b b' : Book} (h : SameLocks b b')
    (htotal : HasTotal b.lockedFor b.totalLocked) :
    HasTotal b'.lockedFor b'.totalLocked := by
  rw [lockedFor_congr h.1, h.2]
  exact htotal

theorem Book.Change.hasTotal {k : Kind} {b b' : Book} (hb : Sound b)
    (h : Change env k b b') (htotal : HasTotal b.lockedFor b.totalLocked) :
    HasTotal b'.lockedFor b'.totalLocked := by
  by_cases hk : k.Commits
  · cases h with
    | wire hfresh =>
        have hnone := (hb.unwired (hb.uninitialized hfresh)).2.2.2.2.2
        exact hasTotal_of_unlocked hnone rfl
    | @lock _ id amount hfree =>
        have hnothing : b.lockedFor id = 0 := by
          simp only [lockedFor, hfree]
        rw [lockedFor_update rfl]
        refine (htotal.update id _).congr ?_
        rw [hnothing]
        simp
    | @release _ id l hlock hheld =>
        have hamount : b.lockedFor id = l.amount := by
          simp only [lockedFor, hlock, hheld]
          rfl
        rw [lockedFor_update rfl]
        refine (htotal.update id _).congr ?_
        simp only [satI128_eq (hb.release_eq hlock hheld).1, hamount, if_true]
        omega
    | _ => exact hk.elim
  · exact (h.sameLocks hk).hasTotal htotal

theorem Performs.hasTotal {e : Entry} {b : Book} (h : Performs env m e b)
    (hb : Sound (book m))
    (htotal : HasTotal (book m).lockedFor (book m).totalLocked) :
    HasTotal b.lockedFor b.totalLocked := by
  have hstep : ∀ k c c', (Sound c ∧ HasTotal c.lockedFor c.totalLocked) →
      Change env k c c' → Sound c' ∧ HasTotal c'.lockedFor c'.totalLocked := by
    rintro k c c' ⟨hc, htotal⟩ hchange
    exact ⟨hchange.sound hc, hchange.hasTotal hc htotal⟩
  exact (h.preserves hstep ⟨hb, htotal⟩).2

end Runs

/-! ## Pending yield -/

/-- Yield `a` has earned and not claimed yet. -/
def State.pendingYield (s : State) (a : Address) : ℤ :=
  match s.lpPosition a with
  | some p =>
      max 0 ((s.accumulatedPerShare * p.shares).tdiv perShareScale -
        p.yieldDebt)
  | none => 0

open Book in
theorem Book.Sound.pendingYield_eq {m : Machine State} (hb : Sound (book m))
    (a : Address) : m.store.pendingYield a = (book m).pending a := by
  have hbook : (book m).lpPosition a = m.store.lpPosition a := rfl
  unfold State.pendingYield Book.pending
  cases h : m.store.lpPosition a with
  | none =>
      rw [account_of_none (hbook.trans h)]
      simp [Yield.pending]
  | some p =>
      have hshares := hb.shares_nonneg (hbook.trans h)
      have hdebt := hb.debtOf_eq hshares
      rw [account_of_position (hbook.trans h)]
      show max 0 ((book m).debtOf p.shares - p.yieldDebt) = _
      rw [hdebt]
      rfl

end Parashield.RiskPool
