import Parashield.RiskPool.Price

/-!
# Risk pool: what a deposit needs

A deposit settles expired exits first.  What it needs from then on is monotone
in the amount: if the pool receives some valid deposit, it receives the least
one that buys a share.
-/

namespace Parashield.RiskPool

open Support Support.Contract Invocation Book

/-- The pool is open for deposits: active, not utilized up to the limit, and
with room for the smallest amount. -/
structure State.Open (s : State) : Prop where
  active : s.status = .active
  utilized : s.currentUtilizationBps < s.capacity.maxUtilizationBps
  sized : s.totalDeposited + minDeposit ≤ s.capacity.maxTotalDeposited

/-- Amounts a deposit may have. -/
structure ValidDeposit (amount : ℤ) : Prop where
  least : minDeposit ≤ amount
  whole : amount.tmod minDeposit = 0

/-- There are a slot and a position token for a provider without position. -/
structure State.Seats (s : State) (a : Address) : Prop where
  untokened : s.providerNft a = none
  slot : s.lpCount + 1 < 2 ^ 32
  token : s.nextNftId + 1 < 2 ^ 64

namespace Book

/-- The least valid deposit that buys a share. -/
def leastDeposit (b : Book) : ℤ :=
  if b.totalShares = 0 then
    minDeposit
  else
    minDeposit *
      ((b.totalDeposited + minDeposit * b.totalShares - 1) /
        (minDeposit * b.totalShares))

/-- Shares locked with the next deposit. -/
def burned (b : Book) : ℤ :=
  if b.totalShares = 0 then lockedShares else 0

/-- Shares have a price: none are issued yet, or something backs them. -/
def Priced (b : Book) : Prop :=
  b.totalShares = 0 ∨ 0 < b.totalDeposited

end Book

/-- What a deposit of `amount` by `a` needs once expired exits are settled,
apart from buying a share. -/
structure Receives (now : ℕ) (a : Address) (amount : ℤ) (m : Machine State) :
    Prop where
  funded : ∃ usdc, m.store.usdcToken = some usdc ∧
    amount ≤ m.bank.balance usdc a
  categorized : m.store.category ≠ none
  utilized : m.store.currentUtilizationBps <
    m.store.capacity.maxUtilizationBps
  sized : m.store.totalDeposited + amount ≤ m.store.capacity.maxTotalDeposited
  deposited : InI128 (m.store.totalDeposited + amount)
  priced : InI128 (amount * m.store.totalShares)
  issued : InI128
    (m.store.totalShares + (book m).bought amount + (book m).burned)
  earning : InI128 (m.store.accumulatedPerShare *
    ((book m).held a + (book m).bought amount))
  credited : InI128 ((book m).recorded a + amount)
  settles : ∀ p, m.store.lpPosition a = some p →
    ∃ r, m.store.settleYield now p = .ok r
  seated : m.store.lpPosition a = none → m.store.Seats a

/-! ## The least amount -/

/-- The least multiple of a positive `x` from `d` on. -/
theorem le_ceil_mul {d x : ℤ} (hx : 0 < x) : d ≤ (d + x - 1) / x * x := by
  have hlt := Int.lt_ediv_add_one_mul_self (d + x - 1) hx
  rw [add_mul] at hlt
  omega

theorem ceil_le {d x k : ℤ} (hx : 0 < x) (h : d ≤ k * x) :
    (d + x - 1) / x ≤ k := by
  refine Int.lt_add_one_iff.mp (Int.ediv_lt_of_lt_mul hx ?_)
  rw [add_mul]
  omega

variable {env : Env} {m m' : Machine State} {a : Address} {amount least : ℤ}

theorem ValidDeposit.pos (h : ValidDeposit amount) : 0 < amount := by
  have hleast := h.least
  unfold minDeposit at hleast
  omega

theorem ValidDeposit.multiple (h : ValidDeposit amount) :
    ∃ k, 1 ≤ k ∧ amount = minDeposit * k := by
  obtain ⟨k, rfl⟩ := Int.dvd_of_tmod_eq_zero h.whole
  have hpos := h.pos
  refine ⟨k, ?_, rfl⟩
  unfold minDeposit at hpos
  omega

theorem ValidDeposit.of_multiple {k : ℤ} (hk : 1 ≤ k) :
    ValidDeposit (minDeposit * k) where
  least := by
    unfold minDeposit
    omega
  whole := Int.mul_tmod_right minDeposit k

namespace Book

variable {b : Book}

/-- What buys a share is no less than the least deposit, and shares have a
price. -/
theorem leastDeposit_le (hb : Sound b) (hvalid : ValidDeposit amount)
    (hbought : minShares ≤ b.bought amount) :
    Priced b ∧ b.leastDeposit ≤ amount := by
  unfold bought minShares at hbought
  unfold leastDeposit Priced
  by_cases hzero : b.totalShares = 0
  · rw [if_pos hzero]
    exact ⟨.inl hzero, hvalid.least⟩
  · rw [if_neg hzero] at hbought ⊢
    have hshares : 0 < b.totalShares := hb.total_nonneg.lt_of_ne' hzero
    have hprod := mul_nonneg hvalid.pos.le hshares.le
    rw [Int.tdiv_eq_ediv_of_nonneg hprod] at hbought
    have hpos : 0 < b.totalDeposited := by
      refine lt_of_le_of_ne hb.deposited_nonneg fun hnone => ?_
      rw [← hnone, Int.ediv_zero] at hbought
      omega
    refine ⟨.inr hpos, ?_⟩
    have hworth := (Int.le_ediv_iff_mul_le hpos).mp hbought
    obtain ⟨k, -, rfl⟩ := hvalid.multiple
    have hunit : 0 < minDeposit * b.totalShares :=
      mul_pos (by decide) hshares
    refine mul_le_mul_of_nonneg_left (ceil_le hunit ?_) (by decide)
    linarith

/-- Where shares have a price, the least deposit is valid and buys one. -/
theorem leastDeposit_valid (hb : Sound b) (hpriced : Priced b) :
    ValidDeposit b.leastDeposit ∧ minShares ≤ b.bought b.leastDeposit := by
  unfold bought leastDeposit minShares
  by_cases hzero : b.totalShares = 0
  · simp only [if_pos hzero]
    exact ⟨⟨le_rfl, by decide⟩, by decide⟩
  · simp only [if_neg hzero]
    have hpos := hpriced.resolve_left hzero
    have hshares : 0 < b.totalShares := hb.total_nonneg.lt_of_ne' hzero
    have hunit : 0 < minDeposit * b.totalShares :=
      mul_pos (by decide) hshares
    have hceil := le_ceil_mul (d := b.totalDeposited) hunit
    generalize (b.totalDeposited + minDeposit * b.totalShares - 1) /
      (minDeposit * b.totalShares) = k at hceil
    have hmul : 0 < k * (minDeposit * b.totalShares) := hpos.trans_le hceil
    have hvalid := ValidDeposit.of_multiple (pos_of_mul_pos_left hmul hunit.le)
    refine ⟨hvalid, ?_⟩
    rw [Int.tdiv_eq_ediv_of_nonneg (mul_nonneg hvalid.pos.le hshares.le)]
    refine (Int.le_ediv_iff_mul_le hpos).mpr ?_
    linarith

/-- More tokens buy no fewer shares. -/
theorem bought_mono (hb : Sound b) (hle : least ≤ amount)
    (hnonneg : 0 ≤ least) : b.bought least ≤ b.bought amount := by
  unfold bought
  split
  · omega
  · have hprod := mul_nonneg hnonneg hb.total_nonneg
    have hmul := mul_le_mul_of_nonneg_right hle hb.total_nonneg
    rw [Int.tdiv_eq_ediv_of_nonneg hprod,
      Int.tdiv_eq_ediv_of_nonneg (hprod.trans hmul)]
    rcases hb.deposited_nonneg.lt_or_eq with hpos | hnone
    · exact Int.ediv_le_ediv hpos hmul
    · rw [← hnone, Int.ediv_zero, Int.ediv_zero]

theorem burned_nonneg : 0 ≤ b.burned := by
  unfold burned
  split
  · decide
  · exact le_rfl

end Book

/-- What receives an amount receives any smaller one. -/
theorem Receives.mono {now : ℕ} (hb : Sound (book m))
    (hrecorded : minI128 ≤ (book m).recorded a) (hleast : minDeposit ≤ least)
    (hle : least ≤ amount) (h : Receives now a amount m) :
    Receives now a least m := by
  obtain ⟨usdc, husdc, hfunds⟩ := h.funded
  have hpos : 0 ≤ least := by
    unfold minDeposit at hleast
    omega
  have hbought := bought_nonneg hb hleast
  have hmono := bought_mono hb hle hpos
  have hburned := Book.burned_nonneg (b := book m)
  have htotal : 0 ≤ m.store.totalShares := hb.total_nonneg
  have hpool : 0 ≤ m.store.totalDeposited := hb.deposited_nonneg
  have hacc : 0 ≤ m.store.accumulatedPerShare := hb.acc_nonneg
  have hheld := hb.held_nonneg a
  have hsized := h.sized
  have hcredited := h.credited
  refine
    { h with
      funded := ⟨usdc, husdc, hle.trans hfunds⟩
      sized := by omega
      deposited := inI128_of_le (by omega) (by omega) h.deposited
      priced := inI128_of_le (mul_nonneg hpos htotal)
        (mul_le_mul_of_nonneg_right hle htotal) h.priced
      issued := inI128_of_le (by omega) (by omega) h.issued
      earning := inI128_of_le (mul_nonneg hacc (by omega))
        (mul_le_mul_of_nonneg_left (by omega) hacc) h.earning
      credited := ?_ }
  unfold minI128 at hrecorded
  unfold InI128 at *
  omega

/-! ## A deposit step by step -/

/-- The shares a deposit mints once there is a price. -/
theorem mintedShares_eq (hb : Sound (book m))
    (hbought : minShares ≤ (book m).bought amount)
    (hpriced : InI128 (amount * m.store.totalShares))
    (hissued : InI128
      (m.store.totalShares + (book m).bought amount + (book m).burned)) :
    m.store.mintedShares amount =
      .ok ((book m).bought amount, (book m).burned) := by
  have htotal : (book m).totalShares = m.store.totalShares := rfl
  have hpool : (book m).totalDeposited = m.store.totalDeposited := rfl
  unfold bought minShares at hbought
  unfold bought burned at hissued ⊢
  unfold State.mintedShares
  rw [htotal] at hbought hissued ⊢
  by_cases hzero : m.store.totalShares = 0
  · simp only [if_pos hzero] at hbought hissued ⊢
    simp
    refine ⟨?_, by omega⟩
    rw [hzero] at hissued
    unfold InI128 at *
    omega
  · simp only [if_neg hzero] at hbought hissued ⊢
    simp
    refine ⟨hpriced, ?_, inI128_tdiv hb.deposited_nonneg hpriced, rfl⟩
    intro hnone
    rw [hpool, hnone, Int.tdiv_zero] at hbought
    omega

/-- A funded provider can be charged, and the tokens arrive. -/
theorem pullDeposit_exists {usdc : Address} (hne : a ≠ env.self)
    (hsigned : a ∈ env.signers) (hpos : 0 < amount)
    (hfunds : amount ≤ m.bank.balance usdc a) :
    ∃ B, pullDeposit env usdc a amount m = .ok ((), { m with bank := B }) := by
  obtain ⟨B, hB⟩ : ∃ B, m.bank.transfer usdc a env.self amount = some B :=
    (Bank.exists_transfer_iff hpos).mpr hfunds
  have harrived := Bank.transfer_balance_recipient hB hne
  refine ⟨B, ?_⟩
  simp [pullDeposit]
  exact ⟨⟨.inr hsigned, hB⟩, by omega⟩

/-- A deposit is credited if its sizes fit and there is a slot. -/
theorem creditDeposit_accepted {compound : Bool} {newShares : ℤ} :
    (∃ r t, creditDeposit env a amount newShares compound m = .ok (r, t)) ↔
      InI128 (m.store.accumulatedPerShare *
        ((book m).held a + newShares)) ∧
      (∀ p, m.store.lpPosition a = some p →
        (∃ r, m.store.settleYield env.now p = .ok r) ∧
          InI128 (p.deposited + amount) ∧ InI128 (p.shares + newShares)) ∧
      (m.store.lpPosition a = none → m.store.lpCount + 1 < 2 ^ 32) := by
  have hbook : (book m).lpPosition a = m.store.lpPosition a := rfl
  cases hp : m.store.lpPosition a with
  | none =>
      rw [hp] at hbook
      have hnone : (book m).held a = 0 :=
        congrArg Yield.Account.shares (account_of_none hbook)
      simp [creditDeposit, hp, registerProvider, State.yieldDebt, hnone]
      exact and_comm
  | some p =>
      rw [hp] at hbook
      simp [creditDeposit, hp, State.yieldDebt, held_of_position hbook]
      constructor
      · rintro ⟨r, hr, hdeposited, hshares, hearning⟩
        have hs := settleYield_ok hr
        rw [hs, settled_deposited] at hdeposited
        rw [hs, settled_shares] at hshares hearning
        exact ⟨hearning, ⟨r, hr⟩, hdeposited, hshares⟩
      · rintro ⟨hearning, ⟨r, hr⟩, hdeposited, hshares⟩
        have hs := settleYield_ok hr
        refine ⟨r, hr, ?_⟩
        rw [hs, settled_deposited, settled_shares]
        exact ⟨hdeposited, hshares, hearning⟩

/-- Crediting a deposit leaves the position tokens alone. -/
theorem creditDeposit_frame {compound : Bool} {newShares : ℤ}
    {r : Settlement}
    (h : creditDeposit env a amount newShares compound m = .ok (r, m')) :
    m'.store.providerNft = m.store.providerNft ∧
      m'.store.nextNftId = m.store.nextNftId := by
  cases hp : m.store.lpPosition a with
  | none =>
      simp [creditDeposit, hp, registerProvider] at h
      obtain ⟨_, _, ⟨-, rfl⟩, -⟩ := h
      exact ⟨rfl, rfl⟩
  | some p =>
      simp [creditDeposit, hp] at h
      obtain ⟨_, _, _, _, _, ⟨_, rfl⟩, -⟩ := h
      exact ⟨rfl, rfl⟩

theorem recordNft_accepted {isNewLp : Bool} {category : Symbol}
    {p : LpPosition} :
    (∃ u t, recordNft env a isNewLp category p m = .ok (u, t)) ↔
      (isNewLp = true →
        m.store.providerNft a = none ∧ m.store.nextNftId + 1 < 2 ^ 64) := by
  cases isNewLp with
  | true => simp [recordNft, mintLpNft]
  | false => simp [recordNft, updateLpNft]

theorem mints_burned {newShares burnShares : ℤ} {b : Book}
    (h : Mints b amount newShares burnShares) : b.burned = burnShares := by
  unfold burned
  split
  · next hzero => exact (h.first hzero).2.symm
  · next hissued => exact (h.later hissued).2.symm

/-- What an accepted deposit found after the sweep. -/
theorem deposit_receives {compound : Bool} {minted : ℤ}
    (hb : Sound (book m))
    (h : deposit env a amount least compound m = .ok (minted, m')) :
    ValidDeposit amount ∧
      ∃ n t, sweepExpiredExits env maxAutoExitScan (some a) m = .ok (n, t) ∧
        minShares ≤ (book t).bought amount ∧ Receives env.now a amount t := by
  obtain ⟨burnShares, credited, t, t₁, t₂, h⟩ := deposit_ok h
  obtain ⟨n, hsweep⟩ := h.sweep
  obtain ⟨usdc, B, husdc, hB, -, hcredit⟩ := h.pull
  obtain ⟨category, u, hcategory, hnft⟩ := h.record
  have hvalid : ValidDeposit amount := ⟨h.mints.amount_ge, h.whole⟩
  obtain ⟨hearning, hheld, hslot⟩ := creditDeposit_accepted.mp ⟨_, _, hcredit⟩
  obtain ⟨htokens, hnext⟩ := creditDeposit_frame hcredit
  have hrecorded := recordNft_accepted.mp ⟨_, _, hnft⟩
  have hbought := h.mints.bought_eq
  have hdeposited := h.mints.deposited_range
  refine ⟨hvalid, n, t, hsweep, hbought ▸ h.mints.shares_ge, ?_⟩
  refine
    { funded := ⟨usdc, husdc, (Bank.exists_transfer_iff hvalid.pos).mp ⟨B, hB⟩⟩
      categorized := by rw [hcategory]; exact nofun
      utilized := h.utilized
      sized := h.sized
      deposited := hdeposited
      priced := ?_
      issued := by rw [hbought, mints_burned h.mints]; exact h.mints.shares_range
      earning := by rw [hbought]; exact hearning
      credited := ?_
      settles := fun p hp => (hheld p hp).1
      seated := fun hnone => ?_ }
  · by_cases hzero : t.store.totalShares = 0
    · rw [hzero, mul_zero]
      decide
    · have hquote := h.quote
      simp [State.mintedShares, hzero] at hquote
      exact hquote.1.1
  · cases hp : t.store.lpPosition a with
    | none =>
      have hbook : (book t).lpPosition a = none := hp
      have hnonneg : 0 ≤ t.store.totalDeposited :=
        (sweepExpiredExits_sound hb hsweep).deposited_nonneg
      have hpos := hvalid.pos
      have hrange : InI128 (t.store.totalDeposited + amount) := hdeposited
      simp only [recorded, hbook, zero_add]
      unfold InI128 at hrange ⊢
      omega
    | some p =>
      have hbook : (book t).lpPosition a = some p := hp
      simp only [recorded, hbook]
      exact (hheld p hp).2.1
  · rw [hnone] at hrecorded
    obtain ⟨hfree, hroom⟩ := hrecorded rfl
    exact ⟨htokens ▸ hfree, hslot hnone, hnext ▸ hroom⟩

/-- What receives a valid deposit that buys a share accepts it. -/
theorem deposit_accepted {n : ℕ} {t : Machine State} (hb : Sound (book t))
    (hzero : a ≠ .zero) (hself : a ≠ env.self) (hsigned : a ∈ env.signers)
    (hadmin : m.store.admin ≠ some a) (hactive : m.store.status = .active)
    (hvalid : ValidDeposit amount)
    (hsweep : sweepExpiredExits env maxAutoExitScan (some a) m = .ok (n, t))
    (hbought : minShares ≤ (book t).bought amount)
    (h : Receives env.now a amount t) :
    ∃ minted m', deposit env a amount 0 true m = .ok (minted, m') := by
  have hshares : InI128 ((book t).held a + (book t).bought amount) := by
    have hle := hb.issued.apply_le a
    have hnonneg := hb.held_nonneg a
    have hburned := Book.burned_nonneg (b := book t)
    have htotal : (book t).totalShares = t.store.totalShares := rfl
    unfold minShares at hbought
    exact inI128_of_le (by omega) (by omega) h.issued
  obtain ⟨usdc, husdc, hfunds⟩ := h.funded
  obtain ⟨B, hpull⟩ := pullDeposit_exists hself hsigned hvalid.pos hfunds
  obtain ⟨category, hcategory⟩ := Option.ne_none_iff_exists'.mp h.categorized
  have hcredit : ∃ r t₁, creditDeposit env a amount ((book t).bought amount)
      true { t with bank := B } = .ok (r, t₁) := by
    refine creditDeposit_accepted.mpr ⟨h.earning, fun p hp => ?_,
      fun hnone => (h.seated hnone).slot⟩
    have hbook : (book t).lpPosition a = some p := hp
    have hcredited := h.credited
    simp only [recorded, hbook] at hcredited
    rw [held_of_position hbook] at hshares
    exact ⟨h.settles p hp, hcredited, hshares⟩
  obtain ⟨r, t₁, hcredit⟩ := hcredit
  obtain ⟨htokens, hnext⟩ := creditDeposit_frame hcredit
  have hrecord : ∃ u t₂, recordNft env a (t.store.lpPosition a).isNone category
      r.position
      { store := (t₁.store.setPosition a r.position).withTotals
          (t.store.totalDeposited + amount)
          (t.store.totalShares + (book t).bought amount + (book t).burned)
        bank := t₁.bank } = .ok (u, t₂) := by
    refine recordNft_accepted.mpr fun hnew => ?_
    have hseats := h.seated (Option.isNone_iff_eq_none.mp hnew)
    exact ⟨htokens ▸ hseats.untokened, hnext ▸ hseats.token⟩
  obtain ⟨u, t₂, hnft⟩ := hrecord
  have hpaid : ∃ u, r.owed ≤ 0 ∧ payOutYield env a r.owed t₂ = .ok (u, t₂) ∨
      0 < r.owed ∧ t₂ = t₂ := by
    rcases lt_or_ge 0 r.owed with howed | hnone
    · exact ⟨(), .inr ⟨howed, rfl⟩⟩
    · exact ⟨(), .inl ⟨hnone, whenever_ok.mpr (.inr ⟨not_lt.mpr hnone, rfl⟩)⟩⟩
  have hminted := mintedShares_eq hb hbought h.priced h.issued
  have hsome : 0 ≤ (book t).bought amount := by
    unfold minShares at hbought
    omega
  refine ⟨(book t).bought amount, t₂, ?_⟩
  simp [deposit, requireNotZeroAddress, requireNotAdmin, assertActive]
  exact ⟨hzero, hsigned, hadmin, hvalid.pos, hvalid.least, hvalid.whole,
    hactive, n, t, hsweep, h.deposited, h.sized, h.utilized, _, hminted,
    hbought, hsome, usdc, husdc, (), _, hpull, r, t₁, hcredit, h.issued,
    category, hcategory, u, t₂, hnft, hpaid⟩

end Parashield.RiskPool
