import Parashield.RiskPool.Delay
import Parashield.RiskPool.Redeeming

/-!
# Risk pool: when a sweep goes through

Which expired exits a sweep starts to settle depends on the book alone.  The
sweep goes through if and only if all of them fit 128 bits and the tokens of
the pool pay for them together.  One that does not stops the call the sweep
came with.
-/

namespace Parashield.RiskPool

open Support Support.Contract Invocation Book

/-! ## What a sweep sets out to settle -/

/-- An exit a sweep starts to settle: the position, the shares and what they
are worth, and the yield that is settled with them. -/
structure Exit where
  provider : Address
  position : LpPosition
  shares : ℤ
  amount : ℤ
  owed : ℤ
  deriving DecidableEq, Repr

def Exit.payout (x : Exit) : ℤ :=
  x.amount + x.owed

namespace Book

/-- What an exit of `shares` would return now, or zero. -/
def exitAmount (b : Book) (shares : ℤ) : ℤ :=
  if InI128 (shares * b.totalDeposited) ∧ 0 < b.totalShares then
    b.redeemed shares
  else
    0

/-- The expired request in a slot, unless its provider is skipped. -/
def dueIn (b : Book) (now : ℕ) (skip slot : Option Address) :
    Option (Address × ExitRequest) :=
  match slot with
  | none => none
  | some provider =>
      if skip = some provider then
        none
      else
        match b.exitReq provider with
        | none => none
        | some request =>
            if now < request.claimableAt then none
            else some (provider, request)

/-- The exit behind a request, if the unlocked liquidity pays for it. -/
def exitOf (b : Book) (provider : Address) (request : ExitRequest) :
    Option Exit :=
  match b.lpPosition provider with
  | none => none
  | some p =>
      let shares := min request.shares p.shares
      if 0 < shares ∧ 0 < b.exitAmount shares ∧
          b.exitAmount shares ≤ b.available then
        some
          { provider := provider
            position := p
            shares := shares
            amount := b.exitAmount shares
            owed := b.pending provider }
      else
        none

def cleared (b : Book) (provider : Address) (request : ExitRequest) : Book :=
  { b with
    exitReq := Function.update b.exitReq provider none
    queuedExitShares := max 0 (satI128 (b.queuedExitShares - request.shares)) }

/-- The book once an exit is settled, apart from its payment. -/
def settledExit (b : Book) (now : ℕ) (x : Exit) : Book :=
  { b with
    lpPosition :=
      b.setPosition x.provider (b.reduced now x.position x.shares x.amount)
    totalDeposited := b.totalDeposited - x.amount
    totalShares := b.totalShares - x.shares }

/-- The exit a slot starts, and the book once it is settled. -/
def inspect (b : Book) (now : ℕ) (skip slot : Option Address) :
    Option Exit × Book :=
  match b.dueIn now skip slot with
  | none => (none, b)
  | some (provider, request) =>
      if min request.shares (b.held provider) ≤ 0 then
        (none, b.cleared provider request)
      else
        match b.exitOf provider request with
        | none => (none, b)
        | some x => (some x, (b.cleared provider request).settledExit now x)

/-- The exits a sweep over `slots` starts, in order. -/
def exits (now : ℕ) (skip : Option Address) :
    List (Option Address) → Book → List Exit
  | [], _ => []
  | slot :: slots, b =>
      (b.inspect now skip slot).1.toList ++
        exits now skip slots (b.inspect now skip slot).2

/-- Every figure of the settlement fits 128 bits. -/
structure ExitFits (b : Book) (x : Exit) : Prop where
  locked : InI128 (x.position.shares * b.totalLocked)
  earned : InI128 (b.accumulatedPerShare * x.position.shares)
  claimed : 0 < x.owed → InI128 (x.position.yieldClaimed + x.owed)

/-- The exits fit, and the tokens of the pool pay for all of them. -/
structure PaysExits (b : Book) (pool : Address) (xs : List Exit) : Prop where
  fits : ∀ x ∈ xs, b.ExitFits x
  funds : xs ≠ [] → b.Holds pool (xs.map Exit.payout).sum

/-- The pre-checks of the sweep let it start to settle `x`. -/
structure Starts (b : Book) (x : Exit) : Prop where
  found : b.lpPosition x.provider = some x.position
  pos : 0 < x.shares
  held : x.shares ≤ x.position.shares
  worth : InI128 (x.shares * b.totalDeposited)
  issued : 0 < b.totalShares
  amount_eq : x.amount = b.redeemed x.shares
  amount_pos : 0 < x.amount
  affordable : x.amount ≤ b.available
  owed_eq : x.owed = b.pending x.provider

variable {b : Book} {provider : Address} {request : ExitRequest} {x : Exit}

theorem exitAmount_pos {shares : ℤ} (h : 0 < b.exitAmount shares) :
    InI128 (shares * b.totalDeposited) ∧ 0 < b.totalShares ∧
      b.exitAmount shares = b.redeemed shares := by
  unfold exitAmount at h ⊢
  split
  · next hworth => exact ⟨hworth.1, hworth.2, rfl⟩
  · next hworth =>
      rw [if_neg hworth] at h
      exact absurd h (lt_irrefl 0)

theorem exitOf_eq_some (h : b.exitOf provider request = some x) :
    x.provider = provider ∧
      x.shares = min request.shares (b.held provider) ∧ b.Starts x := by
  unfold exitOf at h
  cases hfound : b.lpPosition provider with
  | none =>
      rw [hfound] at h
      cases h
  | some p =>
      simp only [hfound, Option.ite_none_right_eq_some, Option.some.injEq] at h
      obtain ⟨⟨hpos, hamount, hafford⟩, rfl⟩ := h
      obtain ⟨hworth, hissued, hredeemed⟩ := exitAmount_pos hamount
      exact ⟨rfl, by rw [held_of_position hfound],
        { found := hfound
          pos := hpos
          held := min_le_right _ _
          worth := hworth
          issued := hissued
          amount_eq := hredeemed
          amount_pos := hamount
          affordable := hafford
          owed_eq := rfl }⟩

/-- Without such an exit the slot is passed over. -/
theorem exitOf_eq_none (hpos : 0 < min request.shares (b.held provider)) :
    b.exitOf provider request = none ↔
      b.exitAmount (min request.shares (b.held provider)) ≤ 0 ∨
        b.available < b.exitAmount (min request.shares (b.held provider)) := by
  unfold exitOf
  cases hfound : b.lpPosition provider with
  | none =>
      have hnone : b.held provider = 0 :=
        congrArg Yield.Account.shares (account_of_none hfound)
      omega
  | some p =>
      rw [held_of_position hfound] at hpos ⊢
      simp only [hpos, true_and, ite_eq_right_iff, reduceCtorEq, imp_false,
        not_and_or, not_lt, not_le]

theorem Starts.payout_pos (h : b.Starts x) : 0 < x.payout := by
  have hpos := h.amount_pos
  have howed : 0 ≤ b.pending x.provider := le_max_left _ _
  rw [Exit.payout, h.owed_eq]
  omega

/-- Its redemption passes the checks if its yield can be counted. -/
theorem Starts.redeemable_iff (h : b.Starts x) (hb : Sound b) :
    b.Redeemable x.provider x.shares x.position ↔
      InI128 (b.accumulatedPerShare * x.position.shares) ∧
        (0 < x.owed → InI128 (x.position.yieldClaimed + x.owed)) := by
  have htotal := h.held.trans (hb.held_le h.found)
  obtain ⟨hnonneg, hle⟩ := hb.redeemed_le h.pos htotal
  have hamount := h.amount_eq
  have hpos := h.pos
  have hpaid := h.amount_pos
  have hdeposited := hb.deposited_range
  have hshares := hb.shares_range
  rw [h.owed_eq]
  constructor
  · intro hredeems
    exact ⟨hredeems.earned, hredeems.claimed⟩
  · rintro ⟨hearned, hclaimed⟩
    exact
      { found := h.found
        pos := h.pos
        held := h.held
        issued := h.issued.ne'
        amount_ne := by omega
        affordable := hamount ▸ h.affordable
        deposited_range := by
          unfold InI128 at *
          omega
        shares_range := by
          unfold InI128 at *
          omega
        worth := h.worth
        earned := hearned
        claimed := hclaimed }

theorem paysExits_nil (b : Book) (pool : Address) : b.PaysExits pool [] where
  fits := List.forall_mem_nil _
  funds h := absurd rfl h

theorem paysExits_singleton {pool : Address} :
    b.PaysExits pool [x] ↔ b.ExitFits x ∧ b.Holds pool x.payout := by
  constructor
  · rintro ⟨hfits, hfunds⟩
    have hpays := hfunds nofun
    rw [List.map_singleton, List.sum_singleton] at hpays
    exact ⟨hfits x (List.mem_singleton_self x), hpays⟩
  · rintro ⟨hfits, hfunds⟩
    refine ⟨fun y hy => List.mem_singleton.mp hy ▸ hfits, fun _ => ?_⟩
    rwa [List.map_singleton, List.sum_singleton]

theorem Holds.mono {pool : Address} {n k : ℤ} (h : b.Holds pool k)
    (hle : n ≤ k) : b.Holds pool n := by
  obtain ⟨usdc, husdc, hfunds⟩ := h
  exact ⟨usdc, husdc, hfunds.mono hle⟩

/-- A slot changes neither the locked capital nor the accumulator, and it adds
no request. -/
theorem inspect_kept (b : Book) (now : ℕ) (skip slot : Option Address) :
    (b.inspect now skip slot).2.totalLocked = b.totalLocked ∧
      (b.inspect now skip slot).2.accumulatedPerShare =
        b.accumulatedPerShare ∧
      ∀ a, b.exitReq a = none → (b.inspect now skip slot).2.exitReq a = none := by
  have hcleared : ∀ provider request a, b.exitReq a = none →
      (b.cleared provider request).exitReq a = none := by
    intro provider request a hnone
    show Function.update b.exitReq provider none a = none
    by_cases ha : a = provider
    · rw [ha]
      exact Function.update_self ..
    · rw [Function.update_of_ne ha]
      exact hnone
  have hsettled : ∀ provider request x a, b.exitReq a = none →
      ((b.cleared provider request).settledExit now x).exitReq a = none :=
    fun provider request _ => hcleared provider request
  unfold inspect
  split
  · exact ⟨rfl, rfl, fun _ h => h⟩
  · split
    · exact ⟨rfl, rfl, hcleared _ _⟩
    · split
      · exact ⟨rfl, rfl, fun _ h => h⟩
      · exact ⟨rfl, rfl, hsettled _ _ _⟩

theorem inspect_payout {now : ℕ} {skip slot : Option Address}
    (h : (b.inspect now skip slot).1 = some x) : 0 < x.payout := by
  unfold inspect at h
  split at h
  · cases h
  · split at h
    · cases h
    · split at h
      · cases h
      · next hexit =>
          obtain rfl := Option.some.inj h
          exact (exitOf_eq_some hexit).2.2.payout_pos

theorem exits_payout {now : ℕ} {skip : Option Address}
    {slots : List (Option Address)} (b : Book) :
    ∀ x ∈ exits now skip slots b, 0 < x.payout := by
  induction slots generalizing b with
  | nil => exact List.forall_mem_nil _
  | cons slot slots ih =>
      intro x hx
      rcases List.mem_append.mp hx with hfirst | hrest
      · exact inspect_payout (Option.mem_toList.mp hfirst)
      · exact ih _ x hrest

/-- Payments do not matter to what is started. -/
theorem inspect_bank (b : Book) (B : Bank) (now : ℕ)
    (skip slot : Option Address) :
    { b with bank := B }.inspect now skip slot =
      ((b.inspect now skip slot).1,
        { (b.inspect now skip slot).2 with bank := B }) := by
  have hdue : { b with bank := B }.dueIn now skip slot =
      b.dueIn now skip slot := rfl
  unfold inspect
  rw [hdue]
  cases b.dueIn now skip slot with
  | none => rfl
  | some due =>
      have hheld : { b with bank := B }.held due.1 = b.held due.1 := rfl
      have hexit : { b with bank := B }.exitOf due.1 due.2 =
          b.exitOf due.1 due.2 := rfl
      simp only [hheld, hexit]
      split
      · rfl
      · cases b.exitOf due.1 due.2 with
        | none => rfl
        | some x => rfl

theorem exits_bank (now : ℕ) (skip : Option Address)
    (slots : List (Option Address)) (b : Book) (B : Bank) :
    exits now skip slots { b with bank := B } = exits now skip slots b := by
  induction slots generalizing b with
  | nil => rfl
  | cons slot slots ih => rw [exits, exits, inspect_bank, ih]

/-- The yield settled with the exit is what it owes. -/
theorem Starts.owed_eq_settled (h : b.Starts x) (hb : Sound b)
    (hfits : b.ExitFits x) (now : ℕ) :
    max 0 (b.settled now x.position).owed = x.owed := by
  rw [h.owed_eq]
  exact hb.owed_eq_pending h.found h.issued.ne' hfits.earned now

end Book

/-! ## One slot -/

section Slots

variable {env : Env} {m m' : Machine State} {skip : Option Address} {idx : ℕ}
  {provider : Address} {request : ExitRequest} {x : Exit}

theorem burned_frame (s : State) (a : Address) (p : LpPosition)
    (shares amount : ℤ) :
    (s.burned a p shares amount).lpAddress = s.lpAddress ∧
      (s.burned a p shares amount).status = s.status := by
  simp only [State.burned, State.updateLpNft, State.withTotals,
    State.setPosition]
  split
  · exact ⟨rfl, rfl⟩
  · split
    · exact ⟨rfl, rfl⟩
    · exact ⟨rfl, rfl⟩

/-- What a slot leaves, given the exit it settled: the book but for the
payment, and the funds without it. -/
structure Leaves (env : Env) (m m' : Machine State) (exit : Option Exit)
    (b : Book) : Prop where
  addresses : m'.store.lpAddress = m.store.lpAddress
  status : m'.store.status = m.store.status
  books : ∃ B, book m' = { b with bank := B }
  funds : ∀ rest, (book m').Holds env.self rest ↔
    (book m).Holds env.self ((exit.toList.map Exit.payout).sum + rest)

theorem Leaves.refl (env : Env) (m : Machine State) :
    Leaves env m m none (book m) where
  addresses := rfl
  status := rfl
  books := ⟨m.bank, rfl⟩
  funds rest := by simp

/-- The settlement of an exit completes if and only if it fits and is paid. -/
theorem withdrawInner_exit_iff (hb : Sound (book m))
    (hstatus : m.store.status ≠ .paused) (hx : (book m).Starts x)
    (hother : env.self ≠ x.provider) :
    (∃ amount m', withdrawInner env x.provider x.shares m = .ok (amount, m')) ↔
      (book m).ExitFits x ∧ (book m).Holds env.self x.payout := by
  simp only [withdrawInner_iff hb]
  constructor
  · rintro ⟨_, _, -, p, usdc, B, hredeems, hlocked, husdc, hall, -, -⟩
    obtain rfl := Option.some.inj (hx.found.symm.trans hredeems.found)
    obtain ⟨hearned, hclaimed⟩ := (hx.redeemable_iff hb).mp hredeems
    have hfits : (book m).ExitFits x := ⟨hlocked, hearned, hclaimed⟩
    have hfunds := (hredeems.paysApart_iff hb hother env.now).mp ⟨B, hall⟩
    rw [hx.owed_eq_settled hb hfits, ← hx.amount_eq] at hfunds
    exact ⟨hfits, usdc, husdc, hfunds⟩
  · rintro ⟨hfits, usdc, husdc, hfunds⟩
    have hredeems := (hx.redeemable_iff hb).mpr ⟨hfits.earned, hfits.claimed⟩
    rw [Exit.payout, hx.amount_eq, ← hx.owed_eq_settled hb hfits env.now,
      ← hredeems.paysApart_iff hb hother env.now] at hfunds
    obtain ⟨B, hall⟩ := hfunds
    exact ⟨_, _, hstatus, x.position, usdc, B, hredeems, hfits.locked, husdc,
      hall, rfl, rfl⟩

theorem withdrawInner_exit_leaves (hb : Sound (book m))
    (hx : (book m).Starts x) (hother : env.self ≠ x.provider) {amount : ℤ}
    (h : withdrawInner env x.provider x.shares m = .ok (amount, m')) :
    Leaves env m m' (some x) ((book m).settledExit env.now x) := by
  obtain ⟨-, p, usdc, B, hredeems, hlocked, husdc, hall, -, rfl⟩ :=
    (withdrawInner_iff hb).mp h
  obtain rfl := Option.some.inj (hx.found.symm.trans hredeems.found)
  obtain ⟨hearned, hclaimed⟩ := (hx.redeemable_iff hb).mp hredeems
  have hfits : (book m).ExitFits x := ⟨hlocked, hearned, hclaimed⟩
  obtain ⟨haddress, hstatus⟩ := burned_frame m.store x.provider
    ((book m).reduced env.now x.position x.shares ((book m).redeemed x.shares))
    x.shares ((book m).redeemed x.shares)
  refine ⟨haddress, hstatus, ⟨B, ?_⟩, fun rest => ?_⟩
  · rw [burned_book, settledExit, hx.amount_eq]
    rfl
  · have htoken := (burned_usdcToken m.store x.provider
      ((book m).reduced env.now x.position x.shares
        ((book m).redeemed x.shares)) x.shares
      ((book m).redeemed x.shares)).trans husdc
    rw [holds_iff (b := book m) husdc, holds_iff (by exact htoken)]
    refine (Bank.affords_after_payAll (fun _ hmem =>
      (redeemPayments_recipient hmem).symm ▸ hother) hall rest).trans ?_
    rw [redeemPayments_apart_sum, hx.owed_eq_settled hb hfits, ← hx.amount_eq]
    simp [Exit.payout]
    rfl

/-- A slot in which nothing is due is passed over. -/
theorem sweepSlot_of_not_due
    (hdue : (book m).dueIn env.now skip (m.store.lpAddress idx) = none) :
    sweepSlot env skip idx m = .ok (false, m) := by
  unfold sweepSlot
  refine bind_ok.mpr ⟨m.store, m, load_ok.mpr ⟨rfl, rfl⟩, ?_⟩
  cases haddress : m.store.lpAddress idx with
  | none => exact pure_ok.mpr ⟨rfl, rfl⟩
  | some provider =>
      refine ite_ok.mpr ?_
      by_cases hskip : skip = some provider
      · exact .inl ⟨hskip, pure_ok.mpr ⟨rfl, rfl⟩⟩
      · refine .inr ⟨hskip, ?_⟩
        have hbook : (book m).exitReq provider = m.store.exitReq provider := rfl
        rw [haddress] at hdue
        simp only [dueIn, if_neg hskip, hbook] at hdue
        cases hrequest : m.store.exitReq provider with
        | none => exact pure_ok.mpr ⟨rfl, rfl⟩
        | some request =>
            simp only [hrequest, ite_eq_left_iff, reduceCtorEq, imp_false,
              not_not] at hdue
            exact ite_ok.mpr (.inl ⟨hdue, pure_ok.mpr ⟨rfl, rfl⟩⟩)

theorem dueIn_eq_some {b : Book} {now : ℕ} {slot : Option Address}
    (h : b.dueIn now skip slot = some (provider, request)) :
    slot = some provider ∧ skip ≠ some provider ∧
      b.exitReq provider = some request ∧ ¬ now < request.claimableAt := by
  unfold dueIn at h
  cases slot with
  | none => cases h
  | some a =>
      simp only at h
      split at h
      · cases h
      · next hskip =>
          cases hrequest : b.exitReq a with
          | none =>
              rw [hrequest] at h
              cases h
          | some request' =>
              simp only [hrequest, Option.ite_none_left_eq_some,
                Option.some.injEq, Prod.mk.injEq] at h
              obtain ⟨hready, rfl, rfl⟩ := h
              exact ⟨rfl, hskip, hrequest, hready⟩

/-- Storage once the reservation of a request is gone. -/
def State.cleared (s : State) (provider : Address) (request : ExitRequest) :
    State :=
  { s with
    exitReq := Function.update s.exitReq provider none
    queuedExitShares := max 0 (satI128 (s.queuedExitShares - request.shares)) }

/-- A request that is due is dropped with its reservation, left where it is,
or settled. -/
theorem settleRequest_iff (held : ℤ) {settled : Bool} :
    (if min request.shares held ≤ 0 then do
        clearExitReservation provider request.shares
        pure false
      else if (book m).exitAmount (min request.shares held) ≤ 0 ∨
          (book m).available <
            (book m).exitAmount (min request.shares held) then
        pure false
      else do
        clearExitReservation provider request.shares
        let _ ← withdrawInner env provider (min request.shares held)
        pure true : Call Bool) m = .ok (settled, m') ↔
      (min request.shares held ≤ 0 ∧ settled = false ∧
        m' = { m with store := m.store.cleared provider request }) ∨
      ¬ min request.shares held ≤ 0 ∧
        (((book m).exitAmount (min request.shares held) ≤ 0 ∨
              (book m).available <
                (book m).exitAmount (min request.shares held)) ∧
            settled = false ∧ m' = m ∨
          ¬ ((book m).exitAmount (min request.shares held) ≤ 0 ∨
              (book m).available <
                (book m).exitAmount (min request.shares held)) ∧
            settled = true ∧ ∃ amount,
              withdrawInner env provider (min request.shares held)
                { m with store := m.store.cleared provider request } =
                  .ok (amount, m')) := by
  have hclear : ∀ {u : Unit} {t : Machine State},
      clearExitReservation provider request.shares m = .ok (u, t) ↔
        t = { m with store := m.store.cleared provider request } := update_ok
  simp only [ite_ok, bind_ok, hclear, pure_ok]
  constructor
  · rintro (⟨hstale, _, t, rfl, rfl, rfl⟩ | ⟨hfresh, ⟨hpoor, rfl, rfl⟩ |
      ⟨hrich, _, t, rfl, amount, t', hinner, rfl, rfl⟩⟩)
    · exact .inl ⟨hstale, rfl, rfl⟩
    · exact .inr ⟨hfresh, .inl ⟨hpoor, rfl, rfl⟩⟩
    · exact .inr ⟨hfresh, .inr ⟨hrich, rfl, amount, hinner⟩⟩
  · rintro (⟨hstale, rfl, rfl⟩ | ⟨hfresh, ⟨hpoor, rfl, rfl⟩ |
      ⟨hrich, rfl, amount, hinner⟩⟩)
    · exact .inl ⟨hstale, (), _, rfl, rfl, rfl⟩
    · exact .inr ⟨hfresh, .inl ⟨hpoor, rfl, rfl⟩⟩
    · exact .inr ⟨hfresh, .inr ⟨hrich, (), _, rfl, amount, m', hinner, rfl,
        rfl⟩⟩

theorem sweepSlot_of_due
    (hdue : (book m).dueIn env.now skip (m.store.lpAddress idx) =
      some (provider, request)) :
    sweepSlot env skip idx m =
      (if min request.shares ((book m).held provider) ≤ 0 then do
        clearExitReservation provider request.shares
        pure false
      else if (book m).exitAmount
            (min request.shares ((book m).held provider)) ≤ 0 ∨
          (book m).available <
            (book m).exitAmount
              (min request.shares ((book m).held provider)) then
        pure false
      else do
        clearExitReservation provider request.shares
        let _ ← withdrawInner env provider
          (min request.shares ((book m).held provider))
        pure true : Call Bool) m := by
  obtain ⟨haddress, hskip, hrequest, hready⟩ := dueIn_eq_some hdue
  have hstore : m.store.exitReq provider = some request := hrequest
  have hbook : (book m).lpPosition provider = m.store.lpPosition provider := rfl
  have hload : ∀ f : State → Call Bool, (load >>= f) m = f m.store m :=
    fun _ => rfl
  have hamount : (book m).exitAmount = m.store.exitAmount := rfl
  have havailable : (book m).available = m.store.getAvailableLiquidity := rfl
  simp only [sweepSlot, hload, haddress, if_neg hskip, hstore, if_neg hready,
    hamount, havailable]
  cases hfound : m.store.lpPosition provider with
  | none =>
      have hnone : (book m).held provider = 0 :=
        congrArg Yield.Account.shares (account_of_none (hbook.trans hfound))
      rw [hnone]
  | some p => rw [held_of_position (hbook.trans hfound)]

/-- A slot goes through if and only if the exit it starts is paid, and leaves
the book that is foreseen. -/
theorem sweepSlot_inspects (hb : Sound (book m))
    (hstatus : m.store.status ≠ .paused)
    (hown : m.store.exitReq env.self = none) :
    ((∃ settled m', sweepSlot env skip idx m = .ok (settled, m')) ↔
      (book m).PaysExits env.self
        ((book m).inspect env.now skip (m.store.lpAddress idx)).1.toList) ∧
    ∀ settled m', sweepSlot env skip idx m = .ok (settled, m') →
      Leaves env m m'
        ((book m).inspect env.now skip (m.store.lpAddress idx)).1
        ((book m).inspect env.now skip (m.store.lpAddress idx)).2 := by
  have hpass := paysExits_nil (book m) env.self
  cases hdue : (book m).dueIn env.now skip (m.store.lpAddress idx) with
  | none =>
      have hslot := sweepSlot_of_not_due hdue
      simp only [inspect, hdue, hslot]
      refine ⟨iff_of_true ⟨_, _, rfl⟩ hpass, ?_⟩
      rintro _ _ ⟨⟩
      exact .refl env m
  | some due =>
      obtain ⟨provider, request⟩ := due
      simp only [inspect, hdue, sweepSlot_of_due hdue, settleRequest_iff]
      by_cases hstale : min request.shares ((book m).held provider) ≤ 0
      · simp only [hstale, true_and, not_true, false_and, or_false]
        refine ⟨iff_of_true ⟨_, _, rfl, rfl⟩ hpass, ?_⟩
        rintro _ _ ⟨-, rfl⟩
        exact ⟨rfl, rfl, ⟨m.bank, rfl⟩, fun rest => by simp; rfl⟩
      · simp only [hstale, false_and, not_false_eq_true, true_and, false_or,
          if_false]
        cases hexit : (book m).exitOf provider request with
        | none =>
            have hpoor := (exitOf_eq_none (not_le.mp hstale)).mp hexit
            simp only [hpoor, true_and, not_true, false_and, or_false]
            refine ⟨iff_of_true ⟨_, _, rfl, rfl⟩ hpass, ?_⟩
            rintro _ _ ⟨-, rfl⟩
            exact .refl env _
        | some x =>
            obtain ⟨rfl, hshares, hstarts⟩ := exitOf_eq_some hexit
            have hrich := mt (exitOf_eq_none (not_le.mp hstale)).mpr
              (hexit ▸ Option.some_ne_none x)
            rw [← hshares] at hrich
            simp only [← hshares, hrich, false_and, not_false_eq_true,
              true_and, false_or]
            have hrequest := (dueIn_eq_some hdue).2.2.1
            have hother : env.self ≠ x.provider := by
              intro heq
              rw [heq] at hown
              exact absurd (hown.symm.trans hrequest) nofun
            have hclear : Change env (.clear x.provider) (book m)
                ((book m).cleared x.provider request) := .clear hrequest
            have hsound := hclear.sound hb
            have hafter : ((book m).cleared x.provider request).Starts x :=
              { hstarts with }
            have hiff := withdrawInner_exit_iff
              (m := { m with store := m.store.cleared x.provider request })
              hsound hstatus hafter hother
            rw [Option.toList_some, paysExits_singleton]
            constructor
            · constructor
              · rintro ⟨_, m', -, amount, hinner⟩
                obtain ⟨hfits, hfunds⟩ := hiff.mp ⟨amount, m', hinner⟩
                exact ⟨⟨hfits.locked, hfits.earned, hfits.claimed⟩, hfunds⟩
              · rintro ⟨hfits, hfunds⟩
                obtain ⟨amount, m', hinner⟩ := hiff.mpr
                  ⟨⟨hfits.locked, hfits.earned, hfits.claimed⟩, hfunds⟩
                exact ⟨true, m', rfl, amount, hinner⟩
            · rintro _ m' ⟨-, amount, hinner⟩
              have hleaves := withdrawInner_exit_leaves
                (m := { m with store := m.store.cleared x.provider request })
                hsound hafter hother hinner
              exact ⟨hleaves.addresses, hleaves.status, hleaves.books,
                hleaves.funds⟩

/-! ## All slots -/

theorem payouts_nonneg {xs : List Exit} (h : ∀ x ∈ xs, 0 < x.payout) :
    0 ≤ (xs.map Exit.payout).sum :=
  List.sum_nonneg fun n hn => by
    obtain ⟨x, hx, rfl⟩ := List.mem_map.mp hn
    exact (h x hx).le

/-- Whoever pays some exits and more pays the first of them. -/
theorem Book.PaysExits.left {b : Book} {pool : Address} {xs ys : List Exit}
    (h : b.PaysExits pool (xs ++ ys)) (hpos : ∀ y ∈ ys, 0 < y.payout) :
    b.PaysExits pool xs := by
  refine ⟨fun x hx => h.fits x (List.mem_append_left ys hx), fun hsome => ?_⟩
  have hfunds := h.funds (List.append_ne_nil_of_left_ne_nil hsome ys)
  rw [List.map_append, List.sum_append] at hfunds
  exact hfunds.mono (le_add_of_nonneg_right (payouts_nonneg hpos))

/-- The exits that follow are paid out of what the first one leaves. -/
theorem Leaves.paysExits_iff {o : Option Exit} {b : Book} {ys : List Exit}
    (h : Leaves env m m' o b) (hlocked : b.totalLocked = (book m).totalLocked)
    (hacc : b.accumulatedPerShare = (book m).accumulatedPerShare)
    (hfirst : (book m).PaysExits env.self o.toList) :
    (book m').PaysExits env.self ys ↔
      (book m).PaysExits env.self (o.toList ++ ys) := by
  obtain ⟨B, hbook⟩ := h.books
  have hlocked' : (book m').totalLocked = (book m).totalLocked := by
    rw [hbook]
    exact hlocked
  have hacc' : (book m').accumulatedPerShare =
      (book m).accumulatedPerShare := by
    rw [hbook]
    exact hacc
  have hfits : ∀ y, (book m').ExitFits y ↔ (book m).ExitFits y := by
    intro y
    constructor
    · rintro ⟨hl, he, hc⟩
      exact ⟨hlocked' ▸ hl, hacc' ▸ he, hc⟩
    · rintro ⟨hl, he, hc⟩
      exact ⟨hlocked'.symm ▸ hl, hacc'.symm ▸ he, hc⟩
  constructor
  · intro hrest
    by_cases hnone : ys = []
    · rwa [hnone, List.append_nil]
    · refine ⟨fun y hy => ?_, fun _ => ?_⟩
      · rcases List.mem_append.mp hy with hy | hy
        · exact hfirst.fits y hy
        · exact (hfits y).mp (hrest.fits y hy)
      · rw [List.map_append, List.sum_append]
        exact (h.funds _).mp (hrest.funds hnone)
  · rintro ⟨hall, hfunds⟩
    refine ⟨fun y hy => (hfits y).mpr (hall y (List.mem_append_right _ hy)),
      fun hsome => (h.funds _).mpr ?_⟩
    have hpaid := hfunds (List.append_ne_nil_of_right_ne_nil _ hsome)
    rwa [List.map_append, List.sum_append] at hpaid

/-- Slots are inspected to the end if and only if all the exits they start are
paid. -/
theorem collect_inspects {slot : ℕ → ℕ} {steps : List ℕ}
    (hb : Sound (book m)) (hstatus : m.store.status ≠ .paused)
    (hown : m.store.exitReq env.self = none) :
    (∃ settled m', collect steps (fun step => sweepSlot env skip (slot step)) m =
        .ok (settled, m')) ↔
      (book m).PaysExits env.self (exits env.now skip
        (steps.map fun step => m.store.lpAddress (slot step)) (book m)) := by
  induction steps generalizing m with
  | nil => exact iff_of_true ⟨[], m, rfl⟩ (paysExits_nil _ _)
  | cons step steps ih =>
      have hinspects : _ ∧ ∀ settled m₁,
          sweepSlot env skip (slot step) m = .ok (settled, m₁) → _ :=
        sweepSlot_inspects hb hstatus hown
      obtain ⟨hfirst, hleaves⟩ := hinspects
      obtain ⟨hlocked, hacc, hnone⟩ := inspect_kept (book m) env.now skip
        (m.store.lpAddress (slot step))
      rw [List.map_cons, exits]
      generalize hrest : exits env.now skip
        (steps.map fun step => m.store.lpAddress (slot step))
        ((book m).inspect env.now skip (m.store.lpAddress (slot step))).2 = rest
      have hpos : ∀ x ∈ rest, 0 < x.payout := hrest ▸ exits_payout _
      have hfollow : ∀ settled m₁,
          sweepSlot env skip (slot step) m = .ok (settled, m₁) →
          ((∃ settled m', collect steps
              (fun step => sweepSlot env skip (slot step)) m₁ =
                .ok (settled, m')) ↔
            (book m₁).PaysExits env.self rest) := by
        intro settled m₁ hslot
        have hl := hleaves settled m₁ hslot
        obtain ⟨B, hbook⟩ := hl.books
        have hsound : Sound (book m₁) := by
          rcases sweepSlot_sweeps (.refl _) hslot with hsweeps | hsweeps
          · exact hsweeps.sound hb
          · exact hsweeps.sound hb
        have hown₁ : (book m₁).exitReq env.self = none := by
          rw [hbook]
          exact hnone env.self hown
        have hiff := ih hsound (hl.status ▸ hstatus) hown₁
        have hsame : exits env.now skip
            (steps.map fun step => m.store.lpAddress (slot step)) (book m₁) =
            rest := by
          rw [hbook, exits_bank, hrest]
        rwa [hl.addresses, hsame] at hiff
      constructor
      · rintro ⟨settled, m', h⟩
        simp only [collect, bind_ok, pure_ok] at h
        obtain ⟨c, m₁, hslot, cs, t, hcollect, -, -⟩ := h
        have hpaid := hfirst.mp ⟨c, m₁, hslot⟩
        exact ((hleaves c m₁ hslot).paysExits_iff hlocked hacc hpaid).mp
          ((hfollow c m₁ hslot).mp ⟨cs, t, hcollect⟩)
      · intro hall
        have hpaid := hall.left hpos
        obtain ⟨c, m₁, hslot⟩ := hfirst.mpr hpaid
        obtain ⟨cs, t, hcollect⟩ := (hfollow c m₁ hslot).mpr
          (((hleaves c m₁ hslot).paysExits_iff hlocked hacc hpaid).mpr hall)
        refine ⟨c :: cs, t, ?_⟩
        simp only [collect, bind_ok, pure_ok]
        exact ⟨c, m₁, hslot, cs, t, hcollect, rfl, rfl⟩

/-- The addresses in the slots a sweep inspects. -/
def State.scanned (s : State) (maxScan : ℕ) : List (Option Address) :=
  if s.status = .paused then
    []
  else
    (List.range (min maxScan s.lpCount)).map fun step =>
      s.lpAddress ((s.exitCursor % s.lpCount + step) % s.lpCount)

theorem sweepExpiredExits_succeeds_iff (hb : Sound (book m))
    (hown : m.store.exitReq env.self = none) (maxScan : ℕ) :
    (∃ n m', sweepExpiredExits env maxScan skip m = .ok (n, m')) ↔
      (book m).PaysExits env.self
        (exits env.now skip (m.store.scanned maxScan) (book m)) := by
  have hidle := paysExits_nil (book m) env.self
  simp only [sweepExpiredExits, load_bind]
  simp only [ite_ok, bind_ok, pure_ok, update_ok]
  by_cases hstatus : m.store.status = .paused
  · rw [State.scanned, if_pos hstatus]
    exact iff_of_true ⟨0, m, .inl ⟨.inr (.inr hstatus), rfl, rfl⟩⟩ hidle
  · rw [State.scanned, if_neg hstatus, ← collect_inspects hb hstatus hown]
    by_cases hempty : maxScan = 0 ∨ m.store.lpCount = 0
    · have hnone : min maxScan m.store.lpCount = 0 := by omega
      rw [hnone]
      exact iff_of_true
        ⟨0, m, .inl ⟨hempty.imp_right .inl, rfl, rfl⟩⟩ ⟨[], m, rfl⟩
    · have hrun : ¬ (maxScan = 0 ∨ m.store.lpCount = 0 ∨
          m.store.status = .paused) := by
        simp only [← or_assoc, hempty, hstatus, or_self, not_false_eq_true]
      constructor
      · rintro ⟨n, m', ⟨hidle, -⟩ | ⟨-, settled, t, hcollect, -⟩⟩
        · exact absurd hidle hrun
        · exact ⟨settled, t, hcollect⟩
      · rintro ⟨settled, t, hcollect⟩
        exact ⟨_, _, .inr ⟨hrun, settled, t, hcollect, (), _, rfl, rfl, rfl⟩⟩

end Slots

/-! ## Every reachable state -/

section Runs

variable {self : Address} {w : World State}

/-- The pool does not ask for an exit of its own. -/
theorem no_own_request (hw : (system self).Reachable w) :
    w.machine.store.exitReq self = none := by
  by_contra hqueues
  obtain ⟨s, ls, hinit, hrun⟩ := hw.exists_run
  have hfresh : ¬ Queues self s := by
    rw [Queues, hinit.1]
    exact fun h => h rfl
  obtain ⟨signers, shares, hmem⟩ :=
    Queues.asked (.init hinit) hrun hfresh hqueues
  obtain ⟨before, after, v, v', -, -, hstep, -⟩ := hrun.step_of_mem hmem
  obtain ⟨hself, hexec⟩ := hstep.exec_eq
  simp [exec, requestExit] at hexec
  exact hself hexec.1

/-- In every reachable state a sweep goes through if and only if all the exits
it starts fit 128 bits and the tokens of the pool pay for them together. -/
theorem sweep_completes_iff (hw : (system self).Reachable w)
    (signers : List Address) (maxScan : ℕ) (skip : Option Address) :
    (∃ n m', sweepExpiredExits (callEnv self w signers) maxScan skip w.machine =
        .ok (n, m')) ↔
      (book w.machine).PaysExits self
        (exits w.now skip (w.machine.store.scanned maxScan)
          (book w.machine)) :=
  sweepExpiredExits_succeeds_iff (hw.invariant (sound_inductive self))
    (no_own_request hw) maxScan

end Runs

/-! ## An exit behind a withdrawal of premiums -/

namespace Scenario

/-- Two providers deposit, and one of them asks for half of its shares. -/
def leaving : List (Label Entry) :=
  [funding, .call [other] (.deposit other 1000000 0 false),
    .call [provider] (.requestExit provider (5 * 10 ^ 14))]

def parting : World State :=
  (TransitionSystem.execute (step exec pool) leaving wired).get
    (by decide +kernel)

/-- More is forwarded than ever came in as premiums. -/
def siphonedOff : World State :=
  (step exec pool parting
    (.call [admin] (.sendPremiumToTreasury admin 1600000))).get
      (by decide +kernel)

def leaver : Exit where
  provider := provider
  position :=
    { provider := provider
      deposited := 1000000
      shares := 999999999999000
      yieldClaimed := 0
      yieldDebt := 0
      depositedAt := 1000000
      lastYieldClaim := 1000000
      compoundEnabled := false
      insuranceEnabled := false
      insurancePaid := 0 }
  shares := 5 * 10 ^ 14
  amount := 500000
  owed := 0

theorem parting_reachable : (system pool).Reachable parting :=
  wired_reachable.run (TransitionSystem.run_of_execute
    (fun _ _ _ => step_sound) (Option.some_get _).symm)

end Scenario

open Scenario in
/-- Before the premiums are forwarded, the exit of the provider is paid. -/
theorem sweep_completes_iff_parting :
    exits parting.now none (parting.machine.store.scanned 5)
        (book parting.machine) = [leaver] ∧
      ∃ n m', sweepExpiredExits (callEnv pool parting []) 5 none
        parting.machine = .ok (n, m') := by
  have hexits : exits parting.now none (parting.machine.store.scanned 5)
      (book parting.machine) = [leaver] := by decide +kernel
  refine ⟨hexits, (sweep_completes_iff parting_reachable [] 5 none).mpr ?_⟩
  rw [hexits, paysExits_singleton]
  refine ⟨⟨by decide +kernel, by decide +kernel, by decide +kernel⟩,
    usdc, by decide +kernel, ?_⟩
  have hpays : ∃ B, parting.machine.bank.transfer usdc pool provider
      leaver.payout = some B :=
    (Bank.exists_transfer_iff (by decide)).mpr (by decide +kernel)
  exact (Bank.exists_transfer_iff_affords.mp hpays).2

open Scenario in
/-- Afterwards it is not, and the other provider can neither withdraw nor ask
for an exit of its own. -/
theorem sweep_fails_for_want_of_tokens :
    (system pool).Reachable siphonedOff ∧
      siphonedOff.machine.bank.balance usdc pool = 400000 ∧
      (¬ ∃ n m', sweepExpiredExits (callEnv pool siphonedOff [other]) 5
        (some other) siphonedOff.machine = .ok (n, m')) ∧
      (∀ w', ¬ (system pool).Step siphonedOff
        (.call [other] (.withdraw other (10 ^ 12))) w') ∧
      ∀ w', ¬ (system pool).Step siphonedOff
        (.call [other] (.requestExit other 1)) w' := by
  have hsweep : failure (sweepExpiredExits (callEnv pool siphonedOff [other]) 5
      (some other) siphonedOff.machine) = some (.error .insufficientFunds) := by
    decide +kernel
  have hwithdraw : failure (exec (callEnv pool siphonedOff [other])
      (.withdraw other (10 ^ 12)) siphonedOff.machine) =
        some (.error .insufficientFunds) := by
    decide +kernel
  have hrequest : failure (exec (callEnv pool siphonedOff [other])
      (.requestExit other 1) siphonedOff.machine) =
        some (.error .insufficientFunds) := by
    decide +kernel
  refine ⟨.step parting_reachable (step_sound (Option.some_get _).symm),
    by decide +kernel, ?_, fun w' hstep => ?_, fun w' hstep => ?_⟩
  · rintro ⟨n, m', h⟩
    cases (failure_eq_some.mp hsweep).symm.trans h
  · cases (failure_eq_some.mp hwithdraw).symm.trans hstep.exec_eq.2
  · cases (failure_eq_some.mp hrequest).symm.trans hstep.exec_eq.2

end Parashield.RiskPool
