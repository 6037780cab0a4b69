import Parashield.RiskPool.Book

/-!
# Risk pool: calls change the book

What each call of a liquidity provider does to the pool book.
-/

namespace Parashield.RiskPool

open Support Support.Contract Invocation Book

variable {env : Env} {m m' : Machine State} {provider : Address}

/-! ## Internal helpers -/

theorem settleYield_ok {now : ℕ} {p : LpPosition} {r : Settlement}
    (h : m.store.settleYield now p = .ok r) :
    r = (book m).settled now p := by
  unfold State.settleYield at h
  unfold settled
  by_cases hzero : m.store.totalShares = 0
  · rw [if_pos hzero] at h
    rw [if_pos (show (book m).totalShares = 0 from hzero)]
    exact Check.pure_ok.mp h
  · rw [if_neg hzero] at h
    rw [if_neg (show ¬ (book m).totalShares = 0 from hzero)]
    simp only [Check.bind_ok, Check.i128_ok] at h
    obtain ⟨v, ⟨-, rfl⟩, h⟩ := h
    change (if 0 < satI128 ((book m).debtOf p.shares - p.yieldDebt) then _
      else _) = _ at h
    by_cases hpos : 0 < satI128 ((book m).debtOf p.shares - p.yieldDebt)
    · rw [if_pos hpos] at h
      simp only [Check.bind_ok, Check.i128_ok, Check.pure_ok] at h
      obtain ⟨claimed, ⟨-, rfl⟩, rfl⟩ := h
      simp only [if_pos hpos]
      rfl
    · rw [if_neg hpos] at h
      simp only [if_neg hpos]
      exact Check.pure_ok.mp h

theorem yieldDebt_ok {shares debt : ℤ} {fault : Fault Error}
    (h : m.store.yieldDebt shares fault = .ok debt) :
    debt = (book m).debtOf shares := by
  simp [State.yieldDebt] at h
  exact h.2

@[simp] theorem settled_shares (b : Book) (now : ℕ) (p : LpPosition) :
    (b.settled now p).position.shares = p.shares := by
  unfold settled
  split
  · rfl
  · dsimp only
    split
    · rfl
    · rfl

theorem payOutYield_ok {owed : ℤ} {u : Unit}
    (h : payOutYield env provider owed m = .ok (u, m')) :
    ∃ B, m' = { m with bank := B } ∧
      Pays env.self m.store.usdcToken (yieldPayment provider owed)
        m.bank B := by
  simp only [payOutYield, whenever_ok, bind_ok, load_ok, unwrap_ok,
    transferToken_ok] at h
  rcases h with ⟨hpos, _, _, ⟨rfl, rfl⟩, usdc, _, ⟨husdc, rfl⟩, -, B, hB, rfl⟩ |
      ⟨hpos, rfl⟩
  · refine ⟨B, rfl, .inr ⟨usdc, husdc, ?_⟩⟩
    simp [yieldPayment, hpos, hB]
  · refine ⟨m'.bank, rfl, .inl ⟨?_, rfl⟩⟩
    simp [yieldPayment, hpos]

theorem updateLpNft_book (s : State) (B : Bank) (p : LpPosition) :
    book { store := s.updateLpNft provider p, bank := B } =
      book { store := s, bank := B } := by
  unfold State.updateLpNft
  cases h : s.providerNft provider with
  | none => rfl
  | some tokenId =>
      cases hnft : s.lpNft tokenId with
      | none => simp only [hnft]
      | some nft =>
          simp only [hnft]
          rfl

/-! ## Withdrawals and exits -/

theorem redeem_ok {shares : ℤ} {p : LpPosition} {drained : Error}
    {r : Redemption} (hfound : m.store.lpPosition provider = some p)
    (hpos : 0 < shares) (hheld : shares ≤ p.shares)
    (h : redeem env provider shares p drained m = .ok (r, m')) :
    Redeems (book m) provider shares p ∧
      r = { amount := (book m).redeemed shares
            owed := ((book m).settled env.now p).owed } ∧
      book m' =
        { book m with
          lpPosition :=
            (book m).setPosition provider
              ((book m).reduced env.now p shares ((book m).redeemed shares))
          totalDeposited := m.store.totalDeposited - (book m).redeemed shares
          totalShares := m.store.totalShares - shares } := by
  simp [redeem, updateLpNft] at h
  obtain ⟨-, ⟨-, hissued, -⟩, hamount, hafford, settled, hsettled, -, debt,
    hdebt, hdeposited, hshares, rfl, rfl⟩ := h
  have hs := settleYield_ok hsettled
  have hd := yieldDebt_ok hdebt
  refine ⟨⟨hfound, hpos, hheld, hissued, hamount, hafford, hdeposited,
    hshares⟩, by rw [hs]; rfl, ?_⟩
  rw [updateLpNft_book, hd, hs]
  simp only [settled_shares]
  rfl

theorem withdrawInner_change {shares amount : ℤ}
    (h : withdrawInner env provider shares m = .ok (amount, m')) :
    Change env (.burn provider shares false) (book m) (book m') := by
  simp [withdrawInner, assertWithdrawable] at h
  obtain ⟨hpos, -, p, hfound, hheld, hissued, t, ht, r, t₁, hredeem, usdc,
    husdc, -, B, hB, ⟨_, hpay⟩, rfl⟩ := h
  obtain rfl : t = m := by
    rcases ht with ⟨-, -, rfl⟩ | ⟨-, rfl⟩
    · rfl
    · rfl
  obtain ⟨hredeems, rfl, hbook⟩ := redeem_ok hfound hpos hheld hredeem
  obtain ⟨B', rfl, hpays⟩ := payOutYield_ok hpay
  have htoken : t₁.store.usdcToken = t.store.usdcToken :=
    congrArg Book.usdcToken hbook
  have hbank : t₁.bank = t.bank := congrArg Book.bank hbook
  have hbook' : book { t₁ with bank := B' } = { book t₁ with bank := B' } := rfl
  rw [hbook', hbook]
  have hyield : Pays env.self t.store.usdcToken
      (yieldPayment provider ((book t).settled env.now p).owed) B B' := by
    rwa [htoken] at hpays
  rw [hbank] at hB
  exact .burn hredeems ((Pays.single husdc hB).append hyield)

theorem emergencyWithdraw_change {admin : Address} {shares amount : ℤ}
    (h : emergencyWithdraw env provider admin shares m = .ok (amount, m')) :
    Change env (.burn provider shares true) (book m) (book m') := by
  simp [emergencyWithdraw, requireAdmin] at h
  obtain ⟨-, -, -, hpos, p, hfound, hheld, r, t, hredeem, usdc, husdc, -,
    ⟨B, hB, rfl⟩, rfl⟩ := h
  obtain ⟨hredeems, rfl, hbook⟩ := redeem_ok hfound hpos hheld hredeem
  have hbank : t.bank = m.bank := congrArg Book.bank hbook
  have hbook' : book { t with bank := B } = { book t with bank := B } := rfl
  rw [hbook', hbook]
  rw [hbank] at hB
  exact .burn hredeems (Pays.single husdc hB)

theorem claimYield_change {claimed : ℤ}
    (h : claimYield env provider m = .ok (claimed, m')) :
    book m' = book m ∨
      Change env (.collect provider) (book m) (book m') := by
  simp [claimYield] at h
  obtain ⟨-, p, hfound, r, hsettled, t, ht, ⟨_, hpay⟩, rfl⟩ := h
  obtain rfl := settleYield_ok hsettled
  obtain ⟨B, rfl, hpays⟩ := payOutYield_ok hpay
  rcases ht with ⟨hpos, rfl⟩ | ⟨hneg, rfl⟩
  · right
    rw [yieldPayment, if_pos hpos] at hpays
    exact .collect hfound hpos hpays
  · left
    rw [yieldPayment, if_neg (not_lt.mpr hneg)] at hpays
    rcases hpays with ⟨-, rfl⟩ | ⟨usdc, -, hall⟩
    · rfl
    · obtain rfl := Option.some.inj hall
      rfl

theorem clearExitReservation_change {request : ExitRequest} {u : Unit}
    (hrequest : m.store.exitReq provider = some request)
    (h : clearExitReservation provider request.shares m = .ok (u, m')) :
    Change env (.clear provider) (book m) (book m') := by
  simp only [clearExitReservation, update_ok] at h
  subst h
  exact .clear hrequest

theorem claimExit_run {amount : ℤ}
    (h : claimExit env provider m = .ok (amount, m')) :
    ∃ request, m.store.exitReq provider = some request ∧
      request.claimableAt ≤ env.now ∧
      (changes env).Run (book m)
        [.clear provider, .burn provider request.shares false] (book m') := by
  simp [claimExit] at h
  obtain ⟨-, request, hrequest, hready, _, t, hclear, hinner⟩ := h
  have hfirst : Change env (.clear provider) (book m) (book t) :=
    clearExitReservation_change hrequest hclear
  exact ⟨request, hrequest, hready,
    .cons hfirst (withdrawInner_change hinner).run⟩

theorem cancelExit_change {u : Unit}
    (h : cancelExit env provider m = .ok (u, m')) :
    Change env (.clear provider) (book m) (book m') := by
  simp [cancelExit] at h
  obtain ⟨-, request, hrequest, hclear⟩ := h
  exact clearExitReservation_change hrequest hclear

/-! ## The sweep -/

/-- An expired exit request of somebody else than `skip` waits in a slot. -/
def State.ExitDue (s : State) (now : ℕ) (skip : Option Address) : Prop :=
  ∃ idx provider request, idx < s.lpCount ∧ s.lpAddress idx = some provider ∧
    skip ≠ some provider ∧ s.exitReq provider = some request ∧
    request.claimableAt ≤ now

/-- Changes made by a sweep that settles at most `n` exits. -/
inductive Sweeps (env : Env) : ℕ → Book → Book → Prop
  | refl (b : Book) : Sweeps env 0 b b
  | clear {n : ℕ} {b b' b'' : Book} {provider : Address} :
      Sweeps env n b b' → Change env (.clear provider) b' b'' →
      Sweeps env n b b''
  | burn {n : ℕ} {b b' b'' : Book} {provider : Address} {shares : ℤ} :
      Sweeps env n b b' → Change env (.burn provider shares false) b' b'' →
      Sweeps env (n + 1) b b''

/-- The exit request of `provider` has expired, and it is not skipped. -/
structure Book.Due (b : Book) (now : ℕ) (skip : Option Address)
    (provider : Address) (request : ExitRequest) : Prop where
  not_skipped : skip ≠ some provider
  found : b.exitReq provider = some request
  expired : request.claimableAt ≤ now

/-- A slot is passed over, or the request of a provider that is not skipped is
removed and perhaps settled. -/
theorem sweepSlot_change {skip : Option Address} {idx : ℕ} {settled : Bool}
    (h : sweepSlot env skip idx m = .ok (settled, m')) :
    book m' = book m ∨ ∃ provider request b,
      (book m).Due env.now skip provider request ∧
      Change env (.clear provider) (book m) b ∧
      (book m' = b ∨ ∃ shares ≤ request.shares,
        Change env (.burn provider shares false) b (book m')) := by
  unfold sweepSlot at h
  simp only [bind_ok, load_ok] at h
  obtain ⟨s, t, ⟨hs, ht⟩, h⟩ := h
  rw [hs, ht] at h
  cases haddress : m.store.lpAddress idx with
  | none =>
      rw [haddress] at h
      obtain ⟨-, rfl⟩ := pure_ok.mp h
      exact .inl rfl
  | some provider =>
      simp only [haddress] at h
      rcases ite_ok.mp h with ⟨-, h⟩ | ⟨hskip, h⟩
      · obtain ⟨-, rfl⟩ := pure_ok.mp h
        exact .inl rfl
      · cases hrequest : m.store.exitReq provider with
        | none =>
            rw [hrequest] at h
            obtain ⟨-, rfl⟩ := pure_ok.mp h
            exact .inl rfl
        | some request =>
            simp only [hrequest, ite_ok, bind_ok, pure_ok] at h
            rcases h with ⟨-, -, rfl⟩ | ⟨hready, ⟨-, _, t, hclear, -, rfl⟩ |
              ⟨-, ⟨-, -, rfl⟩ | ⟨-, _, t, hclear, _, t', hinner, -, rfl⟩⟩⟩
            · exact .inl rfl
            · exact .inr ⟨provider, request, _,
                ⟨hskip, hrequest, not_lt.mp hready⟩,
                clearExitReservation_change hrequest hclear, .inl rfl⟩
            · exact .inl rfl
            · exact .inr ⟨provider, request, _,
                ⟨hskip, hrequest, not_lt.mp hready⟩,
                clearExitReservation_change hrequest hclear,
                .inr ⟨_, min_le_left _ _, withdrawInner_change hinner⟩⟩

theorem sweepSlot_sweeps {skip : Option Address} {idx n : ℕ} {settled : Bool}
    {b : Book} (hb : Sweeps env n b (book m))
    (h : sweepSlot env skip idx m = .ok (settled, m')) :
    Sweeps env n b (book m') ∨ Sweeps env (n + 1) b (book m') := by
  rcases sweepSlot_change h with hsame |
    ⟨provider, request, b₁, -, hclear, hcleared | ⟨shares, -, hburn⟩⟩
  · rw [hsame]
    exact .inl hb
  · rw [hcleared]
    exact .inl (hb.clear hclear)
  · exact .inr ((hb.clear hclear).burn hburn)

theorem collect_sweeps {skip : Option Address} {slots : List ℕ} {n : ℕ}
    {settled : List Bool} {b : Book} {slot : ℕ → ℕ}
    (hb : Sweeps env n b (book m))
    (h : collect slots (fun step => sweepSlot env skip (slot step)) m =
      .ok (settled, m')) :
    ∃ k ≤ slots.length, Sweeps env (n + k) b (book m') := by
  induction slots generalizing n m settled with
  | nil =>
      obtain ⟨-, rfl⟩ := pure_ok.mp h
      exact ⟨0, le_rfl, hb⟩
  | cons step slots ih =>
      simp only [collect, bind_ok, pure_ok] at h
      obtain ⟨c, t, hslot, cs, t', hrest, -, rfl⟩ := h
      rcases sweepSlot_sweeps hb hslot with hsame | hmore
      · obtain ⟨k, hk, hsweeps⟩ := ih hsame hrest
        exact ⟨k, by simp only [List.length_cons]; omega, hsweeps⟩
      · obtain ⟨k, hk, hsweeps⟩ := ih hmore hrest
        refine ⟨k + 1, by simp only [List.length_cons]; omega, ?_⟩
        rwa [Nat.add_assoc, Nat.add_comm 1 k] at hsweeps

theorem sweepExpiredExits_sweeps {skip : Option Address} {maxScan n : ℕ}
    (h : sweepExpiredExits env maxScan skip m = .ok (n, m')) :
    ∃ k ≤ maxScan, Sweeps env k (book m) (book m') := by
  simp only [sweepExpiredExits, bind_ok, load_ok, ite_ok, pure_ok,
    update_ok] at h
  obtain ⟨_, _, ⟨rfl, rfl⟩, ⟨-, -, rfl⟩ | ⟨-, settled, t, hcollect, _, t',
    rfl, -, rfl⟩⟩ := h
  · exact ⟨0, Nat.zero_le _, .refl _⟩
  · obtain ⟨k, hk, hsweeps⟩ := collect_sweeps (.refl _) hcollect
    rw [Nat.zero_add] at hsweeps
    rw [List.length_range] at hk
    exact ⟨k, hk.trans (Nat.min_le_left _ _), hsweeps⟩

/-- A sweep leaves the position it skips and the accumulator alone. -/
theorem sweepSlot_skips {provider : Address} {idx : ℕ} {settled : Bool}
    (h : sweepSlot env (some provider) idx m = .ok (settled, m')) :
    (book m').lpPosition provider = (book m).lpPosition provider ∧
      (book m').accumulatedPerShare = (book m).accumulatedPerShare := by
  rcases sweepSlot_change h with hsame |
    ⟨provider', request, b, hdue, hclear, hcleared | ⟨shares, -, hburn⟩⟩
  · rw [hsame]
    exact ⟨rfl, rfl⟩
  · rw [hcleared]
    cases hclear
    exact ⟨rfl, rfl⟩
  · have hne : provider ≠ provider' :=
      fun heq => hdue.not_skipped (congrArg some heq)
    generalize hb' : book m' = b' at hburn
    cases hclear
    cases hburn
    exact ⟨Function.update_of_ne hne .., rfl⟩

/-- What every slot of a sweep and the cursor respect, the whole sweep
respects. -/
theorem sweepExpiredExits_relation {R : Machine State → Machine State → Prop}
    {skip : Option Address} {maxScan n : ℕ}
    (htrans : ∀ s t u, R s t → R t u → R s u)
    (hcursor : ∀ s : Machine State, ∀ cursor : ℕ,
      R s { s with store := { s.store with exitCursor := cursor } })
    (hslot : ∀ idx settled s t,
      sweepSlot env skip idx s = .ok (settled, t) → R s t)
    (h : sweepExpiredExits env maxScan skip m = .ok (n, m')) : R m m' := by
  have hrefl : R m m := hcursor m m.store.exitCursor
  unfold sweepExpiredExits at h
  simp only [bind_ok, load_ok] at h
  obtain ⟨s, t₀, ⟨hs, ht⟩, h⟩ := h
  rw [hs, ht] at h
  simp only [ite_ok, bind_ok, pure_ok, update_ok] at h
  obtain ⟨-, -, rfl⟩ | ⟨-, settled, t, hcollect, _, t', rfl, -, rfl⟩ := h
  · exact hrefl
  · have hkeeps : Keeps (R m)
        (collect (List.range (min maxScan m.store.lpCount)) fun step =>
          sweepSlot env skip
            ((m.store.exitCursor % m.store.lpCount + step) %
              m.store.lpCount)) := by
      apply keeps_collect
      intro step _ s c s' hs hinspect
      exact htrans _ _ _ hs (hslot _ _ _ _ hinspect)
    exact htrans _ _ _ (hkeeps m settled t hrefl hcollect) (hcursor _ _)

theorem sweepExpiredExits_skips {provider : Address} {maxScan n : ℕ}
    (h : sweepExpiredExits env maxScan (some provider) m = .ok (n, m')) :
    (book m').lpPosition provider = (book m).lpPosition provider ∧
      (book m').accumulatedPerShare = (book m).accumulatedPerShare :=
  sweepExpiredExits_relation
    (R := fun s t =>
      (book t).lpPosition provider = (book s).lpPosition provider ∧
        (book t).accumulatedPerShare = (book s).accumulatedPerShare)
    (fun _ _ _ h h' => ⟨h'.1.trans h.1, h'.2.trans h.2⟩)
    (fun _ _ => ⟨rfl, rfl⟩) (fun _ _ _ _ hslot => sweepSlot_skips hslot) h

/-- Without an expired request of somebody else, a slot is passed over. -/
theorem sweepSlot_idle {skip : Option Address} {idx : ℕ}
    (hdue : ¬ m.store.ExitDue env.now skip) (hidx : idx < m.store.lpCount) :
    sweepSlot env skip idx m = .ok (false, m) := by
  unfold sweepSlot
  refine bind_ok.mpr ⟨m.store, m, load_ok.mpr ⟨rfl, rfl⟩, ?_⟩
  cases haddress : m.store.lpAddress idx with
  | none => exact pure_ok.mpr ⟨rfl, rfl⟩
  | some provider =>
      refine ite_ok.mpr ?_
      by_cases hskip : skip = some provider
      · exact .inl ⟨hskip, pure_ok.mpr ⟨rfl, rfl⟩⟩
      · refine .inr ⟨hskip, ?_⟩
        cases hrequest : m.store.exitReq provider with
        | none => exact pure_ok.mpr ⟨rfl, rfl⟩
        | some request =>
            have hearly : env.now < request.claimableAt := by
              by_contra hready
              exact hdue ⟨idx, provider, request, hidx, haddress, hskip,
                hrequest, not_lt.mp hready⟩
            exact ite_ok.mpr (.inl ⟨hearly, pure_ok.mpr ⟨rfl, rfl⟩⟩)

/-- Such a sweep moves the cursor and nothing else. -/
theorem sweepExpiredExits_passes {skip : Option Address} (maxScan : ℕ)
    (hdue : ¬ m.store.ExitDue env.now skip) :
    ∃ n cursor, sweepExpiredExits env maxScan skip m =
      .ok (n, { m with store := { m.store with exitCursor := cursor } }) := by
  unfold sweepExpiredExits
  simp only [bind_ok, load_ok, ite_ok]
  by_cases hnone : maxScan = 0 ∨ m.store.lpCount = 0 ∨
      m.store.status = .paused
  · exact ⟨0, m.store.exitCursor, _, m, ⟨rfl, rfl⟩,
      .inl ⟨hnone, pure_ok.mpr ⟨rfl, rfl⟩⟩⟩
  · have hcount : 0 < m.store.lpCount := by omega
    have hcollect : ∃ settled,
        collect (List.range (min maxScan m.store.lpCount)) (fun step =>
          sweepSlot env skip
            ((m.store.exitCursor % m.store.lpCount + step) %
              m.store.lpCount)) m = .ok (settled, m) :=
      collect_idle fun _ _ => sweepSlot_idle hdue (Nat.mod_lt _ hcount)
    obtain ⟨settled, hcollect⟩ := hcollect
    exact ⟨settled.count true, _, _, m, ⟨rfl, rfl⟩,
      .inr ⟨hnone, settled, m, hcollect, (), _, update_ok.mpr rfl,
        pure_ok.mpr ⟨rfl, rfl⟩⟩⟩

theorem sweepExpiredExits_idle {skip : Option Address} {maxScan n : ℕ}
    (hdue : ¬ m.store.ExitDue env.now skip)
    (h : sweepExpiredExits env maxScan skip m = .ok (n, m')) :
    book m' = book m := by
  obtain ⟨k, cursor, hsweep⟩ := sweepExpiredExits_passes maxScan hdue
  obtain ⟨-, rfl⟩ := Prod.mk.inj (Except.ok.inj (h.symm.trans hsweep))
  rfl

theorem requestExit_sweeps {shares : ℤ} {u : Unit}
    (h : requestExit env provider shares m = .ok (u, m')) :
    ∃ t n, sweepExpiredExits env maxAutoExitScan (some provider) m =
        .ok (n, t) ∧
      Change env (.enqueue provider) (book t) (book m') := by
  simp [requestExit, assertWithdrawable] at h
  obtain ⟨-, hpos, -, n, t, hsweep, p, hfound, hle, rfl⟩ := h
  refine ⟨t, n, hsweep, ?_⟩
  refine Change.enqueue hfound hpos ?_ ?_ hle
  · cases hreq : t.store.exitReq provider with
    | none => rfl
    | some prev => rfl
  · have hbook : (book t).exitReq provider = t.store.exitReq provider := rfl
    rw [hbook]
    cases hreq : t.store.exitReq provider with
    | none => rfl
    | some prev => rfl

/-! ## Deposits and transfers -/

theorem registerProvider_book {u : Unit}
    (h : registerProvider provider m = .ok (u, m')) : book m' = book m := by
  simp [registerProvider] at h
  obtain ⟨-, rfl⟩ := h
  rfl

theorem recordNft_book {isNewLp : Bool} {category : Symbol} {p : LpPosition}
    {u : Unit} (h : recordNft env provider isNewLp category p m = .ok (u, m')) :
    book m' = book m := by
  unfold recordNft at h
  rcases ite_ok.mp h with ⟨-, h⟩ | ⟨-, h⟩
  · simp [mintLpNft] at h
    obtain ⟨-, -, rfl⟩ := h
    rfl
  · simp only [updateLpNft, update_ok] at h
    subst h
    exact updateLpNft_book m.store m.bank p

theorem creditDeposit_ok {amount newShares : ℤ} {compound : Bool}
    {r : Settlement}
    (h : creditDeposit env provider amount newShares compound m =
      .ok (r, m')) :
    r = (book m).increased env.now provider newShares amount (some compound) ∧
      book m' = book m := by
  unfold creditDeposit at h
  simp only [bind_ok, load_ok] at h
  obtain ⟨s, t, ⟨hs, ht⟩, h⟩ := h
  rw [hs, ht] at h
  have hbook : (book m).lpPosition provider = m.store.lpPosition provider := rfl
  cases hp : m.store.lpPosition provider with
  | none =>
      rw [hp] at h hbook
      simp at h
      obtain ⟨⟨_, hregister⟩, debt, hdebt, rfl⟩ := h
      refine ⟨?_, registerProvider_book hregister⟩
      rw [increased, hbook, yieldDebt_ok hdebt]
      rfl
  | some p =>
      rw [hp] at h hbook
      simp at h
      obtain ⟨settled, hsettled, -, -, debt, ⟨hdebt, rfl⟩, rfl⟩ := h
      refine ⟨?_, rfl⟩
      rw [increased, hbook, yieldDebt_ok hdebt, settleYield_ok hsettled]
      simp only [settled_shares]
      rfl

theorem mintedShares_ok {amount minted burnShares : ℤ}
    (h : m.store.mintedShares amount = .ok (minted, burnShares)) :
    ((book m).totalShares = 0 → minted = amount * 1000000000 - lockedShares ∧
        burnShares = lockedShares) ∧
      ((book m).totalShares ≠ 0 →
        minted = (amount * (book m).totalShares).tdiv
            (book m).totalDeposited ∧ burnShares = 0) := by
  unfold State.mintedShares at h
  split at h
  · next hzero =>
      simp at h
      obtain ⟨-, -, rfl, rfl⟩ := h
      exact ⟨fun _ => ⟨rfl, rfl⟩, fun hne => absurd hzero hne⟩
  · next hne =>
      simp at h
      obtain ⟨-, rfl, rfl⟩ := h
      exact ⟨fun hzero => absurd hzero hne, fun _ => ⟨rfl, rfl⟩⟩

/-- An accepted deposit: what it checked in `m` and, after the sweep, in `t`;
the position it credited, and the machines after crediting and recording. -/
structure Deposits (env : Env) (provider : Address) (amount least : ℤ)
    (compound : Bool) (minted burnShares : ℤ) (credited : Settlement)
    (m t t₁ t₂ m' : Machine State) : Prop where
  nonzero : provider ≠ .zero
  signed : provider ∈ env.signers
  outsider : m.store.admin ≠ some provider
  whole : amount.tmod minDeposit = 0
  active : m.store.status = .active
  sweep : ∃ n, sweepExpiredExits env maxAutoExitScan (some provider) m =
    .ok (n, t)
  sized : t.store.totalDeposited + amount ≤ t.store.capacity.maxTotalDeposited
  utilized : t.store.currentUtilizationBps < t.store.capacity.maxUtilizationBps
  quote : t.store.mintedShares amount = .ok (minted, burnShares)
  mints : Mints (book t) amount minted burnShares
  pull : ∃ usdc B, t.store.usdcToken = some usdc ∧
    t.bank.transfer usdc provider env.self amount = some B ∧
    (B.balance usdc env.self : ℤ) = t.bank.balance usdc env.self + amount ∧
    creditDeposit env provider amount minted compound { t with bank := B } =
      .ok (credited, t₁)
  record : ∃ category u, t.store.category = some category ∧
    recordNft env provider (t.store.lpPosition provider).isNone category
      credited.position
      { store := (t₁.store.setPosition provider credited.position).withTotals
          (t.store.totalDeposited + amount)
          (t.store.totalShares + minted + burnShares)
        bank := t₁.bank } = .ok (u, t₂)
  pay : (∃ u, (compound = true → credited.owed ≤ 0) ∧
      payOutYield env provider credited.owed t₂ = .ok (u, m')) ∨
    compound = true ∧ m' = t₂

theorem deposit_ok {amount least minted : ℤ} {compound : Bool}
    (h : deposit env provider amount least compound m = .ok (minted, m')) :
    ∃ burnShares credited t t₁ t₂, Deposits env provider amount least compound
      minted burnShares credited m t t₁ t₂ m' := by
  simp [deposit, requireNotZeroAddress, requireNotAdmin, assertActive,
    pullDeposit] at h
  obtain ⟨hzero, hsigned, hother, -, hamount, hwhole, hactive, n, t, hsweep,
    hdeposited, hsized, hutilized, burnShares, hminted, hshares, -, usdc,
    husdc, B, ⟨-, hB⟩, hreceived, credited, t₁, hcredit, hissued, category,
    hcategory, u, t₂, hnft, u', hpay⟩ := h
  obtain ⟨hfirst, hlater⟩ := mintedShares_ok hminted
  refine ⟨burnShares, credited, t, t₁, t₂,
    { nonzero := hzero
      signed := hsigned
      outsider := hother
      whole := hwhole
      active := hactive
      sweep := ⟨n, hsweep⟩
      sized := hsized
      utilized := hutilized
      quote := hminted
      mints := ⟨hamount, hshares, hfirst, hlater, hdeposited, hissued⟩
      pull := ⟨usdc, B, husdc, hB, by omega, hcredit⟩
      record := ⟨category, u, hcategory, hnft⟩
      pay := ?_ }⟩
  rcases hpay with ⟨hnot, hpay⟩ | ⟨⟨hcompound, -⟩, hsame⟩
  · exact .inl ⟨u', hnot, hpay⟩
  · exact .inr ⟨hcompound, hsame⟩

theorem deposit_change {amount minSharesOut minted : ℤ} {compound : Bool}
    (h : deposit env provider amount minSharesOut compound m =
      .ok (minted, m')) :
    ∃ t n burnShares,
      sweepExpiredExits env maxAutoExitScan (some provider) m = .ok (n, t) ∧
      t.store.mintedShares amount = .ok (minted, burnShares) ∧
      Change env (.mint provider minted compound) (book t) (book m') := by
  obtain ⟨burnShares, credited, t, t₁, t₂, h⟩ := deposit_ok h
  obtain ⟨n, hsweep⟩ := h.sweep
  obtain ⟨usdc, B, husdc, hB, hbalance, hcredit⟩ := h.pull
  obtain ⟨category, u, -, hnft⟩ := h.record
  obtain ⟨hcredited, hbook₁⟩ := creditDeposit_ok hcredit
  have hbook₂ := recordNft_book hnft
  refine ⟨t, n, burnShares, hsweep, h.quote, ?_⟩
  have hreturn : ∃ B', book m' = { book t₂ with bank := B' } ∧
      Pays env.self t₂.store.usdcToken
        (if compound then [] else yieldPayment provider credited.owed)
        t₂.bank B' := by
    rcases h.pay with ⟨u, hnot, hpay⟩ | ⟨hcompound, rfl⟩
    · obtain ⟨B', rfl, hpays⟩ := payOutYield_ok hpay
      refine ⟨B', rfl, ?_⟩
      cases compound with
      | false => exact hpays
      | true =>
          rw [yieldPayment, if_neg (not_lt.mpr (hnot rfl))] at hpays
          exact hpays
    · refine ⟨m'.bank, rfl, .inl ⟨?_, rfl⟩⟩
      rw [hcompound]
      rfl
  obtain ⟨B', hbook', hpays⟩ := hreturn
  have htoken : t₂.store.usdcToken = t.store.usdcToken :=
    (congrArg Book.usdcToken hbook₂).trans (congrArg Book.usdcToken hbook₁)
  have hbank : t₂.bank = B :=
    (congrArg Book.bank hbook₂).trans (congrArg Book.bank hbook₁)
  rw [htoken, hbank, hcredited] at hpays
  have hstored : book
      { store := (t₁.store.setPosition provider credited.position).withTotals
          (t.store.totalDeposited + amount)
          (t.store.totalShares + minted + burnShares)
        bank := t₁.bank } =
      { book t₁ with
        lpPosition := (book t₁).setPosition provider credited.position
        totalDeposited := t.store.totalDeposited + amount
        totalShares := t.store.totalShares + minted + burnShares } := rfl
  rw [hbook', hbook₂, hstored, hbook₁, hcredited]
  exact Change.mint (b := book t) h.mints husdc hB hbalance hpays

theorem creditTransfer_ok {recipient : Address} {shares amount : ℤ}
    {p : LpPosition}
    (h : creditTransfer env recipient shares amount m = .ok (p, m')) :
    p = ((book m).increased env.now recipient shares amount none).position ∧
      ∃ B, Pays env.self m.store.usdcToken
          (yieldPayment recipient
            ((book m).increased env.now recipient shares amount none).owed)
          m.bank B ∧
        book m' =
          { book m with
            lpPosition := (book m).setPosition recipient p
            bank := B } := by
  unfold creditTransfer at h
  simp only [bind_ok, load_ok] at h
  obtain ⟨s, t, ⟨hs, ht⟩, h⟩ := h
  rw [hs, ht] at h
  have hbook : (book m).lpPosition recipient = m.store.lpPosition recipient :=
    rfl
  cases hp : m.store.lpPosition recipient with
  | none =>
      rw [hp] at h hbook
      simp at h
      obtain ⟨_, t', hregister, debt, hdebt, rfl, rfl⟩ := h
      have hsame := registerProvider_book hregister
      have howed : ((book m).increased env.now recipient shares amount
          none).owed = 0 := by
        rw [increased, hbook]
      refine ⟨?_, m.bank, .inl ⟨?_, rfl⟩, ?_⟩
      · rw [increased, hbook, yieldDebt_ok hdebt]
        rfl
      · rw [howed]
        rfl
      · have hstored : ∀ p, book
            { store := t'.store.setPosition recipient p, bank := t'.bank } =
            { book t' with
              lpPosition := (book t').setPosition recipient p } :=
          fun _ => rfl
        rw [hstored, hsame]
        rfl
  | some q =>
      rw [hp] at h hbook
      simp at h
      obtain ⟨settled, hsettled, -, -, debt, hdebt, ⟨_, hpay⟩, rfl⟩ := h
      obtain ⟨B, rfl, hpays⟩ := payOutYield_ok hpay
      have hcredit : (book m).increased env.now recipient shares amount none =
          { owed := settled.owed
            position :=
              { settled.position with
                deposited := settled.position.deposited + amount
                shares := settled.position.shares + shares
                yieldDebt := debt } } := by
        rw [increased, hbook, yieldDebt_ok hdebt, settleYield_ok hsettled]
        simp only [settled_shares]
        rfl
      rw [hcredit]
      exact ⟨rfl, B, hpays, rfl⟩

/-- What a position receives depends on its own entry and the accumulator. -/
theorem increased_congr {b b' : Book} {now : ℕ} {a : Address}
    {shares amount : ℤ} {compound : Option Bool}
    (hposition : b'.lpPosition a = b.lpPosition a)
    (hacc : b'.accumulatedPerShare = b.accumulatedPerShare)
    (hshares : b'.totalShares = b.totalShares) :
    b'.increased now a shares amount compound =
      b.increased now a shares amount compound := by
  unfold increased settled debtOf
  rw [hposition, hacc, hshares]

/-- An accepted transfer: what it checked in `m`, the machine `t` once the
sender's position is reduced and its yield paid, the position it credited, and
the machine `t₁` after that. -/
structure Transfers (env : Env) (sender recipient : Address)
    (shares amount : ℤ) (p received : LpPosition)
    (m t t₁ m' : Machine State) : Prop where
  distinct : sender ≠ recipient
  outsider : m.store.admin ≠ some recipient
  found : m.store.lpPosition sender = some p
  pos : 0 < shares
  held : shares ≤ p.shares
  valued : amount = (shares * p.deposited).tdiv p.shares
  range : InI128 amount
  nonzero : amount ≠ 0
  sent : t.store =
    (m.store.setPosition sender
      ((book m).reduced env.now p shares amount)).updateLpNft sender
        ((book m).reduced env.now p shares amount)
  pays : Pays env.self m.store.usdcToken
    (yieldPayment sender ((book m).settled env.now p).owed) m.bank t.bank
  credit : creditTransfer env recipient shares amount t = .ok (received, t₁)
  record : ∃ category u, m.store.category = some category ∧
    recordNft env recipient (m.store.lpPosition recipient).isNone category
      received t₁ = .ok (u, m')

theorem transferPosition_ok {sender recipient : Address} {shares amount : ℤ}
    (h : transferPosition env sender recipient shares m = .ok (amount, m')) :
    ∃ p received t t₁, Transfers env sender recipient shares amount p received
      m t t₁ m' := by
  simp [transferPosition, requireNotAdmin, assertActive] at h
  obtain ⟨-, hpos, hne, hother, -, p, hfound, hheld, ⟨-, -, hrange⟩, hamount,
    settled, hsettled, -, debt, hdebt, _, t, hnft, _, t', hpay, received, t₁,
    hcredit, category, hcategory, ⟨u, hrecord⟩, rfl⟩ := h
  obtain rfl := settleYield_ok hsettled
  obtain rfl := yieldDebt_ok hdebt
  simp only [updateLpNft, update_ok, settled_shares] at hnft
  obtain ⟨B, rfl, hpays⟩ := payOutYield_ok hpay
  have hbook : book t = { book m with
      lpPosition :=
        (book m).setPosition sender
          ((book m).reduced env.now p shares
            ((shares * p.deposited).tdiv p.shares)) } := by
    rw [hnft, updateLpNft_book]
    rfl
  have htoken : t.store.usdcToken = m.store.usdcToken :=
    congrArg Book.usdcToken hbook
  have hbank : t.bank = m.bank := congrArg Book.bank hbook
  rw [htoken, hbank] at hpays
  exact ⟨p, received, { t with bank := B }, t₁,
    { distinct := hne
      outsider := hother
      found := hfound
      pos := hpos
      held := hheld
      valued := rfl
      range := hrange
      nonzero := hamount
      sent := congrArg Machine.store hnft
      pays := hpays
      credit := hcredit
      record := ⟨category, u, hcategory, hrecord⟩ }⟩

theorem transferPosition_change {sender recipient : Address}
    {shares amount : ℤ}
    (h : transferPosition env sender recipient shares m = .ok (amount, m')) :
    Change env (.move sender recipient shares) (book m) (book m') := by
  obtain ⟨p, received, t, t₁, h⟩ := transferPosition_ok h
  obtain ⟨category, u, -, hrecord⟩ := h.record
  obtain ⟨hreceived, B, hpays, hbook⟩ := creditTransfer_ok h.credit
  have hsent : book t =
      { book m with
        lpPosition :=
          (book m).setPosition sender
            ((book m).reduced env.now p shares amount)
        bank := t.bank } := by
    let q := (book m).reduced env.now p shares amount
    have hsame : book ⟨(m.store.setPosition sender q).updateLpNft sender q,
        t.bank⟩ = book ⟨m.store.setPosition sender q, t.bank⟩ :=
      updateLpNft_book _ _ q
    rw [← h.sent] at hsame
    exact hsame
  have hsame : (book t).increased env.now recipient shares amount none =
      (book m).increased env.now recipient shares amount none := by
    have hacc : t.store.accumulatedPerShare = m.store.accumulatedPerShare :=
      congrArg Book.accumulatedPerShare hsent
    have htotal : t.store.totalShares = m.store.totalShares :=
      congrArg Book.totalShares hsent
    refine increased_congr ?_ hacc htotal
    refine (congrArg (fun b => Book.lpPosition b recipient) hsent).trans ?_
    exact Function.update_of_ne (Ne.symm h.distinct) _ _
  have htoken : t.store.usdcToken = m.store.usdcToken :=
    congrArg Book.usdcToken hsent
  rw [hsame] at hreceived hpays
  rw [htoken] at hpays
  rw [recordNft_book hrecord, hbook, hsent, hreceived]
  exact .move h.distinct h.found h.pos h.held h.valued h.nonzero
    (h.pays.append hpays)

theorem toggleCompound_change {enabled : Bool} {u : Unit}
    (h : toggleCompound env provider enabled m = .ok (u, m')) :
    Change env (.toggle provider) (book m) (book m') := by
  simp [toggleCompound] at h
  obtain ⟨-, p, hfound, rfl⟩ := h
  exact .toggle hfound

end Parashield.RiskPool
