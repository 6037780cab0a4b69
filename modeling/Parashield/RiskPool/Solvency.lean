import Parashield.RiskPool.Soundness

/-!
# Risk pool: token solvency

The pool should hold at least the recorded deposits and the yield its
providers can still claim.  Three kinds of calls break this: premiums are
forwarded without being taken off anything, a reinsurance recovery is credited
as reported and not as received, and each recount of a position rounds its
yield debt down.  What a call costs in this way is a function of the state
before it, and the pool stays solvent along every run whose calls are covered
by the surplus it holds.
-/

namespace Parashield.RiskPool

open Support Support.Contract Invocation

namespace Book

/-- The tokens of the pool cover the deposits and all earned yield, with
`spare` left in units of `1 / perShareScale`. -/
def Covers (self : Address) (spare : ℤ) (b : Book) : Prop :=
  match b.usdcToken with
  | none => spare ≤ 0
  | some usdc =>
      Capped b.claim
        (perShareScale * (b.bank.balance usdc self - b.totalDeposited) - spare)

/-- What counting the position of `a` anew, with `n` shares and a payment of
`paid`, adds to the claims by rounding. -/
def rebaseCost (b : Book) (a : Address) (paid n : ℤ) : ℤ :=
  Yield.rounding perShareScale b.accumulatedPerShare (b.account a) paid n

/-- What a change takes from the surplus of the pool. -/
def Kind.cost (b : Book) : Kind → ℤ
  | .burn provider shares _ =>
      b.rebaseCost provider (b.pending provider) (b.held provider - shares)
  | .mint provider newShares compound =>
      b.rebaseCost provider (if compound then 0 else b.pending provider)
        (b.held provider + newShares)
  | .move sender recipient shares =>
      b.rebaseCost sender (b.pending sender) (b.held sender - shares) +
        b.rebaseCost recipient (b.pending recipient)
          (b.held recipient + shares)
  | .forward amount => perShareScale * amount
  | .recover recovered paid => perShareScale * (recovered - paid)
  | _ => 0

section Covering

variable {env : Env} {b b' : Book} {self usdc : Address} {c r : ℤ}

theorem Covers.mono {spare spare' : ℤ} (h : Covers self spare b)
    (hle : spare' ≤ spare) : Covers self spare' b := by
  unfold Covers at *
  split at h
  · omega
  · exact h.mono (by omega)

theorem covers_iff (h : b.usdcToken = some usdc) :
    Covers self r b ↔ Capped b.claim
      (perShareScale * (b.bank.balance usdc self - b.totalDeposited) - r) := by
  simp only [Covers, h]

/-- One claim changes by no more than the tokens and the surplus pay for. -/
theorem Covers.replace (h : Covers self (c + r) b)
    (htoken : b.usdcToken = some usdc) (htoken' : b'.usdcToken = some usdc)
    {a : Address} {v : ℤ} (hclaim : b'.claim = Function.update b.claim a v)
    (hv : 0 ≤ v)
    (hmoney : v - b.claim a ≤ c + perShareScale *
      ((b'.bank.balance usdc self - b'.totalDeposited) -
        (b.bank.balance usdc self - b.totalDeposited))) :
    Covers self r b' := by
  rw [covers_iff htoken] at h
  rw [covers_iff htoken', hclaim]
  refine (h.update a hv).mono ?_
  rw [mul_sub] at hmoney
  omega

/-- The claims do not grow. -/
theorem Covers.keep (h : Covers self (c + r) b)
    (htoken : b.usdcToken = some usdc) (htoken' : b'.usdcToken = some usdc)
    (hclaim : ∀ x, b'.claim x ≤ b.claim x)
    (hmoney : 0 ≤ c + perShareScale *
      ((b'.bank.balance usdc self - b'.totalDeposited) -
        (b.bank.balance usdc self - b.totalDeposited))) :
    Covers self r b' := by
  rw [covers_iff htoken] at h
  rw [covers_iff htoken']
  refine (h.of_le hclaim).mono ?_
  rw [mul_sub] at hmoney
  omega

/-! ### Payments -/

theorem yieldPayment_sum (a : Address) (owed : ℤ) :
    ((yieldPayment a owed).map Prod.snd).sum = max 0 owed := by
  unfold yieldPayment
  split
  · next hpos =>
      simp only [List.map_cons, List.map_nil, List.sum_cons, List.sum_nil]
      omega
  · next hneg =>
      simp only [List.map_nil, List.sum_nil]
      omega

theorem pays_balance {payments : List (Address × ℤ)} {B B' : Bank}
    (h : Pays self (some usdc) payments B B') :
    (B.balance usdc self : ℤ) ≤
      B'.balance usdc self + (payments.map Prod.snd).sum := by
  rcases h with ⟨rfl, rfl⟩ | ⟨usdc', htoken, hall⟩
  · simp
  · obtain rfl := Option.some.inj htoken
    exact Bank.payAll_balance hall

theorem redeemPayments_sum (b : Book) (now : ℕ) (provider : Address)
    (shares : ℤ) (p : LpPosition) (joint : Bool) :
    ((b.redeemPayments now provider shares p joint).map Prod.snd).sum ≤
      b.redeemed shares + max 0 (b.settled now p).owed := by
  cases joint with
  | true =>
      simp only [redeemPayments, if_true, List.map_cons, List.map_nil,
        List.sum_cons, List.sum_nil]
      omega
  | false =>
      simp only [redeemPayments, Bool.false_eq_true, if_false, List.map_cons,
        List.sum_cons, yieldPayment_sum, le_refl]

/-! ### What each change costs -/

theorem Change.covers_burn {provider : Address} {shares : ℤ} {joint : Bool}
    (hb : Sound b) (h : Change env (.burn provider shares joint) b b')
    (hcovers :
      Covers env.self ((Kind.burn provider shares joint).cost b + r) b) :
    Covers env.self r b' := by
  cases h with
  | @burn _ _ _ p _ B h hpays =>
      obtain ⟨usdc, htoken⟩ := hb.token h.found
      rw [htoken] at hpays
      have hbalance := pays_balance hpays
      have hsum :=
        redeemPayments_sum b env.now provider shares p joint
      have howed := hb.settled_owed_le env.now h.found
      have haccount := hb.reduced_account env.now (b.redeemed shares) h.held
      have hmoney := mul_le_mul_of_nonneg_left
        (show -b.pending provider ≤
          (B.balance usdc env.self - (b.totalDeposited - b.redeemed shares)) -
            (b.bank.balance usdc env.self - b.totalDeposited) by omega)
        perShareScale_pos.le
      refine hcovers.replace htoken htoken
        (claim_update (account_update rfl) rfl) Yield.claim_nonneg ?_
      rw [haccount, Yield.claim_rebased perShareScale_pos]
      rw [mul_neg] at hmoney
      simp only [Kind.cost, rebaseCost, Yield.rounding, claim,
        held_of_position h.found]
      linarith

theorem Change.covers_mint {provider : Address} {newShares : ℤ}
    {compound : Bool} (hb : Sound b)
    (h : Change env (.mint provider newShares compound) b b')
    (hcovers :
      Covers env.self ((Kind.mint provider newShares compound).cost b + r) b) :
    Covers env.self r b' := by
  cases h with
  | @mint _ _ amount _ burnShares _ usdc B B' h htoken _ hreceived hpays =>
      have hnew := h.shares_ge
      unfold minShares at hnew
      rw [htoken] at hpays
      have hbalance := pays_balance hpays
      have howed := hb.increased_owed_le env.now provider newShares amount
        (some compound)
      have haccount := hb.increased_account env.now provider amount
        (some compound) (show 0 ≤ newShares by omega)
      have hpaid : -(if compound then 0 else b.pending provider) ≤
          (B'.balance usdc env.self - (b.totalDeposited + amount)) -
            (b.bank.balance usdc env.self - b.totalDeposited) := by
        cases compound with
        | true =>
            simp only [if_true, List.map_nil, List.sum_nil] at hbalance ⊢
            omega
        | false =>
            simp only [Bool.false_eq_true, if_false,
              yieldPayment_sum] at hbalance ⊢
            omega
      have hmoney := mul_le_mul_of_nonneg_left hpaid perShareScale_pos.le
      refine hcovers.replace htoken htoken
        (claim_update (account_update rfl) rfl) Yield.claim_nonneg ?_
      rw [haccount, Yield.claim_rebased perShareScale_pos]
      rw [mul_neg] at hmoney
      simp only [Kind.cost, rebaseCost, Yield.rounding, claim]
      linarith

theorem Change.covers_move {sender recipient : Address} {shares : ℤ}
    (hb : Sound b) (h : Change env (.move sender recipient shares) b b')
    (hcovers :
      Covers env.self ((Kind.move sender recipient shares).cost b + r) b) :
    Covers env.self r b' := by
  cases h with
  | @move _ _ _ _ amount p B hne hfound hpos hheld _ _ hpays =>
      obtain ⟨usdc, htoken⟩ := hb.token hfound
      rw [htoken] at hpays
      have hbalance := pays_balance hpays
      rw [List.map_append, List.sum_append, yieldPayment_sum,
        yieldPayment_sum] at hbalance
      have howed := hb.settled_owed_le env.now hfound
      have howed' := hb.increased_owed_le env.now recipient shares amount none
      have hsender := hb.reduced_account env.now amount hheld
      have hrecipient :=
        hb.increased_account env.now recipient amount none hpos.le
      have hmoney := mul_le_mul_of_nonneg_left
        (show -(b.pending sender + b.pending recipient) ≤
          (B.balance usdc env.self - b.totalDeposited) -
            (b.bank.balance usdc env.self - b.totalDeposited) by omega)
        perShareScale_pos.le
      rw [mul_neg, mul_add] at hmoney
      have hclaim₁ : claim { b with
          lpPosition :=
            b.setPosition sender (b.reduced env.now p shares amount) } =
          Function.update b.claim sender
            (Yield.claim perShareScale b.accumulatedPerShare
              (b.reduced env.now p shares amount).account) :=
        claim_update (account_update rfl) rfl
      have hclaim₂ : claim { b with
          lpPosition :=
            Function.update
              (b.setPosition sender (b.reduced env.now p shares amount))
              recipient
              (some (b.increased env.now recipient shares amount
                none).position)
          bank := B } =
          Function.update
            (claim { b with
              lpPosition :=
                b.setPosition sender (b.reduced env.now p shares amount) })
            recipient
            (Yield.claim perShareScale b.accumulatedPerShare
              (b.increased env.now recipient shares amount
                none).position.account) :=
        claim_update (account_update rfl) rfl
      have hcapped := (covers_iff htoken).mp hcovers
      rw [covers_iff (b := { b with
        lpPosition := _
        bank := B }) htoken, hclaim₂, hclaim₁, hsender, hrecipient]
      refine ((hcapped.update sender Yield.claim_nonneg).update recipient
        Yield.claim_nonneg).mono ?_
      rw [Function.update_of_ne (Ne.symm hne),
        Yield.claim_rebased perShareScale_pos,
        Yield.claim_rebased perShareScale_pos]
      simp only [Kind.cost, rebaseCost, Yield.rounding, claim,
        held_of_position hfound]
      linarith

theorem Change.covers_collect {provider : Address} (hb : Sound b)
    (h : Change env (.collect provider) b b') (hcovers : Covers env.self r b) :
    Covers env.self r b' := by
  cases h with
  | @collect _ _ p B hfound hpos hpays =>
      obtain ⟨usdc, htoken⟩ := hb.token hfound
      rw [htoken] at hpays
      have hbalance := pays_balance hpays
      simp only [List.map_cons, List.map_nil, List.sum_cons,
        List.sum_nil] at hbalance
      have hclaim := hb.settled_claim hfound hpos
      have hmoney := mul_le_mul_of_nonneg_left
        (show -(b.settled env.now p).owed ≤
          (B.balance usdc env.self - b.totalDeposited) -
            (b.bank.balance usdc env.self - b.totalDeposited) by omega)
        perShareScale_pos.le
      rw [← zero_add r] at hcovers
      refine hcovers.replace htoken htoken
        (claim_update (account_update rfl) rfl) Yield.claim_nonneg ?_
      rw [mul_neg] at hmoney
      linarith

theorem Change.covers_accrue {lpShare : ℤ} (hb : Sound b)
    (henv : env.self ∉ env.signers) (h : Change env (.accrue lpShare) b b')
    (hcovers : Covers env.self r b) : Covers env.self r b' := by
  cases h with
  | @accrue _ caller usdc treasury backstop amount _ B B' hpos hauth htoken
      htransfer hall hshare =>
      subst hshare
      have hcaller : caller ≠ env.self := fun heq => henv (heq ▸ hauth)
      have hreceived := Bank.transfer_balance_recipient htransfer hcaller
      have hpaid := Bank.payAll_balance hall
      simp only [List.map_cons, List.map_nil, List.sum_cons,
        List.sum_nil] at hpaid
      obtain ⟨hlp, htreas, hbackstop⟩ := hb.split_nonneg
      obtain ⟨hlpShare, hlpPart⟩ := premiumPart_nonneg hpos.le hlp
      obtain ⟨-, htreasPart⟩ := premiumPart_nonneg hpos.le htreas
      obtain ⟨-, hbackstopPart⟩ := premiumPart_nonneg hpos.le hbackstop
      have hwhole : amount * b.premiumSplit.lpBps +
          amount * b.premiumSplit.treasBps +
          amount * b.premiumSplit.backstopBps = amount * 10000 := by
        rw [← hb.split_sum]
        ring
      obtain ⟨hincrement, hspread⟩ := increment_bounds (b := b) hlpShare
      -- What the premium adds to the claims is at most what stays here.
      have hmoney := mul_le_mul_of_nonneg_left
        (show (amount * b.premiumSplit.lpBps).tdiv 10000 ≤
          B'.balance usdc env.self - b.bank.balance usdc env.self by omega)
        perShareScale_pos.le
      have hcapped := (covers_iff htoken).mp hcovers
      rw [covers_iff (b := { b with
        accumulatedPerShare := _
        bank := B' }) htoken]
      refine (hcapped.add_mul hb.issued hincrement ?_).mono ?_
      · intro x
        exact Yield.claim_accrue (hb.accounts x).1 hincrement
      · rw [mul_sub] at hmoney ⊢
        rw [mul_sub]
        linarith

theorem Change.covers_forward {amount : ℤ}
    (h : Change env (.forward amount) b b')
    (hcovers : Covers env.self ((Kind.forward amount).cost b + r) b) :
    Covers env.self r b' := by
  cases h with
  | @forward _ usdc account _ B _ htoken hall =>
      have hpaid := Bank.payAll_balance hall
      simp only [List.map_cons, List.map_nil, List.sum_cons,
        List.sum_nil] at hpaid
      have hmoney := mul_le_mul_of_nonneg_left
        (show -amount ≤ (B.balance usdc env.self - b.totalDeposited) -
          (b.bank.balance usdc env.self - b.totalDeposited) by omega)
        perShareScale_pos.le
      refine hcovers.keep htoken htoken (fun _ => le_rfl) ?_
      rw [mul_neg] at hmoney
      simp only [Kind.cost]
      linarith

theorem Change.covers_recover {recovered paid : ℤ}
    (h : Change env (.recover recovered paid) b b')
    (hcovers : Covers env.self ((Kind.recover recovered paid).cost b + r) b) :
    Covers env.self r b' := by
  cases h with
  | @recover _ usdc reinsurer _ _ B hne _ _ htoken htransfer =>
      have hreceived := Bank.transfer_balance_recipient htransfer hne
      refine hcovers.keep htoken htoken (fun _ => le_rfl) ?_
      simp only [Kind.cost, hreceived]
      refine le_of_eq ?_
      ring

theorem Change.covers_adminWithdraw {amount : ℤ} (hb : Sound b)
    (h : Change env (.adminWithdraw amount) b b')
    (hcovers : Covers env.self r b) : Covers env.self r b' := by
  cases h with
  | @adminWithdraw _ usdc treasury _ B hle htoken hall =>
      have hpaid := Bank.payAll_balance hall
      simp only [List.map_cons, List.map_nil, List.sum_cons,
        List.sum_nil] at hpaid
      obtain ⟨_, htransfer, -⟩ := Bank.payAll_cons_eq_some.mp hall
      obtain ⟨hpos, -⟩ := Bank.transfer_eq_some htransfer
      have hlocked := hb.locked_nonneg
      have hrange := hb.deposited_range
      rw [hb.available_eq] at hle
      have hleft : satI128 (b.totalDeposited - amount) =
          b.totalDeposited - amount := by
        refine satI128_eq ?_
        unfold InI128 at hrange ⊢
        omega
      have hmoney := mul_nonneg perShareScale_pos.le
        (show 0 ≤ (B.balance usdc env.self - (b.totalDeposited - amount)) -
          (b.bank.balance usdc env.self - b.totalDeposited) by omega)
      rw [← zero_add r] at hcovers
      refine hcovers.keep htoken htoken (fun _ => le_rfl) ?_
      simp only [hleft]
      linarith

theorem Change.covers_liquidate {provider : Address} {seized : ℤ}
    (hb : Sound b) (h : Change env (.liquidate provider seized) b b')
    (hcovers : Covers env.self r b) : Covers env.self r b' := by
  cases h with
  | @liquidate _ _ p bps _ h =>
      obtain ⟨usdc, htoken⟩ := hb.token h.found
      obtain ⟨q, haccount, hq, hle, -, hdebt⟩ :=
        h.account_left hb (show Book.lpPosition { b with
          lpPosition := Function.update b.lpPosition provider
            (if (b.seizedPosition p seized).shares ≤ 0 then none
              else some (b.seizedPosition p seized))
          totalShares := satI128 (b.totalShares - seized)
          totalDeposited := satI128 (b.totalDeposited - b.recovered seized) } =
          _ from rfl)
      obtain ⟨hnonneg, hrecovered⟩ := h.recovered_bounds hb
      have hleft : satI128 (b.totalDeposited - b.recovered seized) =
          b.totalDeposited - b.recovered seized := by
        refine satI128_eq ?_
        have hrange := hb.deposited_range
        unfold InI128 at hrange ⊢
        omega
      have hclaim := h.claim_left hb hle hdebt
      have hmoney := mul_nonneg perShareScale_pos.le
        (show 0 ≤ (b.bank.balance usdc env.self -
            (b.totalDeposited - b.recovered seized)) -
          (b.bank.balance usdc env.self - b.totalDeposited) by omega)
      rw [← zero_add r] at hcovers
      refine hcovers.replace htoken htoken (claim_update haccount rfl)
        Yield.claim_nonneg ?_
      simp only [hleft]
      linarith

/-- No change takes more from the surplus than it costs. -/
theorem Change.covers {k : Kind} (hb : Sound b)
    (henv : env.self ∉ env.signers) (h : Change env k b b')
    (hcovers : Covers env.self (k.cost b + r) b) (hk : k = .wire → r ≤ 0) :
    Covers env.self r b' := by
  have hfree : Covers env.self (0 + r) b → Covers env.self r b := by
    rw [zero_add]
    exact id
  cases k with
  | burn => exact h.covers_burn hb hcovers
  | mint => exact h.covers_mint hb hcovers
  | move => exact h.covers_move hb hcovers
  | forward => exact h.covers_forward hcovers
  | recover => exact h.covers_recover hcovers
  | collect => exact h.covers_collect hb (hfree hcovers)
  | accrue => exact h.covers_accrue hb henv (hfree hcovers)
  | adminWithdraw => exact h.covers_adminWithdraw hb (hfree hcovers)
  | liquidate => exact h.covers_liquidate hb (hfree hcovers)
  | lock =>
      cases h
      exact hfree hcovers
  | release =>
      cases h
      exact hfree hcovers
  | resplit =>
      cases h
      exact hfree hcovers
  | enqueue =>
      cases h
      exact hfree hcovers
  | clear =>
      cases h
      exact hfree hcovers
  | toggle provider =>
      cases h with
      | @toggle _ _ p enabled hfound =>
          obtain ⟨usdc, htoken⟩ := hb.token hfound
          refine hcovers.keep htoken htoken ?_ ?_
          · intro x
            simp only [claim, account_toggle hfound, le_refl]
          · simp only [Kind.cost, sub_self, mul_zero, add_zero, le_refl]
  | wire =>
      cases h with
      | @wire _ usdc hfresh =>
          obtain ⟨-, -, -, -, hempty, -⟩ :=
            hb.unwired (hb.uninitialized hfresh)
          have hr := hk rfl
          rw [covers_iff (show Book.usdcToken { b with
            initialized := true
            usdcToken := some usdc
            totalDeposited := 0
            totalLocked := 0
            totalShares := 0
            accumulatedPerShare := 0 } = some usdc from rfl)]
          intro F
          have hzero : ∀ x ∈ F, claim { b with
              initialized := true
              usdcToken := some usdc
              totalDeposited := 0
              totalLocked := 0
              totalShares := 0
              accumulatedPerShare := 0 } x = 0 := by
            intro x _
            simp [claim, account, hempty x, Yield.claim]
          rw [Finset.sum_eq_zero hzero]
          have hbalance := mul_nonneg perShareScale_pos.le
            (Int.natCast_nonneg (b.bank.balance usdc env.self))
          simp only [sub_zero]
          omega

end Covering

end Book

end Parashield.RiskPool
