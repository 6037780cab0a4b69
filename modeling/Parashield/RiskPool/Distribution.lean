import Parashield.RiskPool.Earnings

/-!
# Risk pool: yield against premiums

Counts, along a run, the LP shares of the premiums received, the yield credited
to each provider, and how often each share count changed.  Credited and pending
yield together exceed the premiums by less than one token unit for every change
of a share count, because each of them rounds the yield debt down.
-/

namespace Parashield.RiskPool

open Support Support.Contract Invocation Book

namespace Book

/-- The position of `a` in `b'` is the one in `b`. -/
structure Steady (b b' : Book) (a : Address) : Prop where
  acc : b'.accumulatedPerShare = b.accumulatedPerShare
  account : b'.account a = b.account a
  claimed : b'.yieldClaimed a = b.yieldClaimed a

/-- The position of `a` was counted anew between `b` and `b'`, with at most the
pending yield credited. -/
structure Recounted (b b' : Book) (a : Address) : Prop where
  acc : b'.accumulatedPerShare = b.accumulatedPerShare
  account : b'.account a =
    Yield.rebased perShareScale b.accumulatedPerShare (b'.held a)
  claimed : b'.yieldClaimed a ≤ b.yieldClaimed a + b.pending a

/-- Nothing happened to `a`, or it lost shares. -/
def Shrunk (b b' : Book) (a : Address) : Prop :=
  Steady b b' a ∨ (Recounted b b' a ∧ b'.held a < b.held a)

/-- Yield the position of `a` records as claimed in `b'` and not in `b`. -/
def newlyClaimed (b b' : Book) (a : Address) : ℤ :=
  match b'.lpPosition a with
  | some p => p.yieldClaimed - b.yieldClaimed a
  | none => 0

/-- What was credited to `a` and what it can still claim grow by at most the
rounding of one recount, and only if its share count changed. -/
def Earned (b b' : Book) (a : Address) : Prop :=
  perShareScale * newlyClaimed b b' a + b'.claim a ≤
    b.claim a + (perShareScale - 1) * if b'.held a = b.held a then 0 else 1

section Relations

variable {b b' b'' : Book} {a : Address}

theorem newlyClaimed_le :
    newlyClaimed b b' a ≤ max 0 (b'.yieldClaimed a - b.yieldClaimed a) := by
  unfold newlyClaimed
  cases h : b'.lpPosition a with
  | none => exact le_max_left _ _
  | some p =>
      rw [yieldClaimed_of_position h]
      exact le_max_right _ _

theorem newlyClaimed_of_position {p : LpPosition}
    (h : b'.lpPosition a = some p) :
    newlyClaimed b b' a = p.yieldClaimed - b.yieldClaimed a := by
  simp only [newlyClaimed, h]

theorem Steady.of_position
    (hacc : b'.accumulatedPerShare = b.accumulatedPerShare)
    (h : b'.lpPosition a = b.lpPosition a) : Steady b b' a where
  acc := hacc
  account := by simp only [Book.account, h]
  claimed := yieldClaimed_congr h

theorem Steady.held (h : Steady b b' a) : b'.held a = b.held a := by
  simp only [Book.held, h.account]

theorem Steady.pending (h : Steady b b' a) : b'.pending a = b.pending a := by
  simp only [Book.pending, h.account, h.acc]

theorem Steady.trans (h : Steady b b' a) (h' : Steady b' b'' a) :
    Steady b b'' a where
  acc := h'.acc.trans h.acc
  account := h'.account.trans h.account
  claimed := h'.claimed.trans h.claimed

theorem Recounted.steady (h : Recounted b b' a) (h' : Steady b' b'' a) :
    Recounted b b'' a where
  acc := h'.acc.trans h.acc
  account := by rw [h'.account, h'.held, h.account]
  claimed := by
    rw [h'.claimed]
    exact h.claimed

theorem Steady.recounted (h : Steady b b' a) (h' : Recounted b' b'' a) :
    Recounted b b'' a where
  acc := h'.acc.trans h.acc
  account := by rw [h'.account, h.acc]
  claimed := by
    have hclaimed := h'.claimed
    rwa [h.claimed, h.pending] at hclaimed

/-- Right after a recount nothing is pending. -/
theorem Recounted.pending_eq (h : Recounted b b' a) : b'.pending a = 0 := by
  have hacc := h.acc
  unfold Book.pending
  rw [h.account, hacc]
  simp only [Yield.pending, Yield.rebased, sub_self, max_self]

theorem Recounted.trans (h : Recounted b b' a) (h' : Recounted b' b'' a) :
    Recounted b b'' a where
  acc := h'.acc.trans h.acc
  account := by rw [h'.account, h.acc]
  claimed := by
    have hclaimed := h'.claimed
    rw [h.pending_eq, add_zero] at hclaimed
    exact hclaimed.trans h.claimed

theorem Shrunk.trans (h : Shrunk b b' a) (h' : Shrunk b' b'' a) :
    Shrunk b b'' a := by
  rcases h with hsteady | ⟨hrecounted, hless⟩
  · rcases h' with hsteady' | ⟨hrecounted', hless'⟩
    · exact .inl (hsteady.trans hsteady')
    · refine .inr ⟨hsteady.recounted hrecounted', ?_⟩
      rwa [hsteady.held] at hless'
  · rcases h' with hsteady' | ⟨hrecounted', hless'⟩
    · refine .inr ⟨hrecounted.steady hsteady', ?_⟩
      rwa [hsteady'.held]
    · exact .inr ⟨hrecounted.trans hrecounted', hless'.trans hless⟩

theorem Earned.of_le (hclaimed : newlyClaimed b b' a ≤ 0)
    (hclaim : b'.claim a ≤ b.claim a) : Earned b b' a := by
  have hscaled := mul_le_mul_of_nonneg_left hclaimed perShareScale_pos.le
  have hrounding : 0 ≤ (perShareScale - 1) *
      if b'.held a = b.held a then 0 else 1 := by
    refine mul_nonneg (by decide) ?_
    split <;> decide
  unfold Earned
  omega

theorem Steady.earned (h : Steady b b' a) : Earned b b' a := by
  have hclaim : b'.claim a = b.claim a := by
    simp only [Book.claim, h.account, h.acc]
  refine .of_le (newlyClaimed_le.trans ?_) hclaim.le
  rw [h.claimed, sub_self, max_self]

/-- A recount with another number of shares rounds once. -/
theorem Recounted.earned (h : Recounted b b' a)
    (hne : b'.held a ≠ b.held a) : Earned b b' a := by
  have hpending : 0 ≤ b.pending a := Yield.pending_nonneg
  have hcredited : newlyClaimed b b' a ≤ b.pending a := by
    have hclaimed := h.claimed
    refine newlyClaimed_le.trans ?_
    omega
  have hclaim : b'.claim a ≤ perShareScale - 1 := by
    have hmod := Int.emod_lt_of_pos (b.accumulatedPerShare * b'.held a)
      perShareScale_pos
    have hacc := h.acc
    unfold Book.claim
    rw [h.account, hacc, Yield.claim_rebased perShareScale_pos]
    omega
  have hpaid : perShareScale * b.pending a ≤ b.claim a :=
    Yield.scale_mul_pending_le perShareScale_pos
  have hscaled := mul_le_mul_of_nonneg_left hcredited perShareScale_pos.le
  unfold Earned
  rw [if_neg hne, mul_one]
  omega

theorem Shrunk.earned (h : Shrunk b b' a) : Earned b b' a := by
  rcases h with hsteady | ⟨hrecounted, hless⟩
  · exact hsteady.earned
  · exact hrecounted.earned hless.ne

end Relations

/-! ## Every change -/

section Changes

variable {env : Env} {b b' : Book}

theorem Change.shrunk {provider : Address} {shares : ℤ} {joint : Bool}
    (hb : Sound b) (h : Change env (.burn provider shares joint) b b')
    (a : Address) : Shrunk b b' a := by
  cases h with
  | @burn _ _ _ p _ B hredeems hpays =>
      by_cases ha : a = provider
      · subst ha
        have hheld := hredeems.held
        have hpos := hredeems.pos
        have haccount := hb.reduced_account env.now (b.redeemed shares) hheld
        have howed := hb.settled_owed_le env.now hredeems.found
        have hfound := held_of_position hredeems.found
        right
        refine ⟨⟨rfl, ?_, ?_⟩, ?_⟩
        · rw [account_of_position (Function.update_self ..), held,
            account_of_position (Function.update_self ..), haccount]
          rfl
        · rw [yieldClaimed_of_position hredeems.found,
            yieldClaimed_of_position (Function.update_self ..)]
          show (b.settled env.now p).position.yieldClaimed ≤ _
          rw [settled_yieldClaimed]
          omega
        · rw [held_of_position (Function.update_self ..), hfound]
          show p.shares - shares < p.shares
          omega
      · exact .inl (.of_position rfl (Function.update_of_ne ha ..))

theorem Change.mint_recounted {provider : Address} {newShares : ℤ}
    {compound : Bool} (hb : Sound b)
    (h : Change env (.mint provider newShares compound) b b') :
    Recounted b b' provider ∧ b.held provider < b'.held provider := by
  cases h with
  | @mint _ _ amount _ burnShares _ usdc _ B' hmints _ _ _ _ =>
      have hnew := hmints.shares_ge
      unfold minShares at hnew
      have haccount := hb.increased_account env.now provider amount
        (some compound) (show 0 ≤ newShares by omega)
      have howed := hb.increased_owed_le env.now provider newShares amount
        (some compound)
      have hheld : held { b with
          lpPosition :=
            b.setPosition provider
              (b.increased env.now provider newShares amount
                (some compound)).position
          totalDeposited := b.totalDeposited + amount
          totalShares := b.totalShares + newShares + burnShares
          bank := B' } provider = b.held provider + newShares := by
        rw [held, account_of_position (Function.update_self ..), haccount]
        rfl
      refine ⟨⟨rfl, ?_, ?_⟩, ?_⟩
      · rw [hheld, account_of_position (Function.update_self ..), haccount]
      · rw [yieldClaimed_of_position (Function.update_self ..),
          increased_yieldClaimed]
        omega
      · rw [hheld]
        omega

theorem Change.mint_steady {provider : Address} {newShares : ℤ}
    {compound : Bool}
    (h : Change env (.mint provider newShares compound) b b') {a : Address}
    (ha : a ≠ provider) : Steady b b' a := by
  cases h
  exact .of_position rfl (Function.update_of_ne ha ..)

theorem Change.earned_move {sender recipient : Address} {shares : ℤ}
    (hb : Sound b) (h : Change env (.move sender recipient shares) b b')
    (a : Address) : Earned b b' a := by
  cases h with
  | @move _ _ _ _ amount p B hne hfound hpos hheld _ _ _ =>
      by_cases hrecipient : a = recipient
      · subst hrecipient
        have haccount := hb.increased_account env.now a amount none hpos.le
        have howed := hb.increased_owed_le env.now a shares amount none
        have hheld' : held { b with
            lpPosition :=
              Function.update
                (b.setPosition sender (b.reduced env.now p shares amount)) a
                (some (b.increased env.now a shares amount none).position)
            bank := B } a = b.held a + shares := by
          rw [held, account_of_position (Function.update_self ..), haccount]
          rfl
        refine Recounted.earned ⟨rfl, ?_, ?_⟩ ?_
        · rw [hheld', account_of_position (Function.update_self ..), haccount]
        · rw [yieldClaimed_of_position (Function.update_self ..),
            increased_yieldClaimed]
          omega
        · rw [hheld']
          omega
      · by_cases hsender : a = sender
        · subst hsender
          have haccount := hb.reduced_account env.now amount hheld
          have howed := hb.settled_owed_le env.now hfound
          have hposition : Function.update
              (b.setPosition a (b.reduced env.now p shares amount)) recipient
              (some (b.increased env.now recipient shares amount
                none).position) a =
              some (b.reduced env.now p shares amount) :=
            (Function.update_of_ne hne ..).trans (Function.update_self ..)
          refine Recounted.earned ⟨rfl, ?_, ?_⟩ ?_
          · rw [account_of_position hposition, held,
              account_of_position hposition, haccount]
            rfl
          · rw [yieldClaimed_of_position hfound,
              yieldClaimed_of_position hposition]
            show (b.settled env.now p).position.yieldClaimed ≤ _
            rw [settled_yieldClaimed]
            omega
          · rw [held_of_position hposition, held_of_position hfound]
            show p.shares - shares ≠ p.shares
            omega
        · exact Steady.earned (.of_position rfl
            ((Function.update_of_ne hrecipient ..).trans
              (Function.update_of_ne hsender ..)))

/-- Claiming turns a claim into credited yield without rounding. -/
theorem Change.earned_collect {provider : Address} (hb : Sound b)
    (h : Change env (.collect provider) b b') (a : Address) :
    Earned b b' a := by
  cases h with
  | @collect _ _ p B hfound hpos hpays =>
      by_cases ha : a = provider
      · subst ha
        have hclaim := hb.settled_claim hfound hpos
        have hposition : b.setPosition a (b.settled env.now p).position a =
            some (b.settled env.now p).position := Function.update_self ..
        unfold Earned
        rw [newlyClaimed_of_position hposition, settled_yieldClaimed,
          yieldClaimed_of_position hfound, add_sub_cancel_left,
          max_eq_right hpos.le, held_of_position hposition,
          held_of_position hfound, settled_shares, if_pos rfl, mul_zero,
          add_zero, claim, account_of_position hposition]
        exact hclaim
      · exact Steady.earned (.of_position rfl (Function.update_of_ne ha ..))

theorem Change.earned_liquidate {provider : Address} {seized : ℤ}
    (hb : Sound b) (h : Change env (.liquidate provider seized) b b')
    (a : Address) : Earned b b' a := by
  cases h with
  | @liquidate _ _ p bps _ h =>
      by_cases ha : a = provider
      · subst ha
        obtain ⟨q, haccount, -, hle, -, hdebt⟩ :=
          h.account_left hb (show Book.lpPosition { b with
            lpPosition := Function.update b.lpPosition a
              (if (b.seizedPosition p seized).shares ≤ 0 then none
                else some (b.seizedPosition p seized))
            totalShares := satI128 (b.totalShares - seized)
            totalDeposited :=
              satI128 (b.totalDeposited - b.recovered seized) } = _ from rfl)
        have hclaim := h.claim_left hb hle hdebt
        have hnothing : newlyClaimed b { b with
            lpPosition := Function.update b.lpPosition a
              (if (b.seizedPosition p seized).shares ≤ 0 then none
                else some (b.seizedPosition p seized))
            totalShares := satI128 (b.totalShares - seized)
            totalDeposited :=
              satI128 (b.totalDeposited - b.recovered seized) } a = 0 := by
          unfold newlyClaimed
          simp only [Function.update_self, yieldClaimed_of_position h.found]
          split_ifs with hempty
          · rfl
          · exact sub_self p.yieldClaimed
        refine .of_le hnothing.le ?_
        rw [claim_update haccount rfl, Function.update_self]
        exact hclaim
      · exact Steady.earned (.of_position rfl (Function.update_of_ne ha ..))

/-- Apart from premiums, no change lets anybody earn more than by rounding. -/
theorem Change.earned {k : Kind} (hb : Sound b) (h : Change env k b b')
    (hk : ∀ lpShare, k ≠ .accrue lpShare) (a : Address) : Earned b b' a := by
  cases k with
  | burn => exact (h.shrunk hb a).earned
  | mint provider =>
      by_cases ha : a = provider
      · subst ha
        obtain ⟨hrecounted, hmore⟩ := h.mint_recounted hb
        exact hrecounted.earned hmore.ne'
      · exact (h.mint_steady ha).earned
  | move => exact h.earned_move hb a
  | collect => exact h.earned_collect hb a
  | liquidate => exact h.earned_liquidate hb a
  | accrue lpShare => exact absurd rfl (hk lpShare)
  | wire =>
      cases h with
      | wire hfresh =>
          have hacc := (hb.unwired (hb.uninitialized hfresh)).2.2.2.1
          exact Steady.earned (.of_position hacc.symm rfl)
  | toggle provider =>
      cases h with
      | @toggle _ _ p enabled hfound =>
          have haccount := congrFun (account_toggle hfound enabled) a
          refine Steady.earned ⟨rfl, haccount, ?_⟩
          by_cases ha : a = provider
          · subst ha
            rw [yieldClaimed_of_position hfound,
              yieldClaimed_of_position (Function.update_self ..)]
          · exact yieldClaimed_congr (Function.update_of_ne ha ..)
  | _ =>
      cases h
      exact Steady.earned (.of_position rfl rfl)

end Changes

end Book

/-! ## Every call -/

section Calls

variable {env : Env} {m : Machine State} {e : Entry} {b b' : Book}

theorem Sweeps.shrunk {n : ℕ} (h : Sweeps env n b b') (hb : Sound b)
    (a : Address) : Shrunk b b' a := by
  induction h with
  | refl => exact .inl ⟨rfl, rfl, rfl⟩
  | clear hsweeps hclear ih =>
      have hsteady : ∀ {c c' : Book} {provider : Address},
          Change env (.clear provider) c c' → Shrunk c c' a := by
        intro c c' provider h
        cases h
        exact .inl (.of_position rfl rfl)
      exact (ih hb).trans (hsteady hclear)
  | burn hsweeps hburn ih =>
      exact (ih hb).trans (hburn.shrunk (hsweeps.sound hb) a)

/-- An accepted call credits and leaves to claim no more than there was before
and one rounding, unless it is a premium. -/
theorem Performs.earned (h : Performs env m e b) (hb : Sound (book m)) :
    (∀ a, Earned (book m) b a) ∨ ∃ lpShare,
      e.kind m.store = some (.accrue lpShare) ∧
        Change env (.accrue lpShare) (book m) b := by
  induction h with
  | idle =>
      left
      intro a
      exact Steady.earned ⟨rfl, rfl, rfl⟩
  | @single e k b hkind hchange =>
      cases k with
      | accrue lpShare => exact .inr ⟨lpShare, hkind, hchange⟩
      | _ => exact .inl fun a => hchange.earned hb nofun a
  | @deposit provider _ _ _ _ _ t _ b hsweep _ hchange =>
      left
      intro a
      have hsound := sweepExpiredExits_sound hb hsweep
      obtain ⟨_, -, hsweeps⟩ := sweepExpiredExits_sweeps hsweep
      by_cases ha : a = provider
      · subst ha
        obtain ⟨hposition, hacc⟩ := sweepExpiredExits_skips hsweep
        have hsteady : Steady (book m) (book t) a :=
          .of_position hacc hposition
        obtain ⟨hrecounted, hmore⟩ := hchange.mint_recounted hsound
        refine (hsteady.recounted hrecounted).earned ?_
        rw [← hsteady.held]
        exact hmore.ne'
      · exact ((hsweeps.shrunk hb a).trans
          (.inl (hchange.mint_steady ha))).earned
  | depositWithToken _ ih => exact ih
  | withdraw hsweep hchange =>
      left
      intro a
      obtain ⟨_, -, hsweeps⟩ := sweepExpiredExits_sweeps hsweep
      exact ((hsweeps.shrunk hb a).trans
        (hchange.shrunk (hsweeps.sound hb) a)).earned
  | requestExit hsweep hchange =>
      left
      intro a
      obtain ⟨_, -, hsweeps⟩ := sweepExpiredExits_sweeps hsweep
      refine ((hsweeps.shrunk hb a).trans (.inl ?_)).earned
      generalize book _ = c at hchange
      cases hchange
      exact .of_position rfl rfl
  | claimExit _ hclear hburn =>
      left
      intro a
      have hshrunk := hburn.shrunk (hclear.sound hb) a
      cases hclear
      exact hshrunk.earned
  | processExpiredExits hsweep =>
      left
      intro a
      obtain ⟨_, -, hsweeps⟩ := sweepExpiredExits_sweeps hsweep
      exact (hsweeps.shrunk hb a).earned

end Calls

/-! ## Metered runs -/

/-- What a run has received for its providers and credited to them. -/
structure Meter where
  premiums : ℤ
  credited : Address → ℤ
  recounts : Address → ℕ

def Meter.zero : Meter where
  premiums := 0
  credited _ := 0
  recounts _ := 0

/-- The LP share of the premium received in a step. -/
def lpPremium (w : World State) : Label Entry → ℤ
  | .call _ (.receivePremium _ amount) =>
      max 0 ((amount * w.machine.store.premiumSplit.lpBps).tdiv 10000)
  | _ => 0

/-- The meter after a step from `w` to `w'`. -/
def Meter.advance (M : Meter) (w : World State) (l : Label Entry)
    (w' : World State) : Meter where
  premiums := M.premiums + lpPremium w l
  credited a :=
    M.credited a + newlyClaimed (book w.machine) (book w'.machine) a
  recounts a :=
    M.recounts a +
      if (book w'.machine).held a = (book w.machine).held a then 0 else 1

/-- Runs of the pool with a meter. -/
def metered (self : Address) :
    TransitionSystem (World State × Meter) (Label Entry) where
  Init x := (system self).Init x.1 ∧ x.2 = .zero
  Step x l x' := (system self).Step x.1 l x'.1 ∧ x'.2 = x.2.advance x.1 l x'.1

/-- The step function behind `metered`. -/
def meteredStep (self : Address) (x : World State × Meter)
    (l : Label Entry) : Option (World State × Meter) :=
  (step exec self x.1 l).map fun w' => (w', x.2.advance x.1 l w')

theorem meteredStep_sound {self : Address} {x x' : World State × Meter}
    {l : Label Entry} (h : meteredStep self x l = some x') :
    (metered self).Step x l x' := by
  obtain ⟨w', hstep, rfl⟩ := Option.map_eq_some_iff.mp h
  exact ⟨step_sound hstep, rfl⟩

/-- The meter only watches: it runs along every run of the pool. -/
theorem exists_metered {self : Address} {w : World State}
    (hw : (system self).Reachable w) :
    ∃ M, (metered self).Reachable (w, M) := by
  induction hw with
  | init h => exact ⟨.zero, .init ⟨h, rfl⟩⟩
  | @step w w' l _ hstep ih =>
      obtain ⟨M, hM⟩ := ih
      exact ⟨M.advance w l w', .step hM ⟨hstep, rfl⟩⟩

theorem reachable_of_metered {self : Address} {x : World State × Meter}
    (hx : (metered self).Reachable x) : (system self).Reachable x.1 := by
  induction hx with
  | init h => exact .init h.1
  | step _ hstep ih => exact .step ih hstep.1

/-- What `a` was credited and can claim, less one rounding for each recount. -/
def Meter.earnings (M : Meter) (b : Book) (a : Address) : ℤ :=
  perShareScale * M.credited a + b.claim a -
    (perShareScale - 1) * M.recounts a

/-- A premium adds at most its LP share to all earnings together. -/
theorem accrue_earnings {M : Meter} {env : Env} {b b' : Book} {lpShare : ℤ}
    (hb : Sound b) (h : Change env (.accrue lpShare) b b')
    (hM : Capped (M.earnings b) (perShareScale * M.premiums)) :
    Capped (M.earnings b') (perShareScale * (M.premiums + lpShare)) := by
  cases h with
  | @accrue _ _ _ _ _ amount _ _ B hpos _ _ _ _ hshare =>
      subst hshare
      obtain ⟨hlp, -⟩ := premiumPart_nonneg hpos.le hb.split_nonneg.1
      obtain ⟨hincrement, hspread⟩ := increment_bounds (b := b) hlp
      refine (hM.add_mul hb.issued hincrement ?_).mono ?_
      · intro a
        have hclaim : Yield.claim perShareScale
            (b.accumulatedPerShare +
              b.increment ((amount * b.premiumSplit.lpBps).tdiv 10000))
            (b.account a) ≤
            b.claim a +
              b.increment ((amount * b.premiumSplit.lpBps).tdiv 10000) *
                b.held a :=
          Yield.claim_accrue (hb.accounts a).1 hincrement
        show perShareScale * M.credited a +
            Yield.claim perShareScale
              (b.accumulatedPerShare +
                b.increment ((amount * b.premiumSplit.lpBps).tdiv 10000))
              (b.account a) -
            (perShareScale - 1) * M.recounts a ≤
          perShareScale * M.credited a + b.claim a -
            (perShareScale - 1) * M.recounts a + _
        linarith
      · rw [mul_add]
        linarith

/-- After a premium nothing is newly claimed and no share count changed. -/
theorem accrue_steady {env : Env} {b b' : Book} {lpShare : ℤ}
    (h : Change env (.accrue lpShare) b b') (a : Address) :
    newlyClaimed b b' a ≤ 0 ∧ b'.held a = b.held a := by
  cases h with
  | accrue =>
      refine ⟨newlyClaimed_le.trans ?_, rfl⟩
      show max 0 (b.yieldClaimed a - b.yieldClaimed a) ≤ 0
      rw [sub_self, max_self]

/-- The meter after a step that credits `a` at most its earnings. -/
theorem earnings_advance {M : Meter} {w w' : World State} {l : Label Entry}
    {a : Address} (h : Earned (book w.machine) (book w'.machine) a) :
    (M.advance w l w').earnings (book w'.machine) a ≤
      M.earnings (book w.machine) a := by
  unfold Earned at h
  unfold Meter.earnings Meter.advance
  simp only
  push_cast
  rw [mul_add, mul_add]
  linarith

theorem lpPremium_nonneg (w : World State) (l : Label Entry) :
    0 ≤ lpPremium w l := by
  unfold lpPremium
  split
  · exact le_max_left _ _
  · exact le_rfl

theorem lpPremium_of_kind {w : World State} {signers : List Address}
    {e : Entry} {lpShare : ℤ}
    (h : e.kind w.machine.store = some (.accrue lpShare)) :
    lpShare ≤ lpPremium w (.call signers e) := by
  cases e with
  | receivePremium =>
      cases h
      exact le_max_right _ _
  | requestReinsuranceRecovery _ _ loss answer =>
      cases answer with
      | none => cases h
      | some answer =>
          simp only [Entry.kind] at h
          split at h <;> cases h
  | executeAdminWithdrawal =>
      obtain ⟨_, -, hkind⟩ := Option.map_eq_some_iff.mp h
      cases hkind
  | _ => cases h

theorem metered_inductive (self : Address) :
    (metered self).Inductive fun x =>
      Sound (book x.1.machine) ∧
        Capped (x.2.earnings (book x.1.machine))
          (perShareScale * x.2.premiums) where
  init x hinit := by
    obtain ⟨w, M⟩ := x
    obtain ⟨hinit, rfl⟩ := hinit
    refine ⟨(sound_inductive self).init w hinit, fun F => ?_⟩
    obtain ⟨now, store, bank⟩ := w
    obtain ⟨rfl, -⟩ := hinit
    exact Finset.sum_nonpos fun a _ => le_rfl
  step x l x' h hstep := by
    obtain ⟨w, M⟩ := x
    obtain ⟨w', M'⟩ := x'
    obtain ⟨hsound, hcapped⟩ := h
    obtain ⟨hstep, hadvance⟩ := hstep
    change (system self).Step w l w' at hstep
    change M' = M.advance w l w' at hadvance
    subst hadvance
    refine ⟨(sound_inductive self).step w l w' hsound hstep, ?_⟩
    have hpremium := lpPremium_nonneg w l
    have hkept : (∀ a, Earned (book w.machine) (book w'.machine) a) →
        Capped ((M.advance w l w').earnings (book w'.machine))
          (perShareScale * (M.premiums + lpPremium w l)) := by
      intro hearned
      refine (hcapped.of_le fun a => earnings_advance (hearned a)).mono ?_
      exact mul_le_mul_of_nonneg_left (by simp only; omega)
        perShareScale_pos.le
    have hsteady : (∀ a, (book w'.machine).lpPosition a =
          (book w.machine).lpPosition a) →
        (book w'.machine).accumulatedPerShare =
          (book w.machine).accumulatedPerShare →
        ∀ a, Earned (book w.machine) (book w'.machine) a :=
      fun hposition hacc a => Steady.earned (.of_position hacc (hposition a))
    cases hstep with
    | @call signers e m' hself hexec =>
        rcases (exec_performs hexec).earned hsound with
          hearned | ⟨lpShare, hkind, hchange⟩
        · exact hkept hearned
        · have hlp : lpShare ≤ lpPremium w (.call signers e) :=
            lpPremium_of_kind hkind
          have hgrown := accrue_earnings hsound hchange hcapped
          refine (hgrown.of_le fun a => ?_).mono
            (mul_le_mul_of_nonneg_left (Int.add_le_add_left hlp M.premiums)
              perShareScale_pos.le)
          obtain ⟨hclaimed, hheld⟩ := accrue_steady hchange a
          have hscaled :=
            mul_le_mul_of_nonneg_left hclaimed perShareScale_pos.le
          unfold Meter.earnings Meter.advance
          simp only [hheld, if_true, add_zero]
          rw [mul_add]
          omega
    | tick => exact hkept (hsteady (fun _ => rfl) rfl)
    | transfer => exact hkept (hsteady (fun _ => rfl) rfl)
    | mint => exact hkept (hsteady (fun _ => rfl) rfl)

/-- Along every run, what providers were credited as yield and what is still
pending exceed the LP share of all premiums by less than one token unit for
each time a share count changed. -/
theorem yield_le_premiums {self : Address} {w : World State} {M : Meter}
    (hM : (metered self).Reachable (w, M)) (F : Finset Address) :
    perShareScale *
        ∑ a ∈ F, (M.credited a + w.machine.store.pendingYield a) ≤
      perShareScale * M.premiums +
        (perShareScale - 1) * ∑ a ∈ F, (M.recounts a : ℤ) := by
  obtain ⟨hsound, hcapped⟩ := hM.invariant (metered_inductive self)
  have hall := hcapped F
  have hpending : ∑ a ∈ F, perShareScale * w.machine.store.pendingYield a ≤
      ∑ a ∈ F, (book w.machine).claim a := by
    refine Finset.sum_le_sum fun a _ => ?_
    rw [hsound.pendingYield_eq a]
    exact Yield.scale_mul_pending_le perShareScale_pos
  simp only [Meter.earnings, Finset.sum_sub_distrib, Finset.sum_add_distrib,
    ← Finset.mul_sum] at hall hpending
  rw [Finset.sum_add_distrib, mul_add]
  linarith

/-! ## Shares split to gain by rounding -/

namespace Scenario

def friends : List Address :=
  [.account 11, .account 12, .account 13]

/-- Between two premiums the provider moves three parts of its shares to
others. -/
def splittingRun : List (Label Entry) :=
  [wiring, funding, .call [buyer] (.receivePremium buyer 3750)] ++
    friends.map (fun a =>
      .call [provider] (.transferPosition provider a 333333333333)) ++
    [.call [buyer] (.receivePremium buyer 1250)]

/-- Everybody claims. -/
def collectingRun : List (Label Entry) :=
  splittingRun ++ (provider :: friends).map fun a => .call [a] (.claimYield a)

def split : World State × Meter :=
  (TransitionSystem.execute (meteredStep pool) splittingRun
    (genesis, .zero)).get (by decide +kernel)

def collected : World State × Meter :=
  (TransitionSystem.execute (meteredStep pool) collectingRun
    (genesis, .zero)).get (by decide +kernel)

end Scenario

open Scenario in
/-- Seven changes of share counts leave room for up to seven units more than
the premiums. -/
theorem yield_le_premiums_split :
    split.2.premiums = 4000 ∧
      perShareScale *
          ∑ a ∈ {provider, .account 11, .account 12, .account 13},
            (split.2.credited a + split.1.machine.store.pendingYield a) ≤
        perShareScale * split.2.premiums +
          (perShareScale - 1) *
            ∑ a ∈ {provider, .account 11, .account 12, .account 13},
              (split.2.recounts a : ℤ) := by
  have hsplit : (metered pool).Reachable split :=
    TransitionSystem.reachable_of_execute (fun _ _ _ => meteredStep_sound)
      ⟨⟨rfl, rfl⟩, rfl⟩ (Option.some_get _).symm
  exact ⟨by decide +kernel, yield_le_premiums hsplit _⟩

open Scenario in
/-- The providers are paid 4001 out of premiums of 4000. -/
theorem yield_exceeds_premiums :
    (metered pool).Reachable collected ∧
      collected.2.premiums = 4000 ∧
      ∑ a ∈ {provider, .account 11, .account 12, .account 13},
        collected.2.credited a = 4001 ∧
      ∑ a ∈ {provider, .account 11, .account 12, .account 13},
        collected.1.machine.bank.sent usdc pool a = 4001 ∧
      ∑ a ∈ {provider, .account 11, .account 12, .account 13},
        split.1.machine.store.pendingYield a = 1002 ∧
      ∑ a ∈ {provider, .account 11, .account 12, .account 13},
        split.2.credited a = 2999 := by
  refine ⟨?_, ?_, ?_, ?_, ?_, ?_⟩
  · exact TransitionSystem.reachable_of_execute
      (fun _ _ _ => meteredStep_sound) ⟨⟨rfl, rfl⟩, rfl⟩
      (Option.some_get _).symm
  all_goals decide +kernel

end Parashield.RiskPool
