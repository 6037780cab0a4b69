import Parashield.RiskPool.Soundness

/-!
# Risk pool: what becomes of settled yield

A settlement moves yield from pending to claimed.  This module follows every
call change by change and asks whether the yield that was counted as claimed
reached its provider, as tokens or as new shares.  A deposit with compounding
turned on keeps it from both.
-/

namespace Parashield.RiskPool

open Support Support.Contract Invocation Book

/-! ## Postings -/

/-- One change of a call, with the books before and after it. -/
structure Posting where
  before : Book
  kind : Kind
  after : Book

/-- The changes of a call in order. -/
inductive Posted (env : Env) : Book → List Posting → Book → Prop
  | nil (b : Book) : Posted env b [] b
  | concat {b b' b'' : Book} {ps : List Posting} {k : Kind} :
      Posted env b ps b' → Change env k b' b'' →
      Posted env b (ps ++ [⟨b', k, b''⟩]) b''

namespace Book

/-- Changes that settle the yield of a provider. -/
def Kind.settles : Kind → Bool
  | .burn .. | .mint .. | .move .. | .collect _ => true
  | _ => false

/-- Yield `a` was ever settled, as its position records it. -/
def yieldClaimed (b : Book) (a : Address) : ℤ :=
  match b.lpPosition a with
  | some p => p.yieldClaimed
  | none => 0

/-- Shares a deposit of `amount` buys. -/
def bought (b : Book) (amount : ℤ) : ℤ :=
  if b.totalShares = 0 then
    amount * 1000000000 - lockedShares
  else
    (amount * b.totalShares).tdiv b.totalDeposited

/-- More debt than the shares of `a` ever earned. -/
def Overdrawn (b : Book) (a : Address) : Prop :=
  b.debtOf (b.account a).shares < (b.account a).debt

end Book

namespace Posting

/-- Tokens the pool at `self` sent to `a`. -/
def paid (self : Address) (p : Posting) (a : Address) : ℤ :=
  match p.before.usdcToken with
  | some usdc =>
      p.after.bank.sent usdc self a - p.before.bank.sent usdc self a
  | none => 0

/-- What `a` got back for burned shares. -/
def returned (p : Posting) (a : Address) : ℤ :=
  match p.kind with
  | .burn provider shares _ =>
      if a = provider then p.before.redeemed shares else 0
  | _ => 0

/-- The value of the shares `a` got beyond those it deposited for. -/
def reinvested (p : Posting) (a : Address) : ℤ :=
  match p.kind with
  | .mint provider newShares _ =>
      if a = provider then
        p.before.redeemed (newShares -
          p.before.bought (p.after.totalDeposited - p.before.totalDeposited))
      else
        0
  | _ => 0

/-- All yield that `a` was settled reached it, as tokens or as shares. -/
def Accounted (self : Address) (p : Posting) (a : Address) : Prop :=
  p.after.yieldClaimed a - p.before.yieldClaimed a =
    (p.paid self a - p.returned a) + p.reinvested a

/-- The change keeps settled yield from its provider, or takes more debt off a
payment than there was yield. -/
def Withholds (p : Posting) : Prop :=
  match p.kind with
  | .mint provider _ true => 0 < p.before.pending provider
  | .burn provider _ true => p.before.Overdrawn provider
  | _ => False

end Posting

/-! ## Positions and payments of one change -/

namespace Book

variable {b b' : Book} {a provider : Address} {p : LpPosition} {now : ℕ}

theorem yieldClaimed_of_position (h : b.lpPosition a = some p) :
    b.yieldClaimed a = p.yieldClaimed := by
  simp only [yieldClaimed, h]

theorem yieldClaimed_congr (h : b'.lpPosition a = b.lpPosition a) :
    b'.yieldClaimed a = b.yieldClaimed a := by
  simp only [yieldClaimed, h]

theorem settled_yieldClaimed (b : Book) (now : ℕ) (p : LpPosition) :
    (b.settled now p).position.yieldClaimed =
      p.yieldClaimed + max 0 (b.settled now p).owed := by
  unfold settled
  split
  · rw [max_self, add_zero]
  · simp only
    split
    · next hpos => rw [max_eq_right hpos.le]
    · next hneg => rw [max_eq_left (not_lt.mp hneg), add_zero]

/-- Receiving shares settles what was owed on the old ones. -/
theorem increased_yieldClaimed (b : Book) (now : ℕ) (a : Address)
    (shares amount : ℤ) (compound : Option Bool) :
    (b.increased now a shares amount compound).position.yieldClaimed =
      b.yieldClaimed a +
        max 0 (b.increased now a shares amount compound).owed := by
  unfold increased yieldClaimed
  cases h : b.lpPosition a with
  | none => rfl
  | some p => exact b.settled_yieldClaimed now p

theorem Sound.pending_eq (hb : Sound b) (h : b.lpPosition a = some p) :
    b.pending a = max 0 (b.debtOf p.shares - p.yieldDebt) := by
  rw [pending, account_of_position h, hb.debtOf_eq (hb.shares_nonneg h)]
  rfl

/-- A settlement owes something exactly when yield is pending. -/
theorem Sound.owed_pos_iff (hb : Sound b) (h : b.lpPosition a = some p) :
    0 < (b.settled now p).owed ↔ 0 < b.pending a := by
  rw [hb.pending_eq h]
  unfold settled
  split
  · next hzero =>
      have hnonneg := hb.shares_nonneg h
      have hle := hb.held_le h
      have hshares : p.shares = 0 := by omega
      have hdebt := (hb.accounts a).2
      rw [account_of_position h] at hdebt
      have hearned : b.debtOf p.shares = 0 := by
        rw [hshares, debtOf, mul_zero, Int.zero_tdiv]
      have hnodebt : 0 ≤ p.yieldDebt := hdebt
      rw [hearned]
      simp only
      omega
  · simp only [satI128, maxI128, minI128]
    omega

theorem Sound.increased_owed_pos_iff (hb : Sound b) (now : ℕ) (a : Address)
    (shares amount : ℤ) (compound : Option Bool) :
    0 < (b.increased now a shares amount compound).owed ↔
      0 < b.pending a := by
  unfold increased
  cases h : b.lpPosition a with
  | none =>
      simp only [pending, account_of_none h, Yield.pending]
      simp
  | some p => exact hb.owed_pos_iff h

/-- Something is owed to the pool exactly when the debt is overdrawn. -/
theorem owed_neg_iff (h : b.lpPosition a = some p)
    (hissued : b.totalShares ≠ 0) :
    (b.settled now p).owed < 0 ↔ b.Overdrawn a := by
  rw [Overdrawn, account_of_position h, settled, if_neg hissued]
  show satI128 (b.debtOf p.shares - p.yieldDebt) < 0 ↔
    b.debtOf p.shares < p.yieldDebt
  simp only [satI128, maxI128, minI128]
  omega

/-! ### Payments by recipient -/

/-- What the payments of a list are worth to `a`. -/
def share (payments : List (Address × ℤ)) (a : Address) : ℤ :=
  ((payments.filter fun payment => payment.1 = a).map Prod.snd).sum

@[simp] theorem share_nil (a : Address) : share [] a = 0 := rfl

theorem share_cons (recipient : Address) (amount : ℤ)
    (payments : List (Address × ℤ)) (a : Address) :
    share ((recipient, amount) :: payments) a =
      (if a = recipient then amount else 0) + share payments a := by
  unfold share
  by_cases h : a = recipient
  · rw [List.filter_cons_of_pos (by simp [h]), if_pos h, List.map_cons,
      List.sum_cons]
  · rw [List.filter_cons_of_neg (by simp [Ne.symm h]), if_neg h, zero_add]

theorem share_append (payments payments' : List (Address × ℤ))
    (a : Address) :
    share (payments ++ payments') a =
      share payments a + share payments' a := by
  simp only [share, List.filter_append, List.map_append, List.sum_append]

theorem share_yieldPayment (provider : Address) (owed : ℤ) (a : Address) :
    share (yieldPayment provider owed) a =
      if a = provider then max 0 owed else 0 := by
  unfold yieldPayment
  split
  · next hpos =>
      rw [share_cons, share_nil, add_zero, max_eq_right hpos.le]
  · next hneg =>
      rw [share_nil, max_eq_left (not_lt.mp hneg), ite_self]

theorem pays_sent {self usdc : Address} {payments : List (Address × ℤ)}
    {B B' : Bank} (h : Pays self (some usdc) payments B B') (a : Address) :
    (B'.sent usdc self a : ℤ) - B.sent usdc self a = share payments a := by
  rcases h with ⟨rfl, rfl⟩ | ⟨usdc', htoken, hall⟩
  · rw [sub_self, share_nil]
  · obtain rfl := Option.some.inj htoken
    rw [Bank.payAll_sent hall a, add_sub_cancel_left]
    rfl

end Book

/-! ## Every change -/

section Changes

variable {env : Env} {b b' : Book}

theorem Posting.paid_eq {usdc : Address} {k : Kind}
    {payments : List (Address × ℤ)} {B : Bank}
    (htoken : b.usdcToken = some usdc)
    (hB : B.sent usdc env.self = b.bank.sent usdc env.self)
    (hpays : Pays env.self b.usdcToken payments B b'.bank) (a : Address) :
    Posting.paid env.self ⟨b, k, b'⟩ a = share payments a := by
  rw [htoken] at hpays
  have hsent := pays_sent hpays a
  rw [hB] at hsent
  simp only [Posting.paid, htoken]
  exact hsent

theorem share_redeemPayments (b : Book) (now : ℕ) (provider : Address)
    (shares : ℤ) (p : LpPosition) (joint : Bool) (a : Address) :
    share (b.redeemPayments now provider shares p joint) a =
      if a = provider then
        b.redeemed shares +
          (if joint then (b.settled now p).owed
            else max 0 (b.settled now p).owed)
      else
        0 := by
  by_cases ha : a = provider
  · cases joint with
    | true =>
        simp only [redeemPayments, if_true, share_cons, share_nil, if_pos ha,
          add_zero]
    | false =>
        simp only [redeemPayments, Bool.false_eq_true, if_false, share_cons,
          share_yieldPayment, if_pos ha]
  · cases joint with
    | true =>
        simp only [redeemPayments, if_true, share_cons, share_nil, if_neg ha,
          add_zero]
    | false =>
        simp only [redeemPayments, Bool.false_eq_true, if_false, share_cons,
          share_yieldPayment, if_neg ha, add_zero]

theorem Book.Change.accounted_burn {provider : Address} {shares : ℤ}
    {joint : Bool} (hb : Sound b)
    (h : Change env (.burn provider shares joint) b b') :
    (∀ a, Posting.Accounted env.self ⟨b, .burn provider shares joint, b'⟩ a) ↔
      ¬ Posting.Withholds ⟨b, .burn provider shares joint, b'⟩ := by
  cases h with
  | @burn _ _ _ p _ B hredeems hpays =>
      obtain ⟨usdc, htoken⟩ := hb.token hredeems.found
      have hneg : (b.settled env.now p).owed < 0 ↔ b.Overdrawn provider :=
        owed_neg_iff hredeems.found hredeems.issued
      have hclaimed : ∀ a, yieldClaimed { b with
          lpPosition := b.setPosition provider
            (b.reduced env.now p shares (b.redeemed shares))
          totalDeposited := b.totalDeposited - b.redeemed shares
          totalShares := b.totalShares - shares
          bank := B } a - b.yieldClaimed a =
          if a = provider then max 0 (b.settled env.now p).owed else 0 := by
        intro a
        by_cases ha : a = provider
        · subst ha
          rw [if_pos rfl, yieldClaimed_of_position hredeems.found,
            yieldClaimed_of_position (Function.update_self ..)]
          show (b.settled env.now p).position.yieldClaimed - _ = _
          rw [settled_yieldClaimed, add_sub_cancel_left]
        · rw [if_neg ha, yieldClaimed_congr (b := b)
            (Function.update_of_ne ha ..), sub_self]
      have hall : ∀ a, Posting.Accounted env.self
          ⟨b, .burn provider shares joint, { b with
            lpPosition := b.setPosition provider
              (b.reduced env.now p shares (b.redeemed shares))
            totalDeposited := b.totalDeposited - b.redeemed shares
            totalShares := b.totalShares - shares
            bank := B }⟩ a ↔
          (if a = provider then max 0 (b.settled env.now p).owed else 0) =
            if a = provider then
              (if joint then (b.settled env.now p).owed
                else max 0 (b.settled env.now p).owed)
            else
              0 := by
        intro a
        unfold Posting.Accounted
        rw [hclaimed a, Posting.paid_eq htoken rfl hpays,
          share_redeemPayments]
        simp only [Posting.returned, Posting.reinvested, add_zero]
        by_cases ha : a = provider
        · simp only [if_pos ha, add_sub_cancel_left]
        · simp only [if_neg ha, sub_self]
      simp only [hall]
      cases joint with
      | true =>
          simp only [Posting.Withholds, ← hneg, if_true]
          constructor
          · intro heq
            have hprovider := heq provider
            rw [if_pos rfl, if_pos rfl] at hprovider
            omega
          · intro howed a
            rw [max_eq_right (not_lt.mp howed)]
      | false => simp [Posting.Withholds]

/-- A deposit mints the shares its amount buys and no others. -/
theorem Book.Mints.bought_eq {amount newShares burnShares : ℤ}
    (h : Mints b amount newShares burnShares) : b.bought amount = newShares := by
  unfold bought
  split
  · next hzero => exact (h.first hzero).1.symm
  · next hissued => exact (h.later hissued).1.symm

theorem Book.Change.accounted_mint {provider : Address} {newShares : ℤ}
    {compound : Bool} (hb : Sound b)
    (h : Change env (.mint provider newShares compound) b b') :
    (∀ a, Posting.Accounted env.self
        ⟨b, .mint provider newShares compound, b'⟩ a) ↔
      ¬ Posting.Withholds ⟨b, .mint provider newShares compound, b'⟩ := by
  cases h with
  | @mint _ _ amount _ burnShares _ usdc B B' hmints htoken htransfer hreceived
      hpays =>
      have hprovider : provider ≠ env.self := by
        rintro rfl
        have hsame := Bank.transfer_balance_self htransfer usdc env.self
        have hamount := hmints.amount_ge
        unfold minDeposit at hamount
        omega
      have hsent : B.sent usdc env.self = b.bank.sent usdc env.self :=
        funext fun a => Bank.transfer_sent_of_ne htransfer hprovider usdc a
      have howed := hb.increased_owed_pos_iff env.now provider newShares
        amount (some compound)
      have hclaimed : ∀ a, yieldClaimed { b with
          lpPosition :=
            b.setPosition provider
              (b.increased env.now provider newShares amount
                (some compound)).position
          totalDeposited := b.totalDeposited + amount
          totalShares := b.totalShares + newShares + burnShares
          bank := B' } a - b.yieldClaimed a =
          if a = provider then
            max 0 (b.increased env.now provider newShares amount
              (some compound)).owed
          else
            0 := by
        intro a
        by_cases ha : a = provider
        · subst ha
          rw [if_pos rfl, yieldClaimed_of_position (Function.update_self ..),
            increased_yieldClaimed, add_sub_cancel_left]
        · rw [if_neg ha, yieldClaimed_congr (b := b)
            (Function.update_of_ne ha ..), sub_self]
      have hall : ∀ a, Posting.Accounted env.self
          ⟨b, .mint provider newShares compound, { b with
            lpPosition :=
              b.setPosition provider
                (b.increased env.now provider newShares amount
                  (some compound)).position
            totalDeposited := b.totalDeposited + amount
            totalShares := b.totalShares + newShares + burnShares
            bank := B' }⟩ a ↔
          (if a = provider then
            max 0 (b.increased env.now provider newShares amount
              (some compound)).owed
          else
            0) =
            if a = provider ∧ compound = false then
              max 0 (b.increased env.now provider newShares amount
                (some compound)).owed
            else
              0 := by
        intro a
        unfold Posting.Accounted
        rw [hclaimed a, Posting.paid_eq htoken hsent hpays]
        have hnothing : Posting.reinvested
            ⟨b, .mint provider newShares compound, { b with
              lpPosition :=
                b.setPosition provider
                  (b.increased env.now provider newShares amount
                    (some compound)).position
              totalDeposited := b.totalDeposited + amount
              totalShares := b.totalShares + newShares + burnShares
              bank := B' }⟩ a = 0 := by
          simp only [Posting.reinvested, add_sub_cancel_left,
            hmints.bought_eq, sub_self, redeemed, zero_mul, Int.zero_tdiv,
            ite_self]
        rw [hnothing, add_zero]
        simp only [Posting.returned, sub_zero]
        cases compound with
        | true =>
            simp only [if_true, share_nil, Bool.true_eq_false, and_false,
              if_false]
        | false =>
            simp only [Bool.false_eq_true, if_false, share_yieldPayment,
              and_true]
      simp only [hall]
      cases compound with
      | true =>
          simp only [Posting.Withholds, ← howed, Bool.true_eq_false,
            and_false, if_false]
          constructor
          · intro heq
            have hprovider := heq provider
            rw [if_pos rfl] at hprovider
            omega
          · intro hnothing a
            rw [max_eq_left (not_lt.mp hnothing), ite_self]
      | false => simp [Posting.Withholds]

theorem Book.Change.accounted_move {sender recipient : Address} {shares : ℤ}
    (hb : Sound b) (h : Change env (.move sender recipient shares) b b')
    (a : Address) :
    Posting.Accounted env.self ⟨b, .move sender recipient shares, b'⟩ a := by
  cases h with
  | @move _ _ _ _ amount p B hne hfound _ _ _ _ hpays =>
      obtain ⟨usdc, htoken⟩ := hb.token hfound
      unfold Posting.Accounted
      rw [Posting.paid_eq htoken rfl hpays, share_append, share_yieldPayment,
        share_yieldPayment]
      simp only [Posting.returned, Posting.reinvested, sub_zero, add_zero]
      by_cases hrecipient : a = recipient
      · subst hrecipient
        rw [if_pos rfl, if_neg (Ne.symm hne), zero_add,
          yieldClaimed_of_position (Function.update_self ..),
          increased_yieldClaimed, add_sub_cancel_left]
      · rw [if_neg hrecipient, add_zero]
        by_cases hsender : a = sender
        · subst hsender
          rw [if_pos rfl, yieldClaimed_of_position hfound,
            yieldClaimed_of_position ((Function.update_of_ne hne ..).trans
              (Function.update_self ..))]
          show (b.settled env.now p).position.yieldClaimed - _ = _
          rw [settled_yieldClaimed, add_sub_cancel_left]
        · rw [if_neg hsender, yieldClaimed_congr (b := b)
            ((Function.update_of_ne hrecipient ..).trans
              (Function.update_of_ne hsender ..)), sub_self]

theorem Book.Change.accounted_collect {provider : Address} (hb : Sound b)
    (h : Change env (.collect provider) b b') (a : Address) :
    Posting.Accounted env.self ⟨b, .collect provider, b'⟩ a := by
  cases h with
  | @collect _ _ p B hfound hpos hpays =>
      obtain ⟨usdc, htoken⟩ := hb.token hfound
      unfold Posting.Accounted
      rw [Posting.paid_eq htoken rfl hpays, share_cons, share_nil]
      simp only [Posting.returned, Posting.reinvested, sub_zero, add_zero]
      by_cases ha : a = provider
      · subst ha
        rw [if_pos rfl, yieldClaimed_of_position hfound,
          yieldClaimed_of_position (Function.update_self ..),
          settled_yieldClaimed, add_sub_cancel_left, max_eq_right hpos.le]
      · rw [if_neg ha, yieldClaimed_congr (b := b)
          (Function.update_of_ne ha ..), sub_self]

/-- Settled yield reaches its provider unless the change withholds it. -/
theorem Book.Change.accounted_iff {k : Kind} (hb : Sound b)
    (h : Change env k b b') (hk : k.settles = true) :
    (∀ a, Posting.Accounted env.self ⟨b, k, b'⟩ a) ↔
      ¬ Posting.Withholds ⟨b, k, b'⟩ := by
  cases k with
  | burn => exact h.accounted_burn hb
  | mint => exact h.accounted_mint hb
  | move => exact iff_of_true (h.accounted_move hb) id
  | collect => exact iff_of_true (h.accounted_collect hb) id
  | _ => cases hk

end Changes

/-! ## Every call -/

/-- More yield debt than the shares of `a` ever earned. -/
def State.Overdrawn (s : State) (a : Address) : Prop :=
  ∃ p, s.lpPosition a = some p ∧
    (s.accumulatedPerShare * p.shares).tdiv perShareScale < p.yieldDebt

/-- Calls that keep settled yield from its provider: a deposit with
compounding on top of pending yield, and an emergency withdrawal that makes up
for overdrawn debt. -/
def Entry.Withholds (s : State) : Entry → Prop
  | .deposit provider _ _ compound
  | .depositWithToken provider _ _ _ compound =>
      compound = true ∧ 0 < s.pendingYield provider
  | .emergencyWithdraw provider _ _ => s.Overdrawn provider
  | _ => False

section Calls

variable {env : Env} {m : Machine State} {e : Entry} {b b' b'' : Book}

theorem Posted.single {k : Kind} (h : Change env k b b') :
    Posted env b [⟨b, k, b'⟩] b' :=
  (Posted.nil b).concat h

theorem Posted.sound {ps : List Posting} (h : Posted env b ps b')
    (hb : Sound b) : Sound b' := by
  induction h with
  | nil => exact hb
  | concat _ hchange ih => exact hchange.sound ih

/-- Every settlement of a call is accounted for unless one is withheld. -/
theorem Posted.accounted_iff {ps : List Posting} (h : Posted env b ps b')
    (hb : Sound b) :
    (∀ p ∈ ps, p.kind.settles = true → ∀ a, p.Accounted env.self a) ↔
      ∀ p ∈ ps, ¬ p.Withholds := by
  induction h with
  | nil => simp
  | @concat b' b'' ps k hposted hchange ih =>
      have hlast : (k.settles = true → ∀ a,
          Posting.Accounted env.self ⟨b', k, b''⟩ a) ↔
          ¬ Posting.Withholds ⟨b', k, b''⟩ := by
        by_cases hk : k.settles = true
        · rw [← hchange.accounted_iff (hposted.sound hb) hk]
          exact ⟨fun h => h hk, fun h _ => h⟩
        · have hquiet : ¬ Posting.Withholds ⟨b', k, b''⟩ := by
            cases k <;> first | exact absurd rfl hk | exact id
          exact iff_of_true (fun h => absurd h hk) hquiet
      simp only [List.forall_mem_append, List.forall_mem_singleton]
      exact and_congr ih hlast

theorem Sweeps.posted {n : ℕ} (h : Sweeps env n b b') :
    ∃ ps, Posted env b ps b' ∧ ∀ p ∈ ps, ¬ p.Withholds := by
  induction h with
  | refl => exact ⟨[], .nil _, by simp⟩
  | clear _ hclear ih =>
      obtain ⟨ps, hposted, hquiet⟩ := ih
      refine ⟨_, hposted.concat hclear, ?_⟩
      simp only [List.forall_mem_append, List.forall_mem_singleton]
      exact ⟨hquiet, id⟩
  | burn _ hburn ih =>
      obtain ⟨ps, hposted, hquiet⟩ := ih
      refine ⟨_, hposted.concat hburn, ?_⟩
      simp only [List.forall_mem_append, List.forall_mem_singleton]
      exact ⟨hquiet, id⟩

/-- The changes of a call that starts with a sweep. -/
theorem posted_after_sweep {skip : Option Address} {maxScan n : ℕ}
    {t : Machine State} {k : Kind}
    (hsweep : sweepExpiredExits env maxScan skip m = .ok (n, t))
    (hchange : Change env k (book t) b) :
    ∃ ps, Posted env (book m) ps b ∧
      ((∀ p ∈ ps, ¬ p.Withholds) ↔ ¬ Posting.Withholds ⟨book t, k, b⟩) := by
  obtain ⟨_, -, hsweeps⟩ := sweepExpiredExits_sweeps hsweep
  obtain ⟨ps, hposted, hquiet⟩ := hsweeps.posted
  refine ⟨_, hposted.concat hchange, ?_⟩
  simp only [List.forall_mem_append, List.forall_mem_singleton]
  exact ⟨fun h => h.2, fun h => ⟨hquiet, h⟩⟩

theorem overdrawn_iff {a : Address} :
    (book m).Overdrawn a ↔ m.store.Overdrawn a := by
  have hbook : (book m).lpPosition a = m.store.lpPosition a := rfl
  unfold Book.Overdrawn State.Overdrawn
  cases h : m.store.lpPosition a with
  | none =>
      rw [account_of_none (hbook.trans h), debtOf, mul_zero, Int.zero_tdiv]
      simp
  | some p =>
      rw [account_of_position (hbook.trans h)]
      simp only [Option.some.injEq, exists_eq_left']
      rfl

theorem Entry.withholds_of_kind (e : Entry) {k : Kind}
    (h : e.kind m.store = some k) :
    Posting.Withholds ⟨book m, k, b⟩ ↔ e.Withholds m.store := by
  cases e with
  | requestReinsuranceRecovery _ _ loss answer =>
      cases answer with
      | none => cases h
      | some answer =>
          simp only [Entry.kind] at h
          split at h <;> cases h
          exact Iff.rfl
  | executeAdminWithdrawal =>
      obtain ⟨_, -, rfl⟩ := Option.map_eq_some_iff.mp h
      exact Iff.rfl
  | emergencyWithdraw =>
      cases h
      exact overdrawn_iff
  | _ => cases h <;> exact Iff.rfl

/-- Every call is a sequence of changes, one of which withholds yield exactly
if the call does. -/
theorem Performs.posted (h : Performs env m e b) (hb : Sound (book m)) :
    ∃ ps, Posted env (book m) ps b ∧
      ((∀ p ∈ ps, ¬ p.Withholds) ↔ ¬ e.Withholds m.store) := by
  induction h with
  | @idle e hidle =>
      refine ⟨[], .nil _, iff_of_true (by simp) ?_⟩
      cases e <;> first | exact id | cases hidle
  | @single e k b hkind hchange =>
      refine ⟨_, .single hchange, ?_⟩
      rw [List.forall_mem_singleton, e.withholds_of_kind hkind]
  | @deposit provider amount least minted burnShares compound t n b hsweep
      hminted hchange =>
      obtain ⟨ps, hposted, hquiet⟩ := posted_after_sweep hsweep hchange
      obtain ⟨hposition, hacc⟩ := sweepExpiredExits_skips hsweep
      have hpending : (book t).pending provider =
          m.store.pendingYield provider := by
        rw [hb.pendingYield_eq]
        simp only [pending, account, hposition, hacc]
      refine ⟨ps, hposted, hquiet.trans (not_congr ?_)⟩
      cases compound with
      | true =>
          simp only [Posting.Withholds, Entry.Withholds, hpending, true_and]
      | false => simp [Posting.Withholds, Entry.Withholds]
  | depositWithToken _ ih => exact ih
  | withdraw hsweep hchange =>
      obtain ⟨ps, hposted, hquiet⟩ := posted_after_sweep hsweep hchange
      exact ⟨ps, hposted, hquiet⟩
  | requestExit hsweep hchange =>
      obtain ⟨ps, hposted, hquiet⟩ := posted_after_sweep hsweep hchange
      exact ⟨ps, hposted, hquiet⟩
  | claimExit _ hclear hburn =>
      refine ⟨_, (Posted.single hclear).concat hburn,
        iff_of_true ?_ id⟩
      simp only [List.forall_mem_append, List.forall_mem_singleton]
      exact ⟨id, id⟩
  | processExpiredExits hsweep =>
      obtain ⟨_, -, hsweeps⟩ := sweepExpiredExits_sweeps hsweep
      obtain ⟨ps, hposted, hquiet⟩ := hsweeps.posted
      exact ⟨ps, hposted, iff_of_true hquiet id⟩

end Calls

/-- In every reachable state, all yield a call settles reaches its provider
exactly if the call is not one of those that withhold it. -/
theorem settled_yield_accounted_iff {self : Address} {w : World State}
    {signers : List Address} {e : Entry} {m' : Machine State}
    (hw : (system self).Reachable w)
    (h : exec (callEnv self w signers) e w.machine = .ok ((), m')) :
    ∃ ps, Posted (callEnv self w signers) (book w.machine) ps (book m') ∧
      ((∀ p ∈ ps, p.kind.settles = true → ∀ a, p.Accounted self a) ↔
        ¬ e.Withholds w.machine.store) := by
  have hsound := hw.invariant (sound_inductive self)
  obtain ⟨ps, hposted, hquiet⟩ := (exec_performs h).posted hsound
  exact ⟨ps, hposted, (hposted.accounted_iff hsound).trans hquiet⟩

/-! ## Claiming and compounding -/

namespace Scenario

def claiming : Label Entry :=
  .call [provider] (.claimYield provider)

def claimed : World State :=
  (step exec pool earning claiming).get (by decide +kernel)

/-- A second deposit with compounding turned on. -/
def compounding : Label Entry :=
  .call [provider] (.deposit provider 1000000 0 true)

def compounded : World State :=
  (step exec pool earning compounding).get (by decide +kernel)

end Scenario

open Scenario in
/-- Claimed yield is paid. -/
theorem settled_yield_accounted_claimed :
    (book claimed.machine).yieldClaimed provider = 7999 ∧
      claimed.machine.bank.sent usdc pool provider = 7999 ∧
      ∃ ps, Posted (callEnv pool earning [provider]) (book earning.machine) ps
          (book claimed.machine) ∧
        ∀ p ∈ ps, p.kind.settles = true → ∀ a, p.Accounted pool a := by
  have hstep : Step exec pool earning claiming claimed :=
    step_sound (Option.some_get _).symm
  obtain ⟨ps, hposted, haccounted⟩ :=
    settled_yield_accounted_iff earning_reachable hstep.exec_eq.2
  exact ⟨by decide +kernel, by decide +kernel, ps, hposted,
    haccounted.mpr id⟩

open Scenario in
/-- The deposit settles 7999 of yield, sends nothing to the provider and mints
no more shares than the deposited amount buys. -/
theorem compounded_yield_lost :
    (system pool).Reachable compounded ∧
      (book earning.machine).yieldClaimed provider = 0 ∧
      earning.machine.store.pendingYield provider = 7999 ∧
      (book compounded.machine).yieldClaimed provider = 7999 ∧
      compounded.machine.store.pendingYield provider = 0 ∧
      compounded.machine.bank.sent usdc pool provider =
        earning.machine.bank.sent usdc pool provider ∧
      (book compounded.machine).held provider =
        (book earning.machine).held provider +
          (book earning.machine).bought 1000000 := by
  refine ⟨.step earning_reachable (step_sound (Option.some_get _).symm),
    ?_, ?_, ?_, ?_, ?_, ?_⟩ <;> decide +kernel

end Parashield.RiskPool
