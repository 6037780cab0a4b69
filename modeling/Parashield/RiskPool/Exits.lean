import Parashield.RiskPool.Shares

/-!
# Risk pool: the exits of a provider

What each call does to the shares of a provider and to what it has queued: it
takes shares out of the position directly, or queues more of them, or removes
the request and settles at most its shares, or leaves the request as it is and
the position no smaller.
-/

namespace Parashield.RiskPool

open Support Support.Contract Invocation Book

namespace Book

variable {env : Env} {b b' b'' : Book} {a : Address} {k : Kind}

/-- Shares `a` has queued. -/
def requested (b : Book) (a : Address) : ℤ :=
  match b.exitReq a with
  | some request => request.shares
  | none => 0

theorem requested_of_request {request : ExitRequest}
    (h : b.exitReq a = some request) : b.requested a = request.shares := by
  simp only [requested, h]

theorem requested_of_none (h : b.exitReq a = none) : b.requested a = 0 := by
  simp only [requested, h]

theorem requested_congr (h : b'.exitReq a = b.exitReq a) :
    b'.requested a = b.requested a := by
  simp only [requested, h]

/-! ## Changes -/

/-- The shares a change adds to the position of `a`. -/
def Kind.gain (a : Address) : Kind → ℤ
  | .burn provider shares _ => if a = provider then -shares else 0
  | .mint provider newShares _ => if a = provider then newShares else 0
  | .move sender recipient shares =>
      (if a = recipient then shares else 0) - if a = sender then shares else 0
  | .liquidate provider seized => if a = provider then -seized else 0
  | _ => 0

theorem update_gain {provider : Address} {f : Address → ℤ} {v gain : ℤ}
    (hv : v = f provider + gain) (a : Address) :
    Function.update f provider v a =
      f a + if a = provider then gain else 0 := by
  by_cases ha : a = provider
  · rw [ha, Function.update_self, if_pos rfl, hv]
  · rw [Function.update_of_ne ha, if_neg ha, add_zero]

theorem Change.held_eq_burn {provider : Address} {shares : ℤ} {joint : Bool}
    (h : Change env (.burn provider shares joint) b b') (a : Address) :
    b'.held a = b.held a + (Kind.burn provider shares joint).gain a := by
  cases h with
  | @burn _ _ _ p _ _ hredeems _ =>
      rw [held_update (account_update rfl)]
      refine update_gain ?_ a
      rw [held_of_position hredeems.found]
      exact sub_eq_add_neg _ _

theorem Change.held_eq_mint {provider : Address} {newShares : ℤ}
    {compound : Bool} (hb : Sound b)
    (h : Change env (.mint provider newShares compound) b b') (a : Address) :
    b'.held a = b.held a + (Kind.mint provider newShares compound).gain a := by
  cases h with
  | @mint _ _ amount _ _ _ _ _ _ hmints _ _ _ _ =>
      have hnew := hmints.shares_ge
      unfold minShares at hnew
      have haccount := hb.increased_account env.now provider amount
        (some compound) (show 0 ≤ newShares by omega)
      rw [held_update (account_update rfl), haccount]
      exact update_gain rfl a

theorem Change.held_eq_move {sender recipient : Address} {shares : ℤ}
    (hb : Sound b) (h : Change env (.move sender recipient shares) b b')
    (a : Address) :
    b'.held a = b.held a + (Kind.move sender recipient shares).gain a := by
  cases h with
  | @move _ _ _ _ amount p B hne hfound hpos hheld _ _ _ =>
      have haccount :=
        hb.increased_account env.now recipient amount none hpos.le
      rw [held_update (b := { b with
          lpPosition := b.setPosition sender
            (b.reduced env.now p shares amount)
          bank := B }) (account_update rfl),
        held_update (b := b) (account_update rfl), haccount]
      have hsender : Function.update b.held sender (p.shares - shares) =
          fun x => b.held x + if x = sender then -shares else 0 := by
        funext x
        refine update_gain ?_ x
        rw [held_of_position hfound]
        exact sub_eq_add_neg _ _
      show Function.update (Function.update b.held sender (p.shares - shares))
        recipient (b.held recipient + shares) a = _
      have hgain := update_gain
        (f := Function.update b.held sender (p.shares - shares))
        (v := b.held recipient + shares)
        (by rw [Function.update_of_ne (Ne.symm hne)]) a
      rw [hgain, hsender]
      simp only [Kind.gain]
      split <;> split <;> omega

theorem Change.held_eq_liquidate {provider : Address} {seized : ℤ}
    (hb : Sound b) (h : Change env (.liquidate provider seized) b b')
    (a : Address) :
    b'.held a = b.held a + (Kind.liquidate provider seized).gain a := by
  cases h with
  | @liquidate _ _ p bps _ h =>
      obtain ⟨q, haccount, -, hshares, -⟩ :=
        h.account_left hb (show Book.lpPosition { b with
          lpPosition := Function.update b.lpPosition provider
            (if (b.seizedPosition p seized).shares ≤ 0 then none
              else some (b.seizedPosition p seized))
          totalShares := satI128 (b.totalShares - seized)
          totalDeposited := satI128 (b.totalDeposited - b.recovered seized) } =
          _ from rfl)
      rw [held_update haccount]
      refine update_gain ?_ a
      rw [hshares, held_of_position h.found]
      exact sub_eq_add_neg _ _

/-- Every change moves shares exactly as its kind says. -/
theorem Change.held_eq (hb : Sound b) (h : Change env k b b') (a : Address) :
    b'.held a = b.held a + k.gain a := by
  cases k with
  | burn => exact h.held_eq_burn a
  | mint => exact h.held_eq_mint hb a
  | move => exact h.held_eq_move hb a
  | liquidate => exact h.held_eq_liquidate hb a
  | collect provider =>
      cases h with
      | collect hfound =>
          rw [held_update (account_update rfl)]
          refine (congrFun (Function.update_eq_self_iff.mpr ?_) a).trans
            (add_zero _).symm
          rw [held_of_position hfound]
          exact settled_shares ..
  | toggle provider =>
      cases h with
      | toggle hfound =>
          rw [Book.held_eq (account_toggle hfound _)]
          exact (add_zero _).symm
  | _ =>
      cases h
      exact (add_zero _).symm

/-- The position a change takes shares out of, and how many. -/
def Kind.takes : Kind → Option (Address × ℤ)
  | .burn provider shares _ => some (provider, shares)
  | .move sender _ shares => some (sender, shares)
  | .liquidate provider seized => some (provider, seized)
  | _ => none

theorem Change.gain_of_takes {shares : ℤ} (h : Change env k b b')
    (hk : k.takes = some (a, shares)) : k.gain a = -shares := by
  cases h with
  | burn =>
      obtain ⟨rfl, rfl⟩ := Prod.mk.inj (Option.some.inj hk)
      exact if_pos rfl
  | liquidate =>
      obtain ⟨rfl, rfl⟩ := Prod.mk.inj (Option.some.inj hk)
      exact if_pos rfl
  | move hne =>
      obtain ⟨rfl, rfl⟩ := Prod.mk.inj (Option.some.inj hk)
      simp only [Kind.gain, if_neg hne, if_true, zero_sub]
  | _ => cases hk

theorem Change.gain_nonneg (h : Change env k b b')
    (hk : ∀ shares, k.takes ≠ some (a, shares)) : 0 ≤ k.gain a := by
  have hother {provider : Address} {shares : ℤ}
      (htakes : k.takes = some (provider, shares)) : a ≠ provider :=
    fun ha => hk shares (ha ▸ htakes)
  cases h with
  | burn => exact (if_neg (hother rfl)).ge
  | liquidate => exact (if_neg (hother rfl)).ge
  | mint hmints =>
      have hnew := hmints.shares_ge
      unfold minShares at hnew
      simp only [Kind.gain]
      split <;> omega
  | move _ _ hpos =>
      simp only [Kind.gain, if_neg (hother rfl), sub_zero]
      split <;> omega
  | _ => exact le_rfl

/-- The change writes the exit request of `a`. -/
def Kind.queues (a : Address) : Kind → Bool
  | .enqueue provider | .clear provider => decide (a = provider)
  | _ => false

theorem Change.exitReq_eq (h : Change env k b b')
    (hk : k.queues a = false) : b'.exitReq a = b.exitReq a := by
  cases h with
  | enqueue => exact Function.update_of_ne (of_decide_eq_false hk) ..
  | clear => exact Function.update_of_ne (of_decide_eq_false hk) ..
  | _ => rfl

theorem Change.exitReq_clear (h : Change env (.clear a) b b') :
    b'.exitReq a = none := by
  cases h
  exact Function.update_self ..

theorem held_congr (h : b'.lpPosition a = b.lpPosition a) :
    b'.held a = b.held a := by
  simp only [held, account_at h]

/-! ## The sweep -/

/-- What a sweep does to the exit of `a`: nothing, or it removes the request,
which is due, and settles at most its shares. -/
inductive Swept (now : ℕ) (skip : Option Address) (a : Address)
    (b b' : Book) : Prop
  | kept : b'.exitReq a = b.exitReq a → b'.lpPosition a = b.lpPosition a →
      Swept now skip a b b'
  | settled {request : ExitRequest} : b.Due now skip a request →
      b'.exitReq a = none → b'.held a ≤ b.held a →
      b.held a ≤ b'.held a + max 0 request.shares → Swept now skip a b b'

theorem Swept.trans {now : ℕ} {skip : Option Address}
    (h : Swept now skip a b b') (h' : Swept now skip a b' b'') :
    Swept now skip a b b'' := by
  cases h with
  | kept hrequest hposition =>
      cases h' with
      | kept hrequest' hposition' =>
          exact .kept (hrequest'.trans hrequest) (hposition'.trans hposition)
      | settled hdue hnone hless hmost =>
          rw [held_congr hposition] at hless hmost
          exact .settled ⟨hdue.not_skipped, hrequest ▸ hdue.found,
            hdue.expired⟩ hnone hless hmost
  | settled hdue hnone hless hmost =>
      cases h' with
      | kept hrequest' hposition' =>
          rw [← held_congr hposition'] at hless hmost
          exact .settled hdue (hrequest'.trans hnone) hless hmost
      | settled hdue' =>
          have hfound := hdue'.found
          rw [hnone] at hfound
          cases hfound

/-- The exit that is skipped stays as it is. -/
theorem Swept.skipped {now : ℕ} (h : Swept now (some a) a b b') :
    b'.exitReq a = b.exitReq a ∧ b'.lpPosition a = b.lpPosition a := by
  cases h with
  | kept hrequest hposition => exact ⟨hrequest, hposition⟩
  | settled hdue => exact absurd rfl hdue.not_skipped

/-- The request of somebody else is removed, and its exit perhaps settled. -/
theorem Swept.of_other {now : ℕ} {skip : Option Address} {provider : Address}
    {b₁ : Book} (ha : a ≠ provider)
    (hclear : Change env (.clear provider) b b₁)
    (h : b' = b₁ ∨ ∃ shares, Change env (.burn provider shares false) b₁ b') :
    Swept now skip a b b' := by
  have hrequest : b₁.exitReq a = b.exitReq a :=
    hclear.exitReq_eq (decide_eq_false ha)
  have hposition : b₁.lpPosition a = b.lpPosition a := by
    cases hclear
    rfl
  rcases h with rfl | ⟨shares, hburn⟩
  · exact .kept hrequest hposition
  · refine .kept ((hburn.exitReq_eq rfl).trans hrequest) ?_
    cases hburn
    exact (Function.update_of_ne ha ..).trans hposition

/-- The request of `a` is removed, and its exit perhaps settled. -/
theorem Swept.of_own {now : ℕ} {skip : Option Address} {b₁ : Book}
    {request : ExitRequest} (hdue : b.Due now skip a request)
    (hclear : Change env (.clear a) b b₁)
    (h : b' = b₁ ∨ ∃ shares ≤ request.shares,
      Change env (.burn a shares false) b₁ b') :
    Swept now skip a b b' := by
  have hnone := hclear.exitReq_clear
  have hheld : b₁.held a = b.held a := by
    cases hclear
    rfl
  rcases h with rfl | ⟨shares, hle, hburn⟩
  · exact .settled hdue hnone hheld.le (by omega)
  · have hheld' := hburn.held_eq_burn a
    rw [Kind.gain, if_pos rfl, hheld] at hheld'
    have hpos : 0 < shares := by
      cases hburn with
      | burn hredeems => exact hredeems.pos
    exact .settled hdue ((hburn.exitReq_eq rfl).trans hnone) (by omega)
      (by omega)

end Book

section Sweeping

variable {env : Env} {m m' : Machine State} {skip : Option Address}

theorem sweepSlot_swept {idx : ℕ} {settled : Bool} (a : Address)
    (h : sweepSlot env skip idx m = .ok (settled, m')) :
    Swept env.now skip a (book m) (book m') := by
  rcases sweepSlot_change h with hsame |
    ⟨provider, request, b, hdue, hclear, hrest⟩
  · rw [hsame]
    exact .kept rfl rfl
  · by_cases ha : a = provider
    · subst ha
      exact .of_own hdue hclear hrest
    · refine .of_other ha hclear (hrest.imp_right ?_)
      rintro ⟨shares, -, hburn⟩
      exact ⟨shares, hburn⟩

theorem sweepExpiredExits_swept {maxScan n : ℕ} (a : Address)
    (h : sweepExpiredExits env maxScan skip m = .ok (n, m')) :
    Swept env.now skip a (book m) (book m') :=
  sweepExpiredExits_relation
    (R := fun s t => Swept env.now skip a (book s) (book t))
    (fun _ _ _ h h' => h.trans h') (fun _ _ => .kept rfl rfl)
    (fun _ _ _ _ hslot => sweepSlot_swept a hslot) h

/-! ## Requests -/

theorem updateLpNft_exitDelay (s : State) (provider : Address)
    (p : LpPosition) : (s.updateLpNft provider p).exitDelay = s.exitDelay := by
  unfold State.updateLpNft
  split
  · rfl
  · split
    · rfl
    · rfl

theorem redeem_exitDelay {provider : Address} {shares : ℤ} {p : LpPosition}
    {drained : Error} {r : Redemption}
    (h : redeem env provider shares p drained m = .ok (r, m')) :
    m'.store.exitDelay = m.store.exitDelay := by
  simp [redeem, updateLpNft] at h
  obtain ⟨-, -, -, -, settled, -, -, debt, -, -, -, rfl, -⟩ := h
  exact updateLpNft_exitDelay ..

theorem withdrawInner_exitDelay {provider : Address} {shares amount : ℤ}
    (h : withdrawInner env provider shares m = .ok (amount, m')) :
    m'.store.exitDelay = m.store.exitDelay := by
  simp [withdrawInner, assertWithdrawable] at h
  obtain ⟨-, -, p, -, -, -, t, ht, r, t₁, hredeem, usdc, -, -, B, -,
    ⟨_, hpay⟩, rfl⟩ := h
  obtain rfl : t = m := by
    rcases ht with ⟨-, -, rfl⟩ | ⟨-, rfl⟩
    · rfl
    · rfl
  obtain ⟨B', rfl, -⟩ := payOutYield_ok hpay
  have hkept := redeem_exitDelay hredeem
  exact hkept

theorem sweepSlot_exitDelay {idx : ℕ} {settled : Bool}
    (h : sweepSlot env skip idx m = .ok (settled, m')) :
    m'.store.exitDelay = m.store.exitDelay := by
  unfold sweepSlot at h
  simp only [bind_ok, load_ok] at h
  obtain ⟨s, t, ⟨hs, ht⟩, h⟩ := h
  rw [hs, ht] at h
  cases haddress : m.store.lpAddress idx with
  | none =>
      rw [haddress] at h
      obtain ⟨-, rfl⟩ := pure_ok.mp h
      rfl
  | some provider =>
      simp only [haddress] at h
      rcases ite_ok.mp h with ⟨-, h⟩ | ⟨-, h⟩
      · obtain ⟨-, rfl⟩ := pure_ok.mp h
        rfl
      · cases hrequest : m.store.exitReq provider with
        | none =>
            rw [hrequest] at h
            obtain ⟨-, rfl⟩ := pure_ok.mp h
            rfl
        | some request =>
            simp only [hrequest, ite_ok, bind_ok, pure_ok,
              clearExitReservation, update_ok] at h
            rcases h with ⟨-, -, rfl⟩ | ⟨-, ⟨-, _, t, rfl, -, rfl⟩ |
              ⟨-, ⟨-, -, rfl⟩ | ⟨-, _, t, rfl, _, t', hinner, -, rfl⟩⟩⟩
            · rfl
            · rfl
            · rfl
            · have hkept := withdrawInner_exitDelay hinner
              exact hkept

/-- A sweep leaves the delay alone. -/
theorem sweepExpiredExits_exitDelay {maxScan n : ℕ}
    (h : sweepExpiredExits env maxScan skip m = .ok (n, m')) :
    m'.store.exitDelay = m.store.exitDelay :=
  sweepExpiredExits_relation
    (R := fun s t => t.store.exitDelay = s.store.exitDelay)
    (fun _ _ _ h h' => h'.trans h) (fun _ _ => rfl)
    (fun _ _ _ _ hslot => sweepSlot_exitDelay hslot) h

/-- The request of `provider` with `shares` more queued: a later one joins the
first and shares its time. -/
def State.queuedRequest (s : State) (now : ℕ) (provider : Address)
    (shares : ℤ) : ExitRequest :=
  match s.exitReq provider with
  | some prev =>
      { prev with
        provider := provider
        shares := satI128 (prev.shares + shares) }
  | none =>
      { provider := provider
        shares := shares
        requestedAt := now
        claimableAt := satAddU64 now s.exitDelay }

theorem requestExit_ok {provider : Address} {shares : ℤ} {u : Unit}
    (h : requestExit env provider shares m = .ok (u, m')) :
    ∃ n t p, 0 < shares ∧
      sweepExpiredExits env maxAutoExitScan (some provider) m = .ok (n, t) ∧
      t.store.lpPosition provider = some p ∧
      (t.store.queuedRequest env.now provider shares).shares ≤ p.shares ∧
      m' = { t with
        store := { t.store with
          exitReq :=
            Function.update t.store.exitReq provider
              (some (t.store.queuedRequest env.now provider shares))
          queuedExitShares := satI128 (t.store.queuedExitShares + shares) } } := by
  simp [requestExit, assertWithdrawable] at h
  obtain ⟨-, hpos, -, n, t, hsweep, p, hfound, hle, rfl⟩ := h
  exact ⟨n, t, p, hpos, hsweep, hfound, hle, rfl⟩

/-- What is queued depends on the request there is and on the delay. -/
theorem queuedRequest_congr {provider : Address} {now : ℕ} {shares : ℤ}
    (hrequest : m'.store.exitReq provider = m.store.exitReq provider)
    (hdelay : m'.store.exitDelay = m.store.exitDelay) :
    m'.store.queuedRequest now provider shares =
      m.store.queuedRequest now provider shares := by
  simp only [State.queuedRequest, hrequest, hdelay]

end Sweeping

/-! ## Calls -/

/-- The position a call takes shares out of directly, and how many. -/
def Entry.takes (s : State) : Entry → Option (Address × ℤ)
  | .withdraw provider shares
  | .emergencyWithdraw provider _ shares
  | .transferShares provider _ shares
  | .transferPosition provider _ shares => some (provider, shares)
  | .liquidatePosition _ provider => some (provider, s.seizedShares provider)
  | _ => none

/-- What a call that takes no shares of `a` directly does to its exit. -/
inductive Exits (env : Env) (a : Address) (e : Entry) (m : Machine State)
    (b : Book) : Prop
  | kept : b.exitReq a = m.store.exitReq a →
      (book m).held a ≤ b.held a → Exits env a e m b
  | left {request : ExitRequest} : m.store.exitReq a = some request →
      b.exitReq a = none → b.held a ≤ (book m).held a →
      (book m).held a ≤ b.held a + max 0 request.shares →
      (b.held a < (book m).held a → request.claimableAt ≤ env.now) →
      Exits env a e m b
  | asked {shares : ℤ} : e = .requestExit a shares → 0 < shares →
      b.exitReq a = some (m.store.queuedRequest env.now a shares) →
      (m.store.queuedRequest env.now a shares).shares ≤ b.held a →
      b.held a = (book m).held a → Exits env a e m b

section Calls

variable {env : Env} {m m' : Machine State} {a : Address} {e : Entry}
  {b b' : Book}

theorem Entry.takes_of_kind {k : Kind} (h : e.kind m.store = some k) :
    k.takes = e.takes m.store := by
  cases e with
  | requestReinsuranceRecovery caller policyId loss answer =>
      cases answer with
      | none => cases h
      | some answer =>
          cases hrequest : m.store.recoveryRequest loss with
          | none =>
              simp only [Entry.kind, hrequest] at h
              cases h
          | some request =>
              simp only [Entry.kind, hrequest] at h
              obtain rfl := Option.some.inj h
              rfl
  | executeAdminWithdrawal =>
      obtain ⟨_, -, rfl⟩ := Option.map_eq_some_iff.mp h
      rfl
  | _ => cases h <;> rfl

/-- Of the calls that make one change, only a cancellation writes a request:
it removes it. -/
theorem Entry.queues_of_kind {k : Kind} (h : e.kind m.store = some k)
    (hk : k.queues a = true) : k = .clear a := by
  cases e with
  | cancelExit provider =>
      obtain rfl := Option.some.inj h
      rw [of_decide_eq_true hk]
  | requestReinsuranceRecovery caller policyId loss answer =>
      cases answer with
      | none => cases h
      | some answer =>
          cases hrequest : m.store.recoveryRequest loss with
          | none =>
              simp only [Entry.kind, hrequest] at h
              cases h
          | some request =>
              simp only [Entry.kind, hrequest] at h
              obtain rfl := Option.some.inj h
              cases hk
  | executeAdminWithdrawal =>
      obtain ⟨_, -, rfl⟩ := Option.map_eq_some_iff.mp h
      cases hk
  | _ => cases h <;> cases hk

theorem Exits.of_swept {skip : Option Address}
    (h : Swept env.now skip a (book m) b)
    (hrequest : b'.exitReq a = b.exitReq a) (hheld : b'.held a = b.held a) :
    Exits env a e m b' := by
  cases h with
  | kept hsame hposition =>
      exact .kept (hrequest.trans hsame)
        (hheld.trans (held_congr hposition)).ge
  | settled hdue hnone hless hmost =>
      rw [← hheld] at hless hmost
      exact .left hdue.found (hrequest.trans hnone) hless hmost
        fun _ => hdue.expired

theorem Exits.of_single {k : Kind} (hb : Sound (book m))
    (he : ∀ shares, e.takes m.store ≠ some (a, shares))
    (hkind : e.kind m.store = some k) (h : Change env k (book m) b) :
    Exits env a e m b := by
  have hheld := h.held_eq hb a
  have hgain := h.gain_nonneg (a := a) fun shares htakes =>
    he shares ((Entry.takes_of_kind hkind).symm.trans htakes)
  cases hk : k.queues a with
  | false => exact .kept (h.exitReq_eq hk) (by omega)
  | true =>
      obtain rfl := Entry.queues_of_kind hkind hk
      simp only [Kind.gain, add_zero] at hheld
      cases h with
      | clear hrequest =>
          refine .left hrequest (Function.update_self ..) hheld.le
            (by omega) fun hless => ?_
          rw [hheld] at hless
          exact absurd hless (lt_irrefl _)

theorem requestExit_exits {provider : Address} {shares : ℤ} {u : Unit}
    (h : requestExit env provider shares m = .ok (u, m')) :
    Exits env a (.requestExit provider shares) m (book m') := by
  obtain ⟨n, t, p, hpos, hsweep, hfound, hle, rfl⟩ := requestExit_ok h
  have hswept := sweepExpiredExits_swept a hsweep
  by_cases ha : a = provider
  · subst ha
    obtain ⟨hrequest, hposition⟩ := hswept.skipped
    have hqueued : t.store.queuedRequest env.now a shares =
        m.store.queuedRequest env.now a shares :=
      queuedRequest_congr hrequest (sweepExpiredExits_exitDelay hsweep)
    rw [← held_of_position (b := book t) hfound] at hle
    rw [hqueued] at hle
    refine .asked rfl hpos ?_ hle (held_congr hposition)
    rw [← hqueued]
    exact Function.update_self ..
  · exact .of_swept hswept (Function.update_of_ne ha ..) rfl

theorem claimExit_exits {provider : Address} {amount : ℤ}
    (h : claimExit env provider m = .ok (amount, m')) :
    Exits env a (.claimExit provider) m (book m') := by
  obtain ⟨request, hrequest, hready, hrun⟩ := claimExit_run h
  obtain ⟨b, hclear, hrun⟩ := TransitionSystem.run_cons_iff.mp hrun
  obtain ⟨b', hburn, hrun⟩ := TransitionSystem.run_cons_iff.mp hrun
  obtain rfl := TransitionSystem.run_nil_iff.mp hrun
  have hrest : book m' = b ∨ ∃ shares ≤ request.shares,
      Change env (.burn provider shares false) b (book m') :=
    .inr ⟨_, le_rfl, hburn⟩
  have hswept : Swept env.now none a (book m) (book m') := by
    by_cases ha : a = provider
    · subst ha
      exact .of_own ⟨nofun, hrequest, hready⟩ hclear hrest
    · exact .of_other ha hclear (.inr ⟨_, hburn⟩)
  exact .of_swept hswept rfl rfl

theorem deposit_exits {provider : Address} {minted : ℤ} {compound : Bool}
    {n : ℕ} {t : Machine State} (hb : Sound (book m))
    (hsweep : sweepExpiredExits env maxAutoExitScan (some provider) m =
      .ok (n, t))
    (h : Change env (.mint provider minted compound) (book t) b) :
    Exits env a e m b := by
  have hswept := sweepExpiredExits_swept a hsweep
  have hheld := h.held_eq (sweepExpiredExits_sound hb hsweep) a
  by_cases ha : a = provider
  · subst ha
    obtain ⟨hrequest, hposition⟩ := hswept.skipped
    have hgain := h.gain_nonneg (a := a) nofun
    rw [held_congr hposition] at hheld
    exact .kept ((h.exitReq_eq rfl).trans hrequest) (by omega)
  · simp only [Kind.gain, if_neg ha, add_zero] at hheld
    exact .of_swept hswept (h.exitReq_eq rfl) hheld

theorem withdraw_exits {provider : Address} {shares : ℤ} {n : ℕ}
    {t : Machine State} (ha : a ≠ provider)
    (hsweep : sweepExpiredExits env maxAutoExitScan (some provider) m =
      .ok (n, t))
    (h : Change env (.burn provider shares false) (book t) b) :
    Exits env a e m b := by
  have hheld := h.held_eq_burn a
  simp only [Kind.gain, if_neg ha, add_zero] at hheld
  exact .of_swept (sweepExpiredExits_swept a hsweep) (h.exitReq_eq rfl) hheld

/-- What every call that takes no shares of `a` directly does to its exit. -/
theorem exec_exits {u : Unit} (hb : Sound (book m))
    (he : ∀ shares, e.takes m.store ≠ some (a, shares))
    (h : exec env e m = .ok (u, m')) : Exits env a e m (book m') := by
  have hperforms := exec_performs h
  generalize hb' : book m' = b' at hperforms ⊢
  cases hperforms with
  | idle => exact .kept rfl le_rfl
  | single hkind hchange => exact .of_single hb he hkind hchange
  | deposit hsweep _ hchange => exact deposit_exits hb hsweep hchange
  | depositWithToken hdeposit =>
      cases hdeposit with
      | deposit hsweep _ hchange => exact deposit_exits hb hsweep hchange
      | idle hidle => cases hidle
      | single hkind => cases hkind
  | @withdraw provider shares _ _ _ hsweep hchange =>
      have ha : a ≠ provider := fun ha => he shares (ha ▸ rfl)
      exact withdraw_exits ha hsweep hchange
  | requestExit => exact hb' ▸ requestExit_exits h
  | claimExit =>
      obtain ⟨amount, h⟩ := perform_ok.mp h
      exact hb' ▸ claimExit_exits h
  | processExpiredExits hsweep =>
      exact .of_swept (sweepExpiredExits_swept a hsweep) rfl rfl

/-- A call that takes shares of `a` directly leaves its request alone. -/
theorem exec_takes {shares : ℤ} {u : Unit} (hb : Sound (book m))
    (he : e.takes m.store = some (a, shares))
    (h : exec env e m = .ok (u, m')) :
    m'.store.exitReq a = m.store.exitReq a ∧
      (book m').held a = (book m).held a - shares := by
  have hsingle : ∀ k, Change env k (book m) (book m') →
      k.takes = some (a, shares) → k.queues a = false →
      m'.store.exitReq a = m.store.exitReq a ∧
        (book m').held a = (book m).held a - shares := by
    intro k hchange htakes hqueues
    have hheld := hchange.held_eq hb a
    rw [hchange.gain_of_takes htakes] at hheld
    exact ⟨hchange.exitReq_eq hqueues, hheld⟩
  cases e with
  | withdraw provider n =>
      obtain ⟨rfl, rfl⟩ := Prod.mk.inj (Option.some.inj he)
      obtain ⟨amount, h⟩ := perform_ok.mp h
      simp [withdraw] at h
      obtain ⟨-, -, _, t, hsweep, h⟩ := h
      have hchange := withdrawInner_change h
      obtain ⟨hrequest, hposition⟩ :=
        (sweepExpiredExits_swept provider hsweep).skipped
      have hheld := hchange.held_eq_burn provider
      rw [hchange.gain_of_takes rfl, held_congr hposition] at hheld
      exact ⟨(hchange.exitReq_eq rfl).trans hrequest, hheld⟩
  | emergencyWithdraw =>
      obtain ⟨amount, h⟩ := perform_ok.mp h
      exact hsingle _ (emergencyWithdraw_change h) he rfl
  | transferShares =>
      obtain ⟨amount, h⟩ := perform_ok.mp h
      simp [transferShares] at h
      exact hsingle _ (transferPosition_change h.2) he rfl
  | transferPosition =>
      obtain ⟨amount, h⟩ := perform_ok.mp h
      exact hsingle _ (transferPosition_change h) he rfl
  | liquidatePosition =>
      obtain ⟨r, h⟩ := perform_ok.mp h
      exact hsingle _ (liquidatePosition_change h) he rfl
  | _ => cases he

theorem exec_positive {u : Unit} (hb : Sound (book m))
    (hpos : ∀ request, m.store.exitReq a = some request → 0 < request.shares)
    (h : exec env e m = .ok (u, m')) :
    ∀ request, m'.store.exitReq a = some request → 0 < request.shares := by
  intro request hrequest
  by_cases he : ∃ shares, e.takes m.store = some (a, shares)
  · obtain ⟨shares, he⟩ := he
    exact hpos request ((exec_takes hb he h).1.symm.trans hrequest)
  · cases exec_exits hb (fun shares hs => he ⟨shares, hs⟩) h with
    | kept hsame => exact hpos request (hsame.symm.trans hrequest)
    | left _ hnone =>
        cases hnone.symm.trans hrequest
    | asked _ hshares hqueued =>
        obtain rfl := Option.some.inj (hqueued.symm.trans hrequest)
        cases hprev : m.store.exitReq a with
        | none =>
            simp only [State.queuedRequest, hprev]
            exact hshares
        | some prev =>
            have hprev' := hpos prev hprev
            simp only [State.queuedRequest, hprev]
            unfold satI128 maxI128 minI128
            omega

end Calls

/-- Every request is for some shares. -/
theorem positive_inductive (self : Address) :
    (system self).Inductive fun w => Sound (book w.machine) ∧
      ∀ a request, w.machine.store.exitReq a = some request →
        0 < request.shares := by
  refine (sound_inductive self).and ?_ ?_
  · intro w hinit
    obtain ⟨now, store, bank⟩ := w
    obtain ⟨rfl, -⟩ := hinit
    exact nofun
  · intro w l w' hb _ hpos hstep
    cases hstep with
    | call _ hexec => exact fun a => exec_positive hb (hpos a) hexec
    | tick => exact hpos
    | transfer => exact hpos
    | mint => exact hpos

end Parashield.RiskPool
