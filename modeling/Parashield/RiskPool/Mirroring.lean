import Parashield.RiskPool.Admission
import Parashield.RiskPool.Exits
import Parashield.RiskPool.Office

/-!
# Risk pool: tokens and slots of providers

Every call but a liquidation writes the token of a position along with the
position, and gives a provider a slot and a token with its first position.  A
liquidation changes or removes a position and leaves the token as it is; whoever
loses a position to it cannot get another one, since the token is still there.
-/

namespace Parashield.RiskPool

open Support Support.Contract Invocation Book Registry

/-! ## Placing a position -/

/-- A position is written, and a provider without one gets a slot. -/
def Registry.place (r : Registry) (a : Address) (p : LpPosition) : Registry :=
  match r.lpPosition a with
  | some _ => { r with lpPosition := Function.update r.lpPosition a (some p) }
  | none =>
      { r with
        lpPosition := Function.update r.lpPosition a (some p)
        lpAddress := Function.update r.lpAddress r.lpCount (some a)
        lpCount := r.lpCount + 1 }

section Writes

variable {env : Env} {m m' t : Machine State} {a provider : Address}
  {amount shares : ℤ} {u : Unit}

theorem creditDeposit_place {compound : Bool} {r : Settlement}
    (h : creditDeposit env a amount shares compound m = .ok (r, m')) :
    (m'.store.setPosition a r.position).registry =
        m.store.registry.place a r.position ∧
      (m.store.lpPosition a = none → r.position.shares = shares) := by
  have hplace : m.store.registry.lpPosition a = m.store.lpPosition a := rfl
  unfold place
  rw [hplace]
  cases hp : m.store.lpPosition a with
  | none =>
      simp [creditDeposit, hp, registerProvider] at h
      obtain ⟨_, _, ⟨-, rfl⟩, debt, -, rfl, rfl⟩ := h
      exact ⟨rfl, fun _ => rfl⟩
  | some p =>
      simp [creditDeposit, hp] at h
      obtain ⟨_, _, _, _, _, ⟨_, rfl⟩, -⟩ := h
      exact ⟨rfl, by rintro ⟨⟩⟩

theorem creditTransfer_place {p : LpPosition}
    (h : creditTransfer env a shares amount m = .ok (p, m')) :
    m'.store.registry = m.store.registry.place a p ∧
      (m.store.lpPosition a = none → p.shares = shares) := by
  have hplace : m.store.registry.lpPosition a = m.store.lpPosition a := rfl
  unfold place
  rw [hplace]
  cases hp : m.store.lpPosition a with
  | none =>
      simp [creditTransfer, hp] at h
      obtain ⟨_, t, hregister, debt, -, rfl, rfl⟩ := h
      simp [registerProvider] at hregister
      obtain ⟨-, rfl⟩ := hregister
      exact ⟨rfl, fun _ => rfl⟩
  | some q =>
      simp [creditTransfer, hp] at h
      obtain ⟨settled, -, -, -, debt, -, ⟨_, hpay⟩, rfl⟩ := h
      obtain ⟨B, rfl, -⟩ := payOutYield_ok hpay
      exact ⟨rfl, by rintro ⟨⟩⟩

/-- A position that was placed gets its token. -/
theorem recordNft_writes {r : Registry} {p : LpPosition} {category : Symbol}
    (hplaced : m.store.registry = r.place a p)
    (hpos : r.lpPosition a = none → 0 < p.shares)
    (h : recordNft env a (r.lpPosition a).isNone category p m = .ok (u, m')) :
    r.Writes m'.store.registry := by
  unfold place at hplaced
  cases hp : r.lpPosition a with
  | none =>
      rw [hp] at h hplaced
      simp [recordNft, mintLpNft] at h
      obtain ⟨-, -, rfl⟩ := h
      have hminted : m.store.registry.mint a p category env.now =
          r.enroll a p category env.now := by
        rw [hplaced, enroll]
      have henrolled := Writes.enroll hp (hpos hp) category env.now
      rw [← hminted] at henrolled
      exact henrolled
  | some q =>
      rw [hp] at h hplaced
      simp [recordNft, updateLpNft] at h
      subst h
      rw [updateLpNft_registry, hplaced]
      exact .put hp p

/-! ## What each call writes -/

theorem redeem_writes {p : LpPosition} {drained : Error} {r : Redemption}
    (hfound : m.store.lpPosition provider = some p)
    (h : redeem env provider shares p drained m = .ok (r, m')) :
    m.store.registry.Writes m'.store.registry := by
  simp [redeem, updateLpNft] at h
  obtain ⟨-, -, -, -, settled, -, -, debt, -, -, -, rfl, rfl⟩ := h
  rw [updateLpNft_registry]
  exact .put hfound _

theorem withdrawInner_writes
    (h : withdrawInner env provider shares m = .ok (amount, m')) :
    m.store.registry.Writes m'.store.registry := by
  simp [withdrawInner, assertWithdrawable] at h
  obtain ⟨-, -, p, hfound, -, -, t, ht, r, t₁, hredeem, usdc, -, -, B, -,
    ⟨_, hpay⟩, -⟩ := h
  obtain rfl : t = m := by
    rcases ht with ⟨-, -, rfl⟩ | ⟨-, rfl⟩
    · rfl
    · rfl
  obtain ⟨B', rfl, -⟩ := payOutYield_ok hpay
  have hredeemed := redeem_writes hfound hredeem
  exact hredeemed

theorem emergencyWithdraw_writes {admin : Address}
    (h : emergencyWithdraw env provider admin shares m = .ok (amount, m')) :
    m.store.registry.Writes m'.store.registry := by
  simp [emergencyWithdraw, requireAdmin] at h
  obtain ⟨-, -, -, -, p, hfound, -, r, t, hredeem, usdc, -, -, ⟨B, -, rfl⟩,
    -⟩ := h
  have hredeemed := redeem_writes hfound hredeem
  exact hredeemed

theorem sweepSlot_writes {skip : Option Address} {idx : ℕ} {settled : Bool}
    (h : sweepSlot env skip idx m = .ok (settled, m')) :
    m.store.registry.Writes m'.store.registry := by
  unfold sweepSlot at h
  simp only [bind_ok, load_ok] at h
  obtain ⟨s, t, ⟨hs, ht⟩, h⟩ := h
  rw [hs, ht] at h
  cases haddress : m.store.lpAddress idx with
  | none =>
      rw [haddress] at h
      obtain ⟨-, rfl⟩ := pure_ok.mp h
      exact .refl _
  | some provider =>
      simp only [haddress] at h
      rcases ite_ok.mp h with ⟨-, h⟩ | ⟨-, h⟩
      · obtain ⟨-, rfl⟩ := pure_ok.mp h
        exact .refl _
      · cases hrequest : m.store.exitReq provider with
        | none =>
            rw [hrequest] at h
            obtain ⟨-, rfl⟩ := pure_ok.mp h
            exact .refl _
        | some request =>
            simp only [hrequest, clearExitReservation, ite_ok, bind_ok,
              pure_ok, update_ok] at h
            rcases h with ⟨-, -, rfl⟩ | ⟨-, ⟨-, _, t, rfl, -, rfl⟩ |
              ⟨-, ⟨-, -, rfl⟩ | ⟨-, _, t, rfl, _, t', hinner, -, rfl⟩⟩⟩
            · exact .refl _
            · exact .refl _
            · exact .refl _
            · have hburned := withdrawInner_writes hinner
              exact hburned

theorem sweepExpiredExits_writes {skip : Option Address} {maxScan n : ℕ}
    (h : sweepExpiredExits env maxScan skip m = .ok (n, m')) :
    m.store.registry.Writes m'.store.registry :=
  sweepExpiredExits_relation
    (R := fun s t => s.store.registry.Writes t.store.registry)
    (fun _ _ _ => Writes.trans) (fun _ _ => .refl _)
    (fun _ _ _ _ hslot => sweepSlot_writes hslot) h

theorem claimYield_writes {claimed : ℤ}
    (h : claimYield env provider m = .ok (claimed, m')) :
    m.store.registry.Writes m'.store.registry := by
  simp [claimYield] at h
  obtain ⟨-, p, hfound, r, hsettled, t, ht, ⟨_, hpay⟩, -⟩ := h
  obtain rfl := settleYield_ok hsettled
  obtain ⟨B, rfl, -⟩ := payOutYield_ok hpay
  rcases ht with ⟨-, rfl⟩ | ⟨-, rfl⟩
  · exact .restate hfound (settled_shares ..) (settled_deposited ..)
  · exact .refl _

theorem toggleCompound_writes {enabled : Bool}
    (h : toggleCompound env provider enabled m = .ok (u, m')) :
    m.store.registry.Writes m'.store.registry := by
  simp [toggleCompound] at h
  obtain ⟨-, p, hfound, rfl⟩ := h
  exact .restate hfound rfl rfl

theorem requestExit_writes
    (h : requestExit env provider shares m = .ok (u, m')) :
    m.store.registry.Writes m'.store.registry := by
  simp [requestExit, assertWithdrawable] at h
  obtain ⟨-, -, -, n, t, hsweep, p, -, -, rfl⟩ := h
  have hswept := sweepExpiredExits_writes hsweep
  exact hswept

theorem deposit_writes {least minted : ℤ} {compound : Bool}
    (h : deposit env provider amount least compound m = .ok (minted, m')) :
    m.store.registry.Writes m'.store.registry := by
  obtain ⟨burnShares, credited, t, t₁, t₂, h⟩ := deposit_ok h
  obtain ⟨n, hsweep⟩ := h.sweep
  obtain ⟨usdc, B, -, -, -, hcredit⟩ := h.pull
  obtain ⟨category, u, -, hnft⟩ := h.record
  obtain ⟨hplaced, hshares⟩ := creditDeposit_place hcredit
  have hpaid : m'.store = t₂.store := by
    rcases h.pay with ⟨u, -, hpay⟩ | ⟨-, rfl⟩
    · obtain ⟨B', rfl, -⟩ := payOutYield_ok hpay
      rfl
    · rfl
  have hminted := h.mints.shares_ge
  unfold minShares at hminted
  have hrecorded := recordNft_writes (r := t.store.registry) hplaced
    (fun hnone => by rw [hshares hnone]; omega) hnft
  rw [hpaid]
  exact (sweepExpiredExits_writes hsweep).trans hrecorded

theorem transferPosition_writes {recipient : Address}
    (h : transferPosition env provider recipient shares m =
      .ok (amount, m')) : m.store.registry.Writes m'.store.registry := by
  obtain ⟨p, received, t, t₁, h⟩ := transferPosition_ok h
  obtain ⟨category, u, -, hrecord⟩ := h.record
  obtain ⟨hplaced, hshares⟩ := creditTransfer_place h.credit
  have hsent : t.store.registry = m.store.registry.put provider
      ((book m).reduced env.now p shares amount) := by
    rw [h.sent, updateLpNft_registry]
    rfl
  have hsame : t.store.registry.lpPosition recipient =
      m.store.lpPosition recipient := by
    rw [hsent]
    exact Function.update_of_ne (Ne.symm h.distinct) _ _
  have hput : m.store.registry.Writes t.store.registry := by
    rw [hsent]
    exact .put h.found _
  rw [← hsame] at hrecord
  refine hput.trans (recordNft_writes hplaced (fun hnone => ?_) hrecord)
  rw [hshares hnone]
  exact h.pos

end Writes

/-! ## Every call -/

/-- The entry point seizes shares. -/
def Entry.liquidates : Entry → Bool
  | .liquidatePosition .. => true
  | _ => false

section Calls

variable {env : Env} {m m' : Machine State} {e : Entry} {u : Unit}

/-- Nobody holds a position before the pool is initialized. -/
theorem initializePool_upholds {admin usdc treasury backstop pe cp : Address}
    {category : Symbol} (hb : Sound (book m))
    (h : initializePool env admin usdc treasury backstop category pe cp m =
      .ok (u, m')) : m.store.registry.Upholds m'.store.registry := by
  simp [initializePool, requireNotZeroAddress] at h
  obtain ⟨hfresh, -, -, -, -, -, -, rfl⟩ := h
  have hnone := (hb.unwired (hb.uninitialized hfresh)).2.2.2.2.1
  refine ⟨fun hr => ?_, fun _ a ha => ha⟩
  have hcount : m.store.registry.lpCount = 0 := by
    by_contra hne
    obtain ⟨a, -, ha⟩ := hr.numbered.filled 0 (Nat.pos_of_ne_zero hne)
    exact ha (hnone a)
  have hsame : m.store.registry = { m.store.registry with lpCount := 0 } := by
    rw [← hcount]
  rw [hsame] at hr
  exact hr

/-- The entry point wires the pool. -/
def Entry.initializes : Entry → Bool
  | .initializePool .. => true
  | _ => false

/-- What a call that neither liquidates nor wires the pool writes. -/
theorem exec_writes (he : e.liquidates = false) (hi : e.initializes = false)
    (h : exec env e m = .ok (u, m')) :
    m.store.registry.Writes m'.store.registry := by
  have same : m'.store.registry = m.store.registry →
      m.store.registry.Writes m'.store.registry := by
    intro hsame
    rw [hsame]
    exact .refl _
  by_cases hserves : e.serves = true
  · have hkeeps : Keeps (fun t => t.store.registry = m.store.registry)
        (exec env e) :=
      exec_serving (fun hr _ hsame => hsame.trans hr) hserves
    exact same (hkeeps m u m' rfl h)
  by_cases hsetting : e.isSetting = true
  · exact same (exec_setting hsetting h).2.1
  cases e with
  | initializePool => cases hi
  | executeAdminWithdrawal =>
      simp [exec, executeAdminWithdrawal, requireAdmin] at h
      obtain ⟨-, -, req, -, -, -, -, -, usdc, -, treasury, -, B, -, rfl⟩ := h
      exact same rfl
  | deposit =>
      obtain ⟨minted, h⟩ := perform_ok.mp h
      exact deposit_writes h
  | depositWithToken =>
      obtain ⟨minted, h⟩ := perform_ok.mp h
      simp [depositWithToken] at h
      exact deposit_writes h.2
  | withdraw =>
      obtain ⟨amount, h⟩ := perform_ok.mp h
      simp [withdraw] at h
      obtain ⟨-, -, n, t, hsweep, hinner⟩ := h
      exact (sweepExpiredExits_writes hsweep).trans
        (withdrawInner_writes hinner)
  | emergencyWithdraw =>
      obtain ⟨amount, h⟩ := perform_ok.mp h
      exact emergencyWithdraw_writes h
  | transferShares =>
      obtain ⟨amount, h⟩ := perform_ok.mp h
      simp [transferShares] at h
      exact transferPosition_writes h.2
  | transferPosition =>
      obtain ⟨amount, h⟩ := perform_ok.mp h
      exact transferPosition_writes h
  | claimYield =>
      obtain ⟨claimed, h⟩ := perform_ok.mp h
      exact claimYield_writes h
  | requestExit => exact requestExit_writes h
  | claimExit =>
      obtain ⟨amount, h⟩ := perform_ok.mp h
      simp [claimExit, clearExitReservation] at h
      obtain ⟨-, request, -, -, hinner⟩ := h
      have hburned := withdrawInner_writes hinner
      exact hburned
  | processExpiredExits =>
      obtain ⟨n, h⟩ := perform_ok.mp h
      exact sweepExpiredExits_writes h
  | toggleCompound => exact toggleCompound_writes h
  | liquidatePosition => cases he
  | _ => first | exact absurd rfl hserves | exact absurd rfl hsetting

/-- A call that is no liquidation upholds the registry. -/
theorem exec_upholds (hb : Sound (book m)) (he : e.liquidates = false)
    (h : exec env e m = .ok (u, m')) :
    m.store.registry.Upholds m'.store.registry := by
  cases hi : e.initializes with
  | false => exact (exec_writes he hi h).upholds
  | true =>
      cases e with
      | initializePool => exact initializePool_upholds hb h
      | _ => cases hi

theorem Book.Change.held_lt_of_liquidate {b b' : Book} {a : Address}
    {seized : ℤ} (hb : Sound b) (h : Change env (.liquidate a seized) b b') :
    b.lpPosition a ≠ none ∧ b'.held a < b.held a := by
  have hheld := h.held_eq hb a
  cases h with
  | liquidate hseizes =>
      have hpos := hseizes.seized_pos
      simp only [Kind.gain, if_true] at hheld
      exact ⟨by rw [hseizes.found]; exact Option.some_ne_none _, by omega⟩

/-- A liquidation takes shares and leaves all tokens as they are. -/
theorem exec_liquidation (hb : Sound (book m)) (he : e.liquidates = true)
    (h : exec env e m = .ok (u, m')) :
    ∃ a, m.store.lpPosition a ≠ none ∧ (book m').held a < (book m).held a ∧
      m'.store.providerNft = m.store.providerNft ∧
      m'.store.lpNft = m.store.lpNft := by
  cases e with
  | liquidatePosition caller provider =>
      obtain ⟨r, h⟩ := perform_ok.mp h
      obtain ⟨hfound, hless⟩ :=
        (liquidatePosition_change h).held_lt_of_liquidate hb
      refine ⟨provider, hfound, hless, ?_⟩
      simp [liquidatePosition] at h
      obtain ⟨-, p, -, info, -, -, -, rfl, -⟩ := h
      exact ⟨rfl, rfl⟩
  | _ => cases he

end Calls

end Parashield.RiskPool
