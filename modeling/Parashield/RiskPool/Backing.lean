import Parashield.RiskPool.Soundness

/-!
# Risk pool: locked capital and deposits

Withdrawals, exits, administrator withdrawals and new locks each check the
unlocked liquidity before they use it, so deposits never fall below the locked
total.  A liquidation takes the value of the seized shares off the deposits
without this check, and breaks the bound where that value exceeds the unlocked
liquidity.
-/

namespace Parashield.RiskPool

open Support Support.Contract Invocation Book

namespace Book

variable {env : Env} {b b' : Book}

/-- Locked capital is covered by the deposits. -/
def Backed (b : Book) : Prop :=
  b.totalLocked ≤ b.totalDeposited

/-- A change that takes no more than the unlocked liquidity keeps locked
capital covered. -/
theorem Change.backed {k : Kind} (hb : Sound b) (h : Change env k b b')
    (hbacked : Backed b)
    (hseized : ∀ provider seized, k = .liquidate provider seized →
      b.recovered seized ≤ b.available) : Backed b' := by
  have havailable := hb.available_eq
  have hlocked := hb.locked_nonneg
  have hdeposited := hb.deposited_range
  unfold Backed InI128 at *
  cases h with
  | wire => exact le_rfl
  | burn hredeems =>
      have hafford := hredeems.affordable
      simp only
      omega
  | mint hmints =>
      have hamount := hmints.amount_ge
      unfold minDeposit at hamount
      simp only
      omega
  | move => exact hbacked
  | collect => exact hbacked
  | accrue => exact hbacked
  | forward => exact hbacked
  | recover _ hnonneg =>
      simp only
      omega
  | adminWithdraw hafford _ hall =>
      obtain ⟨_, htransfer, -⟩ := Bank.payAll_cons_eq_some.mp hall
      obtain ⟨hpos, -⟩ := Bank.transfer_eq_some htransfer
      simp only [satI128, minI128, maxI128]
      omega
  | lock _ _ hafford =>
      simp only
      omega
  | release hlock =>
      have hpos := hb.lock_pos _ _ hlock
      have hrange := hb.locked_range
      simp only [satI128, minI128, maxI128, InI128] at hrange ⊢
      omega
  | @liquidate _ provider p bps seized h =>
      obtain ⟨hnonneg, -⟩ := h.recovered_bounds hb
      have hafford := hseized provider seized rfl
      simp only [satI128, minI128, maxI128]
      omega
  | resplit => exact hbacked
  | toggle => exact hbacked
  | enqueue => exact hbacked
  | clear => exact hbacked

end Book

/-! ## Calls -/

variable {env : Env} {m : Machine State} {e : Entry} {b : Book}

theorem Sweeps.backed {n : ℕ} {b b' : Book} (h : Sweeps env n b b')
    (hb : Sound b) (hbacked : Backed b) : Backed b' := by
  induction h with
  | refl => exact hbacked
  | clear hsweeps hclear ih =>
      exact hclear.backed (hsweeps.sound hb) (ih hb hbacked) nofun
  | burn hsweeps hburn ih =>
      exact hburn.backed (hsweeps.sound hb) (ih hb hbacked) nofun

theorem sweepExpiredExits_backed {skip : Option Address} {maxScan n : ℕ}
    {t : Machine State} (hb : Sound (book m)) (hbacked : Backed (book m))
    (h : sweepExpiredExits env maxScan skip m = .ok (n, t)) :
    Backed (book t) := by
  obtain ⟨_, -, hsweeps⟩ := sweepExpiredExits_sweeps h
  exact hsweeps.backed hb hbacked

/-- What liquidating the position of `provider` takes off the deposits. -/
def State.seizedValue (s : State) (provider : Address) : ℤ :=
  if 0 < s.totalShares then
    mulDivOrZero (s.seizedShares provider) s.totalDeposited s.totalShares
  else
    0

/-- A liquidation seizes shares worth at most the unlocked liquidity. -/
def Entry.SeizesUnlocked (s : State) : Entry → Prop
  | .liquidatePosition _ provider =>
      s.seizedValue provider ≤ s.getAvailableLiquidity
  | _ => True

theorem Entry.seizesUnlocked_kind (he : e.SeizesUnlocked m.store)
    {provider : Address} {seized : ℤ}
    (h : e.kind m.store = some (.liquidate provider seized)) :
    (book m).recovered seized ≤ (book m).available := by
  cases e with
  | liquidatePosition =>
      cases h
      exact he
  | requestReinsuranceRecovery _ _ loss answer =>
      cases answer with
      | none => cases h
      | some answer =>
          simp only [Entry.kind] at h
          split at h <;> cases h
  | executeAdminWithdrawal =>
      obtain ⟨_, -, hkind⟩ := Option.map_eq_some_iff.mp h
      cases hkind
  | _ => cases h

theorem Performs.backed (h : Performs env m e b) (hb : Sound (book m))
    (hbacked : Backed (book m)) (he : e.SeizesUnlocked m.store) :
    Backed b := by
  induction h with
  | idle => exact hbacked
  | single hkind hchange =>
      refine hchange.backed hb hbacked ?_
      rintro provider seized rfl
      exact Entry.seizesUnlocked_kind he hkind
  | deposit hsweep _ hchange =>
      exact hchange.backed (sweepExpiredExits_sound hb hsweep)
        (sweepExpiredExits_backed hb hbacked hsweep) nofun
  | depositWithToken _ ih => exact ih trivial
  | withdraw hsweep hchange =>
      exact hchange.backed (sweepExpiredExits_sound hb hsweep)
        (sweepExpiredExits_backed hb hbacked hsweep) nofun
  | requestExit hsweep hchange =>
      exact hchange.backed (sweepExpiredExits_sound hb hsweep)
        (sweepExpiredExits_backed hb hbacked hsweep) nofun
  | claimExit _ hclear hburn =>
      have hcleared := hclear.backed hb hbacked nofun
      exact hburn.backed (hclear.sound hb) hcleared nofun
  | processExpiredExits hsweep =>
      exact sweepExpiredExits_backed hb hbacked hsweep

/-! ## Runs -/

/-- Liquidations stay within the unlocked liquidity. -/
def SeizesUnlocked (w : World State) : Label Entry → Prop
  | .call _ e => e.SeizesUnlocked w.machine.store
  | _ => True

theorem backed_inductive (self : Address) :
    ((system self).restrict SeizesUnlocked).Inductive fun w =>
      Sound (book w.machine) ∧ Backed (book w.machine) := by
  refine ((sound_inductive self).restrict SeizesUnlocked).and ?_ ?_
  · intro w hinit
    obtain ⟨now, store, bank⟩ := w
    obtain ⟨rfl, -⟩ := hinit
    exact le_rfl
  · rintro w l w' hsound - hbacked ⟨hguard, hstep⟩
    cases hstep with
    | call _ hexec => exact (exec_performs hexec).backed hsound hbacked hguard
    | tick => exact hbacked
    | transfer => exact hbacked
    | mint => exact hbacked

/-- As long as no liquidation takes more than the unlocked liquidity, locked
capital is covered by the deposits. -/
theorem locked_le_deposited {self : Address} {w : World State}
    (hw : ((system self).restrict SeizesUnlocked).Reachable w) :
    0 ≤ w.machine.store.totalLocked ∧
      w.machine.store.totalLocked ≤ w.machine.store.totalDeposited := by
  obtain ⟨hsound, hbacked⟩ := hw.invariant (backed_inductive self)
  exact ⟨hsound.locked_nonneg, hbacked⟩

/-! ## Two liquidations -/

namespace Scenario

/-- Two providers, and more than half of their deposits locked. -/
def lockedRun : List (Label Entry) :=
  [.call [provider] (.deposit provider 9000000 0 false),
    .call [other] (.deposit other 1000000 0 false),
    .call [admin] (.lockForPolicy admin 1 6000000)]

def committed : World State :=
  (TransitionSystem.execute (step exec pool) lockedRun wired).get
    (by decide +kernel)

/-- Liquidating the small position takes 333400 off the deposits. -/
def small : Label Entry :=
  .call [admin] (.liquidatePosition admin other)

def trimmed : World State :=
  (step exec pool committed small).get (by decide +kernel)

/-- One provider, with nine tenths of its deposit locked. -/
def exposedRun : List (Label Entry) :=
  [.call [provider] (.deposit provider 1000000 0 false),
    .call [admin] (.lockForPolicy admin 1 900000)]

def exposed : World State :=
  (TransitionSystem.execute (step exec pool) exposedRun wired).get
    (by decide +kernel)

def seizure : Label Entry :=
  .call [admin] (.liquidatePosition admin provider)

def seized : World State :=
  (step exec pool exposed seizure).get (by decide +kernel)

end Scenario

open Scenario in
/-- The small position is worth less than what is unlocked. -/
theorem locked_le_deposited_trimmed :
    trimmed.machine.store.totalLocked = 6000000 ∧
      trimmed.machine.store.totalDeposited = 9666600 ∧
      0 ≤ trimmed.machine.store.totalLocked ∧
      trimmed.machine.store.totalLocked ≤
        trimmed.machine.store.totalDeposited := by
  have hgenesis : ((system pool).restrict SeizesUnlocked).Reachable genesis :=
    .init ⟨rfl, rfl⟩
  have hwiring : SeizesUnlocked genesis wiring := trivial
  have hwired : ((system pool).restrict SeizesUnlocked).Reachable wired :=
    .step hgenesis ⟨hwiring, step_sound (Option.some_get _).symm⟩
  have hrun : (system pool).Run wired lockedRun committed :=
    TransitionSystem.run_of_execute (fun _ _ _ => step_sound)
      (Option.some_get _).symm
  have hcommitted := hwired.run (hrun.restrict (G := SeizesUnlocked) (by
    intro l hl t
    simp only [lockedRun, List.mem_cons, List.not_mem_nil, or_false] at hl
    rcases hl with rfl | rfl | rfl <;> trivial))
  have hsmall : SeizesUnlocked committed small := by
    show committed.machine.store.seizedValue other ≤
      committed.machine.store.getAvailableLiquidity
    decide +kernel
  have htrimmed :
      ((system pool).restrict SeizesUnlocked).Reachable trimmed :=
    .step hcommitted ⟨hsmall, step_sound (Option.some_get _).symm⟩
  exact ⟨by decide +kernel, by decide +kernel, locked_le_deposited htrimmed⟩

open Scenario in
/-- Liquidating the only provider takes the deposits below the locked
total. -/
theorem deposited_lt_locked_after_liquidation :
    (system pool).Reachable seized ∧
      seized.machine.store.totalDeposited = 111101 ∧
      seized.machine.store.totalLocked = 900000 := by
  have hrun : (system pool).Run wired exposedRun exposed :=
    TransitionSystem.run_of_execute (fun _ _ _ => step_sound)
      (Option.some_get _).symm
  exact ⟨.step (wired_reachable.run hrun) (step_sound (Option.some_get _).symm),
    by decide +kernel, by decide +kernel⟩

end Parashield.RiskPool
