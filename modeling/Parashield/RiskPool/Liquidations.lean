import Parashield.RiskPool.Backing
import Parashield.RiskPool.Capacity

/-!
# Risk pool: what a liquidation does to the pool

A liquidation takes the value of the seized shares off the deposits, and with
it off the unlocked liquidity.  Nothing is left to the other providers, and
locked capital is backed worse than before, unless the seized shares have no
value.
-/

namespace Parashield.RiskPool

open Support Support.Contract Invocation Book

section Liquidation

variable {self caller provider : Address} {env : Env} {s t : State}
  {m m' : Machine State} {w w' : World State}

/-- The shares to be seized are worth less than a token unit, or too many for
their value to be computed. -/
def State.SeizesNothing (s : State) (provider : Address) : Prop :=
  s.seizedShares provider * s.totalDeposited < s.totalShares ∨
    ¬ InI128 (s.seizedShares provider * s.totalDeposited)

instance (s : State) (provider : Address) :
    Decidable (s.SeizesNothing provider) :=
  inferInstanceAs (Decidable (_ ∨ _))

/-- The unlocked liquidity is no less than before. -/
def State.KeepsAvailable (s t : State) : Prop :=
  s.getAvailableLiquidity ≤ t.getAvailableLiquidity

/-- Unlocked liquidity per locked capital is no less than before. -/
def State.KeepsRatio (s t : State) : Prop :=
  s.getAvailableLiquidity * t.totalLocked ≤
    t.getAvailableLiquidity * s.totalLocked

/-- The deposits behind the shares that are gone are left to the others. -/
def State.LeavesDeposits (s t : State) : Prop :=
  t.totalShares < s.totalShares ∧ s.totalDeposited ≤ t.totalDeposited

/-- The value of some shares is rounded to nothing, or not computed. -/
theorem mulDivOrZero_eq_zero {x y d : ℤ} (hx : 0 ≤ x) (hy : 0 ≤ y)
    (hd : 0 < d) :
    mulDivOrZero x y d = 0 ↔ x * y < d ∨ ¬ InI128 (x * y) := by
  have hprod := mul_nonneg hx hy
  unfold mulDivOrZero
  by_cases hfits : InI128 (x * y)
  · have hquotient : InI128 ((x * y).tdiv d) := inI128_tdiv hd.le hfits
    rw [if_pos ⟨hfits, hd.ne', hquotient⟩, Int.tdiv_eq_ediv_of_nonneg hprod]
    constructor
    · intro hzero
      have hlt := Int.lt_ediv_add_one_mul_self (x * y) hd
      rw [hzero, zero_add, one_mul] at hlt
      exact .inl hlt
    · rintro (hlt | hnot)
      · exact Int.ediv_eq_zero_of_lt hprod hlt
      · exact absurd hfits hnot
  · rw [if_neg fun h => hfits h.1]
    simp [hfits]

/-- Without locked capital no position has a liability. -/
theorem positionLiability_of_unlocked {info : CollateralizationInfo}
    (hzero : s.totalLocked = 0)
    (h : s.getCollateralizationRatio provider = .ok info) :
    info.positionLiability = 0 := by
  simp only [State.getCollateralizationRatio, Check.bind_ok] at h
  obtain ⟨p, -, h⟩ := h
  split at h
  · rw [Check.pure_ok.mp h]
  · rw [Check.pure_ok.mp h, hzero]
    simp [mulDivOrZero]

/-- A liquidation needs locked capital. -/
theorem liquidatePosition_locked {r : LiquidationResult}
    (hb : Sound (book m))
    (h : liquidatePosition env caller provider m = .ok (r, m')) :
    0 < m.store.totalLocked := by
  simp [liquidatePosition] at h
  obtain ⟨-, p, -, info, hinfo, ⟨-, hliability⟩, -, -, -⟩ := h
  have hnonneg : 0 ≤ m.store.totalLocked := hb.locked_nonneg
  refine lt_of_le_of_ne hnonneg fun hzero => ?_
  rw [positionLiability_of_unlocked hzero.symm hinfo] at hliability
  exact lt_irrefl _ hliability

/-- What an accepted liquidation writes. -/
structure Liquidated (s t : State) (provider : Address) : Prop where
  seized : 0 < s.seizedShares provider
  issued : s.seizedShares provider ≤ s.totalShares
  value_nonneg : 0 ≤ s.seizedValue provider
  locked : t.totalLocked = s.totalLocked
  shares : t.totalShares = s.totalShares - s.seizedShares provider
  deposited : t.totalDeposited = s.totalDeposited - s.seizedValue provider

theorem liquidatePosition_liquidated {r : LiquidationResult}
    (hb : Sound (book m))
    (h : liquidatePosition env caller provider m = .ok (r, m')) :
    Liquidated m.store m'.store provider := by
  have hchange := liquidatePosition_change h
  generalize hbook : book m' = b' at hchange
  cases hchange with
  | liquidate hseizes =>
      have hissued := (hseizes.le_shares hb).trans (hb.held_le hseizes.found)
      have hpos := hseizes.seized_pos
      have hrange : InI128 m.store.totalShares := hb.shares_range
      have hrange' : InI128 m.store.totalDeposited := hb.deposited_range
      obtain ⟨hnonneg, hle⟩ := hseizes.recovered_bounds hb
      change m.store.seizedShares provider ≤ m.store.totalShares at hissued
      change 0 ≤ m.store.seizedValue provider at hnonneg
      change m.store.seizedValue provider ≤ m.store.totalDeposited at hle
      have hshares :
          InI128 (m.store.totalShares - m.store.seizedShares provider) := by
        unfold InI128 at *
        omega
      have hdeposited :
          InI128 (m.store.totalDeposited - m.store.seizedValue provider) := by
        unfold InI128 at *
        omega
      exact
        { seized := hpos
          issued := hissued
          value_nonneg := hnonneg
          locked := congrArg Book.totalLocked hbook
          shares :=
            (congrArg Book.totalShares hbook).trans (satI128_eq hshares)
          deposited :=
            (congrArg Book.totalDeposited hbook).trans
              (satI128_eq hdeposited) }

/-- The seized shares are worth nothing exactly if nothing is taken off. -/
theorem seizedValue_eq_zero (hb : Sound (book m))
    (h : Liquidated m.store t provider) :
    m.store.seizedValue provider = 0 ↔ m.store.SeizesNothing provider := by
  have htotal : 0 < m.store.totalShares := h.seized.trans_le h.issued
  rw [State.seizedValue, if_pos htotal]
  exact mulDivOrZero_eq_zero h.seized.le hb.deposited_nonneg htotal

/-- Every accepted liquidation in a reachable state keeps the unlocked
liquidity, its ratio to the locked capital, and the deposits behind the seized
shares if and only if these shares are worth less than a token unit or their
value does not fit. -/
theorem liquidation_restores_iff {signers : List Address}
    (hw : (system self).Reachable w)
    (hstep : (system self).Step w
      (.call signers (.liquidatePosition caller provider)) w') :
    (w.machine.store.KeepsAvailable w'.machine.store ↔
      w.machine.store.SeizesNothing provider) ∧
    (w.machine.store.KeepsRatio w'.machine.store ↔
      w.machine.store.SeizesNothing provider) ∧
    (w.machine.store.LeavesDeposits w'.machine.store ↔
      w.machine.store.SeizesNothing provider) := by
  have hb := hw.invariant (sound_inductive self)
  have hb' := (hw.step hstep).invariant (sound_inductive self)
  obtain ⟨-, hexec⟩ := hstep.exec_eq
  obtain ⟨r, hexec⟩ := perform_ok.mp hexec
  have hlocked := liquidatePosition_locked hb hexec
  have h := liquidatePosition_liquidated hb hexec
  have havailable : w.machine.store.getAvailableLiquidity = _ :=
    hb.available_eq
  have havailable' : w'.machine.store.getAvailableLiquidity = _ :=
    hb'.available_eq
  change _ = w.machine.store.totalDeposited - w.machine.store.totalLocked
    at havailable
  change _ = w'.machine.store.totalDeposited - w'.machine.store.totalLocked
    at havailable'
  rw [h.deposited, h.locked] at havailable'
  have hvalue := h.value_nonneg
  rw [← seizedValue_eq_zero hb h]
  refine ⟨?_, ?_, ?_⟩
  · unfold State.KeepsAvailable
    omega
  · unfold State.KeepsRatio
    rw [h.locked, mul_le_mul_iff_left₀ hlocked]
    omega
  · unfold State.LeavesDeposits
    have hseized := h.seized
    rw [h.shares, h.deposited]
    omega

end Liquidation

/-! ## Seizures with and without a value -/

namespace Scenario

/-- The second provider keeps a tenth of a token unit.  A first liquidation
takes the deposits below the locked capital. -/
def strayRun : List (Label Entry) :=
  [.call [provider] (.deposit provider 1000000 0 false),
    .call [other] (.deposit other 1000000 0 false),
    .call [other] (.withdraw other 999999870000000),
    .call [admin] (.lockForPolicy admin 1 900000), seizure]

def stray : World State :=
  (TransitionSystem.execute (step exec pool) strayRun wired).get
    (by decide +kernel)

def swept : World State :=
  (step exec pool stray small).get (by decide +kernel)

theorem stray_reachable : (system pool).Reachable stray := by
  have hrun : (system pool).Run wired strayRun stray :=
    TransitionSystem.run_of_execute (fun _ _ _ => step_sound)
      (Option.some_get _).symm
  exact wired_reachable.run hrun

theorem committed_reachable : (system pool).Reachable committed := by
  have hrun : (system pool).Run wired lockedRun committed :=
    TransitionSystem.run_of_execute (fun _ _ _ => step_sound)
      (Option.some_get _).symm
  exact wired_reachable.run hrun

end Scenario

open Scenario in
/-- A tenth of a token unit is seized, and nothing is taken off. -/
theorem liquidation_restores_iff_stray :
    stray.machine.store.SeizesNothing other ∧
      stray.machine.store.KeepsAvailable swept.machine.store ∧
      stray.machine.store.KeepsRatio swept.machine.store ∧
      stray.machine.store.LeavesDeposits swept.machine.store := by
  have hnothing : stray.machine.store.SeizesNothing other := by
    decide +kernel
  have hstep : (system pool).Step stray small swept :=
    step_sound (Option.some_get _).symm
  obtain ⟨havailable, hratio, hdeposits⟩ :=
    liquidation_restores_iff stray_reachable hstep
  exact ⟨hnothing, havailable.mpr hnothing, hratio.mpr hnothing,
    hdeposits.mpr hnothing⟩

open Scenario in
/-- 333400 are taken off the deposits, with the locked capital unchanged. -/
theorem liquidation_takes_value :
    (system pool).Reachable committed ∧
      (system pool).Step committed small trimmed ∧
      ¬ committed.machine.store.KeepsAvailable trimmed.machine.store ∧
      ¬ committed.machine.store.KeepsRatio trimmed.machine.store ∧
      ¬ committed.machine.store.LeavesDeposits trimmed.machine.store := by
  refine ⟨committed_reachable, step_sound (Option.some_get _).symm, ?_, ?_, ?_⟩
  · unfold State.KeepsAvailable
    decide +kernel
  · unfold State.KeepsRatio
    decide +kernel
  · unfold State.LeavesDeposits
    decide +kernel

end Parashield.RiskPool
