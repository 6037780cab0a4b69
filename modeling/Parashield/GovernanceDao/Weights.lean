import Parashield.GovernanceDao.Changes

/-!
# Governance DAO: time weights

Time weighting counts part of a balance, never more than all of it.
-/

namespace Parashield.GovernanceDao

open Support Support.Contract Invocation

variable {self : Address} {env : Env} {e : Entry} {s s' : State}
  {m m' : Machine State} {w : World State}

/-- The time weights are in range. -/
structure State.Weighs (s : State) : Prop where
  ramps : s.timeWeight.enabled = true → s.timeWeight.rampPeriod ≠ 0 ∧
    s.timeWeight.minBps ≤ fullWeightBps
  aged : ∀ a cp, s.weightCheckpoint a = some cp → 0 ≤ cp.amount

theorem satI128_le {x : ℤ} (hx : 0 ≤ x) : satI128 x ≤ x := by
  unfold satI128 minI128 maxI128
  omega

theorem satI128_nonneg {x : ℤ} (hx : 0 ≤ x) : 0 ≤ satI128 x := by
  unfold satI128 minI128 maxI128
  omega

/-- A part of `x` by a factor of at most one. -/
theorem tdiv_fullWeight {x factor : ℤ} (hx : 0 ≤ x) (hfactor : 0 ≤ factor)
    (hle : factor ≤ fullWeightBps) :
    0 ≤ (satI128 (x * factor)).tdiv fullWeightBps ∧
      (satI128 (x * factor)).tdiv fullWeightBps ≤ x := by
  have hprod : 0 ≤ x * factor := Int.mul_nonneg hx hfactor
  have hnonneg := satI128_nonneg hprod
  rw [Int.tdiv_eq_ediv_of_nonneg hnonneg]
  refine ⟨Int.ediv_nonneg hnonneg (by decide), ?_⟩
  refine Int.ediv_le_of_le_mul (by decide) ?_
  calc satI128 (x * factor)
      ≤ x * factor := satI128_le hprod
    _ ≤ x * fullWeightBps := Int.mul_le_mul_of_nonneg_left hle hx

/-- The factor of the aged part is between its least value and one. -/
theorem ramp_bounds {least full : ℤ} {elapsed ramp : ℕ} (hleast : 0 ≤ least)
    (hle : least ≤ full) (helapsed : elapsed ≤ ramp) :
    0 ≤ least + ((full - least) * elapsed).tdiv ramp ∧
      least + ((full - least) * elapsed).tdiv ramp ≤ full := by
  have hrest : 0 ≤ full - least := by omega
  have hprod : 0 ≤ (full - least) * elapsed :=
    Int.mul_nonneg hrest (Int.natCast_nonneg elapsed)
  rw [Int.tdiv_eq_ediv_of_nonneg hprod]
  have hlow : 0 ≤ (full - least) * elapsed / ramp :=
    Int.ediv_nonneg hprod (Int.natCast_nonneg ramp)
  have hhigh : (full - least) * elapsed / ramp ≤ full - least := by
    rcases Nat.eq_zero_or_pos ramp with rfl | hpos
    · simpa using hrest
    · refine Int.ediv_le_of_le_mul (by exact_mod_cast hpos) ?_
      exact Int.mul_le_mul_of_nonneg_left (by exact_mod_cast helapsed) hrest
  omega

/-- The aged part and the rest, each by a factor of its own. -/
theorem mixed_bounds {balance aged factor least : ℤ} (haged : 0 ≤ aged)
    (hle : aged ≤ balance) (hfactor : 0 ≤ factor ∧ factor ≤ fullWeightBps)
    (hleast : 0 ≤ least ∧ least ≤ fullWeightBps) :
    0 ≤ (satI128 (aged * factor)).tdiv fullWeightBps +
        (satI128 ((balance - aged) * least)).tdiv fullWeightBps ∧
      (satI128 (aged * factor)).tdiv fullWeightBps +
        (satI128 ((balance - aged) * least)).tdiv fullWeightBps ≤ balance := by
  have hrest : 0 ≤ balance - aged := by omega
  have hold := tdiv_fullWeight haged hfactor.1 hfactor.2
  have hnew := tdiv_fullWeight hrest hleast.1 hleast.2
  omega

/-! ## The aged part and its factor -/

/-- The part of `balance` that has the age of the checkpoint. -/
def State.aged (s : State) (holder : Address) (balance : ℤ) : ℤ :=
  match s.weightCheckpoint holder with
  | some cp => min cp.amount balance
  | none => 0

/-- The age of the checkpoint, up to the length of the ramp. -/
def State.maturity (s : State) (now : ℕ) (holder : Address) : ℕ :=
  match s.weightCheckpoint holder with
  | some cp => min (now - cp.since) s.timeWeight.rampPeriod
  | none => 0

/-- The factor of the aged part. -/
def State.factor (s : State) (now : ℕ) (holder : Address) : ℤ :=
  s.timeWeight.minBps + (((fullWeightBps : ℤ) - s.timeWeight.minBps) *
    s.maturity now holder).tdiv s.timeWeight.rampPeriod

/-- The weight of `balance` if `aged` of it has the age of the checkpoint. -/
def State.weighed (s : State) (now : ℕ) (holder : Address)
    (aged balance : ℤ) : ℤ :=
  (satI128 (aged * s.factor now holder)).tdiv fullWeightBps +
    (satI128 ((balance - aged) * s.timeWeight.minBps)).tdiv fullWeightBps

theorem State.timeWeighted_off {now : ℕ} {holder : Address} {balance : ℤ}
    (h : s.timeWeight.enabled = false ∨ balance ≤ 0) :
    s.timeWeighted now holder balance = balance := by
  unfold State.timeWeighted
  exact if_pos h

theorem State.timeWeighted_on {now : ℕ} {holder : Address} {balance : ℤ}
    (hon : s.timeWeight.enabled = true) (hpos : 0 < balance) :
    s.timeWeighted now holder balance =
      s.weighed now holder (s.aged holder balance) balance := by
  have hneither : ¬ (s.timeWeight.enabled = false ∨ balance ≤ 0) := by
    rw [hon]
    simpa using hpos
  unfold State.timeWeighted
  rw [if_neg hneither, State.weighed, State.factor, State.aged,
    State.maturity]
  cases s.weightCheckpoint holder with
  | none => simp
  | some cp => rfl

theorem State.maturity_le (s : State) (now : ℕ) (holder : Address) :
    s.maturity now holder ≤ s.timeWeight.rampPeriod := by
  unfold State.maturity
  split
  · exact Nat.min_le_right _ _
  · exact Nat.zero_le _

theorem State.Weighs.least_bounds (h : s.Weighs)
    (hon : s.timeWeight.enabled = true) :
    (0 : ℤ) ≤ s.timeWeight.minBps ∧
      (s.timeWeight.minBps : ℤ) ≤ fullWeightBps :=
  ⟨Int.natCast_nonneg _, by exact_mod_cast (h.ramps hon).2⟩

theorem State.Weighs.factor_bounds (h : s.Weighs)
    (hon : s.timeWeight.enabled = true) (now : ℕ) (holder : Address) :
    0 ≤ s.factor now holder ∧ s.factor now holder ≤ fullWeightBps :=
  ramp_bounds (h.least_bounds hon).1 (h.least_bounds hon).2
    (s.maturity_le now holder)

theorem State.Weighs.aged_bounds (h : s.Weighs) {holder : Address}
    {balance : ℤ} (hbalance : 0 ≤ balance) :
    0 ≤ s.aged holder balance ∧ s.aged holder balance ≤ balance := by
  unfold State.aged
  cases hcp : s.weightCheckpoint holder with
  | none => exact ⟨Int.le_refl 0, hbalance⟩
  | some cp =>
      have hamount := h.aged holder cp hcp
      show 0 ≤ min cp.amount balance ∧ min cp.amount balance ≤ balance
      omega

/-- A time weight is at most the balance. -/
theorem State.Weighs.bounds (h : s.Weighs) {now : ℕ} {holder : Address}
    {balance : ℤ} (hbalance : 0 ≤ balance) :
    0 ≤ s.timeWeighted now holder balance ∧
      s.timeWeighted now holder balance ≤ balance := by
  by_cases hoff : s.timeWeight.enabled = false ∨ balance ≤ 0
  · rw [State.timeWeighted_off hoff]
    exact ⟨hbalance, Int.le_refl balance⟩
  · obtain ⟨hon, hpos⟩ := not_or.mp hoff
    have hon : s.timeWeight.enabled = true := by simpa using hon
    have haged : 0 ≤ s.aged holder balance ∧ s.aged holder balance ≤ balance :=
      h.aged_bounds hbalance
    rw [State.timeWeighted_on hon (by omega)]
    exact mixed_bounds haged.1 haged.2 (h.factor_bounds hon now holder)
      (h.least_bounds hon)

/-! ## Every reachable state -/

theorem State.Weighs.congr (h : s.Weighs) (hsame : SameWeighing s s') :
    s'.Weighs where
  ramps := hsame.timeWeight ▸ h.ramps
  aged := hsame.weightCheckpoint ▸ h.aged

/-- Settings are checked, and checkpoints hold balances. -/
theorem aside_weighs {u : Unit} (he : e.IsAside)
    (h : exec env e m = .ok (u, m')) (hm : m.store.Weighs) :
    m'.store.Weighs := by
  cases aside_cases h he with
  | timeWeight hvalid heq =>
      rw [heq]
      exact ⟨hvalid, hm.aged⟩
  | checkpoint _ heq =>
      rw [heq]
      refine ⟨hm.ramps, fun a cp hcp => ?_⟩
      simp only [Function.update_apply] at hcp
      split at hcp
      · obtain rfl := Option.some.inj hcp
        exact Int.natCast_nonneg _
      · exact hm.aged a cp hcp
  | quorumDecay _ _ _ _ heq =>
      rw [heq]
      exact ⟨hm.ramps, hm.aged⟩
  | rest hsame => exact hm.congr hsame

theorem weighs_inductive (self : Address) :
    (system self).Inductive fun w => w.machine.store.Weighs where
  init w hw := by
    rw [hw.1]
    exact ⟨nofun, nofun⟩
  step w l w' h hstep := by
    cases hstep with
    | @call _ e _ _ hexec =>
        by_cases he : e.IsAside
        · exact aside_weighs he hexec h
        · refine changes_keep (I := fun m => m.store.Weighs)
            (fun m m' hchange hm => ?_) (exec_changes hexec) h
          exact hm.congr (hchange.sameSettings he).toSameWeighing
    | tick => exact h
    | transfer => exact h
    | mint => exact h

end Parashield.GovernanceDao
