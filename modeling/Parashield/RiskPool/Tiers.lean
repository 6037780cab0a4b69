import Parashield.RiskPool.Fees
import Parashield.Support.Queue

/-!
# Risk pool: fee tiers

A provider gets the discount of the best tier whose deposit and lock duration
its position meets.  The tiers are found through the list of their names, so
the list has to name all of them.
-/

namespace Parashield.RiskPool

open Support Support.Contract Invocation Book

/-! ## Reading the tiers -/

/-- A position that is large and old enough for a tier. -/
def FeeTier.Meets (tier : FeeTier) (now : ℕ) (position : LpPosition) : Prop :=
  tier.minDeposit ≤ position.deposited ∧
    (tier.minLockDuration = 0 ∨
      tier.minLockDuration ≤ now - position.depositedAt)

instance (tier : FeeTier) (now : ℕ) (position : LpPosition) :
    Decidable (tier.Meets now position) :=
  inferInstanceAs (Decidable (_ ∧ _))

namespace Tariff

/-- The better of the best discount so far and the one of the tier `name`. -/
def better (t : Tariff) (now : ℕ) (position : LpPosition) (best : ℕ)
    (name : Symbol) : ℕ :=
  match t.feeTier name with
  | some tier =>
      if tier.Meets now position ∧ best < tier.discountBps then
        tier.discountBps
      else
        best
  | none => best

/-- What the tier `name` gives the position. -/
def offer (t : Tariff) (now : ℕ) (position : LpPosition) (name : Symbol) : ℕ :=
  match t.feeTier name with
  | some tier => if tier.Meets now position then tier.discountBps else 0
  | none => 0

theorem better_eq (t : Tariff) (now : ℕ) (position : LpPosition) (best : ℕ)
    (name : Symbol) :
    t.better now position best name =
      max best (t.offer now position name) := by
  unfold better offer
  split
  · split
    · next hmeets =>
        rw [if_pos hmeets.1, max_eq_right hmeets.2.le]
    · next hworse =>
        split
        · next hmeets =>
            have hle := not_lt.mp fun hlt => hworse ⟨hmeets, hlt⟩
            exact (max_eq_left hle).symm
        · exact (Nat.max_zero best).symm
  · exact (Nat.max_zero best).symm

end Tariff

def Storage.getLpFeeDiscount (s : Storage) (now : ℕ) (provider : Address) :
    ℕ :=
  match s.base.lpPosition provider with
  | some position =>
      s.tariff.feeTierList.foldl (s.tariff.better now position) 0
  | none => 0

/-! ## All tiers are listed -/

namespace Tariff

variable {t t' t'' : Tariff} {name : Symbol} {tier : FeeTier}

/-- The list names the stored tiers, and what is stored passed the checks. -/
structure Sound (t : Tariff) : Prop where
  listed : Enumerates t.feeTierList fun name => (t.feeTier name).isSome = true
  valid : ∀ name tier, t.feeTier name = some tier →
    tier.Valid ∧ tier.name = name

theorem Sound.setTier (h : t.Sound) (htier : tier.Valid) :
    (t.setTier tier).Sound where
  listed := by
    have hiff : ∀ name, ((t.setTier tier).feeTier name).isSome = true ↔
        (t.feeTier name).isSome = true ∨ name = tier.name := by
      intro name
      by_cases hname : name = tier.name
      · simp [hname]
      · simp [hname]
    unfold Tariff.setTier
    simp only
    split
    · next hmem =>
        refine h.listed.congr fun name => (hiff name).trans ⟨?_, .inl⟩
        rintro (hset | rfl)
        · exact hset
        · exact (h.listed.mem_iff _).mp hmem
    · next hnew =>
        exact h.listed.push (fun hset => hnew ((h.listed.mem_iff _).mpr hset))
          hiff
  valid name found hfound := by
    by_cases hname : name = tier.name
    · subst hname
      rw [setTier_feeTier, Function.update_self] at hfound
      obtain rfl := Option.some.inj hfound
      exact ⟨htier, rfl⟩
    · rw [setTier_feeTier, Function.update_of_ne hname] at hfound
      exact h.valid name found hfound

theorem Sound.removeTier (h : t.Sound) (name : Symbol) :
    (t.removeTier name).Sound where
  listed := by
    refine h.listed.filter fun other => ?_
    by_cases hname : other = name
    · simp [hname]
    · simp [hname]
  valid other found hfound := by
    by_cases hname : other = name
    · rw [removeTier_feeTier, hname, Function.update_self] at hfound
      cases hfound
    · rw [removeTier_feeTier, Function.update_of_ne hname] at hfound
      exact h.valid other found hfound

end Tariff

theorem tariff_inductive (self : Address) :
    (feeSystem self).Inductive fun w => w.machine.store.tariff.Sound where
  init w hinit := by
    obtain ⟨now, store, bank⟩ := w
    obtain ⟨rfl, -⟩ := hinit
    have hnone : Storage.deployed.tariff.Sound :=
      ⟨.empty fun _ => Bool.false_ne_true, fun _ _ hfound => by cases hfound⟩
    exact hnone
  step w l w' hsound hstep := by
    cases hstep with
    | call _ hexec =>
        cases execCharge_charges hexec with
        | pool _ hm =>
            subst hm
            exact hsound
        | configured _ hm =>
            subst hm
            exact ⟨hsound.listed, hsound.valid⟩
        | tiered htier hm =>
            subst hm
            exact hsound.setTier htier
        | untiered _ hm =>
            subst hm
            exact hsound.removeTier _
    | tick | transfer | mint => exact hsound

/-! ## The best tier -/

section Best

variable {s : Storage} {now : ℕ} {provider : Address} {p : LpPosition}

theorem getLpFeeDiscount_eq (hp : s.base.lpPosition provider = some p) :
    s.getLpFeeDiscount now provider =
      s.tariff.feeTierList.foldl (s.tariff.better now p) 0 := by
  unfold Storage.getLpFeeDiscount
  rw [hp]

/-- A tier that is stored and met gives its discount at least. -/
theorem discount_le (hsound : s.tariff.Sound)
    (hp : s.base.lpPosition provider = some p) {name : Symbol} {tier : FeeTier}
    (htier : s.tariff.feeTier name = some tier) (hmeets : tier.Meets now p) :
    tier.discountBps ≤ s.getLpFeeDiscount now provider := by
  obtain ⟨-, hall, -⟩ := foldl_best (s.tariff.better_eq now p)
    s.tariff.feeTierList 0
  have hmem : name ∈ s.tariff.feeTierList := by
    rw [hsound.listed.mem_iff, htier]
    rfl
  have hoffer : s.tariff.offer now p name = tier.discountBps := by
    simp only [Tariff.offer, htier, if_pos hmeets]
  rw [getLpFeeDiscount_eq hp, ← hoffer]
  exact hall name hmem

/-- A discount is that of a tier that is stored and met. -/
theorem discount_from_tier (hpos : 0 < s.getLpFeeDiscount now provider) :
    ∃ p name tier, s.base.lpPosition provider = some p ∧
      s.tariff.feeTier name = some tier ∧ tier.Meets now p ∧
      s.getLpFeeDiscount now provider = tier.discountBps := by
  cases hp : s.base.lpPosition provider with
  | none =>
      simp only [Storage.getLpFeeDiscount, hp] at hpos
      exact absurd hpos (lt_irrefl 0)
  | some p =>
      rw [getLpFeeDiscount_eq hp] at hpos ⊢
      obtain ⟨-, -, hzero | ⟨name, -, hvalue⟩⟩ :=
        foldl_best (s.tariff.better_eq now p) s.tariff.feeTierList 0
      · exact absurd hzero hpos.ne'
      · rw [hvalue] at hpos ⊢
        cases htier : s.tariff.feeTier name with
        | none =>
            simp only [Tariff.offer, htier] at hpos
            exact absurd hpos (lt_irrefl 0)
        | some tier =>
            simp only [Tariff.offer, htier] at hpos ⊢
            split at hpos
            · next hmeets =>
                exact ⟨p, name, tier, rfl, htier, hmeets, if_pos hmeets⟩
            · exact absurd hpos (lt_irrefl 0)

end Best

/-! ## Runs -/

section Runs

variable {self : Address} {w : World Storage}

/-- In every reachable state a provider has the discount of the best tier that
is stored and met by its position, and none without such a tier. -/
theorem lp_discount_is_best (hw : (feeSystem self).Reachable w)
    (provider : Address) :
    w.machine.store.getLpFeeDiscount w.now provider ≤ 10000 ∧
      (0 < w.machine.store.getLpFeeDiscount w.now provider →
        ∃ p name tier, w.machine.store.base.lpPosition provider = some p ∧
          w.machine.store.tariff.feeTier name = some tier ∧
          tier.Meets w.now p ∧
          w.machine.store.getLpFeeDiscount w.now provider =
            tier.discountBps) ∧
      ∀ p name tier, w.machine.store.base.lpPosition provider = some p →
        w.machine.store.tariff.feeTier name = some tier →
        tier.Meets w.now p →
        tier.discountBps ≤
          w.machine.store.getLpFeeDiscount w.now provider := by
  have hsound := hw.invariant (tariff_inductive self)
  refine ⟨?_, discount_from_tier, fun p name tier hp htier hmeets =>
    discount_le hsound hp htier hmeets⟩
  rcases Nat.eq_zero_or_pos
    (w.machine.store.getLpFeeDiscount w.now provider) with hzero | hpos
  · rw [hzero]
    exact Nat.zero_le _
  · obtain ⟨p, name, tier, -, htier, -, hvalue⟩ := discount_from_tier hpos
    rw [hvalue]
    exact (hsound.valid name tier htier).1.whole

end Runs

namespace Scenario

/-- One tier for half of the deposit, and one that takes a day. -/
def tiering : List (Label FeeEntry) :=
  [.call [admin] (.setFeeTier admin Symbols.crop 500000 0 300),
    .call [admin] (.setFeeTier admin Symbols.flight 0 86400 500)]

def tiered : World Storage :=
  (TransitionSystem.execute (step execCharge pool) tiering priced).get
    (by decide +kernel)

theorem tiered_reachable : (feeSystem pool).Reachable tiered :=
  priced_reachable.run
    (TransitionSystem.run_of_execute (fun _ _ _ => step_sound)
      (Option.some_get _).symm)

theorem lp_discount_is_best_tiered :
    tiered.machine.store.getLpFeeDiscount tiered.now provider ≤ 10000 :=
  (lp_discount_is_best tiered_reachable provider).1

end Scenario

end Parashield.RiskPool
