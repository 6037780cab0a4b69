import Parashield.RiskPool.Reported
import Parashield.Support.Ramp

/-!
# Risk pool: dynamic fees

The pool stores what it charges next to everything else: how its fee follows
its utilization, and tiers of discounts.  Neither is written by the other entry
points, so the pool with its tariff refines the pool without.
-/

namespace Parashield.RiskPool

open Support Support.Contract Invocation Book

/-! ## The tariff -/

/-- How the fee follows the utilization, in basis points. -/
structure DynamicFeeConfig where
  baseFeeBps : ℕ
  maxFeeBps : ℕ
  minFeeBps : ℕ
  utilizationThresholdBps : ℕ
  feeAdjustmentPer1pctBps : ℕ
  enabled : Bool
  lastUpdated : ℕ
  deriving DecidableEq, Repr

/-- A discount for deposits that are large or old enough. -/
structure FeeTier where
  minDeposit : ℤ
  minLockDuration : ℕ
  discountBps : ℕ
  name : Symbol
  deriving DecidableEq, Repr

structure Tariff where
  dynamicFeeConfig : Option DynamicFeeConfig
  feeTier : Symbol → Option FeeTier
  feeTierList : List Symbol

namespace Tariff

/-- Store a tier, and list its name unless it is listed. -/
def setTier (t : Tariff) (tier : FeeTier) : Tariff :=
  { t with
    feeTier := Function.update t.feeTier tier.name (some tier)
    feeTierList :=
      if tier.name ∈ t.feeTierList then t.feeTierList
      else t.feeTierList ++ [tier.name] }

def removeTier (t : Tariff) (name : Symbol) : Tariff :=
  { t with
    feeTier := Function.update t.feeTier name none
    feeTierList := t.feeTierList.filter fun listed => listed ≠ name }

@[simp] theorem setTier_feeTier (t : Tariff) (tier : FeeTier) :
    (t.setTier tier).feeTier =
      Function.update t.feeTier tier.name (some tier) := rfl

@[simp] theorem removeTier_feeTier (t : Tariff) (name : Symbol) :
    (t.removeTier name).feeTier = Function.update t.feeTier name none := rfl

end Tariff

/-- The storage of the pool with what it charges. -/
structure Storage where
  base : State
  tariff : Tariff

def Storage.deployed : Storage where
  base := State.deployed
  tariff :=
    { dynamicFeeConfig := none
      feeTier := fun _ => none
      feeTierList := [] }

def Storage.getDynamicFeeConfig (s : Storage) : DynamicFeeConfig :=
  s.tariff.dynamicFeeConfig.getD
    { baseFeeBps := 0
      maxFeeBps := 1000
      minFeeBps := 0
      utilizationThresholdBps := 7000
      feeAdjustmentPer1pctBps := 10
      enabled := false
      lastUpdated := 0 }

/-- Clamp to 32 bits, as the saturating operations do. -/
def satU32 (n : ℕ) : ℕ := min n maxU32

def maxU128 : ℕ := 2 ^ 128 - 1

def Storage.calculateDynamicFee (s : Storage) : ℕ :=
  let config := s.getDynamicFeeConfig
  if config.enabled = false then
    config.baseFeeBps
  else
    let utilBps := s.base.getCapacityStatus.utilizationBps
    if utilBps ≤ config.utilizationThresholdBps then
      config.baseFeeBps
    else
      let pctAbove := (utilBps - config.utilizationThresholdBps) / 100
      let feeIncrease := satU32 (pctAbove * config.feeAdjustmentPer1pctBps)
      let adjusted := satU32 (config.baseFeeBps + feeIncrease)
      max (min adjusted config.maxFeeBps) config.minFeeBps

/-- The rate of a product, up to doubled as the pool fills. -/
def State.getDynamicPremiumRate (s : State) (baseRateBps : ℕ) : ℕ :=
  let util := min s.getCapacityStatus.utilizationBps 10000
  let scaled := min (baseRateBps * min (10000 + util) maxU128) maxU128 / 10000
  if scaled ≤ maxU32 then scaled else maxU32

/-! ## Entry points -/

def poolPart : Part (Machine Storage) (Machine State) where
  get m := ⟨m.store.base, m.bank⟩
  put t m := ⟨{ m.store with base := t.store }, t.bank⟩
  get_put _ _ := rfl
  put_get _ := rfl
  put_put _ _ _ := rfl

/-- An invocation of the pool with its tariff. -/
abbrev Charge (α : Type) := Invocation Error Storage α

/-- Run a call of the pool without its tariff. -/
def asPool {α : Type} (c : Call α) : Charge α :=
  zoom poolPart id c

def setDynamicFeeConfig (env : Env) (admin : Address)
    (baseFeeBps maxFeeBps minFeeBps utilizationThresholdBps
      feeAdjustmentPer1pctBps : ℕ) (enabled : Bool) : Charge Unit := do
  asPool (requireAdmin env admin)
  ensure (baseFeeBps ≤ 10000 ∧ maxFeeBps ≤ 10000 ∧ minFeeBps ≤ 10000)
    .invalidParameter
  ensure (minFeeBps ≠ 0 ∧ baseFeeBps ≠ 0) .invalidParameter
  ensure (minFeeBps ≤ baseFeeBps ∧ baseFeeBps ≤ maxFeeBps) .invalidParameter
  ensure (utilizationThresholdBps ≤ 10000) .invalidParameter
  update fun s =>
    { s with
      tariff :=
        { s.tariff with
          dynamicFeeConfig :=
            some
              { baseFeeBps := baseFeeBps
                maxFeeBps := maxFeeBps
                minFeeBps := minFeeBps
                utilizationThresholdBps := utilizationThresholdBps
                feeAdjustmentPer1pctBps := feeAdjustmentPer1pctBps
                enabled := enabled
                lastUpdated := env.now } } }

def setFeeTier (env : Env) (admin : Address) (name : Symbol) (minDeposit : ℤ)
    (minLockDuration discountBps : ℕ) : Charge Unit := do
  asPool (requireAdmin env admin)
  ensure (discountBps ≤ 10000) .invalidFeeTier
  ensure (0 ≤ minDeposit) .invalidFeeTier
  update fun s =>
    { s with
      tariff :=
        s.tariff.setTier
          { minDeposit := minDeposit
            minLockDuration := minLockDuration
            discountBps := discountBps
            name := name } }

def removeFeeTier (env : Env) (admin : Address) (name : Symbol) :
    Charge Unit := do
  asPool (requireAdmin env admin)
  let s ← load
  ensure ((s.tariff.feeTier name).isSome = true) .invalidFeeTier
  update fun s => { s with tariff := s.tariff.removeTier name }

/-- The entry points of the pool with its tariff. -/
inductive FeeEntry where
  | pool (e : Entry)
  | setDynamicFeeConfig (admin : Address)
      (baseFeeBps maxFeeBps minFeeBps utilizationThresholdBps
        feeAdjustmentPer1pctBps : ℕ) (enabled : Bool)
  | setFeeTier (admin : Address) (name : Symbol) (minDeposit : ℤ)
      (minLockDuration discountBps : ℕ)
  | removeFeeTier (admin : Address) (name : Symbol)

def execCharge (env : Env) : FeeEntry → Charge Unit
  | .pool e => asPool (exec env e)
  | .setDynamicFeeConfig admin base most least threshold adjustment enabled =>
      setDynamicFeeConfig env admin base most least threshold adjustment
        enabled
  | .setFeeTier admin name least lock discount =>
      setFeeTier env admin name least lock discount
  | .removeFeeTier admin name => removeFeeTier env admin name

/-- Runs of the pool deployed at `self`, with its tariff. -/
def feeSystem (self : Address) :
    TransitionSystem (World Storage) (Label FeeEntry) :=
  deployment execCharge Storage.deployed self

/-! ## The pool without its tariff -/

/-- The world around the pool, seen without the tariff. -/
def poolWorld (w : World Storage) : World State :=
  ⟨w.now, poolPart.get w.machine⟩

/-- What a step is for the pool without its tariff. -/
def poolLabel : Label FeeEntry → Option (Label Entry)
  | .call signers (.pool e) => some (.call signers e)
  | .call _ _ => none
  | .tick seconds => some (.tick seconds)
  | .transfer token sender recipient amount =>
      some (.transfer token sender recipient amount)
  | .mint token holder amount => some (.mint token holder amount)

/-! ## What the calls do -/

/-- A configuration whose bounds are in order. -/
structure DynamicFeeConfig.Valid (c : DynamicFeeConfig) : Prop where
  floor : c.minFeeBps ≤ c.baseFeeBps
  capped : c.baseFeeBps ≤ c.maxFeeBps
  whole : c.maxFeeBps ≤ 10000
  threshold : c.utilizationThresholdBps ≤ 10000

structure FeeTier.Valid (tier : FeeTier) : Prop where
  deposit : 0 ≤ tier.minDeposit
  whole : tier.discountBps ≤ 10000

section Calls

variable {env : Env} {m m' : Machine Storage} {u : Unit}

/-- One call, as far as the tariff is concerned. -/
inductive Charges (env : Env) (m m' : Machine Storage) : FeeEntry → Prop
  | pool {e : Entry} {t : Machine State} :
      exec env e (poolPart.get m) = .ok ((), t) →
      m' = poolPart.put t m → Charges env m m' (.pool e)
  | configured {admin : Address} {c : DynamicFeeConfig} :
      c.Valid →
      m' = ⟨{ m.store with
          tariff := { m.store.tariff with dynamicFeeConfig := some c } },
        m.bank⟩ →
      Charges env m m'
        (.setDynamicFeeConfig admin c.baseFeeBps c.maxFeeBps c.minFeeBps
          c.utilizationThresholdBps c.feeAdjustmentPer1pctBps c.enabled)
  | tiered {admin : Address} {t : FeeTier} :
      t.Valid →
      m' = ⟨{ m.store with tariff := m.store.tariff.setTier t }, m.bank⟩ →
      Charges env m m'
        (.setFeeTier admin t.name t.minDeposit t.minLockDuration
          t.discountBps)
  | untiered {admin : Address} {name : Symbol} :
      (m.store.tariff.feeTier name).isSome = true →
      m' = ⟨{ m.store with tariff := m.store.tariff.removeTier name },
        m.bank⟩ →
      Charges env m m' (.removeFeeTier admin name)

theorem asPool_ok {α : Type} {c : Call α} {a : α} :
    asPool c m = .ok (a, m') ↔
      ∃ t, c (poolPart.get m) = .ok (a, t) ∧ m' = poolPart.put t m :=
  zoom_ok

@[simp] theorem asPool_requireAdmin {admin : Address} :
    asPool (requireAdmin env admin) m = .ok (u, m') ↔
      (m.store.base.admin = some admin ∧ admin ∈ env.signers) ∧ m' = m := by
  simp only [asPool_ok, requireAdmin, bind_ok, load_ok, unwrap_ok, ensure_ok,
    requireAuth_ok]
  constructor
  · rintro ⟨t, ⟨_, _, ⟨rfl, rfl⟩, _, _, ⟨hadmin, rfl⟩, _, _, ⟨rfl, rfl⟩,
      hsigned, rfl⟩, rfl⟩
    exact ⟨⟨hadmin, hsigned⟩, poolPart.put_get m⟩
  · rintro ⟨⟨hadmin, hsigned⟩, rfl⟩
    exact ⟨_, ⟨_, _, ⟨rfl, rfl⟩, _, _, ⟨hadmin, rfl⟩, (), _, ⟨rfl, rfl⟩,
      hsigned, rfl⟩, (poolPart.put_get m').symm⟩

theorem execCharge_charges {e : FeeEntry}
    (h : execCharge env e m = .ok (u, m')) : Charges env m m' e := by
  cases e with
  | pool e =>
      obtain ⟨t, hexec, rfl⟩ := asPool_ok.mp h
      exact .pool hexec rfl
  | setDynamicFeeConfig admin base most least threshold adjustment enabled =>
      simp only [execCharge, setDynamicFeeConfig, bind_ok, asPool_requireAdmin,
        ensure_ok, update_ok] at h
      obtain ⟨_, _, ⟨-, rfl⟩, _, _, ⟨⟨-, hmost, -⟩, rfl⟩, _, _, ⟨-, rfl⟩, _, _,
        ⟨⟨hfloor, hcap⟩, rfl⟩, _, _, ⟨hthreshold, rfl⟩, rfl⟩ := h
      exact .configured (c :=
        { baseFeeBps := base
          maxFeeBps := most
          minFeeBps := least
          utilizationThresholdBps := threshold
          feeAdjustmentPer1pctBps := adjustment
          enabled := enabled
          lastUpdated := env.now }) ⟨hfloor, hcap, hmost, hthreshold⟩ rfl
  | setFeeTier admin name least lock discount =>
      simp only [execCharge, setFeeTier, bind_ok, asPool_requireAdmin,
        ensure_ok, update_ok] at h
      obtain ⟨_, _, ⟨-, rfl⟩, _, _, ⟨hwhole, rfl⟩, _, _, ⟨hdeposit, rfl⟩,
        rfl⟩ := h
      exact .tiered (t :=
        { minDeposit := least
          minLockDuration := lock
          discountBps := discount
          name := name }) ⟨hdeposit, hwhole⟩ rfl
  | removeFeeTier admin name =>
      simp only [execCharge, removeFeeTier, bind_ok, asPool_requireAdmin,
        load_ok, ensure_ok, update_ok] at h
      obtain ⟨_, _, ⟨-, rfl⟩, _, _, ⟨rfl, rfl⟩, _, _, ⟨hset, rfl⟩, rfl⟩ := h
      exact .untiered hset rfl

/-- Entry points of the tariff do nothing else to the pool. -/
theorem Charges.poolPart_eq {e : FeeEntry} (h : Charges env m m' e)
    (he : ∀ entry, e ≠ .pool entry) : poolPart.get m' = poolPart.get m := by
  cases h with
  | pool => exact absurd rfl (he _)
  | configured _ hm | tiered _ hm | untiered _ hm =>
      rw [hm]
      rfl

end Calls

/-- Without its tariff, the pool runs as before. -/
theorem feeSystem_refines (self : Address) :
    (feeSystem self).Refines (system self) poolWorld poolLabel where
  init w hinit := by
    obtain ⟨hstore, hhistory⟩ := hinit
    exact ⟨congrArg Storage.base hstore, hhistory⟩
  step w l w' k hk hstep := by
    cases hstep with
    | call hself hexec =>
        cases execCharge_charges hexec with
        | pool hpool hm =>
            obtain rfl := Option.some.inj hk
            subst hm
            exact .call hself hpool
        | configured | tiered | untiered => cases hk
    | tick hle =>
        obtain rfl := Option.some.inj hk
        exact .tick hle
    | transfer hself hB =>
        obtain rfl := Option.some.inj hk
        exact .transfer hself hB
    | mint =>
        obtain rfl := Option.some.inj hk
        exact .mint
  stutter w l w' hk hstep := by
    cases hstep with
    | call _ hexec =>
        have hsame := (execCharge_charges hexec).poolPart_eq ?_
        · exact congrArg (World.mk w.now) hsame
        · rintro entry rfl
          cases hk
    | tick | transfer | mint => cases hk

/-! ## The configuration over runs -/

/-- Entry points that write the configuration. -/
def FeeEntry.configures : FeeEntry → Bool
  | .setDynamicFeeConfig .. => true
  | _ => false

/-- A step that writes the configuration. -/
def Configures : Label FeeEntry → Prop
  | .call _ e => e.configures = true
  | _ => False

instance : DecidablePred Configures
  | .call _ e => inferInstanceAs (Decidable (e.configures = true))
  | .tick _ | .transfer .. | .mint .. => inferInstanceAs (Decidable False)

section Steps

variable {self : Address} {w w' : World Storage} {l : Label FeeEntry}
  {ls : List (Label FeeEntry)}

theorem configured_inductive (self : Address) :
    (feeSystem self).Inductive fun w =>
      w.machine.store.getDynamicFeeConfig.Valid where
  init w hinit := by
    obtain ⟨now, store, bank⟩ := w
    obtain ⟨rfl, -⟩ := hinit
    have hdefault : Storage.deployed.getDynamicFeeConfig.Valid :=
      ⟨by decide, by decide, by decide, by decide⟩
    exact hdefault
  step w l w' hvalid hstep := by
    cases hstep with
    | call _ hexec =>
        cases execCharge_charges hexec with
        | configured hconfig hm =>
            subst hm
            exact hconfig
        | pool _ hm | tiered _ hm | untiered _ hm =>
            subst hm
            exact hvalid
    | tick | transfer | mint => exact hvalid

theorem step_config (hstep : (feeSystem self).Step w l w')
    (hl : ¬ Configures l) :
    w'.machine.store.getDynamicFeeConfig =
      w.machine.store.getDynamicFeeConfig := by
  cases hstep with
  | call _ hexec =>
      cases execCharge_charges hexec with
      | configured => exact absurd rfl hl
      | pool _ hm | tiered _ hm | untiered _ hm =>
          subst hm
          rfl
  | tick | transfer | mint => rfl

theorem run_config (hrun : (feeSystem self).Run w ls w')
    (hls : ∀ l ∈ ls, ¬ Configures l) :
    w'.machine.store.getDynamicFeeConfig =
      w.machine.store.getDynamicFeeConfig := by
  have hkept := (hrun.restrict (G := fun _ l => ¬ Configures l)
    fun l hl _ => hls l hl).preserves
    (Q := fun t => t.machine.store.getDynamicFeeConfig =
      w.machine.store.getDynamicFeeConfig) ?_ rfl
  · exact hkept
  · rintro t l t' hsame ⟨hl, hstep⟩
    exact (step_config hstep hl).trans hsame

end Steps

/-! ## The fee as a ramp -/

section Fee

variable {s : Storage} {c : DynamicFeeConfig}

/-- The fee at a given utilization. -/
def DynamicFeeConfig.feeAt (c : DynamicFeeConfig) (utilBps : ℕ) : ℕ :=
  ramp c.baseFeeBps c.maxFeeBps c.utilizationThresholdBps 100
    (if c.enabled = false then 0 else c.feeAdjustmentPer1pctBps) utilBps

/-- Under valid bounds nothing saturates before it is capped. -/
theorem calculateDynamicFee_eq (hvalid : s.getDynamicFeeConfig.Valid) :
    s.calculateDynamicFee =
      s.getDynamicFeeConfig.feeAt s.base.getCapacityStatus.utilizationBps := by
  obtain ⟨hfloor, hcapped, hwhole, -⟩ := hvalid
  unfold Storage.calculateDynamicFee DynamicFeeConfig.feeAt
  simp only
  split
  · rw [ramp_eq hcapped, Nat.mul_zero, Nat.add_zero, min_eq_left hcapped]
  · unfold ramp
    split
    · rfl
    · unfold satU32 maxU32
      omega

end Fee

/-! ## The rate of a product -/

section Rate

variable {s : State} {rate : ℕ}

theorem utilizationBps_le (locked deposited : ℤ) :
    utilizationBps locked deposited ≤ 10000 := by
  unfold utilizationBps
  split
  · exact Nat.zero_le _
  · simp only
    omega

/-- No rate of 32 bits saturates. -/
theorem getDynamicPremiumRate_eq (hrate : rate ≤ maxU32) :
    s.getDynamicPremiumRate rate =
      min (rate * (10000 + s.getCapacityStatus.utilizationBps) / 10000)
        maxU32 := by
  have hutil : s.getCapacityStatus.utilizationBps ≤ 10000 :=
    utilizationBps_le _ _
  have hprod : rate * (10000 + s.getCapacityStatus.utilizationBps) ≤
      maxU32 * 20000 :=
    Nat.mul_le_mul hrate (by omega)
  have hfits : rate * (10000 + s.getCapacityStatus.utilizationBps) ≤
      maxU128 :=
    hprod.trans (by decide)
  have hsum : 10000 + s.getCapacityStatus.utilizationBps ≤ maxU128 := by
    unfold maxU128
    omega
  unfold State.getDynamicPremiumRate
  simp only [min_eq_left hutil, min_eq_left hsum, min_eq_left hfits]
  split
  · next hle => exact (min_eq_left hle).symm
  · next hlt => exact (min_eq_right (not_le.mp hlt).le).symm

theorem getDynamicPremiumRate_bounds (hrate : rate ≤ maxU32) :
    rate ≤ s.getDynamicPremiumRate rate ∧
      s.getDynamicPremiumRate rate ≤ 2 * rate := by
  have hutil : s.getCapacityStatus.utilizationBps ≤ 10000 :=
    utilizationBps_le _ _
  rw [getDynamicPremiumRate_eq hrate]
  refine ⟨le_min ?_ hrate, (min_le_left _ _).trans ?_⟩
  · rw [Nat.le_div_iff_mul_le (by decide)]
    exact Nat.mul_le_mul_left _ (Nat.le_add_right _ _)
  · refine Nat.div_le_of_le_mul ?_
    have hprod : rate * (10000 + s.getCapacityStatus.utilizationBps) ≤
        rate * 20000 :=
      Nat.mul_le_mul_left _ (by omega)
    omega

end Rate

/-! ## Over runs -/

/-- Over every run in which the configuration is not written, the fee lies
between the base fee and the cap, and the rate of a product between its own and
twice that.  Neither falls as the utilization rises, and the fee rises by one
adjustment for each percent begun at most. -/
theorem dynamic_fee_follows_utilization {self : Address}
    {w w' : World Storage} {ls : List (Label FeeEntry)}
    (hw : (feeSystem self).Reachable w) (hrun : (feeSystem self).Run w ls w')
    (hls : ∀ l ∈ ls, ¬ Configures l) :
    let config := w.machine.store.getDynamicFeeConfig
    let util := w.machine.store.base.getCapacityStatus.utilizationBps
    let util' := w'.machine.store.base.getCapacityStatus.utilizationBps
    let fee := w.machine.store.calculateDynamicFee
    let fee' := w'.machine.store.calculateDynamicFee
    config.minFeeBps ≤ config.baseFeeBps ∧ config.baseFeeBps ≤ fee' ∧
      fee' ≤ config.maxFeeBps ∧ config.maxFeeBps ≤ 10000 ∧
      (util ≤ util' → fee ≤ fee' ∧
        fee' ≤ fee +
          ((util' - util) / 100 + 1) * config.feeAdjustmentPer1pctBps) ∧
      ∀ rate ≤ maxU32,
        rate ≤ w'.machine.store.base.getDynamicPremiumRate rate ∧
        w'.machine.store.base.getDynamicPremiumRate rate ≤ 2 * rate ∧
        (util ≤ util' → w.machine.store.base.getDynamicPremiumRate rate ≤
          w'.machine.store.base.getDynamicPremiumRate rate) := by
  have hvalid := hw.invariant (configured_inductive self)
  have hvalid' := (hw.run hrun).invariant (configured_inductive self)
  have hfee := calculateDynamicFee_eq hvalid
  have hfee' := calculateDynamicFee_eq hvalid'
  rw [run_config hrun hls] at hfee'
  obtain ⟨hfloor, hcapped, hwhole, -⟩ := hvalid
  simp only [hfee, hfee', DynamicFeeConfig.feeAt]
  refine ⟨hfloor, le_ramp hcapped, ramp_le hcapped, hwhole, fun hutil => ?_,
    fun rate hrate => ?_⟩
  · refine ⟨ramp_mono hcapped hutil, ?_⟩
    refine (ramp_le_add hcapped (by decide) hutil).trans ?_
    refine Nat.add_le_add_left (Nat.mul_le_mul_left _ ?_) _
    split
    · exact Nat.zero_le _
    · exact Nat.le_refl _
  · obtain ⟨hleast, hmost⟩ :=
      getDynamicPremiumRate_bounds (s := w'.machine.store.base) hrate
    refine ⟨hleast, hmost, fun hutil => ?_⟩
    rw [getDynamicPremiumRate_eq hrate, getDynamicPremiumRate_eq hrate]
    refine min_le_min_right _ (Nat.div_le_div_right ?_)
    exact Nat.mul_le_mul_left _ (Nat.add_le_add_left hutil _)

namespace Scenario

def feeGenesis : World Storage where
  now := genesis.now
  machine := ⟨Storage.deployed, genesis.machine.bank⟩

/-- A fee of one percent that rises by two basis points for each percent of
utilization above one half. -/
def pricing : List (Label FeeEntry) :=
  [.call [admin] (.pool (.initializePool admin usdc (.contract 5) (.contract 6)
      Symbols.crop (.contract 1) (.contract 4))),
    .call [admin] (.setDynamicFeeConfig admin 100 150 50 5000 2 true),
    .call [provider] (.pool (.deposit provider 1000000 0 false))]

def priced : World Storage :=
  (TransitionSystem.execute (step execCharge pool) pricing feeGenesis).get
    (by decide +kernel)

/-- Four fifths of the deposits are locked. -/
def charging : List (Label FeeEntry) :=
  [.call [admin] (.pool (.lockForPolicy admin 1 800000))]

def charged : World Storage :=
  (TransitionSystem.execute (step execCharge pool) charging priced).get
    (by decide +kernel)

theorem priced_reachable : (feeSystem pool).Reachable priced := by
  have hinit : (feeSystem pool).Init feeGenesis := ⟨rfl, rfl⟩
  exact (TransitionSystem.Reachable.init hinit).run
    (TransitionSystem.run_of_execute (fun _ _ _ => step_sound)
      (Option.some_get _).symm)

theorem charged_run : (feeSystem pool).Run priced charging charged :=
  TransitionSystem.run_of_execute (fun _ _ _ => step_sound)
    (Option.some_get _).symm

/-- The fee has risen by thirty steps, to the cap. -/
theorem dynamic_fee_follows_utilization_charged :
    charged.machine.store.calculateDynamicFee ≤ 150 :=
  (dynamic_fee_follows_utilization priced_reachable charged_run
    (by decide)).2.2.1

end Scenario

end Parashield.RiskPool
