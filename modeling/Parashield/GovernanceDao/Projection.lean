import Parashield.GovernanceDao.Caps

/-!
# Governance DAO: the projected weight of a delegate

`get_delegate_info` adds up plain balances.  A vote applies the cap and the
time weights first, so it carries less than projected unless every token
counts in full.
-/

namespace Parashield.GovernanceDao

open Support Support.Contract Invocation

variable {self voter : Address} {s : State} {m m' : Machine State}
  {w w' : World State} {pid now : ℕ} {config : DaoConfig}
  {choice : VoteChoice}

/-! ## Balances that count in full -/

theorem satI128_le_max (x : ℤ) : satI128 x ≤ maxI128 := by
  unfold satI128 minI128 maxI128
  omega

/-- A part is all of `x` if the factor is one and the product fits. -/
theorem tdiv_fullWeight_eq_iff {x factor : ℤ} (hx : 0 ≤ x)
    (hfactor : 0 ≤ factor) (hle : factor ≤ fullWeightBps) :
    (satI128 (x * factor)).tdiv fullWeightBps = x ↔
      x = 0 ∨ factor = fullWeightBps ∧ x * fullWeightBps ≤ maxI128 := by
  have hprod : 0 ≤ x * factor := Int.mul_nonneg hx hfactor
  have hfull : (0 : ℤ) < fullWeightBps := by decide
  constructor
  · intro heq
    rcases Int.lt_or_eq_of_le hx with hpos | hzero
    · refine .inr ?_
      rw [Int.tdiv_eq_ediv_of_nonneg (satI128_nonneg hprod)] at heq
      have hmul : x * fullWeightBps ≤ satI128 (x * factor) :=
        (Int.le_ediv_iff_mul_le hfull).mp heq.ge
      have hsat := satI128_le hprod
      have hmax := satI128_le_max (x * factor)
      have hfactor' : (fullWeightBps : ℤ) ≤ factor :=
        le_of_mul_le_mul_left (hmul.trans hsat) hpos
      exact ⟨Int.le_antisymm hle hfactor', hmul.trans hmax⟩
    · exact .inl hzero.symm
  · rintro (rfl | ⟨rfl, hfits⟩)
    · rw [Int.zero_mul]
      decide
    · have hsat : satI128 (x * fullWeightBps) = x * fullWeightBps := by
        unfold satI128 minI128 maxI128 at *
        omega
      rw [hsat, Int.mul_tdiv_cancel x hfull.ne']

/-- The checkpoint of `holder` is as old as the ramp is long, or nothing needs
to age. -/
def State.Ripe (s : State) (now : ℕ) (holder : Address) : Prop :=
  s.timeWeight.minBps = fullWeightBps ∨
    ∃ cp, s.weightCheckpoint holder = some cp ∧
      cp.since + s.timeWeight.rampPeriod ≤ now

theorem State.maturity_eq_iff (hramp : s.timeWeight.rampPeriod ≠ 0)
    (holder : Address) :
    s.maturity now holder = s.timeWeight.rampPeriod ↔
      ∃ cp, s.weightCheckpoint holder = some cp ∧
        cp.since + s.timeWeight.rampPeriod ≤ now := by
  unfold State.maturity
  cases s.weightCheckpoint holder with
  | none => simp [Ne.symm hramp]
  | some cp =>
      simp only [Option.some.injEq, exists_eq_left']
      omega

/-- The aged part counts in full once its checkpoint is ripe. -/
theorem State.Weighs.factor_eq_iff (h : s.Weighs)
    (hon : s.timeWeight.enabled = true) (holder : Address) :
    s.factor now holder = fullWeightBps ↔ s.Ripe now holder := by
  obtain ⟨hramp, -⟩ := h.ramps hon
  obtain ⟨-, hleast⟩ := h.least_bounds hon
  have hmature := s.maturity_le now holder
  have hramp' : (0 : ℤ) < s.timeWeight.rampPeriod := by omega
  rw [State.Ripe, ← State.maturity_eq_iff hramp holder, State.factor]
  generalize s.maturity now holder = age at hmature ⊢
  generalize s.timeWeight.rampPeriod = ramp at hmature hramp' ⊢
  have hrest : (0 : ℤ) ≤ fullWeightBps - s.timeWeight.minBps := by omega
  have hprod : (0 : ℤ) ≤ (fullWeightBps - s.timeWeight.minBps) * age :=
    Int.mul_nonneg hrest (Int.natCast_nonneg age)
  rw [Int.tdiv_eq_ediv_of_nonneg hprod]
  constructor
  · intro heq
    rcases Int.lt_or_eq_of_le hrest with hpos | hzero
    · have hmul : (fullWeightBps - s.timeWeight.minBps : ℤ) * ramp ≤
          (fullWeightBps - s.timeWeight.minBps) * age :=
        (Int.le_ediv_iff_mul_le hramp').mp (by omega)
      have hle : (ramp : ℤ) ≤ age := le_of_mul_le_mul_left hmul hpos
      exact .inr (by omega)
    · exact .inl (by omega)
  · rintro (hfull | rfl)
    · rw [hfull]
      simp
    · rw [Int.mul_ediv_cancel _ hramp'.ne']
      omega

/-- Time weighting leaves `balance` as it is: it is off, or the part that has
the age of the checkpoint is ripe and the rest counts in full, and neither is
so large that its product with the factor does not fit. -/
def State.Undiminished (s : State) (now : ℕ) (holder : Address)
    (balance : ℤ) : Prop :=
  s.timeWeight.enabled = false ∨ balance = 0 ∨
    (s.aged holder balance = 0 ∨ s.Ripe now holder ∧
      s.aged holder balance * fullWeightBps ≤ maxI128) ∧
    (s.aged holder balance = balance ∨
      s.timeWeight.minBps = fullWeightBps ∧
        (balance - s.aged holder balance) * fullWeightBps ≤ maxI128)

theorem State.Weighs.timeWeighted_eq_iff (h : s.Weighs) {holder : Address}
    {balance : ℤ} (hbalance : 0 ≤ balance) :
    s.timeWeighted now holder balance = balance ↔
      s.Undiminished now holder balance := by
  unfold State.Undiminished
  by_cases hoff : s.timeWeight.enabled = false
  · simp [hoff, State.timeWeighted_off]
  rcases Int.lt_or_eq_of_le hbalance with hpos | rfl
  · have hon : s.timeWeight.enabled = true := by simpa using hoff
    obtain ⟨haged, hle⟩ : 0 ≤ s.aged holder balance ∧
        s.aged holder balance ≤ balance := h.aged_bounds hbalance
    obtain ⟨hfactor, hfactor'⟩ := h.factor_bounds hon now holder
    obtain ⟨hleast, hleast'⟩ := h.least_bounds hon
    have hrest : 0 ≤ balance - s.aged holder balance := by omega
    have hold := tdiv_fullWeight haged hfactor hfactor'
    have hnew := tdiv_fullWeight hrest hleast hleast'
    have hold' := tdiv_fullWeight_eq_iff haged hfactor hfactor'
    have hnew' := tdiv_fullWeight_eq_iff hrest hleast hleast'
    rw [h.factor_eq_iff hon holder] at hold'
    -- Neither part is more than all of it, so both have to be all of it.
    have hsplit : s.timeWeighted now holder balance = balance ↔
        (satI128 (s.aged holder balance * s.factor now holder)).tdiv
            fullWeightBps = s.aged holder balance ∧
          (satI128 ((balance - s.aged holder balance) *
            s.timeWeight.minBps)).tdiv fullWeightBps =
              balance - s.aged holder balance := by
      rw [State.timeWeighted_on hon hpos, State.weighed]
      omega
    rw [hsplit, hold', hnew']
    have hfullOn : (s.timeWeight.minBps : ℤ) = fullWeightBps ↔
        s.timeWeight.minBps = fullWeightBps := Int.ofNat_inj
    have hall : balance - s.aged holder balance = 0 ↔
        s.aged holder balance = balance := by omega
    simp [hon, hpos.ne', hfullOn, hall]
  · simp [State.timeWeighted_zero]

/-! ## The projection and the vote -/

/-- Every token of `voter` and of its delegators counts in full. -/
structure CountsInFull (config : DaoConfig) (w : World State)
    (voter : Address) : Prop where
  uncapped : config.voteWeightCap ≤ 0 ∨
    (w.machine.bank.balance config.govToken voter : ℤ) ≤ config.voteWeightCap
  own : w.machine.store.Undiminished w.now voter
    (w.machine.bank.balance config.govToken voter)
  lent : ∀ d ∈ w.machine.store.delegators voter,
    w.machine.store.Undiminished w.now d
      (w.machine.bank.balance config.govToken d)

/-- The balances of the delegators. -/
def delegatedBalances (m : Machine State) (config : DaoConfig)
    (voter : Address) : List ℤ :=
  (m.store.delegators voter).map fun d => (m.bank.balance config.govToken d : ℤ)

theorem getDelegateInfo_ok (hconfig : m.store.config = some config) :
    getDelegateInfo voter m = .ok
      (⟨voter, m.store.delegators voter,
        satSum (delegatedBalances m config voter),
        m.bank.balance config.govToken voter,
        satI128 (m.bank.balance config.govToken voter +
          satSum (delegatedBalances m config voter))⟩, m) := by
  simp only [getDelegateInfo, bind_ok, load_ok, loadConfig_ok, get_ok, pure_ok]
  exact ⟨_, _, ⟨rfl, rfl⟩, _, _, ⟨hconfig, rfl⟩, _, _, ⟨rfl, rfl⟩, rfl, rfl⟩

theorem capped_eq_iff {balance : ℤ} : config.capped balance = balance ↔
    config.voteWeightCap ≤ 0 ∨ balance ≤ config.voteWeightCap := by
  unfold DaoConfig.capped
  split
  · omega
  · omega

/-- The own part is the whole balance if neither the cap nor its age
diminishes it. -/
theorem ownPart_eq_iff (h : m.store.Weighs) :
    ownPart m now config voter ≤ m.bank.balance config.govToken voter ∧
    (ownPart m now config voter = m.bank.balance config.govToken voter ↔
      (config.voteWeightCap ≤ 0 ∨
        (m.bank.balance config.govToken voter : ℤ) ≤ config.voteWeightCap) ∧
      m.store.Undiminished now voter
        (m.bank.balance config.govToken voter)) := by
  have hbalance : (0 : ℤ) ≤ m.bank.balance config.govToken voter :=
    Int.natCast_nonneg _
  have hcapped : config.capped (m.bank.balance config.govToken voter) ≤
      m.bank.balance config.govToken voter := by
    unfold DaoConfig.capped
    split
    · exact Int.min_le_left _ _
    · exact Int.le_refl _
  have hweighted : ownPart m now config voter ≤
      config.capped (m.bank.balance config.govToken voter) :=
    (h.bounds (config.capped_nonneg hbalance)).2
  refine ⟨hweighted.trans hcapped, ?_⟩
  rw [← capped_eq_iff, ← h.timeWeighted_eq_iff hbalance]
  constructor
  · intro heq
    have hall : config.capped (m.bank.balance config.govToken voter) =
        m.bank.balance config.govToken voter := by omega
    rw [ownPart, hall] at heq
    exact ⟨hall, heq⟩
  · rintro ⟨hall, heq⟩
    rw [ownPart, hall, heq]

/-- Smaller terms have the same sum only if they are the same. -/
theorem sum_map_eq_iff {α : Type*} {xs : List α} {f g : α → ℤ}
    (hle : ∀ x ∈ xs, f x ≤ g x) : (xs.map f).sum ≤ (xs.map g).sum ∧
      ((xs.map f).sum = (xs.map g).sum ↔ ∀ x ∈ xs, f x = g x) := by
  induction xs with
  | nil => simp
  | cons x xs ih =>
      obtain ⟨hx, hxs⟩ := List.forall_mem_cons.mp hle
      obtain ⟨hsum, hiff⟩ := ih hxs
      rw [List.forall_mem_cons, ← hiff, List.map_cons, List.map_cons,
        List.sum_cons, List.sum_cons]
      omega

theorem lentParts_sum_iff (h : m.store.Weighs)
    (hfresh : ∀ d ∈ m.store.delegators voter,
      m.store.delegatedVote (pid, d) = false) :
    (lentParts m now config pid voter).sum ≤
      (delegatedBalances m config voter).sum ∧
    ((lentParts m now config pid voter).sum =
        (delegatedBalances m config voter).sum ↔
      ∀ d ∈ m.store.delegators voter, m.store.Undiminished now d
        (m.bank.balance config.govToken d)) := by
  have hlent : ∀ d ∈ m.store.delegators voter,
      m.store.lends now config.govToken m.bank pid d =
        m.store.timeWeighted now d (m.bank.balance config.govToken d) := by
    intro d hd
    rw [State.lends, hfresh d hd]
    exact if_neg Bool.false_ne_true
  have hle : ∀ d ∈ m.store.delegators voter,
      m.store.lends now config.govToken m.bank pid d ≤
        m.bank.balance config.govToken d := by
    intro d hd
    rw [hlent d hd]
    exact (h.bounds (Int.natCast_nonneg _)).2
  obtain ⟨hsum, hiff⟩ := sum_map_eq_iff hle
  refine ⟨hsum, hiff.trans (forall₂_congr fun d hd => ?_)⟩
  rw [hlent d hd, h.timeWeighted_eq_iff (Int.natCast_nonneg _)]

/-- The weights of a vote against the plain balances. -/
theorem carried_eq_iff (h : w.machine.store.Weighs)
    (hfresh : ∀ d ∈ w.machine.store.delegators voter,
      w.machine.store.delegatedVote (pid, d) = false) :
    satI128 (ownPart w.machine w.now config voter +
        satSum (lentParts w.machine w.now config pid voter)) ≤
      satI128 (w.machine.bank.balance config.govToken voter +
        satSum (delegatedBalances w.machine config voter)) ∧
    (satI128 (ownPart w.machine w.now config voter +
        satSum (lentParts w.machine w.now config pid voter)) =
      satI128 (w.machine.bank.balance config.govToken voter +
        satSum (delegatedBalances w.machine config voter)) ↔
      CountsInFull config w voter ∨
        maxI128 ≤ ownPart w.machine w.now config voter +
          (lentParts w.machine w.now config pid voter).sum) := by
  have hbalances : ∀ x ∈ delegatedBalances w.machine config voter, 0 ≤ x := by
    intro x hx
    obtain ⟨d, -, rfl⟩ := List.mem_map.mp hx
    exact Int.natCast_nonneg _
  have hfull : CountsInFull config w voter ↔
      ownPart w.machine w.now config voter =
          w.machine.bank.balance config.govToken voter ∧
        (lentParts w.machine w.now config pid voter).sum =
          (delegatedBalances w.machine config voter).sum := by
    rw [(ownPart_eq_iff h).2, (lentParts_sum_iff h hfresh).2]
    constructor
    · rintro ⟨huncapped, hown, hlent⟩
      exact ⟨⟨huncapped, hown⟩, hlent⟩
    · rintro ⟨⟨huncapped, hown⟩, hlent⟩
      exact ⟨huncapped, hown, hlent⟩
  have hown : ownPart w.machine w.now config voter ≤
      w.machine.bank.balance config.govToken voter := (ownPart_eq_iff h).1
  have hlent : (lentParts w.machine w.now config pid voter).sum ≤
      (delegatedBalances w.machine config voter).sum :=
    (lentParts_sum_iff h hfresh).1
  rw [satI128_add_satSum (ownPart_nonneg h) (lentParts_nonneg h),
    satI128_add_satSum (Int.natCast_nonneg _) hbalances, hfull]
  omega

/-- A vote on a proposal that has counted none of the voter's delegators
carries at most the projected weight, and all of it exactly if every token
counts in full or the weights reach the largest number. -/
theorem projected_weight_iff {signers : List Address}
    (hw : (system self).Reachable w)
    (hstep : (system self).Step w (.call signers (.vote voter pid choice)) w')
    (hfresh : ∀ d ∈ w.machine.store.delegators voter,
      w.machine.store.delegatedVote (pid, d) = false) :
    ∃ config info r, w.machine.store.config = some config ∧
      getDelegateInfo voter w.machine = .ok (info, w.machine) ∧
      w'.machine.store.voteRecord (pid, voter) = some r ∧
      r.weight ≤ info.totalWeight ∧
      (r.weight = info.totalWeight ↔ CountsInFull config w voter ∨
        maxI128 ≤ ownPart w.machine w.now config voter +
          (lentParts w.machine w.now config pid voter).sum) := by
  have hd := hw.invariant (delegations_inductive self)
  have hweighs := hw.invariant (weighs_inductive self)
  cases hstep with
  | call hself hexec =>
      obtain ⟨p, hvoted⟩ := vote_spec hexec
      obtain ⟨config, _, _, _, _, hconfig, -⟩ := hvoted.change
      have hcarries := hvoted.carries hd hconfig _ (List.mem_singleton_self _)
      exact ⟨config, _, _, hconfig, getDelegateInfo_ok hconfig,
        hcarries.record, carried_eq_iff hweighs hfresh⟩

open Scenario

/-- Without a cap and time weights the vote carries what is projected, after
the expiry of the delegation too. -/
theorem projected_weight_iff_lapsed :
    ∃ info r, getDelegateInfo carol lapsed.machine = .ok (info, lapsed.machine) ∧
      counted.machine.store.voteRecord (0, carol) = some r ∧
      r.weight = info.totalWeight := by
  have hstep : (system dao).Step lapsed carolVotes counted :=
    step_sound (Option.some_get _).symm
  have hlist : lapsed.machine.store.delegators carol = [bob] := by
    decide +kernel
  have hfresh : ∀ d ∈ lapsed.machine.store.delegators carol,
      lapsed.machine.store.delegatedVote (0, d) = false := by
    rw [hlist]
    decide +kernel
  have hoff : lapsed.machine.store.timeWeight.enabled = false := by
    decide +kernel
  obtain ⟨config, info, r, hconfig, hinfo, hr, -, hiff⟩ :=
    projected_weight_iff lapsed_reachable hstep hfresh
  have hplain : lapsed.machine.store.config = some Scenario.config := by
    decide +kernel
  obtain rfl := Option.some.inj (hconfig.symm.trans hplain)
  refine ⟨info, r, hinfo, hr, hiff.mpr (.inl ?_)⟩
  exact ⟨.inl (by decide), .inl hoff, fun _ _ => .inl hoff⟩

/-- With a cap of 100, the projection reports all 500 tokens of Carol and Bob,
the vote carries 400. -/
theorem projection_ignores_cap :
    (system dao).Reachable backed ∧
      (∀ d ∈ backed.machine.store.delegators carol,
        backed.machine.store.delegatedVote (0, d) = false ∧
          backed.machine.store.voteRecord (0, d) = none) ∧
      (system dao).Step backed carolVotes overweight ∧
      ∃ info r,
        getDelegateInfo carol backed.machine = .ok (info, backed.machine) ∧
          overweight.machine.store.voteRecord (0, carol) = some r ∧
          info.totalWeight = 500 ∧ r.weight = 400 := by
  have hlist : backed.machine.store.delegators carol = [bob] := by
    decide +kernel
  have hconfig : backed.machine.store.config = some limitedConfig := by
    decide +kernel
  refine ⟨backed_reachable, ?_, step_sound (Option.some_get _).symm, _,
    ⟨carol, .against, 400⟩, getDelegateInfo_ok hconfig, by decide +kernel,
    by decide +kernel, rfl⟩
  rw [hlist]
  decide +kernel

end Parashield.GovernanceDao
