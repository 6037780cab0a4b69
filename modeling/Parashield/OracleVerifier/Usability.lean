import Parashield.OracleVerifier.Freshness
import Parashield.OracleVerifier.Reads

/-!
# What a freshness report promises

`check_freshness` counts the recent readings of a key, whoever sent them, and
`verify_trigger` asks for more: the data type must be in use, the oracles of the
readings active and online, their confidence high enough, their number as large
as the data type wants it, and enough of them must be left by the outlier
filter.  So a verdict takes a fresh report, but a fresh report is no promise of a
verdict.
-/

namespace Parashield.OracleVerifier

open Support Support.Contract Invocation

/-- The data type can be evaluated, and the filter leaves the readings `M` of
the key, which are enough. -/
structure State.Staffed (s : State) (now : ℕ) (dataType key : Symbol)
    (M : List Row) : Prop where
  running : s.dataTypePaused dataType = false
  plain : s.encryptionRequired dataType = false
  attended : s.effectiveMinOracleCount dataType ≤
    s.eligibleCount now dataType (s.readings dataType key)
  contributing : s.contributing now dataType key = .ok M
  enough : max s.minOracleCount 1 ≤ M.length

/-- The aggregate of the readings that the filter leaves. -/
def State.valueOf (s : State) (now : ℕ) (dataType : Symbol) (M : List Row) :
    View ℤ :=
  aggregate (s.aggregationMethod dataType) now
    (M.map (Row.sample (s.effective dataType)))
    (M.map (s.effective dataType)).sum

/-- Nothing overflows on the way from these readings to a verdict. -/
def Computes (env : Env) (dataType key : Symbol) (condition : TriggerCondition)
    (m : Machine State) (M : List Row) : Prop :=
  ∃ median result, m.store.valueOf env.now dataType M = .ok median ∧
    condition.holds median = .ok result ∧
    scoring env dataType key condition.tolerance median m = .ok ()

section Value

variable {s : State} {now : ℕ} {dataType key : Symbol} {M : List Row} {v : ℤ}

theorem sum_effective_pos (hne : M ≠ []) :
    (M.map (s.effective dataType)).sum ≠ 0 := by
  obtain ⟨x, hx⟩ := List.exists_mem_of_ne_nil M hne
  have hle := List.single_le_sum (fun _ _ => Nat.zero_le _)
    (s.effective dataType x) (List.mem_map_of_mem hx)
  have hone : 1 ≤ s.effective dataType x := le_max_right _ _
  omega

/-- What contributes is evaluated if it is enough. -/
theorem concluded_eq (hfits : (M.map (s.effective dataType)).sum < 2 ^ 32)
    (henough : max s.minOracleCount 1 ≤ M.length) :
    s.concluded now dataType (M.map (Row.sample (s.effective dataType))) =
      s.valueOf now dataType M := by
  have hne : M ≠ [] := by
    rintro rfl
    exact absurd henough (by simp)
  have hopen : s.minOracleCount ≤
        (M.map (Row.sample (s.effective dataType))).length ∧
      M.map (Row.sample (s.effective dataType)) ≠ [] ∧
      (M.map (s.effective dataType)).sum ≠ 0 := by
    rw [List.length_map]
    exact ⟨(le_max_left _ _).trans henough, by simpa using hne,
      sum_effective_pos hne⟩
  unfold State.concluded State.valueOf
  rw [map_sample_weight,
    show (Check.unsigned 32 (M.map (s.effective dataType)).sum .trap :
      View ℕ) = .ok _ from Check.unsigned_ok.mpr ⟨hfits, rfl⟩]
  show (Check.require _ _ >>= fun _ => _) = _
  rw [Check.require, if_pos hopen]
  rfl

theorem concluded_ok
    (h : s.concluded now dataType (M.map (Row.sample (s.effective dataType))) =
      .ok v) : max s.minOracleCount 1 ≤ M.length := by
  simp only [State.concluded, Check.bind_ok, Check.unsigned_ok,
    Check.require_ok, List.length_map] at h
  obtain ⟨_, ⟨-, rfl⟩, _, ⟨hmin, hne, -⟩, -⟩ := h
  have hpos : 0 < M.length := by
    rw [List.length_pos_iff]
    rintro rfl
    exact hne rfl
  exact max_le hmin hpos

/-- The part of the eligible readings that the filter leaves is light enough. -/
theorem contributing_fits (hweights : s.core.Weighted) (hrated : s.core.Rated)
    (hM : s.contributing now dataType key = .ok M) :
    (M.map (s.effective dataType)).sum < 2 ^ 32 := by
  apply sum_weights_lt ((filterRows_length hM).trans
    (State.eligible_length s now dataType key))
  intro x hx
  have hmem := eligible_mem (filterRows_subset hM x hx)
  exact effectiveWeight_le (hweights _ x.2 hmem.2) (hrated x.1.oracle dataType)

theorem getMedianValue_ok_iff (hweights : s.core.Weighted)
    (hrated : s.core.Rated) :
    s.getMedianValue now dataType key = .ok v ↔
      ∃ M, s.contributing now dataType key = .ok M ∧
        max s.minOracleCount 1 ≤ M.length ∧
        s.valueOf now dataType M = .ok v := by
  have hsum : ((s.eligible now dataType key).map fun x => x.2.weight).sum <
      2 ^ 32 := registered_lt hweights
  constructor
  · intro h
    obtain ⟨kept, total, hagg⟩ := State.getMedianValue_spec h
    obtain ⟨M, hM, -⟩ := aggregateSamples_spec hagg
    have hcontributing : s.contributing now dataType key = .ok M := hM
    rw [getMedianValue_contributing hsum hcontributing] at h
    have henough := concluded_ok h
    rw [concluded_eq (contributing_fits hweights hrated hcontributing)
      henough] at h
    exact ⟨M, hcontributing, henough, h⟩
  · rintro ⟨M, hM, henough, hv⟩
    rw [getMedianValue_contributing hsum hM,
      concluded_eq (contributing_fits hweights hrated hM) henough]
    exact hv

end Value

section Verdict

variable {env : Env} {m : Machine State} {dataType key : Symbol}
  {condition : TriggerCondition} {M : List Row}

/-- A verification comes to what its checks come to. -/
theorem verifyTrigger_answer :
    answer (verifyTrigger env dataType key condition) m = (do
      Check.require (m.store.dataTypePaused dataType = false)
        (.error .dataTypePaused)
      Check.require (m.store.encryptionRequired dataType = false)
        (.error .noDataAvailable)
      let points ← Check.unwrap (m.store.dataPoints (dataType, key))
        (.error .noDataAvailable)
      Check.require
        (m.store.effectiveMinOracleCount dataType ≤
          m.store.eligibleCount env.now dataType points)
        (.error .noDataAvailable)
      let (median, result) ← m.store.judgement env.now dataType key condition
      scoring env dataType key condition.tolerance median m
      pure result) := by
  rw [verifyTrigger, requireDataTypeActive, bind_assoc, answer_load_bind,
    answer_ensure_bind]
  refine congrArg _ (funext fun _ => ?_)
  rw [answer_load_bind, answer_ensure_bind]
  refine congrArg _ (funext fun _ => ?_)
  rw [answer_unwrap_bind]
  unfold State.judgement scoring State.readings
  cases hpoints : m.store.dataPoints (dataType, key) with
  | none => rfl
  | some points =>
      rw [Option.getD_some]
      show answer (ensure _ Error.noDataAvailable >>= fun _ => _) m = _
      simp only [answer_ensure_bind, answer_check_bind, answer_bind_pure,
        bind_assoc, pure_bind]
      rfl

/-- What contributes is stored. -/
theorem State.Staffed.stored {s : State} {now : ℕ}
    (h : s.Staffed now dataType key M) :
    ∃ points, s.dataPoints (dataType, key) = some points := by
  rw [← Option.ne_none_iff_exists']
  intro hnone
  have heligible : s.eligible now dataType key = [] := by
    rw [State.eligible, hnone]
    rfl
  have hkept := filterRows_length h.contributing
  have henough := (le_max_right _ _).trans h.enough
  rw [heligible] at hkept
  exact absurd (henough.trans hkept) (by simp)

/-- Where enough readings contribute, only computations are left. -/
theorem verifyTrigger_staffed (hweights : m.store.core.Weighted)
    (hrated : m.store.core.Rated)
    (h : m.store.Staffed env.now dataType key M) :
    answer (verifyTrigger env dataType key condition) m = (do
      let median ← m.store.valueOf env.now dataType M
      let result ← condition.holds median
      scoring env dataType key condition.tolerance median m
      pure result) := by
  have hmedian : m.store.getMedianValue env.now dataType key =
      m.store.valueOf env.now dataType M := by
    rw [getMedianValue_contributing (registered_lt hweights) h.contributing,
      concluded_eq (contributing_fits hweights hrated h.contributing) h.enough]
  have hattended := h.attended
  obtain ⟨points, hpoints⟩ := h.stored
  rw [State.readings, hpoints, Option.getD_some] at hattended
  rw [verifyTrigger_answer, Check.require, if_pos h.running, Check.require,
    if_pos h.plain, State.judgement, hmedian, hpoints]
  show (Check.require _ _ >>= fun _ => _) = _
  rw [Check.require, if_pos hattended]
  show ((do
    let median ← m.store.valueOf env.now dataType M
    let result ← condition.holds median
    pure (median, result)) >>= fun a => _) = _
  simp only [bind_assoc, pure_bind]

/-- A verdict takes enough contributing readings, and that nothing overflows. -/
theorem verifyTrigger_ok_iff (hweights : m.store.core.Weighted)
    (hrated : m.store.core.Rated) :
    (∃ result, answer (verifyTrigger env dataType key condition) m =
        .ok result) ↔
      ∃ M, m.store.Staffed env.now dataType key M ∧
        Computes env dataType key condition m M := by
  constructor
  · simp only [verifyTrigger_answer, Check.bind_ok, Check.require_ok,
      Check.unwrap_ok, Check.pure_ok, State.judgement]
    rintro ⟨result, _, hrunning, _, hplain, points, hpoints, _, hattended,
      ⟨median, b⟩, ⟨_, hmedian, _, hholds, hpair⟩, ⟨⟩, hscored, -⟩
    obtain ⟨rfl, rfl⟩ := Prod.mk.inj hpair
    obtain ⟨M, hM, henough, hvalue⟩ :=
      (getMedianValue_ok_iff hweights hrated).mp hmedian
    refine ⟨M, ⟨hrunning, hplain, ?_, hM, henough⟩, median, b, hvalue, hholds,
      hscored⟩
    rwa [State.readings, hpoints]
  · rintro ⟨M, hstaffed, median, result, hvalue, hholds, hscored⟩
    rw [verifyTrigger_staffed hweights hrated hstaffed, hvalue]
    show ∃ r, (condition.holds median >>= fun _ => _) = .ok r
    rw [hholds]
    show ∃ r, (scoring env dataType key condition.tolerance median m >>=
      fun _ => _) = .ok r
    rw [hscored]
    exact ⟨result, rfl⟩

/-- Eligible readings are recent. -/
theorem eligible_length_le (s : State) (now : ℕ) (dataType key : Symbol) :
    (s.eligible now dataType key).length ≤
      ((s.readings dataType key).filter fun p =>
        decide (now - p.timestamp ≤ s.effectiveMaxAge dataType)).length := by
  rw [State.eligible, List.length_filterMap_eq_countP,
    ← List.countP_eq_length_filter]
  refine (List.countP_mono_left fun p _ hp => ?_).trans
    ((List.take_sublist _ _).countP_le)
  split_ifs at hp with hfresh
  · simp only [State.isFresh, Bool.and_eq_true] at hfresh
    exact hfresh.1
  · cases hp

/-- Enough contributing readings are enough recent ones. -/
theorem State.Staffed.isFresh {s : State} {now : ℕ}
    (h : s.Staffed now dataType key M) :
    (s.checkFreshness now dataType key).isFresh = true := by
  have hkept := filterRows_length h.contributing
  have hrecent := eligible_length_le s now dataType key
  simp only [State.checkFreshness, decide_eq_true_eq]
  exact h.enough.trans (hkept.trans hrecent)

/-! ### Failures by arithmetic -/

theorem medianScan_arithmetic {total cumulative : ℕ} {samples : List Sample} :
    (medianScan total cumulative samples).Avoids Declared := by
  induction samples generalizing cumulative with
  | nil =>
      intro e h
      obtain rfl := Except.error.inj h
      exact not_declared_trap
  | cons x rest ih =>
      unfold medianScan
      rw [Check.avoids_bind, Check.avoids_unsigned]
      refine ⟨fun h => absurd h not_declared_trap, fun reached _ => ?_⟩
      split_ifs
      · exact Check.avoids_pure _
      · cases rest with
        | nil => exact Check.avoids_pure _
        | cons y ys =>
            rw [Check.avoids_bind, Check.avoids_i128]
            exact ⟨fun h => absurd h not_declared_overflow,
              fun _ _ => Check.avoids_pure _⟩
      · cases rest with
        | nil => exact Check.avoids_pure _
        | cons y ys => exact ih

theorem aggregate_arithmetic {method : AggregationMethod} {now total : ℕ}
    {samples : List Sample} :
    (aggregate method now samples total).Avoids Declared := by
  cases method with
  | weightedMedian => exact medianScan_arithmetic
  | _ => exact Check.avoids_pure _

theorem holds_arithmetic {median : ℤ} :
    (condition.holds median).Avoids Declared := by
  unfold TriggerCondition.holds
  cases condition.comparison with
  | equalWithTolerance =>
      dsimp only
      rw [Check.avoids_bind, Check.avoids_i128]
      exact ⟨fun h => absurd h not_declared_trap,
        fun _ _ => Check.avoids_pure _⟩
  | _ => exact Check.avoids_pure _

theorem computations_arithmetic :
    (do
      let median ← m.store.valueOf env.now dataType M
      let result ← condition.holds median
      scoring env dataType key condition.tolerance median m
      pure result : View Bool).Avoids Declared := by
  rw [Check.avoids_bind]
  refine ⟨aggregate_arithmetic, fun median _ => ?_⟩
  rw [Check.avoids_bind]
  refine ⟨holds_arithmetic, fun result _ => ?_⟩
  rw [Check.avoids_bind]
  exact ⟨fun e h => scoring_error h, fun _ _ => Check.avoids_pure _⟩

/-- Where enough readings contribute, a verification that does not overflow
comes to a verdict. -/
theorem verifyTrigger_ok_of_staffed (hweights : m.store.core.Weighted)
    (hrated : m.store.core.Rated)
    (havoids : Avoids Undeclared (verifyTrigger env dataType key condition) m)
    (h : m.store.Staffed env.now dataType key M) :
    ∃ result, answer (verifyTrigger env dataType key condition) m =
      .ok result := by
  cases hanswer : answer (verifyTrigger env dataType key condition) m with
  | ok result => exact ⟨result, rfl⟩
  | error e =>
      have hdeclared : Declared e := havoids e (answer_error.mp hanswer)
      rw [verifyTrigger_staffed hweights hrated h] at hanswer
      exact absurd hdeclared (computations_arithmetic e hanswer)

end Verdict

/-- A fresh report and a verdict go together. -/
def Reliable (env : Env) (dataType key : Symbol) (condition : TriggerCondition)
    (m : Machine State) : Prop :=
  ((m.store.checkFreshness env.now dataType key).isFresh = true →
    ∃ result, answer (verifyTrigger env dataType key condition) m =
      .ok result) ∧
  ((∃ result, answer (verifyTrigger env dataType key condition) m =
      .ok result) →
    (m.store.checkFreshness env.now dataType key).isFresh = true)

theorem reliable_iff_of {env : Env} {dataType key : Symbol}
    {condition : TriggerCondition} {m : Machine State} {Q : Prop}
    (hok : (∃ result, answer (verifyTrigger env dataType key condition) m =
      .ok result) ↔ Q)
    (hfresh : Q →
      (m.store.checkFreshness env.now dataType key).isFresh = true) :
    Reliable env dataType key condition m ↔
      ((m.store.checkFreshness env.now dataType key).isFresh = true → Q) := by
  rw [Reliable, hok]
  exact ⟨And.left, fun h => ⟨h, hfresh⟩⟩

/-- A report is reliable exactly if, where it is fresh, enough readings
contribute and nothing overflows.  In a run whose batches keep to the accepted
magnitude nothing does, for a threshold that leaves room for the subtraction and
oracles that can be counted once more. -/
theorem reliable_iff {self : Address} {w : World State}
    (hreach : (system self).Reachable w) (env : Env) (dataType key : Symbol)
    (condition : TriggerCondition) :
    (Reliable env dataType key condition w.machine ↔
      ((w.machine.store.checkFreshness env.now dataType key).isFresh = true →
        ∃ M, w.machine.store.Staffed env.now dataType key M ∧
          Computes env dataType key condition w.machine M)) ∧
    (((system self).restrict WithinCap).Reachable w →
      condition.ThresholdFits →
      (∀ p ∈ w.machine.store.readings dataType key,
        w.machine.store.CountsFit dataType p.oracle) →
      (Reliable env dataType key condition w.machine ↔
        ((w.machine.store.checkFreshness env.now dataType key).isFresh =
            true →
          ∃ M, w.machine.store.Staffed env.now dataType key M))) := by
  have hweights := hreach.invariant weighted_inductive
  have hrated := hreach.invariant rated_inductive
  refine ⟨reliable_iff_of (verifyTrigger_ok_iff hweights hrated) ?_,
    fun hcapped hthreshold hcounts => reliable_iff_of ?_ ?_⟩
  · rintro ⟨M, hstaffed, -⟩
    exact hstaffed.isFresh
  · constructor
    · intro hverdict
      obtain ⟨M, hstaffed, -⟩ :=
        (verifyTrigger_ok_iff hweights hrated).mp hverdict
      exact ⟨M, hstaffed⟩
    · rintro ⟨M, hstaffed⟩
      exact verifyTrigger_ok_of_staffed hweights hrated
        (verifyTrigger_avoids (hcapped.invariant sane_inductive) hthreshold
          hcounts) hstaffed
  · rintro ⟨M, hstaffed⟩
    exact hstaffed.isFresh

/-! ## Recent readings that are of no use -/

namespace Scenario

/-- Both oracles report and are removed. -/
def desertedRun : List (Label Entry) :=
  readingRun ++
    [.call [admin] (.removeOracle admin oracleA Symbols.weather),
      .call [admin] (.removeOracle admin oracleB Symbols.weather)]

def deserted : World State :=
  (TransitionSystem.execute (step exec verifier) desertedRun genesis).get
    (by decide +kernel)

end Scenario

open Scenario

/-- Two readings of active oracles are a promise of a verdict. -/
theorem reliable_iff_reported :
    Reliable (callEnv verifier reported []) Symbols.weather rain wet
      reported.machine := by
  have hthreshold : wet.ThresholdFits := by decide
  have hcounts : ∀ p ∈ reported.machine.store.readings Symbols.weather rain,
      reported.machine.store.CountsFit Symbols.weather p.oracle := by
    decide +kernel
  refine ((reliable_iff reported_reachable (callEnv verifier reported [])
    Symbols.weather rain wet).2 reported_capped hthreshold hcounts).mpr
    fun _ => ?_
  cases hM : reported.machine.store.contributing
      (callEnv verifier reported []).now Symbols.weather rain with
  | error e =>
      have hsome : (reported.machine.store.contributing
        (callEnv verifier reported []).now Symbols.weather
        rain).toOption.isSome = true := by decide +kernel
      rw [hM] at hsome
      cases hsome
  | ok M =>
      have hlength : (reported.machine.store.contributing
          (callEnv verifier reported []).now Symbols.weather
          rain).map List.length = .ok 2 := by decide +kernel
      rw [hM] at hlength
      have htwo : M.length = 2 := Except.ok.inj hlength
      refine ⟨M, by decide +kernel, by decide +kernel, by decide +kernel, hM,
        ?_⟩
      rw [htwo]
      decide +kernel

/-- The readings are reported as fresh, and no verdict can be had on them. -/
theorem fresh_report_unreliable :
    (system verifier).Reachable deserted ∧
      (deserted.machine.store.checkFreshness deserted.now Symbols.weather
        rain).isFresh = true ∧
      answer (verifyTrigger (callEnv verifier deserted []) Symbols.weather rain
        wet) deserted.machine = .error (.error .noDataAvailable) := by
  refine ⟨?_, by decide +kernel, by decide +kernel⟩
  exact TransitionSystem.reachable_of_execute (fun _ _ _ => step_sound)
    ⟨rfl, rfl⟩ (Option.some_get _).symm

end Parashield.OracleVerifier
