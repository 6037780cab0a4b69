import Parashield.OracleVerifier.Overflow
import Parashield.OracleVerifier.Rearranged
import Parashield.Support.Answer

/-!
# The freshness that a verdict rests on

`verify_trigger_fresh` asks for a recent reading among all that are stored, and
for enough readings among those that are eligible, before it aggregates those
that are left by the outlier filter.  Afterwards it scores the readings of all
active oracles.  So readings that contribute nothing to the aggregate can open
and close the gates in front of it.
-/

namespace Parashield.OracleVerifier

open Support Support.Contract Invocation

namespace State

/-- The readings that the aggregate is computed from, with the registrations
of their oracles. -/
def contributing (s : State) (now : ℕ) (dataType key : Symbol) :
    View (List Row) :=
  filterRows (s.outlierConfig dataType) (s.effective dataType)
    (s.eligible now dataType key)

/-- What is asked of the stored readings before any is evaluated. -/
def gate (s : State) (now : ℕ) (dataType key : Symbol) (maxAgeSeconds : ℕ) :
    View Unit := do
  Check.require (s.readings dataType key ≠ []) (.error .noDataAvailable)
  Check.require
    (s.effectiveMinOracleCount dataType ≤
      s.eligibleCount now dataType (s.readings dataType key))
    (.error .noDataAvailable)
  Check.require
    (now - latestTimestamp (s.readings dataType key) ≤ maxAgeSeconds)
    (.error .staleData)

/-- The aggregate and the verdict on it. -/
def judgement (s : State) (now : ℕ) (dataType key : Symbol)
    (condition : TriggerCondition) : View (ℤ × Bool) := do
  let median ← s.getMedianValue now dataType key
  let result ← condition.holds median
  pure (median, result)

/-- The same store with other readings of the key. -/
def withReadings (s : State) (dataType key : Symbol)
    (points : List OracleDataPoint) : State :=
  { s with
    dataPoints := Function.update s.dataPoints (dataType, key) (some points) }

end State

/-- Whether the stored readings can be scored against the aggregate. -/
def scoring (env : Env) (dataType key : Symbol) (tolerance median : ℤ)
    (m : Machine State) : View Unit :=
  answer (forEach (m.store.readings dataType key)
    (scoreReading env dataType median tolerance)) m

section Answers

variable {env : Env} {m : Machine State} {dataType key : Symbol}
  {condition : TriggerCondition} {maxAgeSeconds : ℕ}

theorem answer_load_bind {α : Type} {f : State → Call α} :
    answer (load >>= f) m = answer (f m.store) m := rfl

theorem answer_ensure_bind {α : Type} {c : Prop} [Decidable c] {e : Error}
    {f : Unit → Call α} :
    answer (ensure c e >>= f) m =
      Check.require c (.error e) >>= fun u => answer (f u) m :=
  answer_require_bind

/-- A verification comes to what its checks come to. -/
theorem verifyTriggerFresh_answer :
    answer (verifyTriggerFresh env dataType key condition maxAgeSeconds) m =
      (do
        Check.require (m.store.dataTypePaused dataType = false)
          (.error .dataTypePaused)
        Check.require (m.store.encryptionRequired dataType = false)
          (.error .noDataAvailable)
        m.store.gate env.now dataType key maxAgeSeconds
        let (median, result) ←
          m.store.judgement env.now dataType key condition
        scoring env dataType key condition.tolerance median m
        pure result) := by
  rw [verifyTriggerFresh, requireDataTypeActive, bind_assoc, answer_load_bind,
    answer_ensure_bind]
  refine congrArg _ (funext fun _ => ?_)
  rw [answer_load_bind, answer_ensure_bind]
  refine congrArg _ (funext fun _ => ?_)
  rw [answer_unwrap_bind]
  unfold State.gate State.judgement scoring State.readings
  cases hpoints : m.store.dataPoints (dataType, key) with
  | none => rfl
  | some points =>
      rw [Option.getD_some]
      show answer (ensure (points ≠ []) Error.noDataAvailable >>= fun _ => _) m = _
      simp only [answer_ensure_bind, answer_check_bind, answer_bind_pure,
        bind_assoc, pure_bind]

/-- A failure with a code of the contract. -/
def Declared (f : Fault Error) : Prop := ¬ Undeclared f

theorem not_declared_trap : ¬ Declared .trap := fun h => h nofun

theorem not_declared_overflow : ¬ Declared (.overflow none) :=
  fun h => h nofun

theorem updateReputation_arithmetic {oracle : Address} {accurate : Bool} :
    Avoids Declared (updateReputation env oracle dataType accurate) m := by
  simp only [updateReputation, avoids_bind, avoids_load, avoids_unsigned,
    not_declared_trap, false_imp_iff, true_and]
  intro _ _ _ _ _ _ _ _ _ _ _ _
  exact avoids_update _

theorem deviation_arithmetic {median value : ℤ} :
    (deviation median value).Avoids Declared := by
  simp only [deviation, Check.avoids_bind, Check.avoids_i128,
    not_declared_overflow, false_imp_iff, true_and, implies_true]

theorem scoreReading_arithmetic {median tolerance : ℤ}
    {p : OracleDataPoint} :
    Avoids Declared (scoreReading env dataType median tolerance p) m := by
  simp only [scoreReading, avoids_bind, avoids_load, load_ok, true_and]
  rintro _ m₀ ⟨rfl, rfl⟩
  rw [avoids_whenever]
  intro _
  cases m₀.store.oracles (dataType, p.oracle) with
  | none => exact avoids_pure _
  | some entry =>
      dsimp only
      rw [avoids_whenever]
      intro _
      rw [avoids_bind, avoids_check]
      exact ⟨deviation_arithmetic, fun _ _ _ => updateReputation_arithmetic⟩

theorem scoreReadings_arithmetic {median tolerance : ℤ}
    {points : List OracleDataPoint} :
    Avoids Declared
      (forEach points (scoreReading env dataType median tolerance)) m := by
  induction points generalizing m with
  | nil => exact avoids_pure ()
  | cons p points ih =>
      rw [forEach, avoids_bind]
      exact ⟨scoreReading_arithmetic, fun _ _ _ => ih⟩

/-- Scoring fails by arithmetic only. -/
theorem scoring_error {tolerance median : ℤ} {e : Fault Error}
    (h : scoring env dataType key tolerance median m = .error e) :
    ¬ Declared e := by
  unfold scoring answer at h
  cases hrun : forEach (m.store.readings dataType key)
      (scoreReading env dataType median tolerance) m with
  | ok r =>
      rw [hrun] at h
      cases h
  | error d =>
      rw [hrun] at h
      obtain rfl := Except.error.inj h
      exact scoreReadings_arithmetic d hrun

end Answers

section Gates

variable {s : State} {now : ℕ} {dataType key : Symbol} {maxAgeSeconds : ℕ}

theorem latestTimestamp_le_iff {points : List OracleDataPoint}
    (hne : points ≠ []) :
    now - latestTimestamp points ≤ maxAgeSeconds ↔
      ∃ p ∈ points, now - p.timestamp ≤ maxAgeSeconds := by
  have hfold : ∀ (points : List OracleDataPoint) (t : ℕ),
      now - points.foldl (fun t p => max t p.timestamp) t ≤ maxAgeSeconds ↔
        now - t ≤ maxAgeSeconds ∨
          ∃ p ∈ points, now - p.timestamp ≤ maxAgeSeconds := by
    intro points
    induction points with
    | nil => simp
    | cons p points ih =>
        intro t
        rw [List.foldl_cons, ih]
        simp only [List.mem_cons, exists_eq_or_imp, ← or_assoc]
        refine or_congr_left ?_
        omega
  rw [latestTimestamp, hfold, Nat.sub_zero]
  refine or_iff_right_of_imp fun hnow => ?_
  obtain ⟨p, hp⟩ := List.exists_mem_of_ne_nil points hne
  exact ⟨p, hp, (Nat.sub_le _ _).trans hnow⟩

theorem gate_ok :
    s.gate now dataType key maxAgeSeconds = .ok () ↔
      s.effectiveMinOracleCount dataType ≤
          s.eligibleCount now dataType (s.readings dataType key) ∧
        ∃ p ∈ s.readings dataType key,
          now - p.timestamp ≤ maxAgeSeconds := by
  simp only [State.gate, Check.bind_ok, Check.require_ok]
  constructor
  · rintro ⟨_, hne, _, hcount, hlatest⟩
    exact ⟨hcount, (latestTimestamp_le_iff hne).mp hlatest⟩
  · rintro ⟨hcount, p, hp, hfresh⟩
    have hne := List.ne_nil_of_mem hp
    exact ⟨(), hne, (), hcount,
      (latestTimestamp_le_iff hne).mpr ⟨p, hp, hfresh⟩⟩

/-- The gates refuse with a code. -/
theorem gate_error {e : Fault Error}
    (h : s.gate now dataType key maxAgeSeconds = .error e) : Declared e := by
  have havoids : (s.gate now dataType key maxAgeSeconds).Avoids
      Undeclared := by
    simp [State.gate]
  exact havoids e h

end Gates

section Contributions

variable {s : State} {now : ℕ} {dataType key : Symbol} {M : List Row}

/-- The filter on samples is the filter on rows. -/
theorem filterOutliers_map (config : OutlierConfig) (w : Row → ℕ)
    (L : List Row) :
    filterOutliers config (L.map (Row.sample w)) =
      (filterRows config w L).map (List.map (Row.sample w)) := by
  unfold filterOutliers filterRows
  rw [List.length_map, map_sample_value]
  split_ifs
  · cases outlierBounds config (L.map fun x => x.1.value) with
    | error e => rfl
    | ok bounds =>
        have hkept := dropOutliers_map bounds.1 (droppedCount config bounds w L)
          w L
        rw [droppedCount] at hkept
        simp only [removalOrder_map, List.map_map]
        exact congrArg Except.ok hkept
  · rfl

/-- Nothing has no aggregate. -/
theorem concluded_nil :
    s.concluded now dataType [] = .error (.error .noDataAvailable) := by
  have hshut : ¬ (s.minOracleCount ≤ ([] : List Sample).length ∧
      ([] : List Sample) ≠ [] ∧ (0 : ℕ) ≠ 0) := fun h => h.2.1 rfl
  show (Check.require (s.minOracleCount ≤ ([] : List Sample).length ∧
      ([] : List Sample) ≠ [] ∧ (0 : ℕ) ≠ 0)
    (Fault.error Error.noDataAvailable) >>= fun _ => _) = _
  rw [Check.require, if_neg hshut]
  rfl

/-- The aggregate is computed from what contributes. -/
theorem getMedianValue_contributing
    (hfits : ((s.eligible now dataType key).map fun x => x.2.weight).sum <
      2 ^ 32)
    (hM : s.contributing now dataType key = .ok M) :
    s.getMedianValue now dataType key =
      s.concluded now dataType
        (M.map (Row.sample (s.effective dataType))) := by
  by_cases hnil : s.readings dataType key = []
  · have heligible : s.eligible now dataType key = [] := by
      unfold State.readings at hnil
      rw [State.eligible, hnil]
      rfl
    have hMnil : M = [] := by
      rw [State.contributing, heligible] at hM
      exact List.length_eq_zero_iff.mp
        (Nat.le_zero.mp (filterRows_length hM))
    rw [getMedianValue_of_nil hnil, hMnil, List.map_nil, concluded_nil]
  · have hopen : (Check.unsigned 32
        ((s.eligible now dataType key).map fun x => x.2.weight).sum .trap :
          View ℕ) = .ok _ := Check.unsigned_ok.mpr ⟨hfits, rfl⟩
    have hfilter : filterOutliers (s.outlierConfig dataType)
        (s.samples now dataType key) =
          .ok (M.map (Row.sample (s.effective dataType))) := by
      rw [State.samples, filterOutliers_map]
      exact congrArg (Except.map _) hM
    rw [getMedianValue_of_ne hnil, hopen, hfilter]
    rfl

end Contributions

/-! ## The verdict -/

section Verdict

variable {env : Env} {m : Machine State} {dataType key : Symbol}
  {condition : TriggerCondition} {maxAgeSeconds : ℕ}

/-- All that a verdict takes but a recent reading. -/
structure Evaluable (env : Env) (dataType key : Symbol)
    (condition : TriggerCondition) (m : Machine State) : Prop where
  running : m.store.dataTypePaused dataType = false
  plain : m.store.encryptionRequired dataType = false
  attended : m.store.effectiveMinOracleCount dataType ≤
    m.store.eligibleCount env.now dataType (m.store.readings dataType key)
  judged : ∃ median result,
    m.store.judgement env.now dataType key condition = .ok (median, result) ∧
      scoring env dataType key condition.tolerance median m = .ok ()

/-- A verdict takes one recent reading among all that are stored. -/
theorem verdict_iff :
    (∃ result,
      answer (verifyTriggerFresh env dataType key condition maxAgeSeconds) m =
        .ok result) ↔
      Evaluable env dataType key condition m ∧
        ∃ p ∈ m.store.readings dataType key,
          env.now - p.timestamp ≤ maxAgeSeconds := by
  simp only [verifyTriggerFresh_answer, Check.bind_ok, Check.require_ok,
    Check.pure_ok]
  constructor
  · rintro ⟨result, _, hrunning, _, hplain, ⟨⟩, hgate, ⟨median, b⟩, hjudged,
      ⟨⟩, hscored, -⟩
    obtain ⟨hattended, hfresh⟩ := gate_ok.mp hgate
    exact ⟨⟨hrunning, hplain, hattended, median, b, hjudged, hscored⟩, hfresh⟩
  · rintro ⟨⟨hrunning, hplain, hattended, median, result, hjudged, hscored⟩,
      hfresh⟩
    exact ⟨result, (), hrunning, (), hplain, (),
      gate_ok.mpr ⟨hattended, hfresh⟩, (median, result), hjudged, (), hscored,
      rfl⟩

/-- The answers on two stores whose aggregates are the same. -/
def Alike (env : Env) (dataType key : Symbol) (condition : TriggerCondition)
    (maxAgeSeconds : ℕ) (m m' : Machine State) : Prop :=
  (m.store.gate env.now dataType key maxAgeSeconds =
      m'.store.gate env.now dataType key maxAgeSeconds ∧
    (m.store.gate env.now dataType key maxAgeSeconds = .ok () →
      ∀ median result,
        m.store.judgement env.now dataType key condition =
            .ok (median, result) →
          scoring env dataType key condition.tolerance median m =
            scoring env dataType key condition.tolerance median m')) ∨
    ∃ e, m.store.judgement env.now dataType key condition = .error e ∧
      Masks (m.store.gate env.now dataType key maxAgeSeconds) e ∧
      Masks (m'.store.gate env.now dataType key maxAgeSeconds) e

theorem bind_unit_inj {α : Type} {x y : View Unit} {a : α} :
    ((x >>= fun _ => pure a) = y >>= fun _ => (pure a : View α)) ↔ x = y := by
  cases x with
  | error e =>
      cases y with
      | error e' =>
          show (Except.error e : View α) = .error e' ↔ _
          simp
      | ok u => exact iff_of_false nofun nofun
  | ok u =>
      cases y with
      | error e => exact iff_of_false nofun nofun
      | ok u' => exact iff_of_true rfl rfl

theorem answers_eq_iff {m' : Machine State}
    (hpaused : m'.store.dataTypePaused dataType =
      m.store.dataTypePaused dataType)
    (hplain : m'.store.encryptionRequired dataType =
      m.store.encryptionRequired dataType)
    (hjudged : m'.store.judgement env.now dataType key condition =
      m.store.judgement env.now dataType key condition) :
    answer (verifyTriggerFresh env dataType key condition maxAgeSeconds) m =
        answer (verifyTriggerFresh env dataType key condition maxAgeSeconds)
          m' ↔
      m.store.dataTypePaused dataType = true ∨
        m.store.encryptionRequired dataType = true ∨
        Alike env dataType key condition maxAgeSeconds m m' := by
  rw [verifyTriggerFresh_answer, verifyTriggerFresh_answer, hpaused, hplain,
    hjudged]
  cases hpause : m.store.dataTypePaused dataType with
  | true => exact iff_of_true rfl (.inl rfl)
  | false =>
      cases hencrypt : m.store.encryptionRequired dataType with
      | true => exact iff_of_true rfl (.inr (.inl rfl))
      | false =>
          have hend {m : Machine State} {e : Fault Error} (a : ℤ × Bool)
              (hcode : Declared e) :
              (scoring env dataType key condition.tolerance a.1 m >>=
                fun _ => (pure a.2 : View Bool)) ≠ .error e := by
            intro h
            cases hscore : scoring env dataType key condition.tolerance a.1 m with
            | ok u =>
                rw [hscore] at h
                cases h
            | error d =>
                rw [hscore] at h
                obtain rfl := Except.error.inj h
                exact scoring_error hscore hcode
          refine (gated_eq_iff (fun e hgate a => hend a (gate_error hgate))
            fun e hgate a => hend a (gate_error hgate)).trans ?_
          simp only [Alike, bind_unit_inj, Prod.forall, Bool.false_eq_true,
            false_or]

/-- Other readings around the contributing ones do not change the aggregate. -/
theorem judgement_withReadings {s : State} {now : ℕ}
    {points : List OracleDataPoint} {M : List Row} (hweights : s.core.Weighted)
    (hM : s.contributing now dataType key = .ok M)
    (hM' : (s.withReadings dataType key points).contributing now dataType
      key = .ok M) :
    (s.withReadings dataType key points).judgement now dataType key condition =
      s.judgement now dataType key condition := by
  have hweights' : (s.withReadings dataType key points).core.Weighted :=
    hweights
  unfold State.judgement
  rw [getMedianValue_contributing (registered_lt hweights) hM,
    getMedianValue_contributing (registered_lt hweights') hM']
  rfl

end Verdict

/-- A reading that contributes to the aggregate is recent. -/
def FreshContribution (s : State) (now : ℕ) (dataType key : Symbol)
    (maxAgeSeconds : ℕ) : Prop :=
  ∃ M, s.contributing now dataType key = .ok M ∧
    ∃ x ∈ M, now - x.1.timestamp ≤ maxAgeSeconds

/-- A verdict rests on a recent reading exactly if, where all else is there for
a verdict, no stored reading is recent or a contributing one is; and two stores
with the same contributing readings are answered alike exactly if the gates in
front of the aggregate, which look at all readings, and the scoring behind it
come out alike. -/
theorem fresh_verdict_iff {self : Address} {w : World State}
    (hreach : (system self).Reachable w) (env : Env) (dataType key : Symbol)
    (condition : TriggerCondition) (maxAgeSeconds : ℕ) :
    (((∃ result,
        answer (verifyTriggerFresh env dataType key condition maxAgeSeconds)
          w.machine = .ok result) →
        FreshContribution w.machine.store env.now dataType key
          maxAgeSeconds) ↔
      (Evaluable env dataType key condition w.machine →
        (∀ p ∈ w.machine.store.readings dataType key,
          maxAgeSeconds < env.now - p.timestamp) ∨
        FreshContribution w.machine.store env.now dataType key
          maxAgeSeconds)) ∧
      ∀ points M,
        w.machine.store.contributing env.now dataType key = .ok M →
        (w.machine.store.withReadings dataType key points).contributing env.now
            dataType key = .ok M →
        (answer (verifyTriggerFresh env dataType key condition maxAgeSeconds)
            w.machine =
          answer (verifyTriggerFresh env dataType key condition maxAgeSeconds)
            { w.machine with
              store := w.machine.store.withReadings dataType key points } ↔
          w.machine.store.dataTypePaused dataType = true ∨
            w.machine.store.encryptionRequired dataType = true ∨
            Alike env dataType key condition maxAgeSeconds w.machine
              { w.machine with
                store :=
                  w.machine.store.withReadings dataType key points }) := by
  refine ⟨?_, fun points M hM hM' => ?_⟩
  · rw [verdict_iff]
    constructor
    · intro hrests hevaluable
      by_cases hrecent : ∃ p ∈ w.machine.store.readings dataType key,
          env.now - p.timestamp ≤ maxAgeSeconds
      · exact .inr (hrests ⟨hevaluable, hrecent⟩)
      · push Not at hrecent
        exact .inl hrecent
    · rintro hrests ⟨hevaluable, p, hp, hrecent⟩
      refine (hrests hevaluable).resolve_left fun hold => ?_
      exact absurd hrecent (not_le.mpr (hold p hp))
  · exact answers_eq_iff rfl rfl
      (judgement_withReadings (hreach.invariant weighted_inductive) hM hM')

/-! ## A recent reading of a removed oracle -/

namespace Scenario

/-- The first oracle reports, and an hour later the second one, which is then
removed. -/
def removedRun : List (Label Entry) :=
  readingRun.take 4 ++
    [.tick 3600,
      .call [oracleB] (.submitData oracleB Symbols.weather rain 20 90 1003600),
      .call [admin] (.removeOracle admin oracleB Symbols.weather)]

def removed : World State :=
  (TransitionSystem.execute (step exec verifier) removedRun genesis).get
    (by decide +kernel)

theorem removed_reachable : (system verifier).Reachable removed :=
  TransitionSystem.reachable_of_execute (fun _ _ _ => step_sound)
    ⟨rfl, rfl⟩ (Option.some_get _).symm

end Scenario

open Scenario in
/-- The reading of the first oracle alone contributes, and alone it is too old
for a verdict.  Next to that of the removed oracle it is enough for one. -/
theorem removed_reading_refreshes :
    (system verifier).Reachable removed ∧
      (removed.machine.store.withReadings Symbols.weather rain
          [⟨oracleA, 10, 90, 1000000⟩]).contributing removed.now
            Symbols.weather rain =
        removed.machine.store.contributing removed.now Symbols.weather rain ∧
      ¬ FreshContribution removed.machine.store removed.now Symbols.weather
        rain 60 ∧
      answer (verifyTriggerFresh (callEnv verifier removed []) Symbols.weather
        rain wet 60) removed.machine = .ok false ∧
      answer (verifyTriggerFresh (callEnv verifier removed []) Symbols.weather
        rain wet 60)
        { removed.machine with
          store := removed.machine.store.withReadings Symbols.weather rain
            [⟨oracleA, 10, 90, 1000000⟩] } =
          .error (.error .staleData) := by
  refine ⟨removed_reachable, by decide +kernel, ?_, by decide +kernel,
    by decide +kernel⟩
  have htimes : (removed.machine.store.contributing removed.now
      Symbols.weather rain).map (List.map fun x => x.1.timestamp) =
        .ok [1000000] := by decide +kernel
  have hnow : removed.now = 1003600 := by decide +kernel
  rintro ⟨M, hM, x, hx, hfresh⟩
  rw [hM] at htimes
  have hmem := List.mem_map_of_mem (f := fun x : Row => x.1.timestamp) hx
  rw [Except.ok.inj htimes, List.mem_singleton] at hmem
  rw [hnow] at hfresh
  omega

namespace Scenario

/-- Both readings, and an older one of nobody who is registered. -/
def besideStranger : List OracleDataPoint :=
  reported.machine.store.readings Symbols.weather rain ++
    [⟨.account 9, 99, 90, 999999⟩]

end Scenario

open Scenario in
/-- The reading of a stranger that is not the newest changes nothing. -/
theorem fresh_verdict_iff_stranger :
    answer (verifyTriggerFresh (callEnv verifier reported []) Symbols.weather
        rain wet 60) reported.machine =
      answer (verifyTriggerFresh (callEnv verifier reported []) Symbols.weather
        rain wet 60)
        { reported.machine with
          store := reported.machine.store.withReadings Symbols.weather rain
            besideStranger } := by
  have hsome : (reported.machine.store.contributing
      (callEnv verifier reported []).now Symbols.weather
      rain).toOption.isSome = true := by decide +kernel
  have hsame : (reported.machine.store.withReadings Symbols.weather rain
      besideStranger).contributing (callEnv verifier reported []).now
        Symbols.weather rain =
      reported.machine.store.contributing (callEnv verifier reported []).now
        Symbols.weather rain := by decide +kernel
  have hgates : reported.machine.store.gate (callEnv verifier reported []).now
      Symbols.weather rain 60 =
      (reported.machine.store.withReadings Symbols.weather rain
        besideStranger).gate (callEnv verifier reported []).now
          Symbols.weather rain 60 := by decide +kernel
  have hjudged : reported.machine.store.judgement
      (callEnv verifier reported []).now Symbols.weather rain wet =
        .ok (15, false) := by decide +kernel
  have hscores : scoring (callEnv verifier reported []) Symbols.weather rain
      wet.tolerance 15 reported.machine =
      scoring (callEnv verifier reported []) Symbols.weather rain
        wet.tolerance 15
        { reported.machine with
          store := reported.machine.store.withReadings Symbols.weather rain
            besideStranger } := by decide +kernel
  cases hM : reported.machine.store.contributing
      (callEnv verifier reported []).now Symbols.weather rain with
  | error e =>
      rw [hM] at hsome
      cases hsome
  | ok M =>
      refine ((fresh_verdict_iff reported_reachable (callEnv verifier reported [])
        Symbols.weather rain wet 60).2 besideStranger M hM
          (hsame.trans hM)).mpr (.inr (.inr (.inl ⟨hgates, ?_⟩)))
      intro _ median result hmedian
      obtain ⟨rfl, -⟩ := Prod.mk.inj
        (Except.ok.inj (hjudged.symm.trans hmedian))
      exact hscores

end Parashield.OracleVerifier
