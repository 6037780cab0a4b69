import Parashield.OracleVerifier.SinglePaths

/-!
# What cross-validation rejects

A fresh reading is compared with the data types its own is tied to.  Data that
are missing are skipped on the other side only: where the aggregate of the
source, or of a target with stored readings, cannot be computed, the comparison
fails, and the reading with it.
-/

namespace Parashield.OracleVerifier

open Support Support.Contract Invocation

/-- The aggregate of the key has a value. -/
def State.Computable (s : State) (now : ℕ) (dataType key : Symbol) : Prop :=
  ∃ v, s.getMedianValue now dataType key = .ok v

/-- The two data types are compared on the key. -/
def State.Compares (s : State) (source target key : Symbol)
    (rule : CrossValidationRule) : Prop :=
  s.crossValidationRule (source, target) = some rule ∧
    ∃ p ps, s.dataPoints (target, key) = some (p :: ps)

/-- The data of some target are too far from those of the source. -/
def State.Disagrees (s : State) (now : ℕ) (source key : Symbol) : Prop :=
  ∃ target ∈ s.crossValidationTargets source, ∃ rule v w,
    s.crossValidationRule (source, target) = some rule ∧
      s.getMedianValue now source key = .ok v ∧
      s.getMedianValue now target key = .ok w ∧ rule.maxVariance < |v - w|

/-- Nothing is compared, or the source has an aggregate and so has every target
it is compared with, unless the data of some target really differ. -/
def State.Comparable (s : State) (now : ℕ) (source key : Symbol) : Prop :=
  s.crossValidationTargets source = [] ∨
    s.Computable now source key ∧
      (s.Disagrees now source key ∨
        ∀ target ∈ s.crossValidationTargets source, ∀ rule,
          s.Compares source target key rule → s.Computable now target key)

section Checks

variable {env : Env} {m m' : Machine State} {s : State} {now : ℕ}
  {source target key : Symbol} {v : ℤ} {u : Unit}

/-- A loop of calls that change nothing. -/
theorem forEach_idle {α : Type} {f : α → Call Unit} {xs : List α}
    (hidle : ∀ x u m', f x m = .ok (u, m') → m' = m) :
    forEach xs f m = .ok (u, m') ↔
      m' = m ∧ ∀ x ∈ xs, f x m = .ok ((), m) := by
  induction xs with
  | nil => simp [forEach]
  | cons x xs ih =>
      simp only [forEach, bind_ok, List.forall_mem_cons]
      constructor
      · rintro ⟨_, t, hx, hrest⟩
        obtain rfl := hidle x _ t hx
        obtain ⟨rfl, hxs⟩ := ih.mp hrest
        exact ⟨rfl, hx, hxs⟩
      · rintro ⟨rfl, hx, hxs⟩
        exact ⟨(), m', hx, ih.mpr ⟨rfl, hxs⟩⟩

theorem crossValidate_ok :
    crossValidate s now source key v target m = .ok (u, m') ↔
      m' = m ∧ ∀ rule, s.Compares source target key rule →
        ∃ w, s.getMedianValue now target key = .ok w ∧
          InI128 |satI128 (v - w)| ∧ |satI128 (v - w)| ≤ rule.maxVariance := by
  have hidle (hnot : ∀ rule, ¬ s.Compares source target key rule) :
      (pure () : Call Unit) m = .ok (u, m') ↔
        m' = m ∧ ∀ rule, s.Compares source target key rule →
          ∃ w, s.getMedianValue now target key = .ok w ∧
            InI128 |satI128 (v - w)| ∧
            |satI128 (v - w)| ≤ rule.maxVariance := by
    rw [pure_ok]
    exact ⟨fun h => ⟨h.2, fun rule hrule => absurd hrule (hnot rule)⟩,
      fun h => ⟨rfl, h.1⟩⟩
  unfold crossValidate
  cases hrule : s.crossValidationRule (source, target) with
  | none =>
      refine hidle fun rule h => ?_
      rw [State.Compares, hrule] at h
      cases h.1
  | some rule =>
      cases hpoints : s.dataPoints (target, key) with
      | none =>
          refine hidle fun _ h => ?_
          obtain ⟨-, p, ps, h⟩ := h
          rw [hpoints] at h
          cases h
      | some points =>
          cases points with
          | nil =>
              refine hidle fun _ h => ?_
              obtain ⟨-, p, ps, h⟩ := h
              rw [hpoints] at h
              cases h
          | cons p ps =>
              simp only [bind_ok, check_ok, ensure_ok, i128_ok]
              constructor
              · rintro ⟨w, _, ⟨hw, rfl⟩, _, _, ⟨hfits, rfl, rfl⟩, hle, rfl⟩
                refine ⟨rfl, ?_⟩
                rintro _ ⟨hsame, -⟩
                obtain rfl := Option.some.inj (hrule.symm.trans hsame)
                exact ⟨w, hw, hfits, hle⟩
              · rintro ⟨rfl, h⟩
                obtain ⟨w, hw, hfits, hle⟩ := h rule ⟨hrule, p, ps, hpoints⟩
                exact ⟨w, m', ⟨hw, rfl⟩, _, m', ⟨hfits, rfl, rfl⟩, hle, rfl⟩

theorem checkCrossValidation_ok :
    checkCrossValidation env source key m = .ok ((), m) ↔
      m.store.crossValidationTargets source = [] ∨
        ∃ v, m.store.getMedianValue env.now source key = .ok v ∧
          ∀ target ∈ m.store.crossValidationTargets source, ∀ rule,
            m.store.Compares source target key rule →
              ∃ w, m.store.getMedianValue env.now target key = .ok w ∧
                InI128 |satI128 (v - w)| ∧
                |satI128 (v - w)| ≤ rule.maxVariance := by
  have hloop (v : ℤ) :
      forEach (m.store.crossValidationTargets source)
          (crossValidate m.store env.now source key v) m = .ok ((), m) ↔
        m = m ∧ ∀ target ∈ m.store.crossValidationTargets source,
          crossValidate m.store env.now source key v target m = .ok ((), m) :=
    forEach_idle fun _ _ _ h => (crossValidate_ok.mp h).1
  rw [checkCrossValidation, load_bind, whenever_ok, not_not, and_iff_left rfl]
  simp only [bind_ok, check_ok]
  by_cases hnil : m.store.crossValidationTargets source = []
  · exact iff_of_true (.inr hnil) (.inl hnil)
  · rw [or_iff_left hnil, and_iff_right hnil, or_iff_right hnil]
    constructor
    · rintro ⟨v, _, ⟨hv, rfl⟩, h⟩
      refine ⟨v, hv, fun target htarget => ?_⟩
      exact (crossValidate_ok.mp (((hloop v).mp h).2 target htarget)).2
    · rintro ⟨v, hv, h⟩
      refine ⟨v, m, ⟨hv, rfl⟩, (hloop v).mpr ⟨rfl, fun target htarget => ?_⟩⟩
      exact crossValidate_ok.mpr ⟨rfl, h target htarget⟩

/-- A comparison that fails on computable values finds a real difference: at
the ends of the range the difference is only cut short. -/
theorem lt_abs_of_unfit {x bound : ℤ} (hbound : InI128 bound)
    (h : ¬ (InI128 |satI128 x| ∧ |satI128 x| ≤ bound)) : bound < |x| := by
  unfold InI128 at h hbound
  simp only [satI128, minI128, maxI128] at h
  rcases abs_cases x with ⟨habs, _⟩ | ⟨habs, _⟩
  · rw [abs_of_nonneg (by omega)] at h
    omega
  · rw [abs_of_nonpos (by omega)] at h
    omega

/-- Where both sides have aggregates, the check fails only on a difference. -/
theorem disagrees_of_unchecked
    (hrules : ∀ target rule,
      m.store.crossValidationRule (source, target) = some rule →
        InI128 rule.maxVariance)
    (hcomparable : m.store.Comparable env.now source key)
    (hfails : checkCrossValidation env source key m ≠ .ok ((), m)) :
    m.store.Disagrees env.now source key := by
  rw [Ne, checkCrossValidation_ok, not_or] at hfails
  obtain ⟨hsome, hfails⟩ := hfails
  obtain ⟨⟨v, hv⟩, hall⟩ := hcomparable.resolve_left hsome
  rcases hall with hdisagrees | hall
  · exact hdisagrees
  · by_contra hagrees
    refine hfails ⟨v, hv, fun target htarget rule hcompares => ?_⟩
    obtain ⟨w, hw⟩ := hall target htarget rule hcompares
    by_contra hunfit
    refine hagrees ⟨target, htarget, rule, v, w, hcompares.1, hv, hw, ?_⟩
    exact lt_abs_of_unfit (hrules target rule hcompares.1) fun hfits =>
      hunfit ⟨w, hw, hfits⟩

/-- The check passes only where both sides have aggregates. -/
theorem comparable_of_checked
    (h : checkCrossValidation env source key m = .ok ((), m)) :
    m.store.Comparable env.now source key := by
  rcases checkCrossValidation_ok.mp h with hnone | ⟨v, hv, hall⟩
  · exact .inl hnone
  · refine .inr ⟨⟨v, hv⟩, .inr fun target htarget rule hcompares => ?_⟩
    obtain ⟨w, hw, -⟩ := hall target htarget rule hcompares
    exact ⟨w, hw⟩

theorem State.Disagrees.comparable (h : s.Disagrees now source key) :
    s.Comparable now source key := by
  obtain ⟨target, htarget, rule, v, w, hrule, hv, hw, hlt⟩ := h
  exact .inr ⟨⟨v, hv⟩, .inl ⟨target, htarget, rule, v, w, hrule, hv, hw, hlt⟩⟩

end Checks

/-- A fresh reading that passes every other check is refused. -/
structure Rejected (env : Env) (oracle : Address) (dataType : Symbol)
    (sub : OracleDataSubmission) (m : Machine State) : Prop where
  admitted : Admitted env oracle dataType sub m.store
  vetted : Vetted dataType sub m.store
  fresh : ¬ m.store.effectiveMaxAge dataType < env.now - sub.timestamp
  refused : ∀ m', submitData env oracle dataType sub.key sub.value
    sub.confidence sub.timestamp m ≠ .ok ((), m')

theorem rejected_iff {env : Env} {oracle : Address} {dataType : Symbol}
    {sub : OracleDataSubmission} {m : Machine State} :
    Rejected env oracle dataType sub m ↔
      (Admitted env oracle dataType sub m.store ∧
        Vetted dataType sub m.store ∧
        ¬ m.store.effectiveMaxAge dataType < env.now - sub.timestamp) ∧
      checkCrossValidation env dataType sub.key
          { m with store := m.store.takes env.now oracle dataType sub } ≠
        .ok ((), { m with
          store := m.store.takes env.now oracle dataType sub }) := by
  constructor
  · rintro ⟨hadmitted, hvetted, hfresh, hrefused⟩
    refine ⟨⟨hadmitted, hvetted, hfresh⟩, fun hchecked => ?_⟩
    refine hrefused
      { m with
        store := (m.store.takes env.now oracle dataType sub).clear dataType
          oracle } ((submitData_ok sub).mpr ⟨hadmitted,
        ⟨hvetted.value, hvetted.range, hvetted.time⟩, ?_⟩)
    rw [if_neg hfresh]
    exact ⟨hchecked, rfl⟩
  · rintro ⟨⟨hadmitted, hvetted, hfresh⟩, hunchecked⟩
    refine ⟨hadmitted, hvetted, hfresh, fun m' hrun => ?_⟩
    obtain ⟨-, -, h⟩ := (submitData_ok sub).mp hrun
    rw [if_neg hfresh] at h
    exact hunchecked h.1

/-- A reading is refused for real disagreement only, exactly if the data it is
compared with can be aggregated, or real disagreement is found. -/
theorem cross_validation_iff {env : Env} {oracle : Address} {dataType : Symbol}
    {sub : OracleDataSubmission} {m : Machine State}
    (hrules : ∀ target rule,
      m.store.crossValidationRule (dataType, target) = some rule →
        InI128 rule.maxVariance) :
    (Rejected env oracle dataType sub m →
        (m.store.takes env.now oracle dataType sub).Disagrees env.now dataType
          sub.key) ↔
      (Admitted env oracle dataType sub m.store →
        Vetted dataType sub m.store →
        ¬ m.store.effectiveMaxAge dataType < env.now - sub.timestamp →
          (m.store.takes env.now oracle dataType sub).Comparable env.now
            dataType sub.key) := by
  rw [rejected_iff]
  constructor
  · intro hreal hadmitted hvetted hfresh
    by_cases hchecked : checkCrossValidation env dataType sub.key
        { m with store := m.store.takes env.now oracle dataType sub } =
      .ok ((), { m with store := m.store.takes env.now oracle dataType sub })
    · exact comparable_of_checked hchecked
    · exact (hreal ⟨⟨hadmitted, hvetted, hfresh⟩, hchecked⟩).comparable
  · rintro hcomparable ⟨⟨hadmitted, hvetted, hfresh⟩, hunchecked⟩
    exact disagrees_of_unchecked
      (m := { m with store := m.store.takes env.now oracle dataType sub })
      hrules (hcomparable hadmitted hvetted hfresh) hunchecked

/-! ## The first of two readings -/

namespace Scenario

/-- Two readings are needed for an aggregate, and weather data are compared
with flight data, of which there are none. -/
def ruledRun : List (Label Entry) :=
  readingRun.take 3 ++
    [.call [admin] (.setMinOracleCount admin 2),
      .call [admin] (.setCrossValidationRule admin Symbols.weather
        Symbols.flight 5 [])]

def ruled : World State :=
  (TransitionSystem.execute (step exec verifier) ruledRun genesis).get
    (by decide +kernel)

theorem ruled_reachable : (system verifier).Reachable ruled :=
  TransitionSystem.reachable_of_execute (fun _ _ _ => step_sound)
    ⟨rfl, rfl⟩ (Option.some_get _).symm

/-- Ten units of rain. -/
def drizzle : OracleDataSubmission where
  key := rain
  value := 10
  confidence := 90
  timestamp := 1000000

/-- Weather and flight data may differ by 5. -/
def floodRule : CrossValidationRule where
  sourceType := Symbols.weather
  targetType := Symbols.flight
  maxVariance := 5
  description := []

/-- The same where one reading is enough. -/
def compared : Machine State where
  store :=
    { rostered.machine.store with
      crossValidationRule :=
        Function.update (fun _ => none) (Symbols.weather, Symbols.flight)
          (some floodRule)
      crossValidationTargets :=
        Function.update (fun _ => []) Symbols.weather [Symbols.flight] }
  bank := rostered.machine.bank

theorem weather_rules (target : Symbol) (rule : CrossValidationRule)
    (h : compared.store.crossValidationRule (Symbols.weather, target) =
      some rule) : InI128 rule.maxVariance := by
  change Function.update (fun _ => none) (Symbols.weather, Symbols.flight)
    (some floodRule) (Symbols.weather, target) = some rule at h
  rw [Function.update_apply] at h
  split_ifs at h
  obtain rfl := Option.some.inj h
  decide

end Scenario

open Scenario in
/-- A first reading that is enough for an aggregate is not refused. -/
theorem cross_validation_iff_drizzle :
    ¬ Rejected (callEnv verifier rostered [oracleA]) oracleA Symbols.weather
      drizzle compared := by
  have htargets : (compared.store.takes (callEnv verifier rostered [oracleA]).now
      oracleA Symbols.weather drizzle).crossValidationTargets Symbols.weather =
        [Symbols.flight] := by
    decide +kernel
  have hempty : (compared.store.takes (callEnv verifier rostered [oracleA]).now
      oracleA Symbols.weather drizzle).dataPoints
        (Symbols.flight, drizzle.key) = none := by
    decide +kernel
  have hnone : (compared.store.takes (callEnv verifier rostered [oracleA]).now
      oracleA Symbols.weather drizzle).getMedianValue
        (callEnv verifier rostered [oracleA]).now Symbols.flight drizzle.key =
          .error (.error .noDataAvailable) := by
    decide +kernel
  have hvalue : (compared.store.takes (callEnv verifier rostered [oracleA]).now
      oracleA Symbols.weather drizzle).getMedianValue
        (callEnv verifier rostered [oracleA]).now Symbols.weather drizzle.key =
          .ok 10 := by
    decide +kernel
  have hcomparable : (compared.store.takes
      (callEnv verifier rostered [oracleA]).now oracleA Symbols.weather
      drizzle).Comparable (callEnv verifier rostered [oracleA]).now
        Symbols.weather drizzle.key := by
    refine .inr ⟨⟨10, hvalue⟩, .inr fun target htarget rule hcompares => ?_⟩
    obtain ⟨-, p, ps, hpoints⟩ := hcompares
    rw [htargets] at htarget
    rw [List.mem_singleton.mp htarget, hempty] at hpoints
    cases hpoints
  intro hrejected
  obtain ⟨target, htarget, rule, v, w, -, -, hw, -⟩ :=
    (cross_validation_iff weather_rules).mpr (fun _ _ _ => hcomparable)
      hrejected
  rw [htargets] at htarget
  rw [List.mem_singleton.mp htarget, hnone] at hw
  cases hw

open Scenario in
/-- The first of two readings that an aggregate needs is refused, although
nothing is there to disagree with it. -/
theorem first_reading_refused :
    (system verifier).Reachable ruled ∧
      Rejected (callEnv verifier ruled [oracleA]) oracleA Symbols.weather
        drizzle ruled.machine ∧
      ¬ (ruled.machine.store.takes ruled.now oracleA Symbols.weather
        drizzle).Disagrees ruled.now Symbols.weather rain := by
  have hempty : (ruled.machine.store.takes ruled.now oracleA Symbols.weather
      drizzle).getMedianValue ruled.now Symbols.weather rain =
        .error (.error .noDataAvailable) := by
    decide +kernel
  have hbatch : (leaves (batchSubmitData (callEnv verifier ruled [oracleA])
      oracleA Symbols.weather [drizzle]) ruled.machine).isSome = true := by
    decide +kernel
  have hsingle : (leaves (submitData (callEnv verifier ruled [oracleA]) oracleA
      Symbols.weather drizzle.key drizzle.value drizzle.confidence
      drizzle.timestamp) ruled.machine).isSome = false := by
    decide +kernel
  obtain ⟨m', haccepted⟩ := accepted_of_leaves hbatch
  refine ⟨ruled_reachable, ⟨?_, ?_, ?_, ?_⟩, ?_⟩
  · exact (batchSubmitData_ok.mp haccepted).1
  · refine ⟨?_, ?_, ?_⟩ <;> decide +kernel
  · decide +kernel
  · intro m' hrun
    rw [leaves_some hrun] at hsingle
    cases hsingle
  · rintro ⟨target, -, rule, v, w, -, hv, -⟩
    rw [hempty] at hv
    cases hv

end Parashield.OracleVerifier
