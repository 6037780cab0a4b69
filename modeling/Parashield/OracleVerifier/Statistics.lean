import Parashield.OracleVerifier.Overflow
import Parashield.OracleVerifier.Roster
import Parashield.Support.Mass

/-!
# What the statistics of an aggregate describe

The reported value is computed from the recent and confident readings that the
outlier filter leaves.  The statistics reported with it are those of every
stored reading whose oracle is active and online.
-/

namespace Parashield.OracleVerifier

open Support Check

namespace State

/-- The stored readings of active oracles that are online, with the oracles'
registrations. -/
def counted (s : State) (now : ℕ) (dataType key : Symbol) : List Row :=
  ((s.readings dataType key).take maxDataPoints).filterMap fun p =>
    (s.liveEntry now dataType p).map fun entry => (p, entry)

/-- The readings that the reported value is computed from. -/
def aggregated (s : State) (now : ℕ) (dataType key : Symbol) :
    View (List Row) :=
  filterRows (s.outlierConfig dataType) (fun x => x.2.weight)
    (s.eligible now dataType key)

end State

/-- Number, mean confidence under registered weights, least confidence and
newest timestamp are those of the rows. -/
structure Describes (L : List Row) (agg : AggregatedData) : Prop where
  oracleCount : agg.oracleCount = L.length
  confidence : agg.confidence =
    (L.map fun x => x.1.confidence * x.2.weight).sum /
      (L.map fun x => x.2.weight).sum
  minConfidence :
    IsLeast {c | ∃ x ∈ L, x.1.confidence = c} agg.minConfidence
  lastUpdated : IsGreatest {t | ∃ x ∈ L, x.1.timestamp = t} agg.lastUpdated

section Statistics

variable {s : State} {now : ℕ} {dataType key : Symbol}
  {agg : AggregatedData} {L M : List Row}

/-- The eligible readings are the counted ones that are fresh. -/
theorem eligible_eq_filter (s : State) (now : ℕ) (dataType key : Symbol) :
    s.eligible now dataType key =
      (s.counted now dataType key).filter fun x =>
        s.isFresh now dataType x.1 :=
  (State.filter_filterMap_fresh s now dataType _).symm

theorem counted_mem {x : Row} (hx : x ∈ s.counted now dataType key) :
    x.1 ∈ s.readings dataType key ∧
      s.oracles (dataType, x.1.oracle) = some x.2 := by
  obtain ⟨p, hp, hrow⟩ := List.mem_filterMap.mp hx
  obtain ⟨entry, hlive, rfl⟩ := Option.map_eq_some_iff.mp hrow
  exact ⟨List.mem_of_mem_take hp, liveEntry_registered hlive⟩

theorem keptRows_sublist (median : ℤ) (count : ℕ) (w : Row → ℕ)
    (L : List Row) : (keptRows median count w L).Sublist L := by
  have hzip : (L.zipIdx.map Prod.fst).Sublist L := by
    rw [List.zipIdx_map_fst]
  exact (List.filter_sublist.map Prod.fst).trans hzip

theorem filterRows_sublist {config : OutlierConfig} {w : Row → ℕ}
    (h : filterRows config w L = .ok M) : M.Sublist L := by
  unfold filterRows at h
  split_ifs at h
  · simp only [bind_ok, pure_ok] at h
    obtain ⟨bounds, -, rfl⟩ := h
    exact keptRows_sublist _ _ _ _
  · obtain rfl := pure_ok.mp h
    exact .refl _

/-- What is described is no more than the readings themselves. -/
theorem Describes.eq_of_sublist (h : Describes L agg) (h' : Describes M agg)
    (hsub : M.Sublist L) : M = L :=
  hsub.eq_of_length (h'.oracleCount.symm.trans h.oracleCount)

/-- The aggregate of what the filter leaves, and that something is left. -/
theorem getAggregated_aggregated
    (h : s.getAggregated now dataType key = .ok agg) :
    ∃ M, s.aggregated now dataType key = .ok M ∧ M ≠ [] ∧
      aggregate (s.aggregationMethod dataType) now
        (M.map (Row.sample fun x => x.2.weight))
        (M.map fun x => x.2.weight).sum = .ok agg.medianValue := by
  obtain ⟨kept, total, hagg⟩ := State.getAggregated_spec h
  simp only [State.aggregateSamples, bind_ok, unsigned_ok, require_ok, pure_ok,
    Prod.mk.injEq] at hagg
  obtain ⟨_, hfilter, _, ⟨-, rfl⟩, _, ⟨-, hne, -⟩, _, hvalue, rfl, rfl, rfl⟩ :=
    hagg
  obtain ⟨M, hM, rfl⟩ := filterOutliers_ok hfilter
  rw [map_sample_weight] at hvalue
  refine ⟨M, hM, fun hnil => hne ?_, hvalue⟩
  rw [hnil, List.map_nil]

/-- The mean confidence of rows lies between the least and 100. -/
theorem meanConfidence_between (hne : L ≠ []) {least : ℕ}
    (hweight : ∀ x ∈ L, 1 ≤ x.2.weight)
    (hconfidence : ∀ x ∈ L,
      least ≤ x.1.confidence ∧ x.1.confidence ≤ 100) :
    0 < (L.map fun x => x.2.weight).sum ∧
      least ≤ (L.map fun x => x.1.confidence * x.2.weight).sum /
        (L.map fun x => x.2.weight).sum ∧
      (L.map fun x => x.1.confidence * x.2.weight).sum /
        (L.map fun x => x.2.weight).sum ≤ 100 := by
  have hpos : 0 < (L.map fun x => x.2.weight).sum := by
    obtain ⟨x, hx⟩ := List.exists_mem_of_ne_nil L hne
    have hle := List.single_le_sum (fun _ _ => Nat.zero_le _) x.2.weight
      (List.mem_map_of_mem (f := fun x : Row => x.2.weight) hx)
    exact (hweight x hx).trans hle
  exact ⟨hpos, weightedMean_between hpos hconfidence⟩

/-- The statistics are those of the counted readings. -/
theorem getAggregated_describes (hne : s.counted now dataType key ≠ [])
    (hconfident : ∀ p ∈ s.readings dataType key, p.confidence ≤ 100)
    (hweighed : ∀ x entry, s.oracles x = some entry → 1 ≤ entry.weight)
    (h : s.getAggregated now dataType key = .ok agg) :
    Describes (s.counted now dataType key) agg ∧
      agg.minConfidence ≤ agg.confidence ∧ agg.confidence ≤ 100 := by
  have hpoints : ∀ points, s.dataPoints (dataType, key) = some points →
      ((points.take maxDataPoints).filterMap fun p =>
        (s.liveEntry now dataType p).map fun entry => (p, entry)) =
      s.counted now dataType key := by
    intro points hstored
    rw [State.counted, State.readings, hstored, Option.getD_some]
  have hpercent : ∀ x ∈ s.counted now dataType key, x.1.confidence ≤ 100 :=
    fun x hx => hconfident x.1 (counted_mem hx).1
  have hweight : ∀ x ∈ s.counted now dataType key, 1 ≤ x.2.weight :=
    fun x hx => hweighed _ _ (counted_mem hx).2
  simp only [State.getAggregated, bind_ok, unwrap_ok, require_ok, unsigned_ok,
    pure_ok] at h
  obtain ⟨_, -, points, hstored, _, -, _, -, ⟨kept, total, _⟩, -, rfl⟩ := h
  rw [hpoints points hstored]
  generalize s.counted now dataType key = L at *
  have hleast := foldl_min_isLeast_of_le hne hpercent
  have hnewest := foldl_max_isGreatest_of_le (f := fun x : Row =>
    x.1.timestamp) hne fun x _ => Nat.zero_le _
  obtain ⟨hpos, hlow, hhigh⟩ := meanConfidence_between hne hweight
    fun x hx => ⟨hleast.2 ⟨x, hx, rfl⟩, hpercent x hx⟩
  have hmean : (if (L.map fun x => x.2.weight).sum = 0 then 0
      else min ((L.map fun x => x.1.confidence * x.2.weight).sum /
        (L.map fun x => x.2.weight).sum) (2 ^ 32 - 1)) =
      (L.map fun x => x.1.confidence * x.2.weight).sum /
        (L.map fun x => x.2.weight).sum := by
    rw [if_neg hpos.ne']
    exact min_eq_left (hhigh.trans (by decide))
  exact ⟨⟨rfl, hmean, hleast, hnewest⟩, hlow.trans hmean.ge,
    hmean.le.trans hhigh⟩

end Statistics

/-- The reported statistics are those of the stored readings of active oracles
that are online.  The reported value is computed from a part of these, the
recent and confident ones that the outlier filter leaves; the statistics are
those of this part only if it is all of them. -/
theorem statistics_describe_counted {self : Address} {w : World State}
    (hreach : (system self).Reachable w) {dataType key : Symbol}
    {agg : AggregatedData}
    (h : w.machine.store.getAggregated w.now dataType key = .ok agg) :
    ∃ M, w.machine.store.aggregated w.now dataType key = .ok M ∧
      aggregate (w.machine.store.aggregationMethod dataType) w.now
        (M.map (Row.sample fun x => x.2.weight))
        (M.map fun x => x.2.weight).sum = .ok agg.medianValue ∧
      M ≠ [] ∧
      M.Sublist (w.machine.store.counted w.now dataType key) ∧
      (∀ x ∈ M, w.machine.store.isFresh w.now dataType x.1 = true) ∧
      Describes (w.machine.store.counted w.now dataType key) agg ∧
      (Describes M agg ↔ M = w.machine.store.counted w.now dataType key) ∧
      agg.minConfidence ≤ agg.confidence ∧ agg.confidence ≤ 100 ∧
      w.now - agg.lastUpdated ≤
        w.machine.store.effectiveMaxAge dataType := by
  obtain ⟨M, hM, hne, hvalue⟩ := getAggregated_aggregated h
  have heligible := filterRows_sublist hM
  rw [eligible_eq_filter] at heligible
  have hsub := heligible.trans List.filter_sublist
  have hfresh : ∀ x ∈ M,
      w.machine.store.isFresh w.now dataType x.1 = true := fun x hx =>
    (List.mem_filter.mp (heligible.subset hx)).2
  obtain ⟨x, hx⟩ := List.exists_mem_of_ne_nil M hne
  have hconfident := hreach.invariant confident_inductive
  have hweighed := hreach.invariant (weighed_inductive self)
  obtain ⟨hdescribes, hlow, hhigh⟩ := getAggregated_describes
    (List.ne_nil_of_mem (hsub.subset hx))
    (fun p hp => (hconfident dataType key p hp).2)
    (fun y entry hentry => (hweighed y entry hentry).1) h
  refine ⟨M, hM, hvalue, hne, hsub, hfresh, hdescribes, ?_, hlow, hhigh, ?_⟩
  · refine ⟨fun hdescribed => hdescribes.eq_of_sublist hdescribed hsub, ?_⟩
    rintro rfl
    exact hdescribes
  · have hnewest := hdescribes.lastUpdated.2 ⟨x, hsub.subset hx, rfl⟩
    have hrecent := hfresh x hx
    simp only [State.isFresh, Bool.and_eq_true, decide_eq_true_eq] at hrecent
    have hage := hrecent.1
    omega

/-! ## A reading that is counted and not aggregated -/

namespace Scenario

/-- The second oracle is less confident than is asked for afterwards. -/
def doubtedRun : List (Label Entry) :=
  [.call [admin] (.initializeVerifier admin),
    .call [admin] (.addOracle admin oracleA Symbols.weather 100),
    .call [admin] (.addOracle admin oracleB Symbols.weather 101),
    .call [oracleA] (.submitData oracleA Symbols.weather rain 10 90 1000000),
    .call [oracleB] (.submitData oracleB Symbols.weather rain 20 60 1000000),
    .call [admin] (.setMinConfidence admin 80)]

def doubted : World State :=
  (TransitionSystem.execute (step exec verifier) doubtedRun genesis).get
    (by decide +kernel)

theorem doubted_reachable : (system verifier).Reachable doubted :=
  TransitionSystem.reachable_of_execute (fun _ _ _ => step_sound)
    ⟨rfl, rfl⟩ (Option.some_get _).symm

/-- The value is the first reading, the statistics are those of both. -/
def doubtfulReport : AggregatedData where
  medianValue := 10
  oracleCount := 2
  activeOracleCount := 2
  confidence := 74
  minConfidence := 60
  lastUpdated := 1000000
  confidenceIntervalLower := 10
  confidenceIntervalUpper := 10

/-- The reading of the first oracle with its registration. -/
def confidentRow : Row :=
  (⟨oracleA, 10, 90, 1000000⟩, ⟨oracleA, Symbols.weather, 100, true⟩)

theorem doubted_aggregated :
    doubted.machine.store.getAggregated doubted.now Symbols.weather rain =
      .ok doubtfulReport := by
  decide +kernel

end Scenario

open Scenario

theorem statistics_describe_counted_doubted :
    Describes (doubted.machine.store.counted doubted.now Symbols.weather rain)
        doubtfulReport ∧
      60 ≤ doubtfulReport.confidence := by
  obtain ⟨M, -, -, -, -, -, hdescribes, -, hlow, -⟩ :=
    statistics_describe_counted doubted_reachable doubted_aggregated
  exact ⟨hdescribes, hlow⟩

/-- The value is computed from one reading, and two are counted. -/
theorem statistics_exceed_value :
    (system verifier).Reachable doubted ∧
      doubted.machine.store.getAggregated doubted.now Symbols.weather rain =
        .ok doubtfulReport ∧
      doubted.machine.store.aggregated doubted.now Symbols.weather rain =
        .ok [confidentRow] ∧
      doubtfulReport.medianValue = 10 ∧
      ¬ Describes [confidentRow] doubtfulReport := by
  refine ⟨doubted_reachable, doubted_aggregated, by decide +kernel, rfl, ?_⟩
  intro hdescribes
  have hcount := hdescribes.oracleCount
  revert hcount
  decide

end Parashield.OracleVerifier
