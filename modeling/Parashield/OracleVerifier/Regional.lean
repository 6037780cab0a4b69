import Parashield.OracleVerifier.Median
import Parashield.OracleVerifier.Orderings
import Parashield.OracleVerifier.Overflow
import Parashield.OracleVerifier.Reads
import Parashield.OracleVerifier.Retention
import Parashield.OracleVerifier.Roster
import Parashield.Support.Quantile

/-!
# The regional aggregate

The regional aggregate has a weighted median of its own, which stops as soon as
half of the weight, rounded down, is reached.  The plain one stops when half is
passed, and goes on to the next value when half is reached without excess.  The
regional weights are kept in 32 bits, and so is their sum.
-/

namespace Parashield.OracleVerifier

open Support Check

/-! ## The two scans -/

section Scans

variable {samples samples' rest : List Sample} {x : Sample}
  {total half cumulative : ℕ} {fallback v b : ℤ}

/-- The regional scan stops at the first value whose share is at least half. -/
theorem regionalMedian_quantile
    (hsorted : samples.Pairwise fun x y => x.value ≤ y.value)
    (hne : samples ≠ [])
    (hhalf : half ≤ cumulative + (samples.map Sample.weight).sum) :
    Quantile Sample.value Sample.weight samples (half - cumulative)
      (State.regionalMedian half fallback cumulative samples) := by
  induction samples generalizing cumulative with
  | nil => exact absurd rfl hne
  | cons x rest ih =>
      obtain ⟨hhead, hrest⟩ := List.pairwise_cons.mp hsorted
      rw [List.map_cons, List.sum_cons, ← add_assoc] at hhalf
      rw [State.regionalMedian]
      by_cases hreached : half ≤ cumulative + x.weight
      · rw [if_pos hreached]
        exact .head hhead (by omega)
      · rw [if_neg hreached]
        have hmore : rest ≠ [] := by
          rintro rfl
          exact hreached hhalf
        have hnext := ih hrest hmore hhalf
        rw [← Nat.sub_sub] at hnext
        exact .cons hhead (by omega) hnext

/-- Where the plain scan stops, given the value `b` at which half is reached. -/
def Settles (total cumulative : ℕ) (samples : List Sample) (b v : ℤ) : Prop :=
  (total / 2 < cumulative + upTo Sample.value Sample.weight samples b ∧
      v = b) ∨
    (cumulative + upTo Sample.value Sample.weight samples b = total / 2 ∧
      ∃ b', Adjacent Sample.value samples b b' ∧
        v = if total % 2 = 0 then (b + b').tdiv 2 else b')

theorem Settles.cons (hhead : x.value ≤ b)
    (h : Settles total (cumulative + x.weight) rest b v) :
    Settles total cumulative (x :: rest) b v := by
  have hupTo : cumulative + upTo Sample.value Sample.weight (x :: rest) b =
      cumulative + x.weight + upTo Sample.value Sample.weight rest b := by
    rw [upTo_cons_of_le hhead, add_assoc]
  unfold Settles
  rw [hupTo]
  rcases h with hpast | ⟨hexact, b', hadjacent, hv⟩
  · exact .inl hpast
  · exact .inr ⟨hexact, b', hadjacent.cons hhead, hv⟩

/-- Exactly half is reached with the first sample, and the next is at hand. -/
theorem Settles.of_head {y : Sample} {ys : List Sample}
    (hsorted : (x :: y :: ys).Pairwise fun x y => x.value ≤ y.value)
    (hpos : 1 ≤ y.weight) (hexact : cumulative + x.weight = total / 2)
    (hv : v = if total % 2 = 0 then (x.value + y.value).tdiv 2 else y.value) :
    Settles total cumulative (x :: y :: ys) x.value v := by
  obtain ⟨hhead, hrest⟩ := List.pairwise_cons.mp hsorted
  have hnext := (List.pairwise_cons.mp hrest).1
  have hxy := hhead y List.mem_cons_self
  unfold Settles
  rw [upTo_cons_of_le le_rfl]
  rcases hxy.eq_or_lt with heq | hlt
  · left
    rw [upTo_cons_of_le heq.ge]
    refine ⟨by omega, ?_⟩
    have hdouble : (y.value + y.value).tdiv 2 = y.value := by
      rw [← two_mul]
      exact Int.mul_tdiv_cancel_left y.value (by decide)
    rw [hv, heq, hdouble, ite_self]
  · right
    have habove : ∀ z ∈ y :: ys, x.value < z.value := by
      intro z hz
      rcases List.mem_cons.mp hz with rfl | hmem
      · exact hlt
      · exact hlt.trans_le (hnext z hmem)
    rw [upTo_eq_zero habove]
    refine ⟨by omega, y.value, ⟨?_, ?_, hlt, ?_⟩, hv⟩
    · exact ⟨x, List.mem_cons_self, rfl⟩
    · exact ⟨y, List.mem_cons_of_mem x List.mem_cons_self, rfl⟩
    · intro z hz hxz
      rcases List.mem_cons.mp hz with rfl | hz
      · exact absurd hxz (lt_irrefl _)
      · rcases List.mem_cons.mp hz with rfl | hmem
        · exact le_rfl
        · exact hnext z hmem

/-- The plain scan passes the value at which half is reached, unless its share
is more than half. -/
theorem medianScan_quantile (h : Scanning total cumulative samples)
    (htotal : 0 < total) (hpos : ∀ z ∈ samples, 1 ≤ z.weight)
    (hscan : medianScan total cumulative samples = .ok v) :
    ∃ b, Quantile Sample.value Sample.weight samples (total / 2 - cumulative)
        b ∧ Settles total cumulative samples b v := by
  induction samples generalizing cumulative with
  | nil => cases hscan
  | cons x rest ih =>
      have hhead := h.head_le
      have hsum := h.rest
      have hfirst := hpos x List.mem_cons_self
      cases rest with
      | nil =>
          rw [List.map_singleton, List.sum_singleton] at hsum
          simp only [medianScan, bind_ok, unsigned_ok] at hscan
          obtain ⟨_, ⟨-, rfl⟩, hscan⟩ := hscan
          have hpast : total / 2 < cumulative + x.weight := by omega
          rw [if_pos hpast] at hscan
          refine ⟨x.value, .head hhead (by omega), .inl ⟨?_, pure_ok.mp hscan⟩⟩
          rw [upTo_cons_of_le le_rfl]
          omega
      | cons y ys =>
          have hsecond := hpos y
            (List.mem_cons_of_mem x List.mem_cons_self)
          rw [medianScan_cons] at hscan
          simp only [bind_ok, unsigned_ok] at hscan
          obtain ⟨_, ⟨-, rfl⟩, hscan⟩ := hscan
          split_ifs at hscan with hpast hexact
          · refine ⟨x.value, .head hhead (by omega),
              .inl ⟨?_, pure_ok.mp hscan⟩⟩
            rw [upTo_cons_of_le le_rfl]
            omega
          · simp only [bind_ok, i128_ok, pure_ok] at hscan
            obtain ⟨_, ⟨-, rfl⟩, rfl⟩ := hscan
            refine ⟨x.value, .head hhead (by omega),
              .of_head h.sorted hsecond hexact.1 ?_⟩
            rw [if_pos hexact.2]
          · have hnext := h.next (by omega)
            by_cases hreached : cumulative + x.weight = total / 2
            · -- half is reached and the total is odd: the scan stops at `y`
              have hodd : ¬ total % 2 = 0 := fun heven =>
                hexact ⟨hreached, heven⟩
              have hpast' : total / 2 < cumulative + x.weight + y.weight := by
                omega
              refine ⟨x.value, .head hhead (by omega),
                .of_head h.sorted hsecond hreached ?_⟩
              simp only [medianScan, bind_ok, unsigned_ok] at hscan
              obtain ⟨_, ⟨-, rfl⟩, hscan⟩ := hscan
              rw [if_pos hpast'] at hscan
              rw [if_neg hodd]
              exact pure_ok.mp hscan
            · obtain ⟨b, hquantile, hsettles⟩ := ih hnext
                (fun z hz => hpos z (List.mem_cons_of_mem x hz)) hscan
              obtain ⟨z, hz, rfl⟩ := hquantile.mem
              rw [← Nat.sub_sub] at hquantile
              exact ⟨z.value, .cons hhead (by omega) hquantile,
                hsettles.cons (hhead z hz)⟩

/-- Where half of the weight, rounded down, is reached without excess, the
total is even and the mean with the next value rounds back. -/
def HarmlessSplits (samples : List Sample) : Prop :=
  ∀ b b', Adjacent Sample.value samples b b' →
    upTo Sample.value Sample.weight samples b =
      (samples.map Sample.weight).sum / 2 →
    (samples.map Sample.weight).sum % 2 = 0 ∧ b' = b + 1 ∧ 0 ≤ b

/-- The mean with a greater value rounds back to a value exactly if the other
is the next integer and neither is negative. -/
theorem eq_tdiv_two_iff {b b' : ℤ} (hlt : b < b') :
    b = (b + b').tdiv 2 ↔ b' = b + 1 ∧ 0 ≤ b := by
  rcases le_total 0 (b + b') with hsum | hsum
  · rw [Int.tdiv_eq_ediv_of_nonneg hsum]
    omega
  · have hneg : (b + b').tdiv 2 = -(-(b + b') / 2) := by
      rw [← Int.tdiv_eq_ediv_of_nonneg (by omega), Int.neg_tdiv, neg_neg]
    rw [hneg]
    omega

/-- The samples in the order of their values. -/
def byValue (samples : List Sample) : List Sample :=
  samples.insertionSort fun a b => a.value ≤ b.value

theorem byValue_perm (samples : List Sample) :
    (byValue samples).Perm samples :=
  List.perm_insertionSort _ samples

theorem byValue_pairwise (samples : List Sample) :
    (byValue samples).Pairwise fun x y => x.value ≤ y.value := by
  have : Std.Total fun x y : Sample => x.value ≤ y.value :=
    ⟨fun x y => le_total x.value y.value⟩
  have : IsTrans Sample fun x y => x.value ≤ y.value :=
    ⟨fun _ _ _ => le_trans⟩
  exact List.pairwise_insertionSort _ samples

theorem regionalMedian_byValue (hne : samples ≠ []) :
    Quantile Sample.value Sample.weight samples
      ((samples.map Sample.weight).sum / 2)
      (State.regionalMedian ((samples.map Sample.weight).sum / 2) fallback 0
        (byValue samples)) := by
  have hperm := byValue_perm samples
  have hmore : byValue samples ≠ [] := fun hnil =>
    hne (List.nil_perm.mp (hnil ▸ hperm))
  have hhalf : (samples.map Sample.weight).sum / 2 ≤
      0 + ((byValue samples).map Sample.weight).sum := by
    rw [(hperm.map Sample.weight).sum_eq]
    omega
  have hscan : Quantile Sample.value Sample.weight (byValue samples)
      ((samples.map Sample.weight).sum / 2 - 0)
      (State.regionalMedian ((samples.map Sample.weight).sum / 2) fallback 0
        (byValue samples)) :=
    regionalMedian_quantile (byValue_pairwise samples) hmore hhalf
  exact hscan.perm hperm

theorem weightedMedian_settles (hpos : ∀ z ∈ samples, 1 ≤ z.weight)
    (hne : samples ≠ [])
    (hv : weightedMedian samples (samples.map Sample.weight).sum = .ok v) :
    ∃ b, Quantile Sample.value Sample.weight samples
        ((samples.map Sample.weight).sum / 2) b ∧
      Settles (samples.map Sample.weight).sum 0 samples b v := by
  have hperm := samples.perm_insertionSort ByValue
  have htotal : 0 < (samples.map Sample.weight).sum := by
    obtain ⟨z, hz⟩ := List.exists_mem_of_ne_nil samples hne
    have hle := List.single_le_sum (fun _ _ => Nat.zero_le _) z.weight
      (List.mem_map_of_mem (f := Sample.weight) hz)
    exact (hpos z hz).trans hle
  have hscanning : Scanning (samples.map Sample.weight).sum 0
      (samples.insertionSort ByValue) :=
    ⟨byValue_sorted samples, Nat.zero_le _,
      by rw [zero_add, (hperm.map Sample.weight).sum_eq]⟩
  obtain ⟨b, hquantile, hsettles⟩ := medianScan_quantile hscanning htotal
    (fun z hz => hpos z (hperm.mem_iff.mp hz)) hv
  refine ⟨b, hquantile.perm hperm, ?_⟩
  have hupTo : upTo Sample.value Sample.weight
      (samples.insertionSort ByValue) b =
        upTo Sample.value Sample.weight samples b := mass_perm hperm
  rw [Settles, hupTo] at hsettles
  rcases hsettles with hpast | ⟨hexact, b', hadjacent, hb'⟩
  · exact .inl hpast
  · exact .inr ⟨hexact, b', hadjacent.perm hperm, hb'⟩

/-- The two medians agree exactly if no split of the weight does harm. -/
theorem regionalMedian_eq_iff (hpos : ∀ z ∈ samples, 1 ≤ z.weight)
    (hne : samples ≠ [])
    (hv : weightedMedian samples (samples.map Sample.weight).sum = .ok v) :
    State.regionalMedian ((samples.map Sample.weight).sum / 2) fallback 0
        (byValue samples) = v ↔ HarmlessSplits samples := by
  obtain ⟨b, hb, hsettles⟩ := weightedMedian_settles hpos hne hv
  rw [(regionalMedian_byValue hne).unique hb]
  have hreached {c c' : ℤ} (hc : Adjacent Sample.value samples c c')
      (hexact : upTo Sample.value Sample.weight samples c =
        (samples.map Sample.weight).sum / 2) : c = b :=
    (Quantile.of_upTo_eq hpos hc.left hexact).unique hb
  rcases hsettles with ⟨hpast, rfl⟩ | ⟨hexact, b', hadjacent, rfl⟩
  · -- no value has exactly half up to it
    refine iff_of_true rfl fun c c' hc hexact => ?_
    obtain rfl := hreached hc hexact
    omega
  · rw [zero_add] at hexact
    constructor
    · intro heq c c' hc hc'
      obtain rfl := hreached hc hc'
      obtain rfl := hc.unique hadjacent
      split_ifs at heq with heven
      · exact ⟨heven, (eq_tdiv_two_iff hc.lt).mp heq⟩
      · exact absurd heq hc.lt.ne
    · intro hharmless
      obtain ⟨heven, hnext⟩ := hharmless b b' hadjacent hexact
      rw [if_pos heven]
      exact (eq_tdiv_two_iff hadjacent.lt).mpr hnext

end Scans

/-! ## The two aggregates -/

namespace State

/-- The readings that a region aggregates, with the registrations of their
oracles. -/
def regional (s : State) (now : ℕ) (dataType key : Symbol)
    (maxAgeSeconds : ℕ) : List Row :=
  (s.readings dataType key).filterMap fun p =>
    if now - p.timestamp ≤ maxAgeSeconds ∧ s.minConfidence ≤ p.confidence then
      match s.oracles (dataType, p.oracle) with
      | some entry => if entry.active = true then some (p, entry) else none
      | none => none
    else
      none

/-- The weight of a reading within a region, as it is kept in 32 bits. -/
def weightIn (s : State) (dataType region : Symbol) (x : Row) : ℕ :=
  s.regionalWeight x.2 x.1.oracle dataType region

/-- The weight of a reading within a region, at least 1. -/
def exactWeightIn (s : State) (dataType region : Symbol) (x : Row) : ℕ :=
  max (x.2.weight * s.getOracleGeoWeight x.1.oracle dataType region / 10000) 1

end State

section Aggregates

variable {s : State} {now : ℕ} {dataType key region : Symbol}
  {maxAgeSeconds : ℕ} {agg agg' : AggregatedData}

theorem regionalRows_eq {points : List OracleDataPoint}
    (h : s.dataPoints (dataType, key) = some points) :
    s.regionalRows now dataType maxAgeSeconds region points =
      (s.regional now dataType key maxAgeSeconds).map fun x =>
        (x.1, s.weightIn dataType region x) := by
  unfold State.regionalRows State.regional
  rw [State.readings, h, Option.getD_some, List.map_filterMap]
  apply List.filterMap_congr
  intro p _
  split_ifs
  · cases s.oracles (dataType, p.oracle) with
    | none => rfl
    | some entry =>
        dsimp only
        split_ifs <;> rfl
  · rfl

theorem regional_mem {x : Row}
    (hx : x ∈ s.regional now dataType key maxAgeSeconds) :
    s.oracles (dataType, x.1.oracle) = some x.2 := by
  obtain ⟨p, -, hrow⟩ := List.mem_filterMap.mp hx
  split_ifs at hrow
  cases hentry : s.oracles (dataType, p.oracle) with
  | none =>
      rw [hentry] at hrow
      cases hrow
  | some entry =>
      rw [hentry] at hrow
      dsimp only at hrow
      split_ifs at hrow
      obtain rfl := Option.some.inj hrow
      exact hentry

/-- With no limit on inactivity and the same age, a region aggregates the
readings that the plain aggregate does. -/
theorem eligible_eq_regional
    (hlen : (s.readings dataType key).length ≤ maxDataPoints)
    (honline : s.oracleInactivityLimit = 0) :
    s.eligible now dataType key =
      s.regional now dataType key (s.effectiveMaxAge dataType) := by
  unfold State.eligible State.regional
  rw [← State.readings, List.take_of_length_le hlen]
  apply List.filterMap_congr
  intro p _
  have hlive : ∀ oracle, s.oracleOffline now dataType oracle = false :=
    fun _ => if_pos honline
  simp only [State.isFresh, State.liveEntry, hlive, and_true,
    Bool.and_eq_true, decide_eq_true_eq]
  split_ifs
  · cases s.oracles (dataType, p.oracle) with
    | none => rfl
    | some entry =>
        dsimp only
        split_ifs <;> rfl
  · rfl

theorem regional_length
    (hlen : (s.readings dataType key).length ≤ maxDataPoints) :
    (s.regional now dataType key maxAgeSeconds).length ≤ maxDataPoints :=
  (List.length_filterMap_le _ _).trans hlen

theorem getAggregatedForRegion_spec
    (hlen : (s.readings dataType key).length ≤ maxDataPoints)
    (h : s.getAggregatedForRegion now dataType key maxAgeSeconds region =
      .ok agg) :
    s.regional now dataType key maxAgeSeconds ≠ [] ∧
      ∃ fallback, agg.medianValue =
        State.regionalMedian
          (((s.regional now dataType key maxAgeSeconds).map
            (s.weightIn dataType region)).sum / 2) fallback 0
          (byValue ((s.regional now dataType key maxAgeSeconds).map
            (Row.sample (s.weightIn dataType region)))) := by
  simp only [State.getAggregatedForRegion, bind_ok, unwrap_ok, require_ok,
    unsigned_ok] at h
  obtain ⟨points, hpoints, _, -, _, ⟨-, rfl⟩, _, -, h⟩ := h
  have hrows : s.regionalRows now dataType maxAgeSeconds region points =
      (s.regional now dataType key maxAgeSeconds).map fun x =>
        (x.1, s.weightIn dataType region x) := regionalRows_eq hpoints
  have hweights : (s.regionalRows now dataType maxAgeSeconds region
      points).map Prod.snd = (s.regional now dataType key maxAgeSeconds).map
        (s.weightIn dataType region) := by
    rw [hrows, List.map_map]
    rfl
  have hsamples : ((s.regionalRows now dataType maxAgeSeconds region
      points).take 100).map (fun r =>
        { value := r.1.value
          weight := r.2
          timestamp := r.1.timestamp : Sample }) =
      (s.regional now dataType key maxAgeSeconds).map
        (Row.sample (s.weightIn dataType region)) := by
    rw [List.take_of_length_le, hrows, List.map_map]
    · rfl
    · rw [hrows, List.length_map]
      exact regional_length hlen
  rw [hsamples, hweights] at h
  cases hsort : ((s.regional now dataType key maxAgeSeconds).map
      (Row.sample (s.weightIn dataType region))).insertionSort
        (fun a b => a.value ≤ b.value) with
  | nil =>
      rw [hsort] at h
      cases h
  | cons lowest rest =>
      rw [hsort] at h
      refine ⟨?_, lowest.value, ?_⟩
      · intro hnil
        rw [hnil] at hsort
        cases hsort
      · rw [byValue, hsort]
        exact congrArg AggregatedData.medianValue (pure_ok.mp h)

/-- A weight in range that a region does not scale stays what it is. -/
theorem weightIn_default {x : Row}
    (hweight : 1 ≤ x.2.weight ∧ x.2.weight ≤ maxWeight)
    (hdefault : s.getOracleGeoWeight x.1.oracle dataType region = 10000) :
    s.weightIn dataType region x = x.2.weight := by
  obtain ⟨hpos, hmax⟩ := hweight
  rw [State.weightIn, State.regionalWeight, hdefault,
    Nat.mul_div_cancel _ (by decide)]
  simp only [maxWeight] at hmax
  omega

/-- The regional weights and their sum are exact if and only if the sum of the
exact ones is a 32-bit number. -/
theorem weightIn_exact_iff {L : List Row} :
    ((∀ x ∈ L, s.weightIn dataType region x =
        s.exactWeightIn dataType region x) ∧
      (L.map (s.weightIn dataType region)).sum < 2 ^ 32) ↔
      (L.map (s.exactWeightIn dataType region)).sum < 2 ^ 32 := by
  constructor
  · rintro ⟨hexact, hsum⟩
    rwa [List.map_congr_left hexact] at hsum
  · intro hsum
    have hexact : ∀ x ∈ L, s.weightIn dataType region x =
        s.exactWeightIn dataType region x := by
      intro x hx
      have hle := List.single_le_sum (fun _ _ => Nat.zero_le _)
        (s.exactWeightIn dataType region x) (List.mem_map_of_mem hx)
      unfold State.weightIn State.regionalWeight
      unfold State.exactWeightIn at hle hsum ⊢
      rw [Nat.mod_eq_of_lt (by omega)]
    refine ⟨hexact, ?_⟩
    rwa [List.map_congr_left hexact]

/-- What is reported without an outlier filter is the weighted median of the
eligible readings. -/
theorem getAggregated_median
    (hmethod : s.aggregationMethod dataType = .weightedMedian)
    (hfilter : (s.outlierConfig dataType).enabled = false)
    (h : s.getAggregated now dataType key = .ok agg) :
    weightedMedian ((s.eligible now dataType key).map
        (Row.sample fun x => x.2.weight))
      ((s.eligible now dataType key).map fun x => x.2.weight).sum =
        .ok agg.medianValue := by
  obtain ⟨kept, total, hagg⟩ := State.getAggregated_spec h
  obtain ⟨M, hM, -, hvalue⟩ := aggregateSamples_spec hagg
  rw [filterRows_disabled hfilter] at hM
  obtain rfl := Except.ok.inj hM
  rwa [hmethod] at hvalue

/-- The samples of the plain aggregate. -/
def State.registeredSamples (s : State) (now : ℕ) (dataType key : Symbol) :
    List Sample :=
  (s.eligible now dataType key).map (Row.sample fun x => x.2.weight)

theorem regional_eq_plain_iff
    (hlen : (s.readings dataType key).length ≤ maxDataPoints)
    (hweights : ∀ x entry, s.oracles x = some entry →
      1 ≤ entry.weight ∧ entry.weight ≤ maxWeight)
    (hmethod : s.aggregationMethod dataType = .weightedMedian)
    (hfilter : (s.outlierConfig dataType).enabled = false)
    (honline : s.oracleInactivityLimit = 0)
    (hdefault : ∀ x ∈ s.regional now dataType key (s.effectiveMaxAge dataType),
      s.getOracleGeoWeight x.1.oracle dataType region = 10000)
    (h : s.getAggregated now dataType key = .ok agg)
    (h' : s.getAggregatedForRegion now dataType key
      (s.effectiveMaxAge dataType) region = .ok agg') :
    agg'.medianValue = agg.medianValue ↔
      HarmlessSplits (s.registeredSamples now dataType key) := by
  have hmedian := getAggregated_median hmethod hfilter h
  obtain ⟨hne, fallback, hregion⟩ := getAggregatedForRegion_spec hlen h'
  have hsame : ∀ x ∈ s.regional now dataType key (s.effectiveMaxAge dataType),
      s.weightIn dataType region x = x.2.weight := fun x hx =>
    weightIn_default (hweights _ _ (regional_mem hx)) (hdefault x hx)
  have hsamples : (s.regional now dataType key (s.effectiveMaxAge dataType)).map
        (Row.sample (s.weightIn dataType region)) =
      s.registeredSamples now dataType key := by
    rw [State.registeredSamples, eligible_eq_regional hlen honline]
    apply List.map_congr_left
    intro x hx
    rw [Row.sample, hsame x hx, Row.sample]
  have htotal : (s.regional now dataType key (s.effectiveMaxAge dataType)).map
        (s.weightIn dataType region) =
      (s.registeredSamples now dataType key).map Sample.weight := by
    rw [← hsamples, map_sample_weight]
  have hpos : ∀ z ∈ s.registeredSamples now dataType key, 1 ≤ z.weight := by
    intro z hz
    obtain ⟨x, hx, rfl⟩ := List.mem_map.mp hz
    exact (hweights _ _ (eligible_mem hx).2).1
  have hsome : s.registeredSamples now dataType key ≠ [] := by
    rw [← hsamples]
    exact fun hnil => hne (List.map_eq_nil_iff.mp hnil)
  rw [hregion, hsamples, htotal]
  refine regionalMedian_eq_iff hpos hsome ?_
  rw [State.registeredSamples, map_sample_weight]
  exact hmedian

end Aggregates

/-- A region whose oracles all have the default weight aggregates what the plain
aggregate does exactly if no split of the weight does harm; and its weights are
exact exactly if their sum is a 32-bit number. -/
theorem regional_extends_plain_iff {self : Address} {w : World State}
    (hreach : (system self).Reachable w) (dataType key region : Symbol) :
    ((∀ x ∈ w.machine.store.regional w.now dataType key
          (w.machine.store.effectiveMaxAge dataType),
        w.machine.store.getOracleGeoWeight x.1.oracle dataType region =
          10000) →
      w.machine.store.aggregationMethod dataType = .weightedMedian →
      (w.machine.store.outlierConfig dataType).enabled = false →
      w.machine.store.oracleInactivityLimit = 0 →
      ∀ agg agg',
        w.machine.store.getAggregated w.now dataType key = .ok agg →
        w.machine.store.getAggregatedForRegion w.now dataType key
          (w.machine.store.effectiveMaxAge dataType) region = .ok agg' →
        (agg'.medianValue = agg.medianValue ↔
          HarmlessSplits
            (w.machine.store.registeredSamples w.now dataType key))) ∧
    ∀ maxAgeSeconds,
      ((∀ x ∈ w.machine.store.regional w.now dataType key maxAgeSeconds,
          w.machine.store.weightIn dataType region x =
            w.machine.store.exactWeightIn dataType region x) ∧
        ((w.machine.store.regional w.now dataType key maxAgeSeconds).map
          (w.machine.store.weightIn dataType region)).sum < 2 ^ 32) ↔
      ((w.machine.store.regional w.now dataType key maxAgeSeconds).map
        (w.machine.store.exactWeightIn dataType region)).sum < 2 ^ 32 := by
  have hlen := readings_bounded hreach dataType key
  have hweights := hreach.invariant (weighed_inductive self)
  refine ⟨?_, fun maxAgeSeconds => weightIn_exact_iff⟩
  intro hdefault hmethod hfilter honline agg agg' h h'
  exact regional_eq_plain_iff hlen hweights hmethod hfilter honline hdefault
    h h'

/-! ## Two oracles of nearly equal weight -/

namespace Scenario

def coast : Symbol := ⟨['c', 'o', 'a', 's', 't']⟩

/-- The first oracle gets the largest weight, and counts for the region as much
as possible. -/
def coastalRun : List (Label Entry) :=
  [.call [admin] (.updateOracleWeight admin oracleA Symbols.weather 100000),
    .call [admin] (.setOracleGeoWeight admin oracleA Symbols.weather coast
      (2 ^ 32 - 1))]

def coastal : World State :=
  (TransitionSystem.execute (step exec verifier) coastalRun trusted).get
    (by decide +kernel)

theorem trusted_reachable : (system verifier).Reachable trusted :=
  TransitionSystem.reachable_of_execute (fun _ _ _ => step_sound)
    ⟨rfl, rfl⟩ (Option.some_get _).symm

/-- What a region without weights of its own is reported as. -/
def coastReport : AggregatedData where
  medianValue := 10
  oracleCount := 2
  activeOracleCount := 2
  confidence := 90
  minConfidence := 90
  lastUpdated := 1000000
  confidenceIntervalLower := -15
  confidenceIntervalUpper := 35

theorem trusted_aggregated :
    trusted.machine.store.getAggregated trusted.now Symbols.weather rain =
      .ok report := by
  decide +kernel

theorem trusted_regional :
    trusted.machine.store.getAggregatedForRegion trusted.now Symbols.weather
        rain (trusted.machine.store.effectiveMaxAge Symbols.weather) coast =
      .ok coastReport := by
  decide +kernel

theorem trusted_default :
    ∀ x ∈ trusted.machine.store.regional trusted.now Symbols.weather rain
        (trusted.machine.store.effectiveMaxAge Symbols.weather),
      trusted.machine.store.getOracleGeoWeight x.1.oracle Symbols.weather
        coast = 10000 := by
  decide +kernel

end Scenario

open Scenario

/-- The reading of weight 100 has half of 201, rounded down, without excess. -/
theorem regional_extends_plain_iff_trusted :
    ¬ HarmlessSplits
        (trusted.machine.store.registeredSamples trusted.now Symbols.weather
          rain) ∧
      ∀ x ∈ trusted.machine.store.regional trusted.now Symbols.weather rain
          86400,
        trusted.machine.store.weightIn Symbols.weather coast x =
          trusted.machine.store.exactWeightIn Symbols.weather coast x := by
  obtain ⟨hmedians, hweights⟩ := regional_extends_plain_iff trusted_reachable
    Symbols.weather rain coast
  constructor
  · intro hharmless
    have hsame := (hmedians trusted_default (by decide +kernel)
      (by decide +kernel) (by decide +kernel) report coastReport
      trusted_aggregated trusted_regional).mpr hharmless
    revert hsame
    decide
  · exact ((hweights 86400).mpr (by decide +kernel)).1

/-- At full reputation and with no weights for the region, the two aggregates
of the same two readings differ; and a weight of the region is truncated. -/
theorem regional_departs_from_plain :
    (system verifier).Reachable trusted ∧
      (∀ x ∈ trusted.machine.store.regional trusted.now Symbols.weather rain
          (trusted.machine.store.effectiveMaxAge Symbols.weather),
        trusted.machine.store.getOracleGeoWeight x.1.oracle Symbols.weather
            coast = 10000 ∧
          (trusted.machine.store.getReputation x.1.oracle
            Symbols.weather).score = 1000) ∧
      trusted.machine.store.aggregationMethod Symbols.weather =
        .weightedMedian ∧
      (trusted.machine.store.outlierConfig Symbols.weather).enabled = false ∧
      trusted.machine.store.oracleInactivityLimit = 0 ∧
      trusted.machine.store.getAggregated trusted.now Symbols.weather rain =
        .ok report ∧
      trusted.machine.store.getAggregatedForRegion trusted.now
          Symbols.weather rain
          (trusted.machine.store.effectiveMaxAge Symbols.weather) coast =
        .ok coastReport ∧
      coastReport.medianValue ≠ report.medianValue ∧
      (system verifier).Reachable coastal ∧
      (coastal.machine.store.regional coastal.now Symbols.weather rain
          86400).map (coastal.machine.store.weightIn Symbols.weather coast) =
        [4294967286, 101] ∧
      (coastal.machine.store.regional coastal.now Symbols.weather rain
          86400).map
          (coastal.machine.store.exactWeightIn Symbols.weather coast) =
        [42949672950, 101] := by
  have hrun : (system verifier).Run trusted coastalRun coastal :=
    TransitionSystem.run_of_execute (fun _ _ _ => step_sound)
      (Option.some_get _).symm
  refine ⟨trusted_reachable, ?_, ?_, ?_, ?_, trusted_aggregated,
    trusted_regional, by decide, trusted_reachable.run hrun, ?_, ?_⟩
  all_goals decide +kernel

end Parashield.OracleVerifier
