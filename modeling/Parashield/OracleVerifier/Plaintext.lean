import Parashield.OracleVerifier.Reads
import Parashield.Support.Mirror

/-!
# Oracle verifier: leftover plaintext

Once a data type requires encryption, the plaintext readings stored before
must not be told from each other by any read path.  Two states are compared
that differ in these readings only; a read path that looks at the flag mirrors
itself on them.
-/

namespace Parashield.OracleVerifier

open Support Support.Contract Invocation

abbrev PointStore := Symbol × Symbol → Option (List OracleDataPoint)

namespace State

/-- The storage with other plaintext readings. -/
def withPoints (s : State) (points : PointStore) : State :=
  { s with dataPoints := points }

/-- The readings are those stored, but for the ones of `dataType`. -/
def AgreesOff (s : State) (dataType : Symbol) (points : PointStore) : Prop :=
  ∀ other key, other ≠ dataType →
    points (other, key) = s.dataPoints (other, key)

/-- `dataType` requires encryption, and `t` differs from `s` in its plaintext
readings at most. -/
def Veiled (dataType : Symbol) (s t : State) : Prop :=
  s.encryptionRequired dataType = true ∧
    ∃ points, t = s.withPoints points ∧ s.AgreesOff dataType points

end State

/-- The same storages up to plaintext readings of `dataType`, next to the same
tokens. -/
structure Veiled (dataType : Symbol) (m m' : Machine State) : Prop where
  store : m.store.Veiled dataType m'.store
  bank : m'.bank = m.bank

variable {env : Env} {dataType dataType' key : Symbol} {s t : State}
  {m m' : Machine State} {points : PointStore} {now : ℕ} {self : Address}

/-! ## Read paths depend on the readings of their key only -/

namespace State

theorem getMedianValue_withPoints
    (h : points (dataType, key) = s.dataPoints (dataType, key)) :
    (s.withPoints points).getMedianValue now dataType key =
      s.getMedianValue now dataType key := by
  unfold getMedianValue
  rw [show (s.withPoints points).dataPoints = points from rfl, h]
  rfl

theorem getAggregated_withPoints
    (h : points (dataType, key) = s.dataPoints (dataType, key)) :
    (s.withPoints points).getAggregated now dataType key =
      s.getAggregated now dataType key := by
  unfold getAggregated
  rw [show (s.withPoints points).dataPoints = points from rfl, h]
  rfl

theorem getData_withPoints
    (h : points (dataType, key) = s.dataPoints (dataType, key)) :
    (s.withPoints points).getData now dataType key =
      s.getData now dataType key := by
  unfold getData
  rw [show (s.withPoints points).dataPoints = points from rfl, h]
  rfl

theorem getDataPoints_withPoints
    (h : points (dataType, key) = s.dataPoints (dataType, key)) :
    (s.withPoints points).getDataPoints dataType key =
      s.getDataPoints dataType key := by
  unfold getDataPoints
  rw [show (s.withPoints points).dataPoints = points from rfl, h]

theorem getAggregatedForRegion_withPoints {maxAgeSeconds : ℕ}
    {region : Symbol}
    (h : points (dataType, key) = s.dataPoints (dataType, key)) :
    (s.withPoints points).getAggregatedForRegion now dataType key
        maxAgeSeconds region =
      s.getAggregatedForRegion now dataType key maxAgeSeconds region := by
  unfold getAggregatedForRegion
  rw [show (s.withPoints points).dataPoints = points from rfl, h]
  rfl

theorem reputationWeightedConfidence_withPoints
    (h : points (dataType, key) = s.dataPoints (dataType, key)) :
    (s.withPoints points).reputationWeightedConfidence now dataType key =
      s.reputationWeightedConfidence now dataType key := by
  unfold reputationWeightedConfidence
  rw [show (s.withPoints points).dataPoints = points from rfl, h]
  rfl

theorem checkFreshness_withPoints
    (h : points (dataType, key) = s.dataPoints (dataType, key)) :
    (s.withPoints points).checkFreshness now dataType key =
      s.checkFreshness now dataType key := by
  unfold checkFreshness
  rw [getDataPoints_withPoints h]
  rfl

theorem checkStaleness_withPoints
    (h : points (dataType, key) = s.dataPoints (dataType, key)) :
    (s.withPoints points).checkStaleness now dataType key =
      s.checkStaleness now dataType key := by
  unfold checkStaleness
  rw [getDataPoints_withPoints h]
  rfl

/-! ## Veiled storages -/

/-- The flag is the same on both sides. -/
theorem Veiled.encryptionRequired (h : s.Veiled dataType t) :
    t.encryptionRequired = s.encryptionRequired := by
  obtain ⟨-, points, rfl, -⟩ := h
  rfl

/-- The readings of a data type that may be stored in plaintext are the
same. -/
theorem Veiled.same_readings (h : s.Veiled dataType t)
    (hplain : s.encryptionRequired dataType' = false) :
    ∃ points, t = s.withPoints points ∧
      ∀ key, points (dataType', key) = s.dataPoints (dataType', key) := by
  obtain ⟨hrequired, points, rfl, hagree⟩ := h
  have hne : dataType' ≠ dataType := by
    rintro rfl
    exact absurd (hrequired.symm.trans hplain) (by decide)
  exact ⟨points, rfl, fun key => hagree dataType' key hne⟩

/-- The reported aggregate is refused on both sides, or about readings that
are the same. -/
theorem Veiled.getAggregated (h : s.Veiled dataType t) :
    t.getAggregated now dataType' key = s.getAggregated now dataType' key := by
  by_cases hplain : s.encryptionRequired dataType' = false
  · obtain ⟨points, rfl, hreadings⟩ := h.same_readings hplain
    exact getAggregated_withPoints (hreadings key)
  · have hflag : ¬ t.encryptionRequired dataType' = false := by
      rwa [h.encryptionRequired]
    unfold State.getAggregated
    rw [Check.require, Check.require, if_neg hplain, if_neg hflag]
    rfl

end State

/-! ## Guarded read paths -/

theorem mirror_load :
    Mirror (Veiled dataType) (State.Veiled dataType)
      (load : Call State) load := by
  refine mirror_bind mirror_get fun m m' h => ?_
  exact mirror_pure h.store

theorem mirror_requireDataTypeActive :
    Mirror (Veiled dataType) Eq (requireDataTypeActive dataType')
      (requireDataTypeActive dataType') := by
  refine mirror_bind mirror_load fun s t hst => ?_
  obtain ⟨-, points, rfl, -⟩ := hst
  exact (mirror_require _ Iff.rfl).weaken fun _ _ _ => rfl

theorem mirror_updateReputation {oracle : Address} {accurate : Bool} :
    Mirror (Veiled dataType) Eq
      (updateReputation env oracle dataType' accurate)
      (updateReputation env oracle dataType' accurate) := by
  refine mirror_bind mirror_load fun s t hst => ?_
  obtain ⟨-, points, rfl, -⟩ := hst
  refine mirror_bind (mirror_unsigned _ _ _) ?_
  rintro total _ rfl
  refine mirror_bind (mirror_unsigned _ _ _) ?_
  rintro accurateCount _ rfl
  refine mirror_bind (mirror_unsigned _ _ _) ?_
  rintro scaled _ rfl
  refine mirror_modify fun m m' h => ⟨?_, h.bank⟩
  obtain ⟨hrequired, points', hstore, hagree⟩ := h.store
  exact ⟨hrequired, points', by rw [hstore]; rfl, hagree⟩

theorem mirror_scoreReading {median tolerance : ℤ} {p : OracleDataPoint} :
    Mirror (Veiled dataType) Eq
      (scoreReading env dataType' median tolerance p)
      (scoreReading env dataType' median tolerance p) := by
  refine mirror_bind mirror_load fun s t hst => ?_
  obtain ⟨-, points, rfl, -⟩ := hst
  refine mirror_whenever Iff.rfl ?_
  rw [show (s.withPoints points).oracles = s.oracles from rfl]
  cases s.oracles (dataType', p.oracle) with
  | none => exact mirror_pure rfl
  | some entry =>
      refine mirror_whenever Iff.rfl (mirror_bind (mirror_check _) ?_)
      rintro diff _ rfl
      exact mirror_updateReputation

/-- The verdict on readings that are the same on both sides, and the scores
that follow it. -/
theorem mirror_evaluate {condition : TriggerCondition}
    {readings : List OracleDataPoint}
    (h : points (dataType', key) = s.dataPoints (dataType', key)) :
    Mirror (Veiled dataType) Eq
      (do
        let median ← check (s.getMedianValue env.now dataType' key)
        let result ← check (condition.holds median)
        forEach readings
          (scoreReading env dataType' median condition.tolerance)
        pure result : Call Bool)
      (do
        let median ← check
          ((s.withPoints points).getMedianValue env.now dataType' key)
        let result ← check (condition.holds median)
        forEach readings
          (scoreReading env dataType' median condition.tolerance)
        pure result) := by
  rw [State.getMedianValue_withPoints h]
  refine mirror_bind (mirror_check _) ?_
  rintro median _ rfl
  refine mirror_bind (mirror_check _) ?_
  rintro result _ rfl
  refine mirror_bind (mirror_forEach fun p _ => mirror_scoreReading) ?_
  exact fun _ _ _ => mirror_pure rfl

theorem mirror_verifyTrigger {condition : TriggerCondition} :
    Mirror (Veiled dataType) Eq (verifyTrigger env dataType' key condition)
      (verifyTrigger env dataType' key condition) := by
  refine mirror_bind mirror_requireDataTypeActive fun _ _ _ => ?_
  refine mirror_bind mirror_load fun s t hst => ?_
  rw [hst.encryptionRequired]
  refine mirror_bind (mirror_require _ Iff.rfl) fun _ _ hplain => ?_
  obtain ⟨points, rfl, hreadings⟩ := hst.same_readings hplain
  rw [show (s.withPoints points).dataPoints = points from rfl,
    hreadings key]
  refine mirror_bind (mirror_unwrap _ _) ?_
  rintro readings _ rfl
  refine mirror_bind (mirror_require _ Iff.rfl) fun _ _ _ => ?_
  exact mirror_evaluate (hreadings key)

theorem mirror_verifyTriggerFresh {condition : TriggerCondition}
    {maxAgeSeconds : ℕ} :
    Mirror (Veiled dataType) Eq
      (verifyTriggerFresh env dataType' key condition maxAgeSeconds)
      (verifyTriggerFresh env dataType' key condition maxAgeSeconds) := by
  refine mirror_bind mirror_requireDataTypeActive fun _ _ _ => ?_
  refine mirror_bind mirror_load fun s t hst => ?_
  rw [hst.encryptionRequired]
  refine mirror_bind (mirror_require _ Iff.rfl) fun _ _ hplain => ?_
  obtain ⟨points, rfl, hreadings⟩ := hst.same_readings hplain
  rw [show (s.withPoints points).dataPoints = points from rfl,
    hreadings key]
  refine mirror_bind (mirror_unwrap _ _) ?_
  rintro readings _ rfl
  refine mirror_bind (mirror_require _ Iff.rfl) fun _ _ _ => ?_
  refine mirror_bind (mirror_require _ Iff.rfl) fun _ _ _ => ?_
  refine mirror_bind (mirror_require _ Iff.rfl) fun _ _ _ => ?_
  exact mirror_evaluate (hreadings key)

theorem mirror_verifyTriggerWithConfidence {condition : TriggerCondition} :
    Mirror (Veiled dataType) Eq
      (verifyTriggerWithConfidence env dataType' key condition)
      (verifyTriggerWithConfidence env dataType' key condition) := by
  refine mirror_bind mirror_requireDataTypeActive fun _ _ _ => ?_
  refine mirror_bind mirror_load fun s t hst => ?_
  rw [hst.getAggregated]
  refine mirror_bind (mirror_check _) ?_
  rintro agg _ rfl
  refine mirror_bind (mirror_check _) ?_
  rintro result _ rfl
  exact mirror_pure rfl

/-- Queries about encrypted data types fail, the others see the same. -/
theorem mirror_batchVerifyFresh {queries : List OracleReadingQuery} :
    Mirror (Veiled dataType) Eq (batchVerifyFresh env queries)
      (batchVerifyFresh env queries) :=
  mirror_collect fun _ _ => mirror_verifyTriggerFresh

end Parashield.OracleVerifier
