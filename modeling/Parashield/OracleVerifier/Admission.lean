import Parashield.OracleVerifier.Submission

/-!
# Oracle verifier: the way of a reading

A reading that comes in by one of the three plaintext paths meets the checks
they share, then those of its path.  A fresh reading is stored next to the
others of its key, and a stale one is counted against its oracle.
-/

namespace Parashield.OracleVerifier

open Support Support.Contract Invocation

/-! ## Checks of the shared gates -/

section Gates

variable {env : Env} {m m' : Machine State}

@[simp] theorem requireActiveOracle_ok {dataType : Symbol} {oracle : Address}
    {u : Unit} :
    requireActiveOracle dataType oracle m = .ok (u, m') ↔
      (∃ entry, m.store.oracles (dataType, oracle) = some entry ∧
        entry.active = true) ∧ m' = m := by
  simp only [requireActiveOracle, bind_ok, load_ok, unwrap_ok, ensure_ok]
  constructor
  · rintro ⟨_, _, ⟨rfl, rfl⟩, entry, _, ⟨hentry, rfl⟩, hactive, rfl⟩
    exact ⟨⟨entry, hentry, hactive⟩, rfl⟩
  · rintro ⟨⟨entry, hentry, hactive⟩, rfl⟩
    exact ⟨_, _, ⟨rfl, rfl⟩, entry, _, ⟨hentry, rfl⟩, hactive, rfl⟩

@[simp] theorem requireTimestampInRange_ok {timestamp : ℕ} {u : Unit} :
    requireTimestampInRange env timestamp m = .ok (u, m') ↔
      (timestamp ≤ satAddU64 env.now m.store.timestampFutureBuffer ∧
        env.now - m.store.maxTimestampAge ≤ timestamp) ∧ m' = m := by
  simp only [requireTimestampInRange, bind_ok, load_ok, ensure_ok]
  constructor
  · rintro ⟨_, _, ⟨rfl, rfl⟩, _, _, ⟨hahead, rfl⟩, hback, rfl⟩
    exact ⟨⟨hahead, hback⟩, rfl⟩
  · rintro ⟨⟨hahead, hback⟩, rfl⟩
    exact ⟨_, _, ⟨rfl, rfl⟩, (), _, ⟨hahead, rfl⟩, hback, rfl⟩

@[simp] theorem requireStrictlyNewerReading_ok {dataType key : Symbol}
    {oracle : Address} {timestamp : ℕ} {u : Unit} :
    requireStrictlyNewerReading dataType key oracle timestamp m =
        .ok (u, m') ↔
      (∀ last ∈ m.store.lastReadingTimestamp (dataType, key, oracle),
        last < timestamp) ∧ m' = m := by
  simp only [requireStrictlyNewerReading, bind_ok, load_ok, ensure_ok]
  constructor
  · rintro ⟨_, _, ⟨rfl, rfl⟩, hnewer, rfl⟩
    exact ⟨hnewer, rfl⟩
  · rintro ⟨hnewer, rfl⟩
    exact ⟨_, _, ⟨rfl, rfl⟩, hnewer, rfl⟩

theorem validateSymbolLen_ok {symbol : Symbol} {u : Unit} :
    validateSymbolLen symbol m = .ok (u, m') ↔
      (symbol.chars ≠ [] ∧ symbol.chars.length ≤ 32) ∧ m' = m :=
  ensure_ok

theorem validateKeyLen_ok {key : Symbol} {u : Unit} :
    validateKeyLen key m = .ok (u, m') ↔
      (key.chars ≠ [] ∧ key.chars.length ≤ maxKeyLen) ∧ m' = m :=
  ensure_ok

theorem requireDataTypeActive_ok {dataType : Symbol} {u : Unit} :
    requireDataTypeActive dataType m = .ok (u, m') ↔
      m.store.dataTypePaused dataType = false ∧ m' = m := by
  rw [requireDataTypeActive, load_bind, ensure_ok]

/-- Cross-validation reads only. -/
theorem checkCrossValidation_same {sourceType key : Symbol} {u : Unit}
    (h : checkCrossValidation env sourceType key m = .ok (u, m')) :
    m' = m := by
  have hkeeps : Keeps (fun t => t = m)
      (checkCrossValidation env sourceType key) := by
    apply keeps_bind
    · intro t v t' ht hrun
      rw [(load_ok.mp hrun).2, ht]
    · intro t
      apply keeps_whenever
      intro _
      apply keeps_bind (keeps_check _)
      intro sourceValue
      apply keeps_forEach
      intro targetType _
      unfold crossValidate
      split
      · apply keeps_bind (keeps_check _)
        intro targetValue
        apply keeps_bind (keeps_i128 _ _)
        intro variance
        exact keeps_require _ _
      · exact keeps_pure ()
  exact hkeeps m u m' rfl h

end Gates

/-! ## What a reading leaves -/

namespace State

/-- The time of the call is kept as the oracle's last submission. -/
def stamp (s : State) (now : ℕ) (dataType : Symbol) (oracle : Address) :
    State :=
  { s with
    lastSubmission :=
      Function.update s.lastSubmission (dataType, oracle) (some now) }

/-- The reading replaces the oracle's previous one of the key. -/
def take (s : State) (now : ℕ) (dataType key : Symbol)
    (p : OracleDataPoint) : State :=
  { s with
    dataPoints :=
      Function.update s.dataPoints (dataType, key)
        (some (makeRoom (((s.dataPoints (dataType, key)).getD []).filter
          fun q => s.retains now dataType p.oracle q.oracle q.timestamp) ++
            [p]))
    lastReadingTimestamp :=
      Function.update s.lastReadingTimestamp (dataType, key, p.oracle)
        (some p.timestamp) }

/-- The oracle has no stale submissions on its record. -/
def clear (s : State) (dataType : Symbol) (oracle : Address) : State :=
  { s with staleCount := Function.update s.staleCount (dataType, oracle) 0 }

end State

/-- The checks that all three paths make on a reading. -/
structure Admitted (env : Env) (oracle : Address) (dataType : Symbol)
    (sub : OracleDataSubmission) (s : State) : Prop where
  signed : oracle ∈ env.signers
  running : s.dataTypePaused dataType = false
  plain : s.encryptionRequired dataType = false
  named : dataType.chars ≠ [] ∧ dataType.chars.length ≤ 32
  listed : ∃ entry, s.oracles (dataType, oracle) = some entry ∧
    entry.active = true
  rested : ∀ last ∈ s.lastSubmission (dataType, oracle),
    s.minSubmitInterval ≤ env.now - last
  keyed : sub.key.chars ≠ [] ∧ sub.key.chars.length ≤ maxKeyLen
  confident : sub.confidence ≠ 0 ∧ sub.confidence ≤ 100
  inRange : sub.timestamp ≤ satAddU64 env.now s.timestampFutureBuffer ∧
    env.now - s.maxTimestampAge ≤ sub.timestamp
  newer : ∀ last ∈ s.lastReadingTimestamp (dataType, sub.key, oracle),
    last < sub.timestamp

/-- The reading as it is stored. -/
def pointOf (oracle : Address) (sub : OracleDataSubmission) :
    OracleDataPoint where
  oracle := oracle
  value := sub.value
  confidence := sub.confidence
  timestamp := sub.timestamp

section Paths

variable {env : Env} {m m' : Machine State} {oracle : Address}
  {dataType : Symbol} {sub : OracleDataSubmission} {u : Unit}

theorem enforceRateLimit_bind {α : Type} {f : Unit → Call α}
    {r : α × Machine State} :
    (enforceRateLimit env dataType oracle >>= f) m = .ok r ↔
      (∀ last ∈ m.store.lastSubmission (dataType, oracle),
        m.store.minSubmitInterval ≤ env.now - last) ∧
        f () { m with store := m.store.stamp env.now dataType oracle } =
          .ok r := by
  rw [enforceRateLimit, bind_assoc, load_bind, bind_assoc, ensure_bind,
    update_bind]
  rfl

theorem checkCrossValidation_bind {key : Symbol} {f : Unit → Call Unit}
    {r : Unit × Machine State} :
    (checkCrossValidation env dataType key >>= f) m = .ok r ↔
      checkCrossValidation env dataType key m = .ok ((), m) ∧
        f () m = .ok r := by
  constructor
  · intro h
    obtain ⟨_, t, hcross, hrest⟩ := bind_ok.mp h
    obtain rfl := checkCrossValidation_same hcross
    exact ⟨hcross, hrest⟩
  · rintro ⟨hcross, hrest⟩
    exact bind_ok.mpr ⟨(), m, hcross, hrest⟩

theorem resetStaleCount_ok :
    resetStaleCount oracle dataType m = .ok (u, m') ↔
      m' = { m with store := m.store.clear dataType oracle } := by
  rw [resetStaleCount, storeStaleCount, update_ok]
  rfl

/-- Where a reading that passed its checks goes. -/
theorem reading_ok {stale : Prop} [Decidable stale] {penalty rest : Call Unit} :
    (if stale then penalty
    else do
      storePlainReading dataType sub.key
        { oracle := oracle
          value := sub.value
          confidence := sub.confidence
          timestamp := sub.timestamp } env.now
      recordReadingTimestamp dataType sub.key oracle sub.timestamp
      rest) m = .ok (u, m') ↔
      if stale then penalty m = .ok (u, m')
      else
        rest { m with
          store := m.store.take env.now dataType sub.key
            (pointOf oracle sub) } = .ok (u, m') := by
  split_ifs
  · exact Iff.rfl
  · exact Iff.rfl

theorem submitData_ok (sub : OracleDataSubmission) :
    submitData env oracle dataType sub.key sub.value sub.confidence
        sub.timestamp m = .ok (u, m') ↔
      Admitted env oracle dataType sub m.store ∧
        ((sub.value ≤ maxDataValue ∧ -maxDataValue ≤ sub.value) ∧
          |sub.value| ≤ m.store.getDataTypeMax dataType ∧
          sub.timestamp ≠ 0) ∧
        if m.store.effectiveMaxAge dataType < env.now - sub.timestamp then
          handleStaleSubmission env oracle dataType
            { m with store := m.store.stamp env.now dataType oracle } =
              .ok (u, m')
        else
          let s := (m.store.stamp env.now dataType oracle).take env.now
            dataType sub.key (pointOf oracle sub)
          checkCrossValidation env dataType sub.key { m with store := s } =
              .ok ((), { m with store := s }) ∧
            m' = { m with store := s.clear dataType oracle } := by
  simp only [submitData, requireAuth_bind, load_bind, ensure_bind,
    guard_bind fun _ _ => validateSymbolLen_ok,
    guard_bind fun _ _ => validateKeyLen_ok,
    guard_bind fun _ _ => requireDataTypeActive_ok,
    guard_bind fun _ _ => requireTimestampInRange_ok,
    guard_bind fun _ _ => requireActiveOracle_ok,
    guard_bind fun _ _ => requireStrictlyNewerReading_ok,
    enforceRateLimit_bind, reading_ok, checkCrossValidation_bind,
    resetStaleCount_ok]
  constructor
  · rintro ⟨hsigned, hnamed, hrunning, hplain, hkey, hconfidence, hvalue, hmax,
      hzero, hrange, hactive, hrested, hnewer, h⟩
    exact ⟨⟨hsigned, hrunning, hplain, hnamed, hactive, hrested, hkey,
      hconfidence, hrange, hnewer⟩, ⟨hvalue, hmax, hzero⟩, h⟩
  · rintro ⟨hadmitted, ⟨hvalue, hmax, hzero⟩, h⟩
    exact ⟨hadmitted.signed, hadmitted.named, hadmitted.running,
      hadmitted.plain, hadmitted.keyed, hadmitted.confident, hvalue, hmax,
      hzero, hadmitted.inRange, hadmitted.listed, hadmitted.rested,
      hadmitted.newer, h⟩

theorem openBatch_bind {f : Unit → Call Unit} {r : Unit × Machine State} :
    (openBatch env oracle dataType >>= f) m = .ok r ↔
      (oracle ∈ env.signers ∧ m.store.dataTypePaused dataType = false ∧
        m.store.encryptionRequired dataType = false ∧
        (dataType.chars ≠ [] ∧ dataType.chars.length ≤ 32) ∧
        (∃ entry, m.store.oracles (dataType, oracle) = some entry ∧
          entry.active = true) ∧
        ∀ last ∈ m.store.lastSubmission (dataType, oracle),
          m.store.minSubmitInterval ≤ env.now - last) ∧
        f () { m with store := m.store.stamp env.now dataType oracle } =
          .ok r := by
  simp only [openBatch, bind_assoc, requireAuth_bind, load_bind, ensure_bind,
    guard_bind fun _ _ => validateSymbolLen_ok,
    guard_bind fun _ _ => requireDataTypeActive_ok,
    guard_bind fun _ _ => requireActiveOracle_ok, enforceRateLimit_bind,
    and_assoc]

theorem acceptBatchReading_bind {f : Unit → Call Unit}
    {r : Unit × Machine State} :
    (acceptBatchReading env oracle dataType sub >>= f) m = .ok r ↔
      ((sub.timestamp ≤ satAddU64 env.now m.store.timestampFutureBuffer ∧
          env.now - m.store.maxTimestampAge ≤ sub.timestamp) ∧
        ∀ last ∈ m.store.lastReadingTimestamp (dataType, sub.key, oracle),
          last < sub.timestamp) ∧
        if m.store.effectiveMaxAge dataType < env.now - sub.timestamp then
          (handleStaleSubmission env oracle dataType >>= f) m = .ok r
        else
          f () { m with
            store := m.store.take env.now dataType sub.key
              (pointOf oracle sub) } = .ok r := by
  simp only [acceptBatchReading, bind_assoc, load_bind,
    guard_bind fun _ _ => requireTimestampInRange_ok,
    guard_bind fun _ _ => requireStrictlyNewerReading_ok, and_assoc]
  split_ifs
  · exact Iff.rfl
  · exact Iff.rfl

theorem acceptBatchReading_ok :
    acceptBatchReading env oracle dataType sub m = .ok (u, m') ↔
      ((sub.timestamp ≤ satAddU64 env.now m.store.timestampFutureBuffer ∧
          env.now - m.store.maxTimestampAge ≤ sub.timestamp) ∧
        ∀ last ∈ m.store.lastReadingTimestamp (dataType, sub.key, oracle),
          last < sub.timestamp) ∧
        if m.store.effectiveMaxAge dataType < env.now - sub.timestamp then
          handleStaleSubmission env oracle dataType m = .ok (u, m')
        else
          m' = { m with
            store := m.store.take env.now dataType sub.key
              (pointOf oracle sub) } := by
  rw [← bind_pure_unit (x := acceptBatchReading env oracle dataType sub),
    acceptBatchReading_bind, bind_pure_unit, pure_ok, eq_self, true_and]

/-- The first batch path, on one reading. -/
theorem batchSubmitData_ok :
    batchSubmitData env oracle dataType [sub] m = .ok (u, m') ↔
      Admitted env oracle dataType sub m.store ∧
        (sub.value ≤ maxDataValue ∧ -maxDataValue ≤ sub.value) ∧
        if m.store.effectiveMaxAge dataType < env.now - sub.timestamp then
          handleStaleSubmission env oracle dataType
            { m with store := m.store.stamp env.now dataType oracle } =
              .ok (u, m')
        else
          m' = { m with
            store := (m.store.stamp env.now dataType oracle).take env.now
              dataType sub.key (pointOf oracle sub) } := by
  simp only [batchSubmitData, forEach, openBatch_bind, bind_assoc, ensure_bind,
    guard_bind fun _ _ => validateKeyLen_ok, acceptBatchReading_bind,
    pure_ok, true_and]
  rw [bind_pure_unit]
  constructor
  · rintro ⟨⟨hsigned, hrunning, hplain, hnamed, hactive, hrested⟩, hkey,
      hconfidence, hvalue, ⟨hrange, hnewer⟩, h⟩
    exact ⟨⟨hsigned, hrunning, hplain, hnamed, hactive, hrested, hkey,
      hconfidence, hrange, hnewer⟩, hvalue, h⟩
  · rintro ⟨hadmitted, hvalue, h⟩
    exact ⟨⟨hadmitted.signed, hadmitted.running, hadmitted.plain,
      hadmitted.named, hadmitted.listed, hadmitted.rested⟩, hadmitted.keyed,
      hadmitted.confident, hvalue, ⟨hadmitted.inRange, hadmitted.newer⟩, h⟩

/-- The second batch path, on one reading. -/
theorem submitDataBatch_ok :
    submitDataBatch env oracle dataType [sub] m = .ok (u, m') ↔
      Admitted env oracle dataType sub m.store ∧ sub.timestamp ≠ 0 ∧
        if m.store.effectiveMaxAge dataType < env.now - sub.timestamp then
          ∃ t, handleStaleSubmission env oracle dataType
              { m with store := m.store.stamp env.now dataType oracle } =
                .ok ((), t) ∧
            m' = { t with store := t.store.clear dataType oracle }
        else
          m' = { m with
            store := ((m.store.stamp env.now dataType oracle).take env.now
              dataType sub.key (pointOf oracle sub)).clear dataType
                oracle } := by
  simp only [submitDataBatch, forEach, openBatch_bind, bind_assoc, ensure_bind,
    guard_bind fun _ _ => validateKeyLen_ok, acceptBatchReading_bind,
    pure_bind, bind_ok (x := handleStaleSubmission _ _ _),
    resetStaleCount_ok, Unique.exists_iff]
  constructor
  · rintro ⟨⟨hsigned, hrunning, hplain, hnamed, hactive, hrested⟩, hkey,
      hconfidence, hzero, ⟨hrange, hnewer⟩, h⟩
    exact ⟨⟨hsigned, hrunning, hplain, hnamed, hactive, hrested, hkey,
      hconfidence, hrange, hnewer⟩, hzero, h⟩
  · rintro ⟨hadmitted, hzero, h⟩
    exact ⟨⟨hadmitted.signed, hadmitted.running, hadmitted.plain,
      hadmitted.named, hadmitted.listed, hadmitted.rested⟩, hadmitted.keyed,
      hadmitted.confident, hzero, ⟨hadmitted.inRange, hadmitted.newer⟩, h⟩

end Paths

end Parashield.OracleVerifier
