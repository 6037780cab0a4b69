import Parashield.OracleVerifier.Ledger
import Parashield.Support.Log

/-!
# Oracle verifier: streams of readings

The readings of an oracle under one data type and key form a stream.  A call
that takes readings stores each of them in place of the oracle's previous one
and records its time; no other call writes the streams, except that the
administrator may drop what is stored for a key.
-/

namespace Parashield.OracleVerifier

open Support Support.Contract Invocation

/-! ## Streams -/

/-- The stored readings, and the time of the last reading of each stream. -/
structure Streams where
  points : Symbol × Symbol → Option (List OracleDataPoint)
  last : Symbol × Symbol × Address → Option ℕ

def State.streams (s : State) : Streams where
  points := s.dataPoints
  last := s.lastReadingTimestamp

/-- A reading with its data type and key. -/
abbrev Reading := Symbol × Symbol × OracleDataPoint

/-- The stream a reading belongs to. -/
def streamOf (r : Reading) : Symbol × Symbol × Address :=
  (r.1, r.2.1, r.2.2.oracle)

/-- The time a reading is for. -/
def timeOf (r : Reading) : ℕ :=
  r.2.2.timestamp

/-- The readings that a call of this entry takes if it is accepted: those it
offers, except the ones it treats as stale submissions. -/
def Entry.accepts (e : Entry) (s : State) (now : ℕ) : List Reading :=
  e.offers.filter fun r => decide (s.Recent now r.1 (timeOf r))

namespace Streams

/-- The stored readings of a key. -/
def readings (c : Streams) (dataType key : Symbol) : List OracleDataPoint :=
  (c.points (dataType, key)).getD []

/-- The reading is newer than the last one of its stream, replaces it, and
evicts what has to go. -/
structure Takes (c : Streams) (r : Reading) (c' : Streams) : Prop where
  newer : ∀ last ∈ c.last (streamOf r), last < timeOf r
  last : c'.last = Function.update c.last (streamOf r) (some (timeOf r))
  points : ∃ kept : List OracleDataPoint,
    kept.Sublist (c.readings r.1 r.2.1) ∧
      (∀ q ∈ kept, q.oracle ≠ r.2.2.oracle) ∧
      kept.length < maxDataPoints ∧
      c'.points = Function.update c.points (r.1, r.2.1) (some (kept ++ [r.2.2]))

/-- The readings are taken one after the other; in between the readings of a
key may be dropped. -/
inductive Follows : Streams → List Reading → Streams → Prop
  | refl (c : Streams) : Follows c [] c
  | take {c c₁ c' : Streams} {r : Reading} {rs : List Reading} :
      c.Takes r c₁ → Follows c₁ rs c' → Follows c (r :: rs) c'
  | forget {c c' : Streams} {rs : List Reading} (k : Symbol × Symbol) :
      Follows { c with points := Function.update c.points k none } rs c' →
      Follows c rs c'

variable {c c' c'' : Streams} {rs rs' : List Reading}

theorem Follows.of_eq (h : c' = c) : c.Follows [] c' :=
  h ▸ .refl c

theorem Follows.append (h : c.Follows rs c') (h' : c'.Follows rs' c'') :
    c.Follows (rs ++ rs') c'' := by
  induction h with
  | refl => exact h'
  | take htakes _ ih => exact .take htakes (ih h')
  | forget k _ ih => exact .forget k (ih h')

end Streams

section Calls

variable {env : Env} {e : Entry} {s : State} {m m' : Machine State}
  {c : Streams}

/-! ## Calls that leave the streams alone -/

/-- The streams are as in `c`. -/
def OnStreams (c : Streams) (m : Machine State) : Prop :=
  m.store.streams = c

theorem keeps_unstreamed {f : State → State}
    (hf : ∀ s, (f s).streams = s.streams) :
    Keeps (OnStreams c) (update f : Call Unit) :=
  keeps_update fun m hm => (hf m.store).trans hm

theorem streams_of_ledger (h : m'.store.ledger = m.store.ledger) :
    m'.store.streams = m.store.streams :=
  congrArg (fun l : Ledger => Streams.mk l.dataPoints l.lastReadingTimestamp) h

theorem keeps_setMinStake {admin : Address} {minStake : ℤ} :
    Keeps (OnStreams c) (setMinStake env admin minStake) := by
  refine keeps_bind keeps_requireAdmin fun _ => ?_
  exact keeps_bind (keeps_ensure _ _) fun _ => keeps_unstreamed fun _ => rfl

theorem keeps_setReputation {admin oracle : Address} {dataType : Symbol}
    {score : ℕ} :
    Keeps (OnStreams c)
      (setReputation env admin oracle dataType score) := by
  refine keeps_bind keeps_requireAdmin fun _ => ?_
  refine keeps_bind (keeps_ensure _ _) fun _ => ?_
  exact keeps_bind keeps_load fun s => keeps_unstreamed fun _ => rfl

theorem keeps_storeStaleCount {oracle : Address} {dataType : Symbol}
    {count : ℕ} :
    Keeps (OnStreams c) (storeStaleCount dataType oracle count) :=
  keeps_unstreamed fun _ => rfl

theorem keeps_handleStaleSubmission {oracle : Address} {dataType : Symbol} :
    Keeps (OnStreams c) (handleStaleSubmission env oracle dataType) := by
  refine keeps_bind keeps_load fun s => ?_
  refine keeps_bind (keeps_unstreamed fun _ => rfl) fun _ => ?_
  refine keeps_whenever fun _ => ?_
  refine keeps_bind (keeps_whenever fun _ => ?_) fun _ => ?_
  · exact keeps_bind (keeps_unstreamed fun _ => rfl) fun _ =>
      keeps_transferSlashed fun _ _ hstore ht =>
        (congrArg State.streams hstore).trans ht
  · refine keeps_bind (keeps_whenever fun _ => ?_) fun _ => ?_
    · exact keeps_unstreamed fun _ => rfl
    · exact keeps_unstreamed fun _ => rfl

/-- A verification writes reputation records at most. -/
theorem Scored.onStreams {dataType : Symbol} (h : Scored dataType m m')
    (hm : OnStreams c m) : OnStreams c m' := by
  have hstore : m'.store = _ := h.store
  unfold OnStreams
  rw [hstore]
  exact hm

theorem keeps_verifyTrigger {dataType key : Symbol}
    {condition : TriggerCondition} :
    Keeps (OnStreams c) (verifyTrigger env dataType key condition) := by
  intro m b m' hm h
  obtain ⟨v, -, -, hscored⟩ := verifyTrigger_spec h
  exact hscored.onStreams hm

theorem keeps_verifyTriggerFresh {dataType key : Symbol}
    {condition : TriggerCondition} {maxAgeSeconds : ℕ} :
    Keeps (OnStreams c)
      (verifyTriggerFresh env dataType key condition maxAgeSeconds) := by
  intro m b m' hm h
  obtain ⟨v, -, -, hscored⟩ := verifyTriggerFresh_spec h
  exact hscored.onStreams hm

theorem keeps_enforceRateLimit {dataType : Symbol} {oracle : Address} :
    Keeps (OnStreams c) (enforceRateLimit env dataType oracle) := by
  refine keeps_bind keeps_load fun s => ?_
  exact keeps_bind (keeps_ensure _ _) fun _ => keeps_unstreamed fun _ => rfl

/-- Ciphertexts are kept apart. -/
theorem keeps_submitEncryptedData {oracle : Address} {dataType key : Symbol}
    {ciphertext nonce : Bytes} {confidence timestamp : ℕ} :
    Keeps (OnStreams c)
      (submitEncryptedData env oracle dataType key ciphertext nonce confidence
        timestamp) := by
  refine keeps_bind (keeps_requireAuth _ _) fun _ => ?_
  refine keeps_bind keeps_requireDataTypeActive fun _ => ?_
  refine keeps_bind (keeps_ensure _ _) fun _ => ?_
  refine keeps_bind (keeps_ensure _ _) fun _ => ?_
  refine keeps_bind (keeps_ensure _ _) fun _ => ?_
  refine keeps_bind (keeps_ensure _ _) fun _ => ?_
  refine keeps_bind (keeps_ensure _ _) fun _ => ?_
  refine keeps_bind (keeps_ensure _ _) fun _ => ?_
  refine keeps_bind keeps_requireActiveOracle fun _ => ?_
  refine keeps_bind keeps_enforceRateLimit fun _ => ?_
  refine keeps_bind keeps_load fun s => ?_
  refine keeps_ite (fun _ => keeps_handleStaleSubmission) fun _ => ?_
  exact keeps_bind (keeps_unstreamed fun _ => rfl) fun _ =>
    keeps_storeStaleCount

/-! ## Calls that take readings -/

theorem take_takes {dataType key : Symbol} {p : OracleDataPoint} {now : ℕ}
    (hnewer : ∀ last ∈ s.lastReadingTimestamp (dataType, key, p.oracle),
      last < p.timestamp) :
    s.streams.Takes (dataType, key, p)
      (s.take now dataType key p).streams := by
  refine ⟨hnewer, rfl, _, ?_, ?_, ?_, rfl⟩
  · exact (List.drop_sublist _ _).trans List.filter_sublist
  · intro q hq
    have hretained := (List.mem_filter.mp (List.mem_of_mem_drop hq)).2
    simp only [State.retains, Bool.and_eq_true, decide_eq_true_eq] at hretained
    exact hretained.1.1
  · rw [makeRoom, List.length_drop, maxDataPoints]
    omega

/-- A stale reading is not taken. -/
theorem Streams.Follows.stale {r : Reading} {now : ℕ}
    (h : ¬ s.Recent now r.1 (timeOf r)) (heq : m'.store.streams = c) :
    c.Follows ([r].filter fun r => decide (s.Recent now r.1 (timeOf r)))
      m'.store.streams := by
  rw [List.filter_cons_of_neg (by simpa using h)]
  exact .of_eq heq

theorem Streams.Follows.fresh {r : Reading} {now : ℕ} {c' : Streams}
    (h : s.Recent now r.1 (timeOf r)) (htakes : c.Takes r c') :
    c.Follows ([r].filter fun r => decide (s.Recent now r.1 (timeOf r)))
      c' := by
  rw [List.filter_cons_of_pos (by simpa using h)]
  exact .take htakes (.refl _)

/-- A reading is taken unless it is treated as stale. -/
theorem acceptBatchReading_follows (e : Entry) {oracle : Address}
    {dataType : Symbol} {sub : OracleDataSubmission} {u : Unit}
    (hrules : s.SameRules m.store)
    (h : acceptBatchReading env oracle dataType sub m = .ok (u, m')) :
    m.store.streams.Follows
        ([(dataType, sub.key,
            (⟨oracle, sub.value, sub.confidence, sub.timestamp⟩ :
              OracleDataPoint))].filter fun r =>
          decide (s.Recent env.now r.1 (timeOf r)))
        m'.store.streams ∧
      s.SameRules m'.store := by
  obtain ⟨⟨-, hnewer⟩, h⟩ := acceptBatchReading_ok.mp h
  have hage := congrFun hrules.age dataType
  split_ifs at h with hstale
  · rw [hage] at hstale
    refine ⟨.stale (not_le.mpr hstale) ?_, ?_⟩
    · exact keeps_handleStaleSubmission _ u m' rfl h
    · have hhandled : Handled env e s _ m' := handleStaleSubmission_handled h
      exact hrules.trans hhandled.rules
  · rw [hage] at hstale
    rw [h]
    refine ⟨.fresh (not_lt.mp hstale) (take_takes hnewer), ?_⟩
    exact hrules.trans ⟨rfl, rfl, rfl⟩

/-- A loop takes the readings of its rounds in order. -/
theorem forEach_follows {α : Type} {f : α → Call Unit} {reading : α → Reading}
    {xs : List α} {u : Unit} (hrules : s.SameRules m.store)
    (hf : ∀ x ∈ xs, ∀ t v t', s.SameRules t.store → f x t = .ok (v, t') →
      t.store.streams.Follows
          ([reading x].filter fun r =>
            decide (s.Recent env.now r.1 (timeOf r))) t'.store.streams ∧
        s.SameRules t'.store)
    (h : forEach xs f m = .ok (u, m')) :
    m.store.streams.Follows
      ((xs.map reading).filter fun r =>
        decide (s.Recent env.now r.1 (timeOf r))) m'.store.streams := by
  induction xs generalizing m with
  | nil =>
      obtain ⟨-, rfl⟩ := pure_ok.mp h
      exact .refl _
  | cons x xs ih =>
      obtain ⟨_, m₁, hx, hrest⟩ := bind_ok.mp h
      obtain ⟨hfirst, hrules₁⟩ := hf x List.mem_cons_self m _ m₁ hrules hx
      rw [List.map_cons, ← List.singleton_append, List.filter_append]
      exact hfirst.append (ih hrules₁
        (fun y hy => hf y (List.mem_cons_of_mem x hy)) hrest)

theorem submitData_follows {oracle : Address} {dataType key : Symbol}
    {value : ℤ} {confidence timestamp : ℕ} {u : Unit}
    (h : submitData env oracle dataType key value confidence timestamp m =
      .ok (u, m')) :
    m.store.streams.Follows
      ((Entry.submitData oracle dataType key value confidence
        timestamp).accepts m.store env.now) m'.store.streams := by
  obtain ⟨hadmitted, -, h⟩ :=
    (submitData_ok ⟨key, value, confidence, timestamp⟩).mp h
  split_ifs at h with hstale
  · have hstamp : OnStreams m.store.streams
        { m with store := m.store.stamp env.now dataType oracle } := rfl
    refine .stale (not_le.mpr hstale) ?_
    exact keeps_handleStaleSubmission _ u m' hstamp h
  · obtain ⟨-, rfl⟩ := h
    exact .fresh (not_lt.mp hstale) (take_takes hadmitted.newer)

theorem openBatch_streams {oracle : Address} {dataType : Symbol} {u : Unit}
    (h : openBatch env oracle dataType m = .ok (u, m')) :
    m'.store.streams = m.store.streams := by
  have hkeeps : Keeps (OnStreams m.store.streams)
      (openBatch env oracle dataType) := by
    refine keeps_bind (keeps_requireAuth _ _) fun _ => ?_
    refine keeps_bind keeps_requireDataTypeActive fun _ => ?_
    refine keeps_bind keeps_load fun s => ?_
    refine keeps_bind (keeps_ensure _ _) fun _ => ?_
    refine keeps_bind (keeps_ensure _ _) fun _ => ?_
    exact keeps_bind keeps_requireActiveOracle fun _ => keeps_enforceRateLimit
  exact hkeeps m u m' rfl h

theorem batchSubmitData_follows {oracle : Address} {dataType : Symbol}
    {submissions : List OracleDataSubmission} {u : Unit}
    (h : batchSubmitData env oracle dataType submissions m = .ok (u, m')) :
    m.store.streams.Follows
      ((Entry.batchSubmitData oracle dataType submissions).accepts m.store
        env.now) m'.store.streams := by
  obtain ⟨_, m₁, hopen, hloop⟩ := bind_ok.mp h
  rw [← openBatch_streams hopen]
  refine forEach_follows (openBatch_quiet hopen).rules ?_ hloop
  intro sub _ t v t' hrules hrun
  simp only [validateKeyLen, bind_ok, ensure_ok] at hrun
  obtain ⟨_, _, ⟨-, rfl⟩, _, _, ⟨-, rfl⟩, _, _, ⟨-, rfl⟩, haccept⟩ := hrun
  exact acceptBatchReading_follows
    (.batchSubmitData oracle dataType submissions) hrules haccept

theorem submitDataBatch_follows {oracle : Address} {dataType : Symbol}
    {submissions : List OracleDataSubmission} {u : Unit}
    (h : submitDataBatch env oracle dataType submissions m = .ok (u, m')) :
    m.store.streams.Follows
      ((Entry.submitDataBatch oracle dataType submissions).accepts m.store
        env.now) m'.store.streams := by
  obtain ⟨_, m₁, hopen, h⟩ := bind_ok.mp h
  obtain ⟨_, m₂, hloop, hreset⟩ := bind_ok.mp h
  have hkept : m'.store.streams = m₂.store.streams :=
    keeps_storeStaleCount _ u m' rfl hreset
  rw [← openBatch_streams hopen, hkept]
  refine forEach_follows (openBatch_quiet hopen).rules ?_ hloop
  intro sub _ t v t' hrules hrun
  simp only [validateKeyLen, bind_ok, ensure_ok] at hrun
  obtain ⟨_, _, ⟨-, rfl⟩, _, _, ⟨-, rfl⟩, _, _, ⟨-, rfl⟩, haccept⟩ := hrun
  exact acceptBatchReading_follows
    (.submitDataBatch oracle dataType submissions) hrules haccept

/-- Every accepted call takes the readings it accepts, in order, and writes
the streams in no other way. -/
theorem exec_follows (h : exec env e m = .ok ((), m')) :
    m.store.streams.Follows (e.accepts m.store env.now) m'.store.streams := by
  have hkept : (Keeps (OnStreams m.store.streams) (exec env e)) →
      m'.store.streams = m.store.streams :=
    fun hkeeps => hkeeps m () m' rfl h
  cases e with
  | submitData => exact submitData_follows h
  | batchSubmitData => exact batchSubmitData_follows h
  | submitDataBatch => exact submitDataBatch_follows h
  | invalidateData admin dataType key =>
      simp [exec, invalidateData] at h
      obtain ⟨-, rfl⟩ := h
      exact .forget (dataType, key) (.refl _)
  | setMinStake => exact .of_eq (hkept keeps_setMinStake)
  | setReputation => exact .of_eq (hkept keeps_setReputation)
  | submitEncryptedData => exact .of_eq (hkept keeps_submitEncryptedData)
  | verifyTrigger =>
      exact .of_eq (hkept
        (keeps_bind keeps_verifyTrigger fun _ => keeps_pure _))
  | verifyTriggerFresh =>
      exact .of_eq (hkept
        (keeps_bind keeps_verifyTriggerFresh fun _ => keeps_pure _))
  | batchVerifyFresh =>
      exact .of_eq (hkept (keeps_bind
        (keeps_collect fun _ _ => keeps_verifyTriggerFresh) fun _ =>
          keeps_pure _))
  | _ => exact .of_eq (streams_of_ledger (exec_ledger h rfl))

end Calls

end Parashield.OracleVerifier
