import Parashield.OracleVerifier.Agreement
import Parashield.OracleVerifier.Streams

/-!
# The three submission paths on one reading

A reading can be submitted alone or as a batch of one, on two paths.  The three
share ten checks and differ in the rest: which values and timestamps they
reject, whether they compare the reading with other data, and whether they
clear the stale count of the oracle.
-/

namespace Parashield.OracleVerifier

open Support Support.Contract Invocation

/-- What a submission writes. -/
structure Footprint where
  points : Symbol × Symbol → Option (List OracleDataPoint)
  lastSubmission : Symbol × Address → Option ℕ
  lastReading : Symbol × Symbol × Address → Option ℕ
  staleCount : Symbol × Address → ℕ
  stake : Symbol × Address → ℤ
  reputation : Symbol × Address → Option OracleReputation

def footprint (m : Machine State) : Footprint where
  points := m.store.dataPoints
  lastSubmission := m.store.lastSubmission
  lastReading := m.store.lastReadingTimestamp
  staleCount := m.store.staleCount
  stake := m.store.oracleStakeAmt
  reputation := m.store.reputation

/-- What an accepted call leaves. -/
def leaves (c : Call Unit) (m : Machine State) : Option Footprint :=
  (c m).toOption.map fun r => footprint r.2

section Leaves

variable {c : Call Unit} {m m' : Machine State}

theorem leaves_some (h : c m = .ok ((), m')) :
    leaves c m = some (footprint m') := by
  rw [leaves, h]
  rfl

theorem ok_unit_iff :
    (.ok ((), m) : Except (Fault Error) (Unit × Machine State)) =
      .ok ((), m') ↔ m' = m := by
  simp only [Except.ok.injEq, Prod.mk.injEq, true_and]
  exact eq_comm

theorem leaves_none (h : ∀ m', c m ≠ .ok ((), m')) : leaves c m = none := by
  cases hc : c m with
  | error e =>
      rw [leaves, hc]
      rfl
  | ok r => exact absurd hc (h r.2)

theorem accepted_of_leaves (h : (leaves c m).isSome = true) :
    ∃ m', c m = .ok ((), m') := by
  by_contra hnone
  rw [leaves_none fun m' hrun => hnone ⟨m', hrun⟩] at h
  cases h

/-- A call that leads to `t` if `p` holds, and fails otherwise. -/
theorem leaves_if {p : Prop} [Decidable p] {t : Machine State}
    (h : ∀ m', c m = .ok ((), m') ↔ p ∧ m' = t) :
    leaves c m = if p then some (footprint t) else none := by
  split_ifs with hp
  · exact leaves_some ((h t).mpr ⟨hp, rfl⟩)
  · exact leaves_none fun m' hrun => hp ((h m').mp hrun).1

/-- Clearing a count that is zero changes nothing, and clearing another one
does. -/
theorem footprint_clear (m : Machine State) (dataType : Symbol)
    (oracle : Address) :
    footprint { m with store := m.store.clear dataType oracle } =
      footprint m ↔ m.store.staleCount (dataType, oracle) = 0 := by
  simp only [footprint, State.clear, Footprint.mk.injEq, true_and, and_true,
    Function.update_eq_self_iff]
  exact eq_comm

end Leaves

/-! ## Stale readings -/

/-- One more stale submission of the oracle is one too many. -/
def State.penaltyDue (s : State) (dataType : Symbol) (oracle : Address) :
    Prop :=
  s.staleThreshold ≠ 0 ∧
    s.staleThreshold ≤ min (s.staleCount (dataType, oracle) + 1) (2 ^ 32 - 1)

section Stale

variable {env : Env} {m m' : Machine State} {oracle : Address}
  {dataType : Symbol} {u : Unit}

/-- A penalty resets the count, and a stale submission without one does not. -/
theorem handleStaleSubmission_count
    (h : handleStaleSubmission env oracle dataType m = .ok (u, m')) :
    m'.store.staleCount (dataType, oracle) = 0 ↔
      m.store.penaltyDue dataType oracle := by
  simp only [handleStaleSubmission, load_bind, storeStaleCount, update_bind]
    at h
  rcases whenever_ok.mp h with ⟨hdue, h⟩ | ⟨hnot, rfl⟩
  · obtain ⟨_, t, -, h⟩ := bind_ok.mp h
    obtain ⟨_, t', -, h⟩ := bind_ok.mp h
    obtain rfl := update_ok.mp h
    exact iff_of_true (Function.update_self ..) hdue
  · refine iff_of_false ?_ hnot
    show Function.update m.store.staleCount (dataType, oracle) _
      (dataType, oracle) ≠ 0
    rw [Function.update_self]
    omega

end Stale

/-! ## One reading -/

/-- The three paths accept the reading alike, and leave the same. -/
def PathsAgree (env : Env) (oracle : Address) (dataType : Symbol)
    (sub : OracleDataSubmission) (m : Machine State) : Prop :=
  leaves (batchSubmitData env oracle dataType [sub]) m =
      leaves (submitData env oracle dataType sub.key sub.value sub.confidence
        sub.timestamp) m ∧
    leaves (submitDataBatch env oracle dataType [sub]) m =
      leaves (submitData env oracle dataType sub.key sub.value sub.confidence
        sub.timestamp) m

/-- The checks of the first path that one of the others leaves out. -/
structure Vetted (dataType : Symbol) (sub : OracleDataSubmission)
    (s : State) : Prop where
  value : sub.value ≤ maxDataValue ∧ -maxDataValue ≤ sub.value
  range : |sub.value| ≤ s.getDataTypeMax dataType
  time : sub.timestamp ≠ 0

/-- Neither batch path takes the reading. -/
def Untakable (sub : OracleDataSubmission) : Prop :=
  maxDataValue < |sub.value| ∧ sub.timestamp = 0

section Reading

variable {env : Env} {m : Machine State} {oracle : Address}
  {dataType : Symbol} {sub : OracleDataSubmission}

/-- Three calls that write `a`, `b` and `c` behind their gates. -/
theorem gated_agree_iff {α : Type} {v q z : Prop} [Decidable v] [Decidable z]
    [Decidable (v ∧ q)] {a b c : α} (hz : q → z) :
    ((if v then some b else none) = (if v ∧ q then some a else none) ∧
        (if z then some c else none) = if v ∧ q then some a else none) ↔
      (v ∧ q ∧ b = a ∧ c = a) ∨ ¬ v ∧ ¬ z := by
  by_cases hv : v
  · by_cases hq : q
    · simp [hv, hq, hz hq]
    · simp [hv, hq]
  · have hnq : ¬ (v ∧ q) := fun h => hv h.1
    simp [hv]

theorem untakable_iff :
    Untakable sub ↔
      ¬ (sub.value ≤ maxDataValue ∧ -maxDataValue ≤ sub.value) ∧
        ¬ sub.timestamp ≠ 0 := by
  rw [Untakable, ← not_le, abs_le, and_comm (a := -maxDataValue ≤ sub.value),
    not_not]

theorem refused_agree (h : ¬ Admitted env oracle dataType sub m.store) :
    PathsAgree env oracle dataType sub m := by
  have hsingle := leaves_none fun m' hrun => h ((submitData_ok sub).mp hrun).1
  have hbatch := leaves_none fun m' hrun => h (batchSubmitData_ok.mp hrun).1
  have hbatch' := leaves_none fun m' hrun => h (submitDataBatch_ok.mp hrun).1
  rw [PathsAgree, hsingle, hbatch, hbatch']
  exact ⟨rfl, rfl⟩

/-- A stale reading whose penalty fails. -/
theorem unpaid_agree {e : Fault Error}
    (hstale : m.store.effectiveMaxAge dataType < env.now - sub.timestamp)
    (hpenalty : handleStaleSubmission env oracle dataType
      { m with store := m.store.stamp env.now dataType oracle } =
        .error e) :
    PathsAgree env oracle dataType sub m := by
  have hsingle : leaves (submitData env oracle dataType sub.key sub.value
      sub.confidence sub.timestamp) m = none := leaves_none fun m' hrun => by
    obtain ⟨-, -, h⟩ := (submitData_ok sub).mp hrun
    rw [if_pos hstale, hpenalty] at h
    cases h
  have hbatch : leaves (batchSubmitData env oracle dataType [sub]) m = none :=
    leaves_none fun m' hrun => by
      obtain ⟨-, -, h⟩ := batchSubmitData_ok.mp hrun
      rw [if_pos hstale, hpenalty] at h
      cases h
  have hbatch' : leaves (submitDataBatch env oracle dataType [sub]) m = none :=
    leaves_none fun m' hrun => by
      obtain ⟨-, -, h⟩ := submitDataBatch_ok.mp hrun
      rw [if_pos hstale] at h
      obtain ⟨t, h, -⟩ := h
      rw [hpenalty] at h
      cases h
  rw [PathsAgree, hsingle, hbatch, hbatch']
  exact ⟨rfl, rfl⟩

/-- A stale reading whose count and penalty lead to `t`. -/
theorem stale_agree_iff {t : Machine State}
    (hadmitted : Admitted env oracle dataType sub m.store)
    (hstale : m.store.effectiveMaxAge dataType < env.now - sub.timestamp)
    (hpenalty : handleStaleSubmission env oracle dataType
      { m with store := m.store.stamp env.now dataType oracle } =
        .ok ((), t)) :
    PathsAgree env oracle dataType sub m ↔
      (Vetted dataType sub m.store ∧ m.store.penaltyDue dataType oracle) ∨
        Untakable sub := by
  classical
  have hsingle : leaves (submitData env oracle dataType sub.key sub.value
      sub.confidence sub.timestamp) m = _ := leaves_if fun m' => by
    rw [submitData_ok, and_iff_right hadmitted, if_pos hstale, hpenalty,
      ok_unit_iff]
  have hbatch : leaves (batchSubmitData env oracle dataType [sub]) m = _ :=
    leaves_if fun m' => by
      rw [batchSubmitData_ok, and_iff_right hadmitted, if_pos hstale, hpenalty,
        ok_unit_iff]
  have hbatch' : leaves (submitDataBatch env oracle dataType [sub]) m = _ :=
    leaves_if fun m' => by
      simp only [submitDataBatch_ok, and_iff_right hadmitted, if_pos hstale,
        hpenalty, ok_unit_iff, exists_eq_left]
      exact Iff.rfl
  rw [PathsAgree, hsingle, hbatch, hbatch', gated_agree_iff And.right,
    ← untakable_iff, footprint_clear, handleStaleSubmission_count hpenalty]
  refine or_congr_left ⟨?_, ?_⟩
  · rintro ⟨hvalue, ⟨hrange, htime⟩, -, hdue⟩
    exact ⟨⟨hvalue, hrange, htime⟩, hdue⟩
  · rintro ⟨hvetted, hdue⟩
    exact ⟨hvetted.value, ⟨hvetted.range, hvetted.time⟩, rfl, hdue⟩

/-- The store once a fresh reading is in. -/
def State.takes (s : State) (now : ℕ) (oracle : Address) (dataType : Symbol)
    (sub : OracleDataSubmission) : State :=
  (s.stamp now dataType oracle).take now dataType sub.key (pointOf oracle sub)

theorem fresh_agree_iff
    (hadmitted : Admitted env oracle dataType sub m.store)
    (hfresh : ¬ m.store.effectiveMaxAge dataType < env.now - sub.timestamp) :
    PathsAgree env oracle dataType sub m ↔
      (Vetted dataType sub m.store ∧
        checkCrossValidation env dataType sub.key
            { m with store := m.store.takes env.now oracle dataType sub } =
          .ok ((), { m with
            store := m.store.takes env.now oracle dataType sub }) ∧
        m.store.staleCount (dataType, oracle) = 0) ∨ Untakable sub := by
  classical
  have hsingle : leaves (submitData env oracle dataType sub.key sub.value
      sub.confidence sub.timestamp) m = _ := leaves_if fun m' => by
    rw [submitData_ok, and_iff_right hadmitted, if_neg hfresh, ← and_assoc,
      and_assoc (b := _ ∧ _)]
  have hbatch : leaves (batchSubmitData env oracle dataType [sub]) m = _ :=
    leaves_if fun m' => by
      rw [batchSubmitData_ok, and_iff_right hadmitted, if_neg hfresh]
  have hbatch' : leaves (submitDataBatch env oracle dataType [sub]) m = _ :=
    leaves_if fun m' => by
      rw [submitDataBatch_ok, and_iff_right hadmitted, if_neg hfresh]
  rw [PathsAgree, hsingle, hbatch, hbatch', gated_agree_iff fun h => h.1.2,
    ← untakable_iff]
  have hclear := footprint_clear
    { m with
      store := (m.store.stamp env.now dataType oracle).take env.now dataType
        sub.key (pointOf oracle sub) } dataType oracle
  refine or_congr_left ⟨?_, ?_⟩
  · rintro ⟨hvalue, ⟨⟨hrange, htime⟩, hcross⟩, hcount, -⟩
    exact ⟨⟨hvalue, hrange, htime⟩, hcross, hclear.mp hcount.symm⟩
  · rintro ⟨hvetted, hcross, hcount⟩
    exact ⟨hvetted.value, ⟨⟨hvetted.range, hvetted.time⟩, hcross⟩,
      (hclear.mpr hcount).symm, rfl⟩

end Reading

/-- The three paths agree on a reading exactly if it fails the checks they
share, or fails the check of each batch path, or is stale with a penalty that
fails, or passes all checks, is consistent with other data if it is fresh, and
leaves no stale count. -/
theorem submission_paths_agree_iff (env : Env) (m : Machine State) (oracle : Address)
    (dataType : Symbol) (sub : OracleDataSubmission) :
    PathsAgree env oracle dataType sub m ↔
      ¬ Admitted env oracle dataType sub m.store ∨ Untakable sub ∨
        if m.store.effectiveMaxAge dataType < env.now - sub.timestamp then
          (∀ t, handleStaleSubmission env oracle dataType
            { m with store := m.store.stamp env.now dataType oracle } ≠
              .ok ((), t)) ∨
            Vetted dataType sub m.store ∧ m.store.penaltyDue dataType oracle
        else
          Vetted dataType sub m.store ∧
            checkCrossValidation env dataType sub.key
                { m with store := m.store.takes env.now oracle dataType sub } =
              .ok ((), { m with
                store := m.store.takes env.now oracle dataType sub }) ∧
            m.store.staleCount (dataType, oracle) = 0 := by
  by_cases hadmitted : Admitted env oracle dataType sub m.store
  · rw [or_iff_right (not_not.mpr hadmitted), or_comm]
    split_ifs with hstale
    · cases hpenalty : handleStaleSubmission env oracle dataType
          { m with store := m.store.stamp env.now dataType oracle } with
      | error e =>
          refine iff_of_true (unpaid_agree hstale hpenalty) (.inl (.inl ?_))
          intro t h
          cases h
      | ok r =>
          obtain ⟨_, t⟩ := r
          rw [stale_agree_iff hadmitted hstale hpenalty]
          refine or_congr_left (or_iff_right ?_).symm
          exact fun hfails => hfails t rfl
    · exact fresh_agree_iff hadmitted hstale
  · exact iff_of_true (refused_agree hadmitted) (.inl hadmitted)

namespace Scenario

/-- Before the first reading. -/
def rostered : World State :=
  (TransitionSystem.execute (step exec verifier) (readingRun.take 3) genesis).get
    (by decide +kernel)

theorem rostered_reachable : (system verifier).Reachable rostered :=
  TransitionSystem.reachable_of_execute (fun _ _ _ => step_sound)
    ⟨rfl, rfl⟩ (Option.some_get _).symm

/-- A reading of `10 ^ 15`, of which weather data are not capable. -/
def cloudburst : OracleDataSubmission where
  key := rain
  value := 1000000000000000
  confidence := 90
  timestamp := 1000000

end Scenario

open Scenario in
/-- The reading is refused if it comes alone, and stored if it comes as a batch
of one, on either path. -/
theorem paths_disagree_cloudburst :
    (system verifier).Reachable rostered ∧
      ¬ PathsAgree (callEnv verifier rostered [oracleA]) oracleA
        Symbols.weather cloudburst rostered.machine := by
  refine ⟨rostered_reachable, fun hagree => ?_⟩
  have hbatch : (leaves (batchSubmitData (callEnv verifier rostered [oracleA])
      oracleA Symbols.weather [cloudburst]) rostered.machine).isSome = true := by
    decide +kernel
  have hsingle : (leaves (submitData (callEnv verifier rostered [oracleA])
      oracleA Symbols.weather cloudburst.key cloudburst.value
      cloudburst.confidence cloudburst.timestamp) rostered.machine).isSome =
        false := by
    decide +kernel
  rw [hagree.1, hsingle] at hbatch
  cases hbatch

end Parashield.OracleVerifier
