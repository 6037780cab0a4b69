import Parashield.OracleVerifier.Bounds
import Parashield.OracleVerifier.Validity

/-!
# Verification does not overflow

In a run whose batches keep to the accepted magnitude, every stored value is
within it, every weight and score is within its range, and an oracle has at
most one reading of a key.  Then no step of a verification or of the reported
aggregate overflows: each of them comes to a value or to a declared error.
-/

namespace Parashield.OracleVerifier

open Support Support.Contract Invocation

/-! ## Registered weights -/

/-- Registered weights are within range. -/
def Core.Weighted (c : Core) : Prop :=
  ∀ i entry, c.oracles i = some entry → entry.weight ≤ maxWeight

section Weights

variable {env : Env} {e : Entry} {s : State} {c c' : Core}

theorem Core.Weighted.setOracle {i : Symbol × Address} {entry : OracleEntry}
    (h : c.Weighted)
    (hc : c'.oracles = Function.update c.oracles i (some entry))
    (hentry : entry.weight ≤ maxWeight) : c'.Weighted := by
  intro j x hx
  rw [hc, Function.update_apply] at hx
  split_ifs at hx
  · obtain rfl := Option.some.inj hx
    exact hentry
  · exact h j x hx

theorem Writes.weighted (h : Writes env e s c c') (hc : c.Weighted) :
    c'.Weighted := by
  induction h with
  | refl => exact hc
  | tail _ hwrite ih =>
      cases hwrite with
      | register hentry => exact ih.setOracle rfl hentry
      | deactivate hfound =>
          have hweight := ih _ _ hfound
          exact ih.setOracle rfl hweight
      | _ => exact ih

theorem weighted_inductive {self : Address} :
    (system self).Inductive fun w => w.machine.store.core.Weighted where
  init w hw := by
    rw [hw.1]
    intro i entry hentry
    cases hentry
  step w l w' h hstep := by
    rcases step_store hstep with ⟨signers, e, rfl⟩ | hsame
    · exact (step_wrote hstep).weighted h
    · rw [hsame]
      exact h

/-! ## Scores -/

/-- Every reputation is sound. -/
def Core.Rated (c : Core) : Prop :=
  ∀ oracle dataType, (c.record oracle dataType).Sound

theorem Core.Rated.rate {dataType : Symbol} {oracle : Address}
    {rep : OracleReputation} (h : c.Rated) (hrep : rep.Sound) :
    ({ c with
        reputation :=
          Function.update c.reputation (dataType, oracle) (some rep) } :
            Core).Rated := by
  intro o d
  by_cases hkey : (d, o) = (dataType, oracle)
  · obtain ⟨rfl, rfl⟩ := Prod.mk.inj hkey
    simpa [record] using hrep
  · simp only [record, Function.update_of_ne hkey]
    exact h o d

theorem Writes.rated (h : Writes env e s c c') (hc : c.Rated) : c'.Rated := by
  induction h with
  | refl => exact hc
  | tail _ hwrite ih =>
      cases hwrite with
      | rate hrep => exact ih.rate (hrep (ih _ _))
      | _ => exact ih

theorem rated_inductive {self : Address} :
    (system self).Inductive fun w => w.machine.store.core.Rated where
  init w hw := by
    rw [hw.1]
    intro oracle dataType
    have hscore : 500 ≤ 1000 := by decide
    exact ⟨hscore, le_rfl⟩
  step w l w' h hstep := by
    rcases step_store hstep with ⟨signers, e, rfl⟩ | hsame
    · exact (step_wrote hstep).rated h
    · rw [hsame]
      exact h

end Weights

/-! ## What runs keep -/

/-- Stored values, weights and scores are within their ranges. -/
structure Core.Sane (c : Core) : Prop where
  capped : ∀ dataType key, ∀ p ∈ c.readings dataType key,
    |p.value| ≤ maxDataValue
  single : ∀ dataType key,
    ((c.readings dataType key).map OracleDataPoint.oracle).Nodup
  weights : ∀ i entry, c.oracles i = some entry → entry.weight ≤ maxWeight
  sound : ∀ oracle dataType, (c.record oracle dataType).Sound

/-- The readings of `submit_data_batch`, where they are recent enough to be
stored, are within the magnitude the other two paths accept. -/
def Entry.WithinCap (s : State) (now : ℕ) : Entry → Prop
  | .submitDataBatch _ dataType submissions =>
      ∀ sub ∈ submissions, s.Recent now dataType sub.timestamp →
        |sub.value| ≤ maxDataValue
  | _ => True

def WithinCap (w : World State) : Label Entry → Prop
  | .call _ e => e.WithinCap w.machine.store w.now
  | _ => True

section Writes

variable {env : Env} {e : Entry} {s : State} {c c' : Core}

theorem Stored.value_le {dataType key : Symbol} {p : OracleDataPoint}
    (h : Stored env e s dataType key p) (hs : e.WithinCap s env.now) :
    |p.value| ≤ maxDataValue := by
  obtain ⟨hoffered, hchecks, -, -, -, hrecent⟩ := h
  cases e with
  | submitData oracle d k value confidence timestamp => exact hchecks.1
  | batchSubmitData oracle d submissions => exact hchecks
  | submitDataBatch oracle d submissions =>
      obtain ⟨sub, hsub, heq⟩ := List.mem_map.mp hoffered
      obtain ⟨rfl, rfl, rfl⟩ : d = dataType ∧ sub.key = key ∧
          ⟨oracle, sub.value, sub.confidence, sub.timestamp⟩ = p := by
        simpa using heq
      exact hs sub hsub hrecent
  | _ => cases hoffered

/-- Adding one reading to what is kept of a key. -/
theorem Core.Sane.store {dataType key : Symbol} {p : OracleDataPoint}
    {kept : List OracleDataPoint} (h : c.Sane)
    (hp : |p.value| ≤ maxDataValue)
    (hkept : kept.Sublist (c.readings dataType key))
    (hothers : ∀ q ∈ kept, q.oracle ≠ p.oracle) :
    ({ c with
        dataPoints :=
          Function.update c.dataPoints (dataType, key)
            (some (kept ++ [p])) } : Core).Sane := by
  refine ⟨?_, ?_, h.weights, h.sound⟩
  · intro d k q hq
    by_cases hkey : (d, k) = (dataType, key)
    · obtain ⟨rfl, rfl⟩ := Prod.mk.inj hkey
      simp only [readings, Function.update_self, Option.getD_some,
        List.mem_append, List.mem_singleton] at hq
      rcases hq with hq | rfl
      · exact h.capped d k q (hkept.subset hq)
      · exact hp
    · simp only [readings, Function.update_of_ne hkey] at hq
      exact h.capped d k q hq
  · intro d k
    by_cases hkey : (d, k) = (dataType, key)
    · obtain ⟨rfl, rfl⟩ := Prod.mk.inj hkey
      simp only [readings, Function.update_self, Option.getD_some,
        List.map_append, List.map_cons, List.map_nil]
      rw [List.nodup_append]
      refine ⟨(h.single d k).sublist (hkept.map _),
        List.nodup_singleton _, ?_⟩
      intro a ha b hb
      obtain ⟨q, hq, rfl⟩ := List.mem_map.mp ha
      rw [List.mem_singleton.mp hb]
      exact hothers q hq
    · simp only [readings, Function.update_of_ne hkey]
      exact h.single d k

theorem Core.Sane.forget {dataType key : Symbol} (h : c.Sane) :
    ({ c with
        dataPoints := Function.update c.dataPoints (dataType, key) none } :
          Core).Sane := by
  have hcases : ∀ d k,
      ((Function.update c.dataPoints (dataType, key) none) (d, k)).getD [] =
          [] ∨
        ((Function.update c.dataPoints (dataType, key) none) (d, k)).getD [] =
          c.readings d k := by
    intro d k
    by_cases hkey : (d, k) = (dataType, key)
    · left
      simp [hkey]
    · right
      rw [Function.update_of_ne hkey]
      rfl
  refine ⟨?_, ?_, h.weights, h.sound⟩
  · intro d k q hq
    unfold readings at hq
    rcases hcases d k with hnil | hsame
    · rw [hnil] at hq
      cases hq
    · rw [hsame] at hq
      exact h.capped d k q hq
  · intro d k
    unfold readings
    rcases hcases d k with hnil | hsame
    · rw [hnil]
      exact List.nodup_nil
    · rw [hsame]
      exact h.single d k

theorem Core.Sane.setOracle {i : Symbol × Address} {entry : OracleEntry}
    (h : c.Sane) (hentry : entry.weight ≤ maxWeight) :
    ({ c with oracles := Function.update c.oracles i (some entry) } :
      Core).Sane :=
  ⟨h.capped, h.single, Core.Weighted.setOracle h.weights rfl hentry, h.sound⟩

theorem Core.Sane.rate {dataType : Symbol} {oracle : Address}
    {rep : OracleReputation} (h : c.Sane) (hrep : rep.Sound) :
    ({ c with
        reputation :=
          Function.update c.reputation (dataType, oracle) (some rep) } :
            Core).Sane :=
  ⟨h.capped, h.single, h.weights, Core.Rated.rate h.sound hrep⟩

theorem Writes.sane (h : Writes env e s c c') (hs : e.WithinCap s env.now)
    (hc : c.Sane) : c'.Sane := by
  induction h with
  | refl => exact hc
  | tail _ hwrite ih =>
      cases hwrite with
      | store hstored hkept hothers =>
          exact ih.store (hstored.value_le hs) hkept hothers
      | forget => exact ih.forget
      | register hentry => exact ih.setOracle hentry
      | deactivate hfound =>
          have hweight := ih.weights _ _ hfound
          exact ih.setOracle hweight
      | rate hrep => exact ih.rate (hrep (ih.sound _ _))
      | limit => exact ⟨ih.capped, ih.single, ih.weights, ih.sound⟩
      | rotate => exact ⟨ih.capped, ih.single, ih.weights, ih.sound⟩

end Writes

theorem sane_inductive {verifier : Address} :
    ((system verifier).restrict WithinCap).Inductive fun w =>
      w.machine.store.core.Sane where
  init w hw := by
    rw [hw.1]
    refine ⟨?_, ?_, ?_, ?_⟩
    · intro dataType key p hp
      cases hp
    · intro dataType key
      exact List.nodup_nil
    · intro i entry hentry
      cases hentry
    · intro oracle dataType
      have hscore : 500 ≤ 1000 := by decide
      exact ⟨hscore, le_rfl⟩
  step w l w' h hstep := by
    obtain ⟨hcap, hstep⟩ := hstep
    rcases step_store hstep with ⟨signers, e, rfl⟩ | hsame
    · exact (step_wrote hstep).sane hcap h
    · rw [hsame]
      exact h

/-! ## The two aggregates -/

section Pipelines

variable {s : State} {now : ℕ} {dataType key : Symbol}

theorem liveEntry_registered {p : OracleDataPoint} {entry : OracleEntry}
    (h : s.liveEntry now dataType p = some entry) :
    s.oracles (dataType, p.oracle) = some entry := by
  unfold State.liveEntry at h
  cases hentry : s.oracles (dataType, p.oracle) with
  | none =>
      rw [hentry] at h
      cases h
  | some found =>
      rw [hentry] at h
      dsimp only at h
      split_ifs at h
      rw [← h]

/-- An eligible reading is stored, and its oracle registered. -/
theorem eligible_mem {x : Row} (hx : x ∈ s.eligible now dataType key) :
    x.1 ∈ s.readings dataType key ∧
      s.oracles (dataType, x.1.oracle) = some x.2 := by
  obtain ⟨p, hp, hrow⟩ := List.mem_filterMap.mp hx
  split_ifs at hrow
  obtain ⟨entry, hlive, rfl⟩ := Option.map_eq_some_iff.mp hrow
  exact ⟨List.mem_of_mem_take hp, liveEntry_registered hlive⟩

/-- A score in range does not raise a weight. -/
theorem effectiveWeight_le {entry : OracleEntry} {rep : OracleReputation}
    (hweight : entry.weight ≤ maxWeight) (hrep : rep.Sound) :
    entry.effectiveWeight rep ≤ maxWeight := by
  have hscaled : entry.weight * rep.score / 1000 ≤ entry.weight := by
    apply Nat.div_le_of_le_mul
    rw [Nat.mul_comm 1000]
    exact Nat.mul_le_mul_left _ hrep.score
  have hmod := Nat.mod_le (entry.weight * rep.score / 1000) (2 ^ 32)
  unfold OracleEntry.effectiveWeight
  simp only [maxWeight] at *
  omega

/-- At most a hundred weights in range add up to a 32-bit number. -/
theorem sum_weights_lt {rows : List Row} {w : Row → ℕ}
    (hlen : rows.length ≤ maxDataPoints)
    (hw : ∀ x ∈ rows, w x ≤ maxWeight) : (rows.map w).sum < 2 ^ 32 := by
  have hsum : (rows.map w).sum ≤ (rows.map w).length • maxWeight := by
    apply List.sum_le_card_nsmul
    intro y hy
    obtain ⟨x, hx, rfl⟩ := List.mem_map.mp hy
    exact hw x hx
  have hsmul : (rows.map w).length • maxWeight =
      (rows.map w).length * maxWeight := rfl
  rw [hsmul, List.length_map] at hsum
  have hbound := Nat.mul_le_mul_right maxWeight hlen
  simp only [maxWeight, maxDataPoints] at *
  omega

theorem registered_lt (h : s.core.Weighted) :
    ((s.eligible now dataType key).map fun x => x.2.weight).sum <
      2 ^ 32 := by
  apply sum_weights_lt (State.eligible_length s now dataType key)
  intro x hx
  exact h _ x.2 (eligible_mem hx).2

theorem effective_lt (hweights : s.core.Weighted) (hrated : s.core.Rated) :
    ((s.eligible now dataType key).map (s.effective dataType)).sum <
      2 ^ 32 := by
  apply sum_weights_lt (State.eligible_length s now dataType key)
  intro x hx
  have hweight := hweights _ x.2 (eligible_mem hx).2
  exact effectiveWeight_le hweight (hrated x.1.oracle dataType)

variable (hsane : s.core.Sane)
include hsane

theorem eligible_capped (w : Row → ℕ) :
    Capped ((s.eligible now dataType key).map (Row.sample w)) := by
  intro x hx
  obtain ⟨row, hrow, rfl⟩ := List.mem_map.mp hx
  exact hsane.capped dataType key row.1 (eligible_mem hrow).1

theorem getMedianValue_avoids :
    (s.getMedianValue now dataType key).Avoids Undeclared := by
  unfold State.getMedianValue
  rw [Check.avoids_bind]
  refine ⟨by simp, fun points hpoints => ?_⟩
  rw [Check.avoids_bind]
  refine ⟨by simp, fun _ _ => ?_⟩
  dsimp only
  rw [State.eligible_eq (Check.unwrap_ok.mp hpoints), Check.avoids_bind]
  refine ⟨Check.avoids_unsigned.mpr fun _ => registered_lt hsane.weights,
    fun _ _ => ?_⟩
  rw [Check.avoids_bind]
  refine ⟨aggregateSamples_avoids (eligible_capped hsane _) ?_,
    fun _ _ => Check.avoids_pure _⟩
  have hweights : ((s.eligible now dataType key).map
      (s.effective dataType)).sum < 2 ^ 32 :=
    effective_lt hsane.weights hsane.sound
  rw [← map_sample_weight] at hweights
  exact hweights

theorem getMedianValue_le {v : ℤ}
    (h : s.getMedianValue now dataType key = .ok v) :
    |v| ≤ maxDataValue := by
  obtain ⟨kept, total, hagg⟩ := State.getMedianValue_spec h
  exact aggregateSamples_le (eligible_capped hsane _) hagg

theorem getAggregated_avoids :
    (s.getAggregated now dataType key).Avoids Undeclared := by
  unfold State.getAggregated
  rw [Check.avoids_bind]
  refine ⟨by simp, fun _ _ => ?_⟩
  rw [Check.avoids_bind]
  refine ⟨by simp, fun points hpoints => ?_⟩
  rw [Check.avoids_bind]
  refine ⟨by simp, fun _ _ => ?_⟩
  dsimp only
  rw [State.filter_filterMap_fresh, State.eligible_eq (Check.unwrap_ok.mp hpoints),
    Check.avoids_bind]
  refine ⟨Check.avoids_unsigned.mpr fun _ => registered_lt hsane.weights,
    fun _ _ => ?_⟩
  rw [Check.avoids_bind]
  refine ⟨aggregateSamples_avoids (eligible_capped hsane fun x => x.2.weight)
    ?_, fun _ _ => Check.avoids_pure _⟩
  have hweights : ((s.eligible now dataType key).map
      fun x => x.2.weight).sum < 2 ^ 32 := registered_lt hsane.weights
  rw [← map_sample_weight] at hweights
  exact hweights

end Pipelines

/-! ## Verifications -/

section Verifications

variable {env : Env} {m m' : Machine State} {dataType key : Symbol}

/-- One more submission of the oracle can be counted. -/
def State.CountsFit (s : State) (dataType : Symbol) (oracle : Address) :
    Prop :=
  (s.getReputation oracle dataType).totalSubmissions + 1 < 2 ^ 64 ∧
    ((s.getReputation oracle dataType).accurateSubmissions + 1) * 1000 <
      2 ^ 64

instance (s : State) (dataType : Symbol) (oracle : Address) :
    Decidable (s.CountsFit dataType oracle) :=
  inferInstanceAs (Decidable (_ ∧ _))

/-- The comparison with a tolerance subtracts the threshold from an aggregate
within the accepted magnitude. -/
def TriggerCondition.ThresholdFits (condition : TriggerCondition) : Prop :=
  condition.comparison = .equalWithTolerance →
    condition.threshold + maxDataValue < 2 ^ 127

instance (condition : TriggerCondition) :
    Decidable condition.ThresholdFits :=
  inferInstanceAs (Decidable (_ → _))

theorem holds_avoids {condition : TriggerCondition} {median : ℤ}
    (hmedian : |median| ≤ maxDataValue) (hfits : condition.ThresholdFits) :
    (condition.holds median).Avoids Undeclared := by
  unfold TriggerCondition.holds
  cases hcomparison : condition.comparison with
  | lessThan => exact Check.avoids_pure _
  | greaterThan => exact Check.avoids_pure _
  | equal => exact Check.avoids_pure _
  | equalWithTolerance =>
      have hthreshold := hfits hcomparison
      have hbounds := abs_le.mp hmedian
      have hsat : |satI128 (median - condition.threshold)| < 2 ^ 127 := by
        rw [abs_lt]
        unfold satI128
        simp only [maxI128, minI128]
        omega
      dsimp only
      rw [Check.avoids_bind, Check.avoids_i128]
      refine ⟨fun _ => inI128_of_abs_lt ?_, fun _ _ => Check.avoids_pure _⟩
      rw [abs_abs]
      exact hsat

theorem updateReputation_avoids {oracle : Address} {accurate : Bool}
    (hfits : m.store.CountsFit dataType oracle) :
    Avoids Undeclared (updateReputation env oracle dataType accurate) m := by
  have hone : accurate.toNat ≤ 1 := Bool.toNat_le accurate
  obtain ⟨htotal, haccurate⟩ := hfits
  have hscaled :
      ((m.store.getReputation oracle dataType).accurateSubmissions +
        accurate.toNat) * 1000 < 2 ^ 64 :=
    (Nat.mul_le_mul_right 1000 (Nat.add_le_add_left hone _)).trans_lt haccurate
  have hcount :
      (m.store.getReputation oracle dataType).accurateSubmissions +
        accurate.toNat < 2 ^ 64 :=
    (Nat.le_mul_of_pos_right _ (by decide)).trans_lt hscaled
  simp only [updateReputation, avoids_bind, avoids_load, avoids_unsigned,
    load_ok, unsigned_ok, true_and]
  rintro _ _ ⟨rfl, rfl⟩
  refine ⟨fun _ => htotal, ?_⟩
  rintro _ _ ⟨-, rfl, rfl⟩
  refine ⟨fun _ => hcount, ?_⟩
  rintro _ _ ⟨-, rfl, rfl⟩
  refine ⟨fun _ => hscaled, ?_⟩
  rintro _ _ ⟨-, rfl, rfl⟩
  exact avoids_update _

theorem scoreReading_avoids {median tolerance : ℤ} {p : OracleDataPoint}
    (hmedian : |median| ≤ maxDataValue) (hp : |p.value| ≤ maxDataValue)
    (hfits : m.store.CountsFit dataType p.oracle) :
    Avoids Undeclared (scoreReading env dataType median tolerance p) m := by
  simp only [scoreReading, avoids_bind, avoids_load, load_ok, true_and]
  rintro _ m₀ ⟨rfl, rfl⟩
  rw [avoids_whenever]
  intro _
  cases m₀.store.oracles (dataType, p.oracle) with
  | none => exact avoids_pure _
  | some entry =>
      dsimp only
      rw [avoids_whenever]
      intro _
      rw [avoids_bind, avoids_check]
      refine ⟨deviation_avoids hmedian hp, ?_⟩
      rintro diff _ hdiff
      obtain ⟨-, rfl⟩ := check_ok.mp hdiff
      exact updateReputation_avoids hfits

/-- Scoring one oracle leaves the records of the others alone. -/
theorem scoreReading_others {median tolerance : ℤ} {p : OracleDataPoint}
    {u : Unit} {oracle : Address}
    (h : scoreReading env dataType median tolerance p m = .ok (u, m'))
    (hne : oracle ≠ p.oracle) :
    m'.store.getReputation oracle dataType =
      m.store.getReputation oracle dataType := by
  rcases scoreReading_cases h with rfl | ⟨accurate, hupdate⟩
  · rfl
  · simp [updateReputation, storeReputation] at hupdate
    obtain ⟨-, -, -, rfl⟩ := hupdate
    have hkey : (dataType, oracle) ≠ (dataType, p.oracle) := by
      simp [hne]
    simp only [State.getReputation, Function.update_of_ne hkey]

/-- Each oracle is scored at most once, so its record need only have room for
one more submission. -/
theorem scoreReadings_avoids {median tolerance : ℤ}
    {points : List OracleDataPoint} (hmedian : |median| ≤ maxDataValue)
    (hcapped : ∀ p ∈ points, |p.value| ≤ maxDataValue)
    (hsingle : (points.map OracleDataPoint.oracle).Nodup)
    (hfits : ∀ p ∈ points, m.store.CountsFit dataType p.oracle) :
    Avoids Undeclared
      (forEach points (scoreReading env dataType median tolerance)) m := by
  induction points generalizing m with
  | nil => exact avoids_pure ()
  | cons p points ih =>
      obtain ⟨hfirst, hrest⟩ := List.forall_mem_cons.mp hcapped
      obtain ⟨hp, hpoints⟩ := List.forall_mem_cons.mp hfits
      rw [List.map_cons, List.nodup_cons] at hsingle
      rw [forEach, avoids_bind]
      refine ⟨scoreReading_avoids hmedian hfirst hp, fun _ t hscore => ?_⟩
      refine ih hrest hsingle.2 fun q hq => ?_
      have hne : q.oracle ≠ p.oracle := fun heq =>
        hsingle.1 (heq ▸ List.mem_map_of_mem hq)
      unfold State.CountsFit
      rw [scoreReading_others hscore hne]
      exact hpoints q hq

variable {condition : TriggerCondition}

/-- The verdict on an aggregate, and the scoring of its readings. -/
theorem verdict_avoids {points : List OracleDataPoint}
    (hsane : m.store.core.Sane)
    (hpoints : m.store.readings dataType key = points)
    (hthreshold : condition.ThresholdFits)
    (hfits : ∀ p ∈ points, m.store.CountsFit dataType p.oracle) :
    Avoids Undeclared (do
      let median ← check (m.store.getMedianValue env.now dataType key)
      let result ← check (condition.holds median)
      forEach points (scoreReading env dataType median condition.tolerance)
      pure result : Call Bool) m := by
  subst hpoints
  rw [avoids_bind, avoids_check]
  refine ⟨getMedianValue_avoids hsane, ?_⟩
  rintro median _ hmedian
  obtain ⟨hvalue, rfl⟩ := check_ok.mp hmedian
  have hbound := getMedianValue_le hsane hvalue
  rw [avoids_bind, avoids_check]
  refine ⟨holds_avoids hbound hthreshold, ?_⟩
  rintro result m₀ hresult
  obtain ⟨-, rfl⟩ := check_ok.mp hresult
  rw [avoids_bind]
  exact ⟨scoreReadings_avoids hbound (hsane.capped dataType key)
    (hsane.single dataType key) hfits, fun _ _ _ => avoids_pure _⟩

/-! A step that can only fail with an error code. -/

theorem avoids_load_bind {α : Type} {k : State → Call α}
    (h : Avoids Undeclared (k m.store) m) :
    Avoids Undeclared (load >>= k) m := by
  rw [avoids_bind]
  refine ⟨avoids_load, fun s t hload => ?_⟩
  obtain ⟨rfl, rfl⟩ := load_ok.mp hload
  exact h

theorem avoids_ensure_bind {α : Type} {c : Prop} [Decidable c] {e : Error}
    {k : Unit → Call α} (h : Avoids Undeclared (k ()) m) :
    Avoids Undeclared (ensure c e >>= k) m := by
  rw [avoids_bind]
  refine ⟨by simp, fun u t hensure => ?_⟩
  obtain ⟨-, rfl⟩ := ensure_ok.mp hensure
  exact h

theorem avoids_unwrap_bind {α β : Type} {o : Option β} {e : Error}
    {k : β → Call α} (h : ∀ b, o = some b → Avoids Undeclared (k b) m) :
    Avoids Undeclared (unwrap o (.error e) >>= k) m := by
  rw [avoids_bind]
  refine ⟨by simp, fun b t hunwrap => ?_⟩
  obtain ⟨hb, rfl⟩ := unwrap_ok.mp hunwrap
  exact h b hb

theorem avoids_active_bind {α : Type} {k : Unit → Call α}
    (h : Avoids Undeclared (k ()) m) :
    Avoids Undeclared (requireDataTypeActive dataType >>= k) m := by
  rw [requireDataTypeActive, bind_assoc]
  exact avoids_load_bind (avoids_ensure_bind h)

theorem verifyTrigger_avoids (hsane : m.store.core.Sane)
    (hthreshold : condition.ThresholdFits)
    (hfits : ∀ p ∈ m.store.readings dataType key,
      m.store.CountsFit dataType p.oracle) :
    Avoids Undeclared (verifyTrigger env dataType key condition) m := by
  refine avoids_active_bind (avoids_load_bind (avoids_ensure_bind
    (avoids_unwrap_bind fun points hpoints => avoids_ensure_bind ?_)))
  have hreadings : m.store.readings dataType key = points := by
    rw [State.readings, hpoints, Option.getD_some]
  rw [hreadings] at hfits
  exact verdict_avoids hsane hreadings hthreshold hfits

theorem verifyTriggerFresh_avoids {maxAgeSeconds : ℕ}
    (hsane : m.store.core.Sane) (hthreshold : condition.ThresholdFits)
    (hfits : ∀ p ∈ m.store.readings dataType key,
      m.store.CountsFit dataType p.oracle) :
    Avoids Undeclared
      (verifyTriggerFresh env dataType key condition maxAgeSeconds) m := by
  refine avoids_active_bind (avoids_load_bind (avoids_ensure_bind
    (avoids_unwrap_bind fun points hpoints => avoids_ensure_bind
      (avoids_ensure_bind (avoids_ensure_bind ?_)))))
  have hreadings : m.store.readings dataType key = points := by
    rw [State.readings, hpoints, Option.getD_some]
  rw [hreadings] at hfits
  exact verdict_avoids hsane hreadings hthreshold hfits

end Verifications

/-! ## Runs -/

/-- In a run whose batches keep to the accepted magnitude, both aggregates
come to a value or to a declared error, and so do verifications whose
threshold leaves room for the subtraction and whose oracles can be counted
once more. -/
theorem aggregation_never_traps {verifier : Address} {w : World State}
    (hreach : ((system verifier).restrict WithinCap).Reachable w) (env : Env)
    (dataType key : Symbol) :
    (w.machine.store.getMedianValue env.now dataType key).Avoids
        Undeclared ∧
      (w.machine.store.getAggregated env.now dataType key).Avoids
        Undeclared ∧
      ∀ condition : TriggerCondition, condition.ThresholdFits →
        (∀ p ∈ w.machine.store.readings dataType key,
          w.machine.store.CountsFit dataType p.oracle) →
        Avoids Undeclared (verifyTrigger env dataType key condition)
            w.machine ∧
          ∀ maxAgeSeconds, Avoids Undeclared
            (verifyTriggerFresh env dataType key condition maxAgeSeconds)
            w.machine := by
  have hsane := hreach.invariant sane_inductive
  refine ⟨getMedianValue_avoids hsane, getAggregated_avoids hsane, ?_⟩
  intro condition hthreshold hfits
  exact ⟨verifyTrigger_avoids hsane hthreshold hfits,
    fun _ => verifyTriggerFresh_avoids hsane hthreshold hfits⟩

/-! ## A batch that overflows -/

open Scenario

namespace Scenario

/-- Both oracles report the largest number there is. -/
def overflowRun : List (Label Entry) :=
  [.call [admin] (.initializeVerifier admin),
    .call [admin] (.addOracle admin oracleA Symbols.weather 100),
    .call [admin] (.addOracle admin oracleB Symbols.weather 101),
    .call [oracleA] (.submitDataBatch oracleA Symbols.weather
      [⟨rain, 2 ^ 127 - 1, 90, 1000000⟩]),
    .call [oracleB] (.submitDataBatch oracleB Symbols.weather
      [⟨rain, 2 ^ 127 - 1, 90, 1000000⟩])]

def overflowing : World State :=
  (TransitionSystem.execute (step exec verifier) overflowRun genesis).get
    (by decide +kernel)

theorem overflowing_reachable : (system verifier).Reachable overflowing :=
  TransitionSystem.reachable_of_execute (fun _ _ _ => step_sound)
    ⟨rfl, rfl⟩ (Option.some_get _).symm

theorem reported_capped :
    ((system verifier).restrict WithinCap).Reachable reported := by
  have hrun : (system verifier).Run genesis readingRun reported :=
    TransitionSystem.run_of_execute (fun _ _ _ => step_sound)
      (Option.some_get _).symm
  have hgenesis : ((system verifier).restrict WithinCap).Reachable genesis :=
    .init ⟨rfl, rfl⟩
  refine hgenesis.run (hrun.restrict ?_)
  simp [readingRun, WithinCap, Entry.WithinCap]

end Scenario

theorem aggregation_never_traps_reported :
    (reported.machine.store.getMedianValue reported.now Symbols.weather
        rain).Avoids Undeclared ∧
      (reported.machine.store.getAggregated reported.now Symbols.weather
        rain).Avoids Undeclared ∧
      Avoids Undeclared
        (verifyTrigger (callEnv verifier reported []) Symbols.weather rain wet)
        reported.machine := by
  have hthreshold : wet.ThresholdFits := by decide
  have hcounts : ∀ p ∈ reported.machine.store.readings Symbols.weather rain,
      reported.machine.store.CountsFit Symbols.weather p.oracle := by
    decide +kernel
  have hsafe := aggregation_never_traps reported_capped (callEnv verifier reported [])
    Symbols.weather rain
  exact ⟨hsafe.1, hsafe.2.1, (hsafe.2.2 wet hthreshold hcounts).1⟩

/-- Two readings beyond the accepted magnitude make every verification of
their key overflow. -/
theorem aggregation_overflows :
    (system verifier).Reachable overflowing ∧
      overflowing.machine.store.getMedianValue overflowing.now
        Symbols.weather rain = .error (.overflow none) ∧
      failure (verifyTrigger (callEnv verifier overflowing [])
        Symbols.weather rain wet overflowing.machine) =
          some (.overflow none) ∧
      Undeclared (.overflow none) := by
  refine ⟨overflowing_reachable, ?_, ?_, nofun⟩ <;> decide +kernel

end Parashield.OracleVerifier
