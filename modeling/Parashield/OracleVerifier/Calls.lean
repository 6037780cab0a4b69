import Parashield.Deployment
import Parashield.OracleVerifier.Submission
import Parashield.OracleVerifier.Verification

/-!
# Oracle verifier: entry points and runs

All state-changing entry points of the verifier, and what a verification
leaves alone.
-/

namespace Parashield.OracleVerifier

open Support Support.Contract Invocation

/-- The state-changing entry points with their arguments. -/
inductive Entry where
  | initializeVerifier (admin : Address)
  | addOracle (admin oracle : Address) (dataType : Symbol) (weight : ℕ)
  | updateOracleWeight (admin oracle : Address) (dataType : Symbol)
      (weight : ℕ)
  | removeOracle (admin oracle : Address) (dataType : Symbol)
  | pauseDataType (admin : Address) (dataType : Symbol)
  | resumeDataType (admin : Address) (dataType : Symbol)
  | deactivateInactiveOracles (dataType : Symbol)
  | setOracleInactivityLimit (admin : Address) (seconds : ℕ)
  | setMinConfidence (admin : Address) (threshold : ℕ)
  | setMaxDataAge (admin : Address) (maxAge : ℕ)
  | setMaxTimestampAge (admin : Address) (maxTimestampAge : ℕ)
  | setTimestampFutureBuffer (admin : Address) (seconds : ℕ)
  | setDataTypeMaxAge (admin : Address) (dataType : Symbol) (maxAge : ℕ)
  | setAggregationMethod (admin : Address) (dataType : Symbol)
      (method : AggregationMethod)
  | setOutlierConfig (admin : Address) (dataType : Symbol) (enabled : Bool)
      (thresholdBps minSampleSize : ℕ)
  | setDataTypeRange (admin : Address) (dataType : Symbol) (lower upper : ℤ)
  | setMinOracleCount (admin : Address) (minCount : ℕ)
  | setDataTypeMinOracleCount (admin : Address) (dataType : Symbol)
      (minCount : ℕ)
  | setCrossValidationRule (admin : Address) (sourceType targetType : Symbol)
      (maxVariance : ℤ) (description : Bytes)
  | removeCrossValidationRule (admin : Address)
      (sourceType targetType : Symbol)
  | setMinSubmitInterval (admin : Address) (seconds : ℕ)
  | setStakeToken (admin token : Address)
  | setMinStake (admin : Address) (minStake : ℤ)
  | setSlashTreasury (admin treasury : Address)
  | setOracleGeoWeight (admin oracle : Address) (dataType region : Symbol)
      (geoWeightBps : ℕ)
  | setChallengePeriod (admin : Address) (periodSeconds : ℕ)
  | setStaleThreshold (admin : Address) (threshold : ℕ)
  | setStaleSlashAmount (admin : Address) (amount : ℤ)
  | setStaleReputationPenalty (admin : Address) (reputationLost : ℕ)
  | setReputation (admin oracle : Address) (dataType : Symbol) (score : ℕ)
  | setEncryptionRequired (admin : Address) (dataType : Symbol)
      (required : Bool)
  | setGuardians (admin : Address) (guardians : List Address)
      (threshold : ℕ)
  | proposeNewAdmin (admin newAdmin : Address)
  | approveAdminChange (guardian newAdmin : Address)
  | acceptAdmin (admin : Address)
  | stake (oracle : Address) (dataType : Symbol) (amount : ℤ)
  | requestStakeWithdrawal (oracle : Address) (dataType : Symbol)
  | cancelStakeWithdrawal (oracle : Address) (dataType : Symbol)
  | withdrawStake (oracle : Address) (dataType : Symbol)
  | slashOracle (admin oracle : Address) (dataType : Symbol) (amount : ℤ)
  | submitData (oracle : Address) (dataType key : Symbol) (value : ℤ)
      (confidence timestamp : ℕ)
  | batchSubmitData (oracle : Address) (dataType : Symbol)
      (submissions : List OracleDataSubmission)
  | submitDataBatch (oracle : Address) (dataType : Symbol)
      (submissions : List OracleDataSubmission)
  | submitEncryptedData (oracle : Address) (dataType key : Symbol)
      (ciphertext nonce : Bytes) (confidence timestamp : ℕ)
  | invalidateData (admin : Address) (dataType key : Symbol)
  | verifyTrigger (dataType key : Symbol) (condition : TriggerCondition)
  | verifyTriggerFresh (dataType key : Symbol) (condition : TriggerCondition)
      (maxAgeSeconds : ℕ)
  | batchVerifyFresh (queries : List OracleReadingQuery)

def exec (env : Env) : Entry → Call Unit
  | .initializeVerifier admin => initializeVerifier env admin
  | .addOracle admin oracle dataType weight =>
      addOracle env admin oracle dataType weight
  | .updateOracleWeight admin oracle dataType weight =>
      updateOracleWeight env admin oracle dataType weight
  | .removeOracle admin oracle dataType =>
      removeOracle env admin oracle dataType
  | .pauseDataType admin dataType => pauseDataType env admin dataType
  | .resumeDataType admin dataType => resumeDataType env admin dataType
  | .deactivateInactiveOracles dataType =>
      perform (deactivateInactiveOracles env dataType)
  | .setOracleInactivityLimit admin seconds =>
      setOracleInactivityLimit env admin seconds
  | .setMinConfidence admin threshold => setMinConfidence env admin threshold
  | .setMaxDataAge admin maxAge => setMaxDataAge env admin maxAge
  | .setMaxTimestampAge admin maxTimestampAge =>
      setMaxTimestampAge env admin maxTimestampAge
  | .setTimestampFutureBuffer admin seconds =>
      setTimestampFutureBuffer env admin seconds
  | .setDataTypeMaxAge admin dataType maxAge =>
      setDataTypeMaxAge env admin dataType maxAge
  | .setAggregationMethod admin dataType method =>
      setAggregationMethod env admin dataType method
  | .setOutlierConfig admin dataType enabled thresholdBps minSampleSize =>
      setOutlierConfig env admin dataType enabled thresholdBps minSampleSize
  | .setDataTypeRange admin dataType lower upper =>
      setDataTypeRange env admin dataType lower upper
  | .setMinOracleCount admin minCount => setMinOracleCount env admin minCount
  | .setDataTypeMinOracleCount admin dataType minCount =>
      setDataTypeMinOracleCount env admin dataType minCount
  | .setCrossValidationRule admin sourceType targetType maxVariance text =>
      setCrossValidationRule env admin sourceType targetType maxVariance text
  | .removeCrossValidationRule admin sourceType targetType =>
      removeCrossValidationRule env admin sourceType targetType
  | .setMinSubmitInterval admin seconds =>
      setMinSubmitInterval env admin seconds
  | .setStakeToken admin token => setStakeToken env admin token
  | .setMinStake admin minStake => setMinStake env admin minStake
  | .setSlashTreasury admin treasury => setSlashTreasury env admin treasury
  | .setOracleGeoWeight admin oracle dataType region geoWeightBps =>
      setOracleGeoWeight env admin oracle dataType region geoWeightBps
  | .setChallengePeriod admin periodSeconds =>
      setChallengePeriod env admin periodSeconds
  | .setStaleThreshold admin threshold =>
      setStaleThreshold env admin threshold
  | .setStaleSlashAmount admin amount => setStaleSlashAmount env admin amount
  | .setStaleReputationPenalty admin reputationLost =>
      setStaleReputationPenalty env admin reputationLost
  | .setReputation admin oracle dataType score =>
      setReputation env admin oracle dataType score
  | .setEncryptionRequired admin dataType required =>
      setEncryptionRequired env admin dataType required
  | .setGuardians admin guardians threshold =>
      setGuardians env admin guardians threshold
  | .proposeNewAdmin admin newAdmin => proposeNewAdmin env admin newAdmin
  | .approveAdminChange guardian newAdmin =>
      approveAdminChange env guardian newAdmin
  | .acceptAdmin admin => acceptAdmin env admin
  | .stake oracle dataType amount => stake env oracle dataType amount
  | .requestStakeWithdrawal oracle dataType =>
      requestStakeWithdrawal env oracle dataType
  | .cancelStakeWithdrawal oracle dataType =>
      cancelStakeWithdrawal env oracle dataType
  | .withdrawStake oracle dataType => withdrawStake env oracle dataType
  | .slashOracle admin oracle dataType amount =>
      slashOracle env admin oracle dataType amount
  | .submitData oracle dataType key value confidence timestamp =>
      submitData env oracle dataType key value confidence timestamp
  | .batchSubmitData oracle dataType submissions =>
      batchSubmitData env oracle dataType submissions
  | .submitDataBatch oracle dataType submissions =>
      submitDataBatch env oracle dataType submissions
  | .submitEncryptedData oracle dataType key ciphertext nonce conf time =>
      submitEncryptedData env oracle dataType key ciphertext nonce conf time
  | .invalidateData admin dataType key => invalidateData env admin dataType key
  | .verifyTrigger dataType key condition =>
      perform (verifyTrigger env dataType key condition)
  | .verifyTriggerFresh dataType key condition maxAgeSeconds =>
      perform (verifyTriggerFresh env dataType key condition maxAgeSeconds)
  | .batchVerifyFresh queries => perform (batchVerifyFresh env queries)

/-- Runs of the verifier deployed at `self`. -/
def system (self : Address) : TransitionSystem (World State) (Label Entry) :=
  deployment exec State.deployed self

/-! ## What a verification leaves alone -/

section Frame

/-- `t` differs from `s` in reputation records at most. -/
def State.UpToReputation (s t : State) : Prop :=
  t = { s with reputation := t.reputation }

/-- `t` keeps the reputation records of the data types other than
`dataType`. -/
def State.SameReputationOff (dataType : Symbol) (s t : State) : Prop :=
  ∀ other oracle, other ≠ dataType →
    t.reputation (other, oracle) = s.reputation (other, oracle)

/-- A verification on `dataType`: reputation records of that data type change
at most, and no token moves. -/
structure Scored (dataType : Symbol) (m m' : Machine State) : Prop where
  store : m.store.UpToReputation m'.store
  others : m.store.SameReputationOff dataType m'.store
  bank : m'.bank = m.bank

theorem Scored.refl (dataType : Symbol) (m : Machine State) :
    Scored dataType m m where
  store := rfl
  others _ _ _ := rfl
  bank := rfl

theorem State.UpToReputation.trans {r s t : State}
    (h : r.UpToReputation s) (h' : s.UpToReputation t) :
    r.UpToReputation t := by
  unfold State.UpToReputation at *
  rw [h', h]

theorem Scored.trans {dataType : Symbol} {m₁ m₂ m₃ : Machine State}
    (h : Scored dataType m₁ m₂) (h' : Scored dataType m₂ m₃) :
    Scored dataType m₁ m₃ where
  store := h.store.trans h'.store
  others other oracle hne :=
    (h'.others other oracle hne).trans (h.others other oracle hne)
  bank := h'.bank.trans h.bank

variable {env : Env} {dataType key : Symbol} {condition : TriggerCondition}
  {m m' : Machine State}

theorem updateReputation_scored {oracle : Address} {accurate : Bool} {u : Unit}
    (h : updateReputation env oracle dataType accurate m = .ok (u, m')) :
    Scored dataType m m' := by
  simp [updateReputation, storeReputation] at h
  obtain ⟨-, -, -, rfl⟩ := h
  refine ⟨rfl, ?_, rfl⟩
  intro other o hne
  have hkey : (other, o) ≠ (dataType, oracle) := by
    simp [hne]
  exact Function.update_of_ne hkey _ _

/-- Scoring a reading updates the record of its oracle, or nothing. -/
theorem scoreReading_cases {median tolerance : ℤ} {p : OracleDataPoint}
    {u : Unit}
    (h : scoreReading env dataType median tolerance p m = .ok (u, m')) :
    m' = m ∨ ∃ accurate,
      updateReputation env p.oracle dataType accurate m = .ok (u, m') := by
  unfold scoreReading at h
  simp only [bind_ok, load_ok] at h
  obtain ⟨s, t, ⟨hs, ht⟩, h⟩ := h
  rw [hs, ht] at h
  rcases whenever_ok.mp h with ⟨-, h⟩ | ⟨-, rfl⟩
  · cases hentry : m.store.oracles (dataType, p.oracle) with
    | none =>
        rw [hentry] at h
        exact .inl (pure_ok.mp h).2
    | some entry =>
        rw [hentry] at h
        rcases whenever_ok.mp h with ⟨-, hrun⟩ | ⟨-, rfl⟩
        · simp only [bind_ok, check_ok] at hrun
          obtain ⟨_, _, ⟨-, rfl⟩, hupdate⟩ := hrun
          exact .inr ⟨_, hupdate⟩
        · exact .inl rfl
  · exact .inl rfl

theorem scoreReading_scored {median tolerance : ℤ} {p : OracleDataPoint}
    {u : Unit}
    (h : scoreReading env dataType median tolerance p m = .ok (u, m')) :
    Scored dataType m m' := by
  rcases scoreReading_cases h with rfl | ⟨accurate, hupdate⟩
  · exact .refl dataType _
  · exact updateReputation_scored hupdate

theorem scoreReadings_scored {median tolerance : ℤ}
    {points : List OracleDataPoint} {u : Unit}
    (h : forEach points (scoreReading env dataType median tolerance) m =
      .ok (u, m')) : Scored dataType m m' := by
  have hkeeps : Keeps (Scored dataType m)
      (forEach points (scoreReading env dataType median tolerance)) := by
    apply keeps_forEach
    intro p _ s v s' hs hrun
    exact hs.trans (scoreReading_scored hrun)
  exact hkeeps m u m' (.refl dataType m) h

/-- An accepted verification returns the verdict on the aggregate. -/
theorem verifyTrigger_spec {b : Bool}
    (h : verifyTrigger env dataType key condition m = .ok (b, m')) :
    ∃ v, m.store.getMedianValue env.now dataType key = .ok v ∧
      condition.holds v = .ok b ∧ Scored dataType m m' := by
  simp [verifyTrigger, requireDataTypeActive] at h
  obtain ⟨-, -, points, -, -, v, hv, hb, _, hscore⟩ := h
  exact ⟨v, hv, hb, scoreReadings_scored hscore⟩

theorem verifyTriggerFresh_spec {maxAgeSeconds : ℕ} {b : Bool}
    (h : verifyTriggerFresh env dataType key condition maxAgeSeconds m =
      .ok (b, m')) :
    ∃ v, m.store.getMedianValue env.now dataType key = .ok v ∧
      condition.holds v = .ok b ∧ Scored dataType m m' := by
  simp [verifyTriggerFresh, requireDataTypeActive] at h
  obtain ⟨-, -, points, -, -, -, -, v, hv, hb, _, hscore⟩ := h
  exact ⟨v, hv, hb, scoreReadings_scored hscore⟩

theorem verifyTriggerWithConfidence_spec {b : Bool} {agg : AggregatedData}
    (h : verifyTriggerWithConfidence env dataType key condition m =
      .ok ((b, agg), m')) :
    m.store.getAggregated env.now dataType key = .ok agg ∧
      condition.holds agg.medianValue = .ok b ∧ m' = m := by
  simp only [verifyTriggerWithConfidence, requireDataTypeActive, bind_ok,
    load_ok, ensure_ok, check_ok, pure_ok, Prod.mk.injEq] at h
  obtain ⟨_, _, ⟨_, _, ⟨rfl, rfl⟩, -, rfl⟩, _, _, ⟨rfl, rfl⟩, _, _,
    ⟨hagg, rfl⟩, _, _, ⟨hb, rfl⟩, ⟨rfl, rfl⟩, rfl⟩ := h
  exact ⟨hagg, hb, rfl⟩

end Frame

end Parashield.OracleVerifier
