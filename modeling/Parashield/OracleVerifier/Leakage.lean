import Parashield.OracleVerifier.Agreement
import Parashield.OracleVerifier.Plaintext

/-!
# Oracle verifier: what leaks

A read path leaks nothing about an encrypted data type if and only if it looks
at the flag, or is about another data type.
-/

namespace Parashield.OracleVerifier

open Support Support.Contract Invocation

variable {env : Env} {dataType key : Symbol} {q : Query} {self : Address}

namespace Query

/-- The data type a query reports on without looking at its flag. -/
def unguarded : Query → Option Symbol
  | .getData dataType _ => some dataType
  | .getDataPoints dataType _ => some dataType
  | .getAggregatedForRegion dataType _ _ _ => some dataType
  | .resolveConflictingReadings dataType _ => some dataType
  | .reputationWeightedConfidence dataType _ => some dataType
  | .checkFreshness dataType _ => some dataType
  | .checkStaleness dataType _ => some dataType
  | .getAggregated _ _ => none
  | .verifyTrigger _ _ _ => none
  | .verifyTriggerFresh _ _ _ _ => none
  | .verifyTriggerWithConfidence _ _ _ => none
  | .batchVerifyFresh _ => none

/-- Whatever plaintext readings of `dataType` are left in a reachable state in
which it requires encryption, the answer is the same. -/
def Blind (self : Address) (dataType : Symbol) (q : Query) : Prop :=
  ∀ w signers points, (system self).Reachable w →
    w.machine.store.encryptionRequired dataType = true →
    w.machine.store.AgreesOff dataType points →
    (ask (callEnv self w signers) q w.machine).map Prod.fst =
      (ask (callEnv self w signers) q
        { w.machine with store := w.machine.store.withPoints points }).map
          Prod.fst

end Query

theorem mirror_ask (h : q.unguarded ≠ some dataType) :
    Mirror (Veiled dataType) Eq (ask env q) (ask env q) := by
  have hne : ∀ dataType', q.unguarded = some dataType' →
      dataType' ≠ dataType := by
    rintro dataType' hq rfl
    exact h hq
  cases q with
  | getData dataType' key =>
      refine mirror_bind mirror_load fun s t hst => ?_
      obtain ⟨-, points, rfl, hagree⟩ := hst
      rw [State.getData_withPoints (hagree dataType' key (hne _ rfl))]
      exact mirror_map _ (mirror_check _)
  | getDataPoints dataType' key =>
      refine mirror_bind mirror_load fun s t hst => ?_
      obtain ⟨-, points, rfl, hagree⟩ := hst
      rw [State.getDataPoints_withPoints (hagree dataType' key (hne _ rfl))]
      exact mirror_pure rfl
  | getAggregated dataType' key =>
      refine mirror_bind mirror_load fun s t hst => ?_
      rw [hst.getAggregated]
      exact mirror_map _ (mirror_check _)
  | getAggregatedForRegion dataType' key maxAgeSeconds region =>
      refine mirror_bind mirror_load fun s t hst => ?_
      obtain ⟨-, points, rfl, hagree⟩ := hst
      rw [State.getAggregatedForRegion_withPoints
        (hagree dataType' key (hne _ rfl))]
      exact mirror_map _ (mirror_check _)
  | resolveConflictingReadings dataType' key =>
      refine mirror_bind mirror_load fun s t hst => ?_
      obtain ⟨-, points, rfl, hagree⟩ := hst
      unfold State.resolveConflictingReadings
      rw [State.getMedianValue_withPoints (hagree dataType' key (hne _ rfl))]
      exact mirror_map _ (mirror_check _)
  | reputationWeightedConfidence dataType' key =>
      refine mirror_bind mirror_load fun s t hst => ?_
      obtain ⟨-, points, rfl, hagree⟩ := hst
      rw [State.reputationWeightedConfidence_withPoints
        (hagree dataType' key (hne _ rfl))]
      exact mirror_map _ (mirror_check _)
  | checkFreshness dataType' key =>
      refine mirror_bind mirror_load fun s t hst => ?_
      obtain ⟨-, points, rfl, hagree⟩ := hst
      rw [State.checkFreshness_withPoints (hagree dataType' key (hne _ rfl))]
      exact mirror_pure rfl
  | checkStaleness dataType' key =>
      refine mirror_bind mirror_load fun s t hst => ?_
      obtain ⟨-, points, rfl, hagree⟩ := hst
      rw [State.checkStaleness_withPoints (hagree dataType' key (hne _ rfl))]
      exact mirror_pure rfl
  | verifyTrigger => exact mirror_map _ mirror_verifyTrigger
  | verifyTriggerFresh => exact mirror_map _ mirror_verifyTriggerFresh
  | verifyTriggerWithConfidence =>
      exact mirror_map _ mirror_verifyTriggerWithConfidence
  | batchVerifyFresh => exact mirror_map _ mirror_batchVerifyFresh

/-- A read path that looks at the flag, or is about another data type, leaks
nothing. -/
theorem Query.Blind.of_guarded (h : q.unguarded ≠ some dataType) :
    q.Blind self dataType := by
  intro w signers points _ hrequired hagree
  have hveiled : Veiled dataType w.machine
      { w.machine with store := w.machine.store.withPoints points } :=
    ⟨⟨hrequired, points, rfl, hagree⟩, rfl⟩
  exact (mirror_ask h _ _ hveiled).map_fst

/-! ## One leftover reading -/

namespace Scenario

def started (admin : Address) : State :=
  { State.deployed with initialized := true, admin := some admin }

def registration (dataType : Symbol) : OracleEntry where
  oracle := oracleA
  dataType := dataType
  weight := 100
  active := true

/-- One oracle is registered for the data type. -/
def staffed (admin : Address) (dataType : Symbol) : State :=
  { started admin with
    oracles :=
      Function.update State.deployed.oracles (dataType, oracleA)
        (some (registration dataType))
    oracleList := Function.update State.deployed.oracleList dataType [oracleA]
    globalOracle := Function.update State.deployed.globalOracle oracleA true }

/-- The data type requires encryption from then on. -/
def veiled (admin : Address) (dataType : Symbol) : State :=
  { staffed admin dataType with
    encryptionRequired :=
      Function.update State.deployed.encryptionRequired dataType true }

def leftover (now : ℕ) : OracleDataPoint where
  oracle := oracleA
  value := 70
  confidence := 90
  timestamp := now

/-- The one reading that is left. -/
def leftovers (now : ℕ) (dataType key : Symbol) : PointStore :=
  Function.update (fun _ => none) (dataType, key) (some [leftover now])

end Scenario

open Scenario

/-- A data type that an oracle can be registered for. -/
def Registrable (dataType : Symbol) : Prop :=
  dataType.chars ≠ [] ∧ dataType.chars.length ≤ 32

theorem exists_veiled (self : Address) (hvalid : Registrable dataType) :
    ∃ w admin, (system self).Reachable w ∧
      w.machine.store = veiled admin dataType := by
  obtain ⟨admin, hadmin⟩ : ∃ admin : Address, self ∉ [admin] := by
    by_cases h : self = .account 1
    · exact ⟨.account 2, by simp [h]⟩
    · exact ⟨.account 1, by simpa using h⟩
  have h₀ : (system self).Reachable genesis := .init ⟨rfl, rfl⟩
  have hstarted : exec (callEnv self genesis [admin])
      (.initializeVerifier admin) genesis.machine =
      .ok ((), ⟨started admin, genesis.machine.bank⟩) := by
    simp [exec, initializeVerifier, callEnv, genesis, State.deployed,
      requireAuth, started]
  have h₁ := h₀.step (.call hadmin hstarted)
  have hstaffed : exec (callEnv self genesis [admin])
      (.addOracle admin oracleA dataType 100)
      ⟨started admin, genesis.machine.bank⟩ =
      .ok ((), ⟨staffed admin dataType, genesis.machine.bank⟩) := by
    simp [exec, addOracle, requireAdmin, validateContractAddress,
      validateSymbolLen, storeOracle, callEnv, started, staffed, registration, oracleA,
      State.deployed, Address.isContract, maxWeight, maxOracles,
      maxOraclesPerKey, requireAuth, hvalid.1, hvalid.2]
  have h₂ := h₁.step (.call hadmin hstaffed)
  have hveiled : exec (callEnv self genesis [admin])
      (.setEncryptionRequired admin dataType true)
      ⟨staffed admin dataType, genesis.machine.bank⟩ =
      .ok ((), ⟨veiled admin dataType, genesis.machine.bank⟩) := by
    simp [exec, setEncryptionRequired, requireAdmin, callEnv, started, staffed,
      veiled, State.deployed, requireAuth]
  have h₃ := h₂.step (.call hadmin hveiled)
  exact ⟨_, admin, h₃, rfl⟩

/-- The answer of a read path that reports a computation on the storage. -/
theorem map_fst_report {α : Type} {g : State → View α} {f : α → Answer}
    {m : Machine State} :
    ((do
      let s ← load
      f <$> check (g s) : Call Answer) m).map Prod.fst =
      (g m.store).map f := by
  change (Except.map Prod.fst ((f <$> check (g m.store) : Call Answer) m)) = _
  rw [map_eq_pure_bind]
  simp only [bind, StateT.bind, check]
  cases g m.store with
  | error e => rfl
  | ok a => rfl

section Leftover

variable {admin : Address} {bank : Bank} {now : ℕ}

/-- One reading is left for `key`. -/
def Scenario.littered (admin : Address) (now : ℕ) (dataType key : Symbol) :
    State :=
  (veiled admin dataType).withPoints (leftovers now dataType key)

@[simp] theorem leftover_value : (leftover now).value = 70 := rfl

-- not by `rfl`, so that the kernel is not left with a product over `now`
@[simp] theorem leftover_confidence : (leftover now).confidence = 90 := by
  simp [leftover]

@[simp] theorem registration_weight : (registration dataType).weight = 100 :=
  rfl

@[simp] theorem registration_active :
    (registration dataType).active = true :=
  rfl

@[simp] theorem leftover_timestamp : (leftover now).timestamp = now := rfl

theorem littered_dataPoints :
    (littered admin now dataType key).dataPoints (dataType, key) =
      some [leftover now] := by
  simp [littered, State.withPoints, leftovers]

theorem littered_isFresh :
    (littered admin now dataType key).isFresh now dataType (leftover now) =
      true := by
  simp [State.isFresh, leftover, littered, State.withPoints, veiled, staffed,
    started, State.deployed]

theorem littered_oracles :
    (littered admin now dataType key).oracles (dataType, oracleA) =
      some (registration dataType) :=
  Function.update_self _ _ _

theorem littered_liveEntry :
    (littered admin now dataType key).liveEntry now dataType (leftover now) =
      some (registration dataType) := by
  rw [State.liveEntry, show (leftover now).oracle = oracleA from rfl,
    littered_oracles]
  rfl

theorem littered_getData :
    (littered admin now dataType key).getData now dataType key =
      .ok (leftover now) := by
  rw [State.getData, littered_dataPoints]
  simp [State.latestPoint, leftover]

theorem littered_effectiveWeight :
    (registration dataType).effectiveWeight
        ((littered admin now dataType key).getReputation (leftover now).oracle
          dataType) = 50 := by
  simp [OracleEntry.effectiveWeight, State.getReputation, littered,
    State.withPoints, veiled, staffed, started, State.deployed]

theorem littered_aggregateSamples {x : Sample} (hweight : x.weight = 50) :
    (littered admin now dataType key).aggregateSamples now dataType [x] =
      .ok ([x], 50, x.value) := by
  simp [State.aggregateSamples, littered, State.withPoints, veiled, staffed,
    started, State.deployed, filterOutliers, OutlierConfig.applies, hweight,
    aggregate, weightedMedian, medianScan]

theorem littered_getMedianValue :
    (littered admin now dataType key).getMedianValue now dataType key =
      .ok 70 := by
  rw [State.getMedianValue, littered_dataPoints]
  simp [littered_isFresh, littered_liveEntry, maxDataPoints,
    littered_effectiveWeight, littered_aggregateSamples]

theorem littered_getAggregatedForRegion {maxAgeSeconds : ℕ}
    {region : Symbol} :
    (littered admin now dataType key).getAggregatedForRegion now dataType key
        maxAgeSeconds region =
      .ok
        { medianValue := 70
          oracleCount := 1
          activeOracleCount := 1
          confidence := 90
          minConfidence := 90
          lastUpdated := now
          confidenceIntervalLower := 70
          confidenceIntervalUpper := 70 } := by
  have hweight : (littered admin now dataType key).regionalWeight
      (registration dataType) oracleA dataType region = 100 := by
    simp [State.regionalWeight, State.getOracleGeoWeight, littered,
      State.withPoints, veiled, staffed, started, State.deployed]
  have hconfidence : (littered admin now dataType key).minConfidence = 0 := rfl
  have hrows : (littered admin now dataType key).regionalRows now dataType
      maxAgeSeconds region [leftover now] = [(leftover now, 100)] := by
    simp [State.regionalRows, leftover, littered_oracles, hweight, hconfidence]
  rw [State.getAggregatedForRegion, littered_dataPoints]
  simp [hrows, State.regionalMedian, calculateConfidenceInterval]

theorem littered_reputationWeightedConfidence :
    (littered admin now dataType key).reputationWeightedConfidence now
      dataType key = .ok 90 := by
  rw [State.reputationWeightedConfidence, littered_dataPoints]
  simp [littered_isFresh, littered_liveEntry, littered_effectiveWeight,
    State.satSumU64, satAddU64, maxU64]

/-- Each unguarded read path tells the reading from none. -/
theorem ask_littered (h : q.unguarded = some dataType) :
    ∃ key, (ask env q ⟨veiled admin dataType, bank⟩).map Prod.fst ≠
      (ask env q ⟨littered admin env.now dataType key, bank⟩).map
        Prod.fst := by
  cases q with
  | getData dataType' key =>
      obtain rfl := Option.some.inj h
      refine ⟨key, ?_⟩
      rw [ask, map_fst_report, map_fst_report, littered_getData]
      nofun
  | getDataPoints dataType' key =>
      obtain rfl := Option.some.inj h
      refine ⟨key, fun heq => ?_⟩
      have hpoints := Answer.points.inj (Except.ok.inj heq)
      rw [State.getDataPoints, State.getDataPoints, littered_dataPoints] at hpoints
      cases hpoints
  | getAggregatedForRegion dataType' key maxAgeSeconds region =>
      obtain rfl := Option.some.inj h
      refine ⟨key, ?_⟩
      rw [ask, map_fst_report, map_fst_report,
        littered_getAggregatedForRegion]
      nofun
  | resolveConflictingReadings dataType' key =>
      obtain rfl := Option.some.inj h
      refine ⟨key, ?_⟩
      rw [ask, map_fst_report, map_fst_report,
        State.resolveConflictingReadings, State.resolveConflictingReadings,
        littered_getMedianValue]
      nofun
  | reputationWeightedConfidence dataType' key =>
      obtain rfl := Option.some.inj h
      refine ⟨key, ?_⟩
      rw [ask, map_fst_report, map_fst_report,
        littered_reputationWeightedConfidence]
      nofun
  | checkFreshness dataType' key =>
      obtain rfl := Option.some.inj h
      refine ⟨key, fun heq => ?_⟩
      have hcount := congrArg FreshnessReport.totalCount
        (Answer.freshness.inj (Except.ok.inj heq))
      simp only [State.checkFreshness, State.getDataPoints,
        littered_dataPoints] at hcount
      cases hcount
  | checkStaleness dataType' key =>
      obtain rfl := Option.some.inj h
      refine ⟨key, fun heq => ?_⟩
      have hcount := congrArg StalenessReport.totalCount
        (Answer.staleness.inj (Except.ok.inj heq))
      simp only [State.checkStaleness, State.getDataPoints,
        littered_dataPoints] at hcount
      cases hcount
  | getAggregated => cases h
  | verifyTrigger => cases h
  | verifyTriggerFresh => cases h
  | verifyTriggerWithConfidence => cases h
  | batchVerifyFresh => cases h

end Leftover

theorem leftovers_agreesOff {admin : Address} {now : ℕ} :
    (veiled admin dataType).AgreesOff dataType
      (leftovers now dataType key) := by
  intro other key' hne
  have hkey : (other, key') ≠ (dataType, key) := by
    simp [hne]
  exact Function.update_of_ne hkey _ _

/-- A read path leaks nothing about an encrypted data type exactly if it looks
at the flag or is about another data type. -/
theorem query_blind_iff (hvalid : Registrable dataType) :
    q.Blind self dataType ↔ q.unguarded ≠ some dataType := by
  refine ⟨fun hblind hunguarded => ?_, Query.Blind.of_guarded⟩
  obtain ⟨⟨now, ⟨store, bank⟩⟩, admin, hreach, hstore⟩ :=
    exists_veiled self hvalid
  obtain rfl : store = veiled admin dataType := hstore
  obtain ⟨key, hleak⟩ : ∃ key,
      (ask ⟨now, self, []⟩ q ⟨veiled admin dataType, bank⟩).map Prod.fst ≠
        (ask ⟨now, self, []⟩ q
          ⟨littered admin now dataType key, bank⟩).map Prod.fst :=
    ask_littered hunguarded
  have hrequired : (veiled admin dataType).encryptionRequired dataType = true :=
    Function.update_self _ _ _
  exact hleak (hblind ⟨now, ⟨veiled admin dataType, bank⟩⟩ []
    (leftovers now dataType key) hreach hrequired leftovers_agreesOff)

/-- The regional aggregate of the weather leaks, the verdicts on it do not. -/
theorem query_blind_iff_weather :
    ¬ (Query.getAggregatedForRegion Symbols.weather rain 3600 rain).Blind
        verifier Symbols.weather ∧
      (Query.verifyTrigger Symbols.weather rain wet).Blind verifier
        Symbols.weather := by
  have hvalid : Registrable Symbols.weather := ⟨by decide, by decide⟩
  constructor
  · rw [query_blind_iff hvalid]
    decide
  · rw [query_blind_iff hvalid]
    decide

/-! ## A reading told after encryption is required -/

namespace Scenario

/-- An oracle reports rain, then encryption is required. -/
def sealingRun (value : ℤ) : List (Label Entry) :=
  [.call [admin] (.initializeVerifier admin),
    .call [admin] (.addOracle admin oracleA Symbols.weather 100),
    .call [oracleA]
      (.submitData oracleA Symbols.weather rain value 90 1000000),
    .call [admin] (.setEncryptionRequired admin Symbols.weather true)]

/-- The feed with a dry reading left in it. -/
def sealedDry : World State :=
  (TransitionSystem.execute (step exec verifier) (sealingRun 10) genesis).get
    (by decide +kernel)

/-- The feed with a wet reading left in it. -/
def sealedWet : World State :=
  (TransitionSystem.execute (step exec verifier) (sealingRun 70) genesis).get
    (by decide +kernel)

theorem sealedDry_reachable : (system verifier).Reachable sealedDry :=
  TransitionSystem.reachable_of_execute (fun _ _ _ => step_sound)
    ⟨rfl, rfl⟩ (Option.some_get _).symm

theorem sealedWet_reachable : (system verifier).Reachable sealedWet :=
  TransitionSystem.reachable_of_execute (fun _ _ _ => step_sound)
    ⟨rfl, rfl⟩ (Option.some_get _).symm

def rainReading (value : ℤ) : OracleDataPoint where
  oracle := oracleA
  value := value
  confidence := 90
  timestamp := 1000000

/-- The one reading in each of the feeds. -/
def rainPoints (value : ℤ) : PointStore :=
  Function.update (fun _ => none) (Symbols.weather, rain)
    (some [rainReading value])

theorem sealedDry_agreesOff :
    sealedDry.machine.store.AgreesOff Symbols.weather
      sealedWet.machine.store.dataPoints := by
  have hdry : sealedDry.machine.store.dataPoints = rainPoints 10 := rfl
  have hwet : sealedWet.machine.store.dataPoints = rainPoints 70 := rfl
  intro other key hne
  have hkey : (other, key) ≠ (Symbols.weather, rain) := by
    simp [hne]
  rw [hdry, hwet, rainPoints, rainPoints, Function.update_of_ne hkey,
    Function.update_of_ne hkey]

end Scenario

/-- Two reachable states with an encrypted feed that differ in a leftover
reading only, and `get_data` tells them apart. -/
theorem leftover_told :
    (system verifier).Reachable sealedDry ∧
      (system verifier).Reachable sealedWet ∧
      Veiled Symbols.weather sealedDry.machine sealedWet.machine ∧
      (ask (callEnv verifier sealedDry []) (.getData Symbols.weather rain)
        sealedDry.machine).map Prod.fst = .ok (.point (rainReading 10)) ∧
      (ask (callEnv verifier sealedWet []) (.getData Symbols.weather rain)
        sealedWet.machine).map Prod.fst = .ok (.point (rainReading 70)) ∧
      ¬ (Query.getData Symbols.weather rain).Blind verifier
        Symbols.weather := by
  have hrequired :
      sealedDry.machine.store.encryptionRequired Symbols.weather = true := by
    decide +kernel
  have hveiled : Veiled Symbols.weather sealedDry.machine sealedWet.machine :=
    ⟨⟨hrequired, _, rfl, sealedDry_agreesOff⟩, rfl⟩
  have hdry : (ask (callEnv verifier sealedDry [])
      (.getData Symbols.weather rain) sealedDry.machine).map Prod.fst =
      .ok (.point (rainReading 10)) := by
    decide +kernel
  have hwet : (ask (callEnv verifier sealedWet [])
      (.getData Symbols.weather rain) sealedWet.machine).map Prod.fst =
      .ok (.point (rainReading 70)) := by
    decide +kernel
  refine ⟨sealedDry_reachable, sealedWet_reachable, hveiled, hdry, hwet, ?_⟩
  intro hblind
  have hsame := hblind sealedDry [] _ sealedDry_reachable hrequired
    sealedDry_agreesOff
  have htold := (hdry.symm.trans hsame).trans hwet
  exact absurd htold (by decide)

end Parashield.OracleVerifier
