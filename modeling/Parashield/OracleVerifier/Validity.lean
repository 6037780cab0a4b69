import Parashield.OracleVerifier.Agreement
import Parashield.OracleVerifier.Writes

/-!
# Stored readings

A stored reading should lie in the configured range of its data type, carry a
confidence and a timestamp within bounds, and belong to a key with a name.
Each submission path checks a part of this.  `Screened` is what the paths leave
to the oracles: in a run whose oracles keep to it, every stored reading was
admissible when it was stored.
-/

namespace Parashield.OracleVerifier

open Support

namespace State

/-- Smallest absolute value of the configured range. -/
def getDataTypeMin (s : State) (dataType : Symbol) : ℤ :=
  match s.dataTypeRange dataType with
  | some (min, _) => min
  | none => 0

/-- The absolute value lies within the range of the data type. -/
def InRange (s : State) (dataType : Symbol) (value : ℤ) : Prop :=
  s.getDataTypeMin dataType ≤ |value| ∧ |value| ≤ s.getDataTypeMax dataType

instance (s : State) (dataType : Symbol) (value : ℤ) :
    Decidable (s.InRange dataType value) :=
  inferInstanceAs (Decidable (_ ∧ _))

/-- A reading that may be stored for the key at time `now`. -/
structure Admissible (s : State) (now : ℕ) (dataType key : Symbol)
    (p : OracleDataPoint) : Prop where
  inRange : s.InRange dataType p.value
  bounded : |p.value| ≤ maxDataValue
  confidence : 1 ≤ p.confidence ∧ p.confidence ≤ 100
  timestamp : p.timestamp ≠ 0
  notAhead : p.timestamp ≤ satAddU64 now s.timestampFutureBuffer
  key_ne : key.chars ≠ []

end State

/-- What each path leaves unchecked about the readings it stores:
`submit_data` the lower end of the range, `batch_submit_data` the range and
that the timestamp is not zero, `submit_data_batch` the range. -/
def Entry.Screened (s : State) (now : ℕ) : Entry → Prop
  | .submitData _ dataType _ value _ timestamp =>
      s.Recent now dataType timestamp → s.getDataTypeMin dataType ≤ |value|
  | .batchSubmitData _ dataType submissions =>
      ∀ sub ∈ submissions, s.Recent now dataType sub.timestamp →
        s.InRange dataType sub.value ∧ sub.timestamp ≠ 0
  | .submitDataBatch _ dataType submissions =>
      ∀ sub ∈ submissions, s.Recent now dataType sub.timestamp →
        s.InRange dataType sub.value
  | _ => True

/-- The step screens the readings it stores. -/
def Screened (w : World State) : Label Entry → Prop
  | .call _ e => e.Screened w.machine.store w.now
  | _ => True

/-! ## One call -/

section Calls

variable {env : Env} {e : Entry} {s : State} {c c' : Core}

/-- A reading found after some writes was there before, or one of them stored
it. -/
theorem Writes.readings_mem (h : Writes env e s c c')
    {dataType key : Symbol} {p : OracleDataPoint}
    (hp : p ∈ c'.readings dataType key) :
    p ∈ c.readings dataType key ∨ Stored env e s dataType key p := by
  induction h with
  | refl => exact .inl hp
  | tail _ hwrite ih =>
      cases hwrite with
      | @store d k q kept hstored hkept =>
          by_cases hkey : (dataType, key) = (d, k)
          · obtain ⟨rfl, rfl⟩ := Prod.mk.inj hkey
            simp only [Core.readings, Function.update_self, Option.getD_some,
              List.mem_append, List.mem_singleton] at hp
            rcases hp with hold | rfl
            · exact ih (hkept.subset hold)
            · exact .inr hstored
          · simp only [Core.readings, Function.update_of_ne hkey] at hp
            exact ih hp
      | @forget d k =>
          by_cases hkey : (dataType, key) = (d, k)
          · simp [Core.readings, hkey] at hp
          · simp only [Core.readings, Function.update_of_ne hkey] at hp
            exact ih hp
      | register => exact ih hp
      | deactivate => exact ih hp
      | rate => exact ih hp
      | limit => exact ih hp
      | rotate => exact ih hp

/-- No configured range exceeds the largest accepted magnitude. -/
def Core.Limited (c : Core) : Prop :=
  ∀ dataType, ∀ b ∈ c.dataTypeRange dataType, b.2 ≤ maxDataValue

theorem Writes.limited (h : Writes env e s c c') (hc : c.Limited) :
    c'.Limited := by
  induction h with
  | refl => exact hc
  | tail _ hwrite ih =>
      cases hwrite with
      | store => exact ih
      | @limit d range hrange =>
          intro dataType b hb
          by_cases hd : dataType = d
          · subst hd
            simp only [Function.update_self] at hb
            exact hrange b hb
          · simp only [Function.update_of_ne hd] at hb
            exact ih dataType b hb
      | forget => exact ih
      | register => exact ih
      | deactivate => exact ih
      | rate => exact ih
      | rotate => exact ih

theorem getDataTypeMax_le {t : State} (ht : t.core.Limited)
    (dataType : Symbol) : t.getDataTypeMax dataType ≤ maxDataValue := by
  unfold State.getDataTypeMax
  split
  · next min max hrange => exact ht dataType (min, max) hrange
  · simp only [maxDataValue, defaultWeatherMax, defaultFlightMax,
      defaultOnchainMax, defaultDefiMax, defaultDisasterMax,
      defaultHealthMax]
    split_ifs <;> omega

/-- Screening fills in what the path does not check. -/
theorem Stored.admissible {dataType key : Symbol} {p : OracleDataPoint}
    (h : Stored env e s dataType key p) (hs : e.Screened s env.now)
    (hlimited : s.core.Limited) : s.Admissible env.now dataType key p := by
  obtain ⟨hoffered, hchecks, hkey, hconfidence, hahead, hrecent⟩ := h
  suffices hrest : s.InRange dataType p.value ∧ p.timestamp ≠ 0 from
    { inRange := hrest.1
      bounded := hrest.1.2.trans (getDataTypeMax_le hlimited dataType)
      confidence := ⟨Nat.one_le_iff_ne_zero.mpr hconfidence.1, hconfidence.2⟩
      timestamp := hrest.2
      notAhead := hahead
      key_ne := hkey }
  cases e with
  | submitData oracle d k value confidence timestamp =>
      obtain ⟨rfl, rfl, rfl⟩ : dataType = d ∧ key = k ∧
          p = ⟨oracle, value, confidence, timestamp⟩ := by
        simpa [Entry.offers] using hoffered
      exact ⟨⟨hs hrecent, hchecks.2.1⟩, hchecks.2.2⟩
  | batchSubmitData oracle d submissions =>
      obtain ⟨sub, hsub, heq⟩ := List.mem_map.mp hoffered
      obtain ⟨rfl, rfl, rfl⟩ : d = dataType ∧ sub.key = key ∧
          ⟨oracle, sub.value, sub.confidence, sub.timestamp⟩ = p := by
        simpa using heq
      exact hs sub hsub hrecent
  | submitDataBatch oracle d submissions =>
      obtain ⟨sub, hsub, heq⟩ := List.mem_map.mp hoffered
      obtain ⟨rfl, rfl, rfl⟩ : d = dataType ∧ sub.key = key ∧
          ⟨oracle, sub.value, sub.confidence, sub.timestamp⟩ = p := by
        simpa using heq
      exact ⟨hs sub hsub hrecent, hchecks⟩
  | _ => cases hoffered

end Calls

/-! ## Runs -/

section Runs

variable {verifier : Address}

theorem step_wrote {w w' : World State} {signers : List Address} {e : Entry}
    (h : (system verifier).Step w (.call signers e) w') :
    Wrote (callEnv verifier w signers) e w.machine.store w.machine
      w'.machine :=
  exec_wrote h.exec_eq.2

/-- Steps that call nothing leave the storage alone. -/
theorem step_store {w w' : World State} {l : Label Entry}
    (h : (system verifier).Step w l w') :
    (∃ signers e, l = .call signers e) ∨
      w'.machine.store = w.machine.store := by
  cases h with
  | call => exact .inl ⟨_, _, rfl⟩
  | tick => exact .inr rfl
  | transfer => exact .inr rfl
  | mint => exact .inr rfl

theorem limited_inductive :
    (system verifier).Inductive fun w => w.machine.store.core.Limited where
  init w hw := by
    rw [hw.1]
    intro dataType b hb
    cases hb
  step w l w' h hstep := by
    rcases step_store hstep with ⟨signers, e, rfl⟩ | hsame
    · exact (step_wrote hstep).limited h
    · rw [hsame]
      exact h

/-- Every stored confidence is a percentage. -/
theorem confident_inductive :
    (system verifier).Inductive fun w => ∀ dataType key,
      ∀ p ∈ w.machine.store.readings dataType key,
        1 ≤ p.confidence ∧ p.confidence ≤ 100 where
  init w hw dataType key p hp := by
    rw [hw.1] at hp
    cases hp
  step w l w' h hstep dataType key p hp := by
    rcases step_store hstep with ⟨signers, e, rfl⟩ | hsame
    · rcases (step_wrote hstep).readings_mem hp with hold | hstored
      · exact h dataType key p hold
      · exact ⟨Nat.one_le_iff_ne_zero.mpr hstored.confidence.1,
          hstored.confidence.2⟩
    · rw [hsame] at hp
      exact h dataType key p hp

/-- A step that stores a reading is a call that offers it and checks it. -/
theorem step_stored {w w' : World State} {l : Label Entry}
    (hstep : (system verifier).Step w l w') {dataType key : Symbol}
    {p : OracleDataPoint} (hold : p ∉ w.machine.store.readings dataType key)
    (hnew : p ∈ w'.machine.store.readings dataType key) :
    ∃ signers e, l = .call signers e ∧
      Stored (callEnv verifier w signers) e w.machine.store dataType key p := by
  rcases step_store hstep with ⟨signers, e, rfl⟩ | hsame
  · refine ⟨signers, e, rfl, ?_⟩
    exact ((step_wrote hstep).readings_mem hnew).resolve_left hold
  · rw [hsame] at hnew
    exact absurd hnew hold

/-- In a run whose submissions are screened, every stored reading was
admissible when it was stored. -/
theorem stored_readings_valid {w₀ w : World State} {ls : List (Label Entry)}
    (hinit : (system verifier).Init w₀)
    (hrun : ((system verifier).restrict Screened).Run w₀ ls w)
    {dataType key : Symbol} {p : OracleDataPoint}
    (hp : p ∈ w.machine.store.readings dataType key) :
    ∃ before l after t u, ls = before ++ l :: after ∧
      ((system verifier).restrict Screened).Run w₀ before t ∧
      (system verifier).Step t l u ∧
      p ∉ t.machine.store.readings dataType key ∧
      p ∈ u.machine.store.readings dataType key ∧
      t.machine.store.Admissible t.now dataType key p := by
  have hnone : p ∉ w₀.machine.store.readings dataType key := by
    rw [hinit.1]
    exact List.not_mem_nil
  obtain ⟨before, l, after, t, u, hls, hbefore, ⟨hscreened, hstep⟩, hold, hnew,
    -⟩ := hrun.onset (P := fun w => p ∈ w.machine.store.readings dataType key)
      hnone hp
  refine ⟨before, l, after, t, u, hls, hbefore, hstep, hold, hnew, ?_⟩
  have hreach : ((system verifier).restrict Screened).Reachable t :=
    TransitionSystem.Reachable.run (.init hinit) hbefore
  have hlimited := hreach.invariant (limited_inductive.restrict Screened)
  obtain ⟨signers, e, rfl, hstored⟩ := step_stored hstep hold hnew
  exact hstored.admissible hscreened hlimited

end Runs

/-! ## A screened reading, and three that were not -/

open Scenario

namespace Scenario

/-- The readings of one oracle, before any was stored. -/
def registrationRun : List (Label Entry) :=
  [.call [admin] (.initializeVerifier admin),
    .call [admin] (.addOracle admin oracleA Symbols.weather 100),
    .call [admin] (.setDataTypeRange admin Symbols.weather 5 1000),
    .call [admin] (.setMaxDataAge admin 2000000)]

def registered : World State :=
  (TransitionSystem.execute (step exec verifier) registrationRun genesis).get
    (by decide +kernel)

theorem registered_run :
    ((system verifier).restrict Screened).Run genesis registrationRun
      registered := by
  have hrun : (system verifier).Run genesis registrationRun registered :=
    TransitionSystem.run_of_execute (fun _ _ _ => step_sound)
      (Option.some_get _).symm
  refine hrun.restrict ?_
  simp [registrationRun, Screened, Entry.Screened]

/-- Ten units of rain, within the range. -/
def reading : Label Entry :=
  .call [oracleA] (.submitData oracleA Symbols.weather rain 10 90 1000000)

def tenUnits : OracleDataPoint := ⟨oracleA, 10, 90, 1000000⟩

def readOnce : World State :=
  (step exec verifier registered reading).get (by decide +kernel)

/-- Two units of rain, below the range. -/
def tooSmall : Label Entry :=
  .call [oracleA] (.submitData oracleA Symbols.weather rain 2 90 1000000)

/-- Ten units of rain at time zero. -/
def undated : Label Entry :=
  .call [oracleA] (.batchSubmitData oracleA Symbols.weather
    [⟨rain, 10, 90, 0⟩])

/-- More rain than any data type allows. -/
def enormous : Label Entry :=
  .call [oracleA] (.submitDataBatch oracleA Symbols.weather
    [⟨rain, 2 * 10 ^ 27, 90, 1000000⟩])

def tooSmallStored : World State :=
  (step exec verifier registered tooSmall).get (by decide +kernel)

def undatedStored : World State :=
  (step exec verifier registered undated).get (by decide +kernel)

def enormousStored : World State :=
  (step exec verifier registered enormous).get (by decide +kernel)

end Scenario

theorem stored_readings_valid_once :
    ∃ before l after t u, registrationRun ++ [reading] = before ++ l :: after ∧
      ((system verifier).restrict Screened).Run genesis before t ∧
      (system verifier).Step t l u ∧
      tenUnits ∉ t.machine.store.readings Symbols.weather rain ∧
      tenUnits ∈ u.machine.store.readings Symbols.weather rain ∧
      t.machine.store.Admissible t.now Symbols.weather rain tenUnits := by
  have hscreened : Screened registered reading := by
    show registered.machine.store.Recent registered.now Symbols.weather
      1000000 → registered.machine.store.getDataTypeMin Symbols.weather ≤ |10|
    decide +kernel
  have hstep : ((system verifier).restrict Screened).Step registered reading
      readOnce :=
    ⟨hscreened, step_sound (Option.some_get _).symm⟩
  have hstored : tenUnits ∈
      readOnce.machine.store.readings Symbols.weather rain := by
    decide +kernel
  exact stored_readings_valid ⟨rfl, rfl⟩ (registered_run.concat hstep) hstored

/-- Where weather ranges from 5 to 1000, each path stores a reading it should
have rejected: one of 2 units, one of time zero, one beyond every bound. -/
theorem stored_readings_invalid :
    (system verifier).Reachable registered ∧
      registered.machine.store.dataTypeRange Symbols.weather =
        some (5, 1000) ∧
      registered.machine.store.readings Symbols.weather rain = [] ∧
      ((system verifier).Step registered tooSmall tooSmallStored ∧
        tooSmallStored.machine.store.readings Symbols.weather rain =
          [⟨oracleA, 2, 90, 1000000⟩]) ∧
      ((system verifier).Step registered undated undatedStored ∧
        undatedStored.machine.store.readings Symbols.weather rain =
          [⟨oracleA, 10, 90, 0⟩]) ∧
      (system verifier).Step registered enormous enormousStored ∧
        enormousStored.machine.store.readings Symbols.weather rain =
          [⟨oracleA, 2 * 10 ^ 27, 90, 1000000⟩] ∧
        maxDataValue < 2 * 10 ^ 27 := by
  have hreach : ((system verifier).restrict Screened).Reachable registered :=
    .run (.init ⟨rfl, rfl⟩) registered_run
  have hsmall : (system verifier).Step registered tooSmall tooSmallStored :=
    step_sound (Option.some_get _).symm
  have hundated : (system verifier).Step registered undated undatedStored :=
    step_sound (Option.some_get _).symm
  have henormous : (system verifier).Step registered enormous enormousStored :=
    step_sound (Option.some_get _).symm
  refine ⟨hreach.of_restrict, ?_, ?_, ⟨hsmall, ?_⟩, ⟨hundated, ?_⟩, henormous, ?_, ?_⟩ <;>
    decide +kernel

end Parashield.OracleVerifier
