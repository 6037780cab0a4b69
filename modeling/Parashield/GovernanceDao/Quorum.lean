import Parashield.GovernanceDao.Lifecycle

/-!
# Governance DAO: the adaptive quorum

The quorum follows the average turnout down in whole steps.  It stays between
its floor and the configured quorum as long as no later configuration goes
below the floor, which `set_quorum_decay` checks and `update_config` does not.
-/

namespace Parashield.GovernanceDao

open Support Support.Contract Invocation

variable {self : Address} {env : Env} {s s' : State} {m m' : Machine State}
  {w : World State} {e : Entry} {config : DaoConfig}

/-! ## Relaxation -/

/-- The quorum `base` relaxed for an average turnout below it. -/
def relaxedBps (decay : QuorumDecayConfig) (base avg : ℕ) : ℕ :=
  max (base - (base - avg) / max decay.decayPerPeriodBps 1 *
    decay.decayPerPeriodBps) decay.floorBps

/-- The quorum in force with another turnout history. -/
def State.quorumAfter (s : State) (config : DaoConfig)
    (h : ParticipationHistory) : ℕ :=
  ({ s with participation := h }.effectiveQuorum config).quorumBps

theorem State.quorumAfter_participation (s : State) (config : DaoConfig) :
    s.quorumAfter config s.participation =
      (s.effectiveQuorum config).quorumBps := rfl

section Relaxation

variable {decay : QuorumDecayConfig} {base avg avg' : ℕ}
  {h : ParticipationHistory}

/-- The steps do not exceed the shortfall. -/
theorem reduction_le (decay : QuorumDecayConfig) (shortfall : ℕ) :
    shortfall / max decay.decayPerPeriodBps 1 * decay.decayPerPeriodBps ≤
      shortfall :=
  calc shortfall / max decay.decayPerPeriodBps 1 * decay.decayPerPeriodBps
      ≤ shortfall / max decay.decayPerPeriodBps 1 *
          max decay.decayPerPeriodBps 1 :=
        Nat.mul_le_mul_left _ (Nat.le_max_left _ _)
    _ ≤ shortfall := Nat.div_mul_le_self _ _

theorem avg_le_relaxedBps (hlt : avg < base) : avg ≤ relaxedBps decay base avg := by
  have hle := reduction_le decay (base - avg)
  unfold relaxedBps
  omega

theorem relaxedBps_mono (hle : avg ≤ avg') :
    relaxedBps decay base avg ≤ relaxedBps decay base avg' := by
  have hsteps : (base - avg') / max decay.decayPerPeriodBps 1 *
      decay.decayPerPeriodBps ≤
      (base - avg) / max decay.decayPerPeriodBps 1 *
        decay.decayPerPeriodBps :=
    Nat.mul_le_mul_right _ (Nat.div_le_div_right (by omega))
  unfold relaxedBps
  omega

theorem State.quorumAfter_of_idle
    (hidle : s.quorumDecay.enabled = false ∨ h.average = none) :
    s.quorumAfter config h = config.quorumBps := by
  simp only [State.quorumAfter, State.effectiveQuorum, hidle, if_true]

theorem State.quorumAfter_of_le (havg : h.average = some avg)
    (hle : config.quorumBps ≤ avg) :
    s.quorumAfter config h = config.quorumBps := by
  simp only [State.quorumAfter, State.effectiveQuorum, havg, Option.getD_some,
    hle, if_true, ite_self]

/-- The saturation of the 32-bit reduction is out of reach. -/
theorem State.quorumAfter_of_lt (hon : s.quorumDecay.enabled = true)
    (havg : h.average = some avg) (hlt : avg < config.quorumBps)
    (hmax : config.quorumBps ≤ maxQuorumBps) :
    s.quorumAfter config h =
      relaxedBps s.quorumDecay config.quorumBps avg := by
  have hle := reduction_le s.quorumDecay (config.quorumBps - avg)
  have hfit : (config.quorumBps - avg) /
      max s.quorumDecay.decayPerPeriodBps 1 *
        s.quorumDecay.decayPerPeriodBps ≤ 4294967295 := by
    unfold maxQuorumBps at hmax
    omega
  simp [State.quorumAfter, State.effectiveQuorum, havg, hon,
    Nat.not_le.mpr hlt, Nat.min_eq_left hfit, relaxedBps]

end Relaxation

/-! ## Settings -/

/-- What is checked about the settings when they are stored. -/
structure State.Checked (s : State) : Prop where
  config : ∀ config, s.config = some config → config.Valid
  floor_ge : minQuorumBps ≤ s.quorumDecay.floorBps
  floor_le : s.quorumDecay.enabled = true →
    s.quorumDecay.floorBps ≤ maxQuorumBps
  steps : s.quorumDecay.enabled = true → s.quorumDecay.decayPerPeriodBps ≠ 0

theorem State.Checked.congr (h : s.Checked) (hconfig : s'.config = s.config)
    (hdecay : s'.quorumDecay = s.quorumDecay) : s'.Checked := by
  refine ⟨?_, ?_, ?_, ?_⟩
  · rw [hconfig]
    exact h.config
  · rw [hdecay]
    exact h.floor_ge
  · rw [hdecay]
    exact h.floor_le
  · rw [hdecay]
    exact h.steps

/-- A change of the configuration stores a valid one. -/
theorem Configured.valid (h : Configured env e m m') (hm : m.store.Checked)
    (hconfig : m'.store.config = some config) : config.Valid := by
  obtain ⟨-, c, hc, rfl⟩ := h
  obtain rfl := Option.some.inj hconfig
  rcases hc with ⟨_, -, hvalid⟩ | ⟨_, _, old, -, hold, rfl⟩
  · exact hvalid
  · obtain ⟨hmin, hmax, hlow, hhigh⟩ := hm.config old hold
    exact ⟨hmin, hmax, hlow, hhigh⟩

theorem Change.checked (h : Change env e m m') (he : ¬ e.IsAside)
    (hm : m.store.Checked) : m'.store.Checked := by
  have hdecay := (h.sameSettings he).quorumDecay
  have hvalid : ∀ config, m'.store.config = some config → config.Valid := by
    intro config hconfig
    rcases h.config_cases with hsame | ⟨-, _, c, -, hc, rfl⟩ | hconfigured
    · exact hm.config config (hsame ▸ hconfig)
    · obtain rfl := Option.some.inj hconfig
      exact hc
    · exact hconfigured.valid hm hconfig
  refine ⟨hvalid, ?_, ?_, ?_⟩
  · rw [hdecay]
    exact hm.floor_ge
  · rw [hdecay]
    exact hm.floor_le
  · rw [hdecay]
    exact hm.steps

/-- Settings of the decay are checked. -/
theorem aside_checked {u : Unit} (he : e.IsAside)
    (h : exec env e m = .ok (u, m')) (hm : m.store.Checked) :
    m'.store.Checked := by
  have hconfig := (aside_spec h he).1.config
  cases aside_cases h he with
  | timeWeight _ heq => exact hm.congr hconfig (by rw [heq])
  | checkpoint _ heq => exact hm.congr hconfig (by rw [heq])
  | rest hsame => exact hm.congr hconfig hsame.quorumDecay
  | quorumDecay _ _ hbounds hsteps heq =>
      rw [heq]
      refine ⟨hm.config, Nat.le_max_right _ _, fun hon => ?_, hsteps⟩
      exact Nat.max_le.mpr ⟨(hbounds hon).2, by decide⟩

theorem checked_inductive (self : Address) :
    (system self).Inductive fun w => w.machine.store.Checked where
  init w hw := by
    rw [hw.1]
    exact ⟨nofun, by decide, nofun, nofun⟩
  step w l w' h hstep := by
    cases hstep with
    | @call _ e _ _ hexec =>
        by_cases he : e.IsAside
        · exact aside_checked he hexec h
        · exact changes_keep (I := fun m => m.store.Checked)
            (fun m m' hchange => hchange.checked he) (exec_changes hexec) h
    | tick => exact h
    | transfer => exact h
    | mint => exact h

/-! ## Bounds -/

/-- The quorum lies between the least quorum and the configured one, does not
go below the average turnout, is relaxed only by decay and follows the turnout
under unchanged settings. -/
structure State.QuorumBounded (s : State) (config : DaoConfig) : Prop where
  least : minQuorumBps ≤ (s.effectiveQuorum config).quorumBps
  most : (s.effectiveQuorum config).quorumBps ≤ config.quorumBps
  turnout : ∀ avg, s.participation.average = some avg →
    min config.quorumBps avg ≤ (s.effectiveQuorum config).quorumBps
  idle : s.quorumDecay.enabled = false ∨ s.participation.average = none →
    (s.effectiveQuorum config).quorumBps = config.quorumBps
  monotone : ∀ h h' avg avg', h.average = some avg → h'.average = some avg' →
    avg ≤ avg' → s.quorumAfter config h ≤ s.quorumAfter config h'

/-- Whichever way the quorum comes about. -/
theorem State.quorumAfter_cases (s : State) {h : ParticipationHistory}
    (hmax : config.quorumBps ≤ maxQuorumBps) :
    s.quorumAfter config h = config.quorumBps ∨
      ∃ avg, s.quorumDecay.enabled = true ∧ h.average = some avg ∧
        avg < config.quorumBps ∧ s.quorumAfter config h =
          relaxedBps s.quorumDecay config.quorumBps avg := by
  by_cases hidle : s.quorumDecay.enabled = false ∨ h.average = none
  · exact .inl (State.quorumAfter_of_idle hidle)
  · obtain ⟨hon, hsome⟩ := not_or.mp hidle
    rw [Bool.not_eq_false] at hon
    obtain ⟨avg, havg⟩ := Option.ne_none_iff_exists'.mp hsome
    by_cases hle : config.quorumBps ≤ avg
    · exact .inl (State.quorumAfter_of_le havg hle)
    · exact .inr ⟨avg, hon, havg, Nat.not_le.mp hle,
        State.quorumAfter_of_lt hon havg (Nat.not_le.mp hle) hmax⟩

theorem average_singleton (bps total : ℕ) :
    (⟨[bps], total⟩ : ParticipationHistory).average = some bps := by
  simp [ParticipationHistory.average]

/-- A floor above the quorum is a quorum that rises when the turnout falls. -/
theorem State.QuorumBounded.floor_le (h : s.QuorumBounded config)
    (hmin : minQuorumBps ≤ config.quorumBps)
    (hmax : config.quorumBps ≤ maxQuorumBps)
    (hon : s.quorumDecay.enabled = true) :
    s.quorumDecay.floorBps ≤ config.quorumBps := by
  have hpos : 0 < config.quorumBps := Nat.lt_of_lt_of_le (by decide) hmin
  have hlow := State.quorumAfter_of_lt (h := ⟨[0], 0⟩) hon
    (average_singleton 0 0) hpos hmax
  have hhigh := State.quorumAfter_of_le (s := s)
    (h := ⟨[config.quorumBps], 0⟩)
    (average_singleton config.quorumBps 0) (Nat.le_refl _)
  have hmono := h.monotone _ _ _ _ (average_singleton 0 0)
    (average_singleton config.quorumBps 0) (Nat.zero_le _)
  rw [hlow, hhigh] at hmono
  exact (Nat.le_max_right _ _).trans hmono

theorem State.Checked.quorumBounded (hs : s.Checked) (hvalid : config.Valid)
    (hfloor : s.quorumDecay.enabled = true →
      s.quorumDecay.floorBps ≤ config.quorumBps) :
    s.QuorumBounded config := by
  have hmax := hvalid.quorumBps_le
  have hrelaxed : ∀ avg, s.quorumDecay.enabled = true →
      relaxedBps s.quorumDecay config.quorumBps avg ≤ config.quorumBps :=
    fun avg hon => Nat.max_le.mpr ⟨Nat.sub_le _ _, hfloor hon⟩
  have hcases := s.quorumAfter_cases (h := s.participation) hmax
  rw [State.quorumAfter_participation] at hcases
  refine ⟨?_, ?_, fun avg havg => ?_, State.quorumAfter_of_idle,
    fun h h' avg avg' havg havg' hle => ?_⟩
  · rcases hcases with heq | ⟨avg, -, -, -, heq⟩
    · rw [heq]
      exact hvalid.quorumBps_ge
    · rw [heq]
      exact hs.floor_ge.trans (Nat.le_max_right _ _)
  · rcases hcases with heq | ⟨avg, hon, -, -, heq⟩
    · exact heq.le
    · exact heq.trans_le (hrelaxed avg hon)
  · rcases hcases with heq | ⟨avg', -, havg', hlt, heq⟩
    · rw [heq]
      exact Nat.min_le_left _ _
    · obtain rfl := Option.some.inj (havg.symm.trans havg')
      rw [heq]
      exact (Nat.min_le_right _ _).trans (avg_le_relaxedBps hlt)
  · rcases s.quorumAfter_cases (h := h) hmax with
        heq | ⟨a, hon, ha, hlt, heq⟩
    · -- the lower average does not relax the quorum, so neither does the other
      rcases s.quorumAfter_cases (h := h') hmax with
          heq' | ⟨a', hon, ha', hlt', heq'⟩
      · rw [heq, heq']
      · obtain rfl := Option.some.inj (havg'.symm.trans ha')
        rw [State.quorumAfter_of_lt hon havg (by omega) hmax, heq']
        exact relaxedBps_mono hle
    · obtain rfl := Option.some.inj (havg.symm.trans ha)
      rcases s.quorumAfter_cases (h := h') hmax with
          heq' | ⟨a', -, ha', -, heq'⟩
      · rw [heq, heq']
        exact hrelaxed avg hon
      · obtain rfl := Option.some.inj (havg'.symm.trans ha')
        rw [heq, heq']
        exact relaxedBps_mono hle

/-- The bounds hold exactly if the floor is at most the configured quorum. -/
theorem State.Checked.quorumBounded_iff (hs : s.Checked)
    (hvalid : config.Valid) :
    s.QuorumBounded config ↔ (s.quorumDecay.enabled = true →
      s.quorumDecay.floorBps ≤ config.quorumBps) :=
  ⟨fun h => h.floor_le hvalid.quorumBps_ge hvalid.quorumBps_le,
    hs.quorumBounded hvalid⟩

/-! ## Runs -/

/-- The floor of an enabled decay is at most the configured quorum. -/
def State.FloorBelow (s : State) : Prop :=
  s.quorumDecay.enabled = true →
    ∃ config, s.config = some config ∧
      s.quorumDecay.floorBps ≤ config.quorumBps

/-- A new configuration does not go below the floor of an enabled decay. -/
def Entry.KeepsFloor (s : State) : Entry → Prop
  | .updateConfig _ config => s.quorumDecay.enabled = true →
      s.quorumDecay.floorBps ≤ config.quorumBps
  | _ => True

theorem Change.floorBelow (h : Change env e m m') (he : ¬ e.IsAside)
    (hm : Numbered m.store) (hkeeps : e.KeepsFloor m.store)
    (hfloor : m.store.FloorBelow) : m'.store.FloorBelow := by
  have hdecay := (h.sameSettings he).quorumDecay
  intro hon
  rw [hdecay] at hon ⊢
  obtain ⟨config, hconfig, hle⟩ := hfloor hon
  rcases h.config_cases with hsame | ⟨hfresh, -⟩ | ⟨-, c, hc, rfl⟩
  · exact ⟨config, hsame.trans hconfig, hle⟩
  · rw [(hm.unset hfresh).2.1] at hconfig
    cases hconfig
  · refine ⟨c, rfl, ?_⟩
    rcases hc with ⟨_, rfl, -⟩ | ⟨_, _, old, -, hold, rfl⟩
    · exact hkeeps hon
    · obtain rfl := Option.some.inj (hconfig.symm.trans hold)
      exact hle

theorem aside_floorBelow {u : Unit} (he : e.IsAside)
    (h : exec env e m = .ok (u, m')) (hm : m.store.Checked)
    (hfloor : m.store.FloorBelow) : m'.store.FloorBelow := by
  have hconfig := (aside_spec h he).1.config
  have hcongr : m'.store.quorumDecay = m.store.quorumDecay →
      m'.store.FloorBelow := by
    intro hdecay
    unfold State.FloorBelow
    rw [hdecay, hconfig]
    exact hfloor
  cases aside_cases h he with
  | timeWeight _ heq => exact hcongr (by rw [heq])
  | checkpoint _ heq => exact hcongr (by rw [heq])
  | rest hsame => exact hcongr hsame.quorumDecay
  | @quorumDecay _ _ _ _ _ config hstored hbelow _ _ heq =>
      rw [heq]
      intro hon
      have hvalid := hm.config config hstored
      exact ⟨config, hstored,
        Nat.max_le.mpr ⟨(hbelow hon).le, hvalid.quorumBps_ge⟩⟩

/-- Each call keeps the configured quorum above the floor. -/
def KeepsFloor (w : World State) : Label Entry → Prop
  | .call _ e => e.KeepsFloor w.machine.store
  | _ => True

theorem floorBelow_inductive (self : Address) :
    ((system self).restrict KeepsFloor).Inductive fun w =>
      (Numbered w.machine.store ∧ w.machine.store.Checked) ∧
        w.machine.store.FloorBelow := by
  have hbase := ((numbered_inductive self).and (checked_inductive self).init
    fun w l w' _ _ h => (checked_inductive self).step w l w' h)
  refine (hbase.restrict _).and (fun w hw => ?_)
    fun w l w' ⟨hm, hs⟩ _ hfloor hstep => ?_
  · have hstore : w.machine.store = .deployed := hw.1
    rw [hstore]
    exact nofun
  · obtain ⟨hguard, hstep⟩ := hstep
    cases hstep with
    | @call _ e _ _ hexec =>
        by_cases he : e.IsAside
        · exact aside_floorBelow he hexec hs hfloor
        · refine (changes_keep (I := fun m => Numbered m.store ∧
            e.KeepsFloor m.store ∧ m.store.FloorBelow)
            (fun m m' hchange ⟨hm, hkeeps, hfloor⟩ => ⟨hchange.numbered hm, ?_,
              hchange.floorBelow he hm hkeeps hfloor⟩)
            (exec_changes hexec) ⟨hm, hguard, hfloor⟩).2.2
          -- the guard speaks of the decay only, which the call leaves alone
          have hdecay := (hchange.sameSettings he).quorumDecay
          cases e with
          | updateConfig => simpa only [Entry.KeepsFloor, hdecay] using hkeeps
          | _ => trivial
    | tick => exact hfloor
    | transfer => exact hfloor
    | mint => exact hfloor

/-- The quorum stays in its bounds in every run in which no configuration goes
below the floor of an enabled decay, and a state in which one did is out of
them. -/
theorem quorum_bounded_iff :
    (∀ config, ((system self).restrict KeepsFloor).Reachable w →
      w.machine.store.config = some config →
      w.machine.store.QuorumBounded config) ∧
    ∀ config, (system self).Reachable w →
      w.machine.store.config = some config →
      (w.machine.store.QuorumBounded config ↔
        (w.machine.store.quorumDecay.enabled = true →
          w.machine.store.quorumDecay.floorBps ≤ config.quorumBps)) := by
  refine ⟨fun config hw hconfig => ?_, fun config hw hconfig => ?_⟩
  · obtain ⟨⟨-, hs⟩, hfloor⟩ := hw.invariant (floorBelow_inductive self)
    refine hs.quorumBounded (hs.config config hconfig) fun hon => ?_
    obtain ⟨config', hconfig', hle⟩ := hfloor hon
    obtain rfl := Option.some.inj (hconfig.symm.trans hconfig')
    exact hle
  · have hs := hw.invariant (checked_inductive self)
    exact hs.quorumBounded_iff (hs.config config hconfig)

/-! ## A quorum below its floor -/

namespace Scenario

def demanding : DaoConfig := { Scenario.config with quorumBps := 4000 }

def lenient : DaoConfig := { Scenario.config with quorumBps := 2000 }

/-- The quorum decays down to 3000, and nobody votes on a first proposal. -/
def slackening : List (Label Entry) :=
  [.call [admin] (.initializeDao admin demanding),
    .call [admin] (.setQuorumDecay admin true 3000 1000 5), motion,
    .tick 605101, .call [] (.finalize inOrder 0)]

def slackened : World State :=
  (TransitionSystem.execute (step exec dao) slackening genesis).get
    (by decide +kernel)

def relaxing : Label Entry := .call [admin] (.updateConfig admin lenient)

def relaxed : World State :=
  (step exec dao slackened relaxing).get (by decide +kernel)

theorem slackened_run : (system dao).Run genesis slackening slackened :=
  TransitionSystem.run_of_execute (fun _ _ _ => step_sound)
    (Option.some_get _).symm

theorem slackened_reachable :
    ((system dao).restrict KeepsFloor).Reachable slackened := by
  have hguard : ∀ l ∈ slackening, ∀ t, KeepsFloor t l := by
    simp only [slackening, motion, List.forall_mem_cons, List.not_mem_nil,
      false_imp_iff, implies_true, and_true]
    exact ⟨fun _ => trivial, fun _ => trivial, fun _ => trivial,
      fun _ => trivial, fun _ => trivial⟩
  have hgenesis : ((system dao).restrict KeepsFloor).Reachable genesis :=
    .init ⟨rfl, rfl⟩
  exact hgenesis.run (slackened_run.restrict hguard)

theorem relaxed_reachable : (system dao).Reachable relaxed :=
  slackened_reachable.of_restrict.step (step_sound (Option.some_get _).symm)

end Scenario

open Scenario

theorem quorum_bounded_iff_slackened :
    slackened.machine.store.QuorumBounded demanding :=
  quorum_bounded_iff.1 demanding slackened_reachable (by decide +kernel)

/-- The turnout is zero, and the quorum in force is above the configured
one. -/
theorem quorum_exceeds_configuration :
    (system dao).Reachable relaxed ∧
      relaxed.machine.store.config = some lenient ∧
      relaxed.machine.store.participation.average = some 0 ∧
      lenient.quorumBps <
        (relaxed.machine.store.effectiveQuorum lenient).quorumBps ∧
      ¬ relaxed.machine.store.QuorumBounded lenient := by
  have habove : lenient.quorumBps <
      (relaxed.machine.store.effectiveQuorum lenient).quorumBps := by
    decide +kernel
  exact ⟨relaxed_reachable, by decide +kernel, by decide +kernel, habove,
    fun h => Nat.not_lt.mpr h.most habove⟩

end Parashield.GovernanceDao
