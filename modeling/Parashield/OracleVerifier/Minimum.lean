import Parashield.OracleVerifier.Standing
import Parashield.OracleVerifier.Stakes

/-!
# Oracle verifier: the minimum stake

An active oracle keeps the minimum stake through registration, withdrawals and
slashes by the administrator, each of which tests it.  The penalty for stale
submissions does not: it lowers the stake and leaves the oracle active.
-/

namespace Parashield.OracleVerifier

open Support Support.Contract Invocation

/-- Active oracles have `least` at stake. -/
def Register.Minimum (least : ℤ) (r : Register) : Prop :=
  ∀ t o, r.IsActive t o → least ≤ r.oracleStakeAmt (t, o)

section Changes

variable {env : Env} {e : Entry} {s : State} {r r' : Register}
  {m m' : Machine State} {least : ℤ} {u : Unit}

namespace Register

/-- Fewer active oracles and higher stakes do no harm. -/
theorem Minimum.of_le (h : r.Minimum least)
    (hactive : ∀ t o, r'.IsActive t o → r.IsActive t o)
    (hstake : ∀ k, r.oracleStakeAmt k ≤ r'.oracleStakeAmt k) :
    r'.Minimum least :=
  fun t o hnow => (h t o (hactive t o hnow)).trans (hstake _)

/-- A stake that falls belongs to nobody active, or stays high enough. -/
theorem Minimum.setStake {dataType : Symbol} {oracle : Address} {amount : ℤ}
    {B : Bank} (h : r.Minimum least)
    (hamount : r.IsActive dataType oracle → least ≤ amount) :
    (r.setStake dataType oracle amount B).Minimum least := by
  intro t o hactive
  by_cases hk : (t, o) = (dataType, oracle)
  · obtain ⟨rfl, rfl⟩ := Prod.mk.inj hk
    simpa [Register.setStake] using hamount hactive
  · simpa [Register.setStake, Function.update_of_ne hk] using h t o hactive

end Register

/-- The entry points that make an oracle active or lower a stake. -/
def Entry.endangers : Entry → Bool
  | .addOracle .. => true
  | .withdrawStake .. => true
  | .slashOracle .. => true
  | e => e.submitsFor.isSome

namespace Register

theorem Change.minimum (hchange : Change env e s r r')
    (he : e.endangers = false) (h : r.Minimum least) : r'.Minimum least := by
  have hno : ∀ {e'}, e = e' → e'.endangers = true → r'.Minimum least := by
    rintro e' rfl hendangers
    rw [he] at hendangers
    cases hendangers
  cases hchange with
  | enlist he' => exact hno he' rfl
  | reweigh _ hentry =>
      exact h.of_le (fun _ _ => (isActive_reweighed hentry).mp) fun _ => le_rfl
  | strikeOff =>
      exact h.of_le (fun _ _ hnow => (isActive_unlisted.mp hnow).1)
        fun _ => le_rfl
  | setToken => exact h.of_le (fun _ _ => id) fun _ => le_rfl
  | stake _ _ hpos =>
      refine h.setStake fun hactive => ?_
      have hleast := h _ _ hactive
      omega
  | request => exact h.of_le (fun _ _ => id) fun _ => le_rfl
  | cancel => exact h.of_le (fun _ _ => id) fun _ => le_rfl
  | withdraw he' => exact hno he' rfl
  | slash he' => exact hno he' rfl
  | unlist he' => exact hno he' rfl
  | stale he' =>
      have hendangers : e.endangers = true := by
        unfold Entry.endangers
        split
        · rfl
        · rfl
        · rfl
        · rw [he']
          rfl
      exact hno rfl hendangers

theorem Changes.minimum (hchanges : Changes env e s r r')
    (he : e.endangers = false) (h : r.Minimum least) : r'.Minimum least := by
  induction hchanges with
  | refl => exact h
  | tail _ hchange ih => exact hchange.minimum he ih

end Register

/-! ## The calls that test -/

theorem addOracle_minimum {admin oracle : Address} {dataType : Symbol}
    {weight : ℕ} (hmin : m.store.minStake = least) (hpos : 0 < least)
    (h : addOracle env admin oracle dataType weight m = .ok (u, m'))
    (hleast : (register m).Minimum least) :
    (register m').Minimum least := by
  have heq := (addOracle_register h).2.2.2
  simp [addOracle, validateContractAddress, validateSymbolLen,
    storeOracle] at h
  obtain ⟨-, -, -, -, -, -, -, hstaked, -⟩ := h
  rw [heq]
  intro t o hactive
  rcases Register.isActive_enlisted.mp hactive with hk | hbefore
  · rw [hk]
    rw [hmin] at hstaked
    exact (hstaked hpos).2
  · exact hleast t o hbefore

theorem withdrawStake_minimum {oracle : Address} {dataType : Symbol}
    (h : withdrawStake env oracle dataType m = .ok (u, m'))
    (hleast : (register m).Minimum least) :
    (register m').Minimum least := by
  obtain ⟨req, token, B, -, -, -, -, -, heq⟩ := withdrawStake_register h
  simp [withdrawStake, ensureNotActive] at h
  obtain ⟨-, hinactive, -⟩ := h
  have hstake : ((register m).setStake dataType oracle
      (m.store.oracleStakeAmt (dataType, oracle) -
        min (m.store.oracleStakeAmt (dataType, oracle)) req.amount)
      B).Minimum least := by
    refine hleast.setStake ?_
    rintro ⟨entry, hentry, hactive⟩
    rw [hinactive entry hentry] at hactive
    cases hactive
  rw [heq]
  exact hstake.of_le (fun _ _ => id) fun _ => le_rfl

/-- A slash that takes an active oracle below the minimum removes it. -/
theorem slashOracle_minimum {admin oracle : Address} {dataType : Symbol}
    {amount : ℤ} (hmin : m.store.minStake = least) (hpos : 0 < least)
    (h : slashOracle env admin oracle dataType amount m = .ok (u, m'))
    (hleast : (register m).Minimum least) :
    (register m').Minimum least := by
  obtain ⟨-, -, B, -, hslashed⟩ := slashOracle_register h
  rcases hslashed with ⟨-, entry, -, -, heq⟩ | ⟨henough, heq⟩
  · rw [heq]
    intro t o hactive
    obtain ⟨hbefore, hne⟩ := Register.isActive_unlisted.mp hactive
    have hsame : ((register m).slashed dataType oracle
        (min amount (m.store.oracleStakeAmt (dataType, oracle)))
        B).oracleStakeAmt (t, o) = (register m).oracleStakeAmt (t, o) :=
      Function.update_of_ne hne ..
    exact (hleast t o hbefore).trans hsame.ge
  · have hstake : ((register m).setStake dataType oracle
        (m.store.oracleStakeAmt (dataType, oracle) -
          min amount (m.store.oracleStakeAmt (dataType, oracle)))
        B).Minimum least := by
      refine hleast.setStake fun hactive => ?_
      by_contra hbelow
      refine henough ⟨hmin ▸ hpos, ?_, hactive⟩
      rw [hmin]
      exact not_le.mp hbelow
    rw [heq]
    exact hstake.of_le (fun _ _ => id) fun _ => le_rfl

/-! ## Submissions -/

theorem oracles_of_submits {k : Symbol × Address}
    (h : exec env e m = .ok ((), m')) (he : e.submitsFor = some k) :
    m'.store.oracles = m.store.oracles := by
  cases e with
  | submitData => exact (submitData_penalized (s := m.store) h).oracles
  | batchSubmitData =>
      exact (batchSubmitData_penalized (s := m.store) h).oracles
  | submitDataBatch =>
      exact (submitDataBatch_penalized (s := m.store) h).oracles
  | submitEncryptedData =>
      exact (submitEncryptedData_penalized (s := m.store) h).oracles
  | _ => cases he

/-- A submission keeps to the minimum if the penalties it incurs do. -/
theorem submission_minimum {k : Symbol × Address}
    (hpos : 0 < least) (h : exec env e m = .ok ((), m'))
    (he : e.submitsFor = some k)
    (henough : least + e.penalties m.store env.now *
      max m.store.staleSlashAmount 0 ≤ m.store.oracleStakeAmt k)
    (hleast : (register m).Minimum least) :
    (register m').Minimum least := by
  have hmarked := exec_marked h he
  have horacles := oracles_of_submits h he
  intro t o hactive
  have hbefore : (register m).IsActive t o := by
    obtain ⟨entry, hentry, hentryActive⟩ := hactive
    refine ⟨entry, ?_, hentryActive⟩
    rw [← hentry]
    exact (congrFun horacles _).symm
  have hstanding := congrFun hmarked.standing (t, o)
  have hstake : m'.store.oracleStakeAmt (t, o) =
      (m'.store.standing (t, o)).stake := rfl
  show least ≤ m'.store.oracleStakeAmt (t, o)
  rw [hstake, hstanding]
  by_cases hk : (t, o) = k
  · rw [hk, Function.update_self]
    exact (le_stake_settled hpos).mpr henough
  · rw [Function.update_of_ne hk]
    exact hleast t o hbefore

/-! ## The setting -/

/-- Only its setter changes the minimum. -/
theorem exec_minStake (h : exec env e m = .ok ((), m'))
    (he : ∀ admin minStake, e = .setMinStake admin minStake →
      minStake = m.store.minStake) :
    m'.store.minStake = m.store.minStake := by
  cases hsub : e.submitsFor with
  | some k => exact (exec_marked h hsub).minStake
  | none =>
      obtain ⟨-, hsame | ⟨admin, minStake, hset, hnew⟩⟩ :=
        exec_unsubmitted h hsub
      · exact hsame
      · exact hnew.trans (he admin minStake hset)

theorem exec_minimum (hmin : m.store.minStake = least) (hpos : 0 < least)
    (h : exec env e m = .ok ((), m'))
    (henough : ∀ k, e.submitsFor = some k →
      least + e.penalties m.store env.now * max m.store.staleSlashAmount 0 ≤
        m.store.oracleStakeAmt k)
    (hleast : (register m).Minimum least) : (register m').Minimum least := by
  cases e with
  | addOracle => exact addOracle_minimum hmin hpos h hleast
  | withdrawStake => exact withdrawStake_minimum h hleast
  | slashOracle => exact slashOracle_minimum hmin hpos h hleast
  | submitData =>
      exact submission_minimum hpos h rfl (henough _ rfl) hleast
  | batchSubmitData =>
      exact submission_minimum hpos h rfl (henough _ rfl) hleast
  | submitDataBatch =>
      exact submission_minimum hpos h rfl (henough _ rfl) hleast
  | submitEncryptedData =>
      exact submission_minimum hpos h rfl (henough _ rfl) hleast
  | _ => exact (exec_changes h).minimum rfl hleast

end Changes

/-! ## Runs -/

/-- The minimum is not changed, and the penalties a submission incurs leave
it to the oracle. -/
def SparesMinimum (w : World State) : Label Entry → Prop
  | .call _ e =>
      (∀ admin minStake, e = .setMinStake admin minStake →
        minStake = w.machine.store.minStake) ∧
      ∀ k, e.submitsFor = some k →
        w.machine.store.minStake +
            e.penalties w.machine.store w.now *
              max w.machine.store.staleSlashAmount 0 ≤
          w.machine.store.oracleStakeAmt k
  | _ => True

variable {self : Address} {w₀ w : World State} {ls : List (Label Entry)}
  {least : ℤ}

theorem step_minimum {w w' : World State} {l : Label Entry}
    (hpos : 0 < least)
    (h : w.machine.store.minStake = least ∧
      (register w.machine).Minimum least)
    (hspares : SparesMinimum w l) (hstep : (system self).Step w l w') :
    w'.machine.store.minStake = least ∧
      (register w'.machine).Minimum least := by
  obtain ⟨hmin, hleast⟩ := h
  cases hstep with
  | call _ hexec =>
      obtain ⟨hsame, henough⟩ := hspares
      refine ⟨(exec_minStake hexec hsame).trans hmin, ?_⟩
      refine exec_minimum hmin hpos hexec (fun k hk => ?_) hleast
      rw [← hmin]
      exact henough k hk
  | tick => exact ⟨hmin, hleast⟩
  | transfer => exact ⟨hmin, hleast⟩
  | mint => exact ⟨hmin, hleast⟩

/-- From a state with a minimum stake and no oracles on, active oracles keep
the minimum along every run whose stale-submission penalties leave it to
them. -/
theorem active_oracles_keep_minimum
    (hnone : ∀ k, w₀.machine.store.oracles k = none)
    (hmin : w₀.machine.store.minStake = least) (hpos : 0 < least)
    (hrun : ((system self).restrict SparesMinimum).Run w₀ ls w)
    {dataType : Symbol} {oracle : Address} {entry : OracleEntry}
    (hentry : w.machine.store.oracles (dataType, oracle) = some entry)
    (hactive : entry.active = true) :
    least ≤ w.machine.store.oracleStakeAmt (dataType, oracle) := by
  have hstart : w₀.machine.store.minStake = least ∧
      (register w₀.machine).Minimum least := by
    refine ⟨hmin, ?_⟩
    rintro t o ⟨found, hfound, -⟩
    cases (hnone (t, o)).symm.trans hfound
  have hstep : ∀ w l w', w.machine.store.minStake = least ∧
      (register w.machine).Minimum least →
      ((system self).restrict SparesMinimum).Step w l w' →
      w'.machine.store.minStake = least ∧
        (register w'.machine).Minimum least :=
    fun _ _ _ h hstep => step_minimum hpos h hstep.1 hstep.2
  exact (hrun.preserves hstep hstart).2 dataType oracle
    ⟨entry, hentry, hactive⟩

/-! ## A penalty that leaves the minimum, and one that does not -/

namespace Scenario

/-- A minimum of 10 is set before anybody is registered. -/
def bondRun : List (Label Entry) :=
  [.mint stakeCoin oracleA 100,
    .call [admin] (.initializeVerifier admin),
    .call [admin] (.setStakeToken admin stakeCoin),
    .call [admin] (.setMinStake admin 10),
    .call [admin] (.setMaxDataAge admin 10),
    .call [admin] (.setStaleThreshold admin 1),
    .call [admin] (.setStaleSlashAmount admin 6)]

def bond : World State :=
  (TransitionSystem.execute (step exec verifier) bondRun genesis).get
    (by decide +kernel)

/-- Oracle A stakes 16 and is registered. -/
def bondedRun : List (Label Entry) :=
  [.call [oracleA] (.stake oracleA Symbols.weather 16),
    .call [admin] (.addOracle admin oracleA Symbols.weather 100)]

def bonded : World State :=
  (TransitionSystem.execute (step exec verifier) bondedRun bond).get
    (by decide +kernel)

def lateReport (timestamp : ℕ) : Label Entry :=
  .call [oracleA] (.submitData oracleA Symbols.weather rain 10 90 timestamp)

def penalizedOnce : World State :=
  (step exec verifier bonded (lateReport 999000)).get (by decide +kernel)

/-- An hour later the next reading is stale, too. -/
def penalizedTwice : World State :=
  (TransitionSystem.execute (step exec verifier)
    [.tick 3600, lateReport 999500] penalizedOnce).get (by decide +kernel)

theorem bonded_run : (system verifier).Run bond bondedRun bonded :=
  TransitionSystem.run_of_execute (fun _ _ _ => step_sound)
    (Option.some_get _).symm

end Scenario

open Scenario

/-- The first penalty leaves the minimum of 10. -/
theorem active_oracles_keep_minimum_bonded :
    10 ≤ penalizedOnce.machine.store.oracleStakeAmt
      (Symbols.weather, oracleA) := by
  have hrun : ((system verifier).restrict SparesMinimum).Run bond
      (bondedRun ++ [lateReport 999000]) penalizedOnce := by
    refine .append (bonded_run.restrict ?_) (.cons ⟨⟨nofun, ?_⟩,
      step_sound (Option.some_get _).symm⟩ (.nil _))
    · simp [bondedRun, SparesMinimum, Entry.submitsFor]
    · intro k hk
      obtain rfl := Option.some.inj hk
      decide +kernel
  have hnone : ∀ k, bond.machine.store.oracles k = none := fun _ => rfl
  have hmin : bond.machine.store.minStake = 10 := by decide +kernel
  have hentry : penalizedOnce.machine.store.oracles
      (Symbols.weather, oracleA) =
        some ⟨oracleA, Symbols.weather, 100, true⟩ := by
    decide +kernel
  exact active_oracles_keep_minimum hnone hmin (by decide) hrun hentry rfl

/-- The second takes the stake to 4, and the oracle stays active. -/
theorem active_oracle_below_minimum :
    (system verifier).Reachable bond ∧
      (system verifier).Run bond (bondedRun ++ [lateReport 999000] ++
          [.tick 3600, lateReport 999500]) penalizedTwice ∧
      (∀ k, bond.machine.store.oracles k = none) ∧
      bond.machine.store.minStake = 10 ∧
      penalizedTwice.machine.store.minStake = 10 ∧
      (penalizedTwice.machine.store.oracles
        (Symbols.weather, oracleA)).map OracleEntry.active = some true ∧
      penalizedTwice.machine.store.oracleStakeAmt
        (Symbols.weather, oracleA) = 4 := by
  have hfirst : (system verifier).Run bonded [lateReport 999000]
      penalizedOnce :=
    .cons (step_sound (Option.some_get _).symm) (.nil _)
  have hsecond : (system verifier).Run penalizedOnce
      [.tick 3600, lateReport 999500] penalizedTwice :=
    TransitionSystem.run_of_execute (fun _ _ _ => step_sound)
      (Option.some_get _).symm
  have hbond : (system verifier).Reachable bond :=
    TransitionSystem.reachable_of_execute (fun _ _ _ => step_sound)
      ⟨rfl, rfl⟩ (Option.some_get _).symm
  refine ⟨hbond, (bonded_run.append hfirst).append hsecond, fun _ => rfl, ?_,
    ?_, ?_, ?_⟩
  all_goals decide +kernel

end Parashield.OracleVerifier
