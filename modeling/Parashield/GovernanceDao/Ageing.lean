import Parashield.GovernanceDao.Calls
import Parashield.GovernanceDao.Weights

/-!
# Governance DAO: the age of tokens

A checkpoint records a balance and since when it has been held.  A weight gives
that age to the part of the present balance up to the recorded one, whether or
not it was there in between: whoever falls below the recorded balance and
receives tokens again borrows the age of those that left.
-/

namespace Parashield.GovernanceDao

open Support Support.Contract Invocation

variable {self token a : Address} {s s' : State} {w w' : World State}
  {l : Label Entry} {ls : List (Label Entry)} {now now' : ℕ}
  {aged balance : ℤ}

/-! ## Weights grow with time -/

theorem satI128_mono {x y : ℤ} (h : x ≤ y) : satI128 x ≤ satI128 y := by
  unfold satI128
  omega

/-- The weight of `balance`, of which `aged` has the age of the checkpoint. -/
def State.mixed (s : State) (now : ℕ) (a : Address) (aged balance : ℤ) : ℤ :=
  if s.timeWeight.enabled = false ∨ balance ≤ 0 then balance
  else s.weighed now a aged balance

theorem State.timeWeighted_eq_mixed (s : State) (now : ℕ) (a : Address)
    (balance : ℤ) :
    s.timeWeighted now a balance = s.mixed now a (s.aged a balance) balance := by
  unfold State.mixed
  split
  · next hoff => exact State.timeWeighted_off hoff
  · next hon =>
      obtain ⟨henabled, hpos⟩ := not_or.mp hon
      exact State.timeWeighted_on (by simpa using henabled) (by omega)

theorem State.Weighs.factor_mono (h : s.Weighs)
    (hon : s.timeWeight.enabled = true) (hrules : s'.timeWeight = s.timeWeight)
    (hmature : s.maturity now a ≤ s'.maturity now' a) :
    s.factor now a ≤ s'.factor now' a := by
  have hrest : (0 : ℤ) ≤ fullWeightBps - s.timeWeight.minBps := by
    have hleast := (h.least_bounds hon).2
    omega
  have hage : (s.maturity now a : ℤ) ≤ s'.maturity now' a := by
    exact_mod_cast hmature
  have hmul := Int.mul_le_mul_of_nonneg_left hage hrest
  have hprod : (0 : ℤ) ≤
      (fullWeightBps - s.timeWeight.minBps) * s.maturity now a :=
    Int.mul_nonneg hrest (Int.natCast_nonneg _)
  rw [State.factor, State.factor, hrules, Int.tdiv_eq_ediv_of_nonneg hprod,
    Int.tdiv_eq_ediv_of_nonneg (hprod.trans hmul)]
  have hramp : (0 : ℤ) < s.timeWeight.rampPeriod := by
    have hne := (h.ramps hon).1
    omega
  have hdiv := Int.ediv_le_ediv hramp hmul
  omega

/-- The same balance with the same aged part weighs more as it ages. -/
theorem State.Weighs.mixed_mono (h : s.Weighs)
    (hrules : s'.timeWeight = s.timeWeight)
    (hmature : s.maturity now a ≤ s'.maturity now' a) (haged : 0 ≤ aged) :
    s.mixed now a aged balance ≤ s'.mixed now' a aged balance := by
  unfold State.mixed
  rw [hrules]
  split
  · exact Int.le_refl balance
  · next hon =>
      have henabled : s.timeWeight.enabled = true := by
        simpa using (not_or.mp hon).1
      have hfactor := h.factor_mono henabled hrules hmature
      have hnonneg := (h.factor_bounds henabled now a).1
      have hsat : satI128 (aged * s.factor now a) ≤
          satI128 (aged * s'.factor now' a) :=
        satI128_mono (Int.mul_le_mul_of_nonneg_left hfactor haged)
      have hlow := satI128_nonneg (Int.mul_nonneg haged hnonneg)
      rw [State.weighed, State.weighed, hrules,
        Int.tdiv_eq_ediv_of_nonneg hlow,
        Int.tdiv_eq_ediv_of_nonneg (hlow.trans hsat)]
      have hdiv := Int.ediv_le_ediv
        (show (0 : ℤ) < fullWeightBps by decide) hsat
      omega

/-! ## Checkpoints in a run -/

/-- Only its own calls move the checkpoint of a holder. -/
theorem step_checkpoint (h : (system self).Step w l w') (a : Address) :
    w'.machine.store.weightCheckpoint a =
        w.machine.store.weightCheckpoint a ∨
      ∃ signers config, l = .call signers (.checkpointVotingPower a) ∧
        w.machine.store.config = some config ∧
        w'.now = w.now ∧ w'.machine.bank = w.machine.bank ∧
        w'.machine.store.weightCheckpoint a =
          some (w.machine.store.checkpointed w.now a
            (w.machine.bank.balance config.govToken a)) := by
  cases h with
  | @call signers e m' _ hexec =>
      by_cases he : e.IsAside
      · cases aside_cases hexec he with
        | timeWeight _ heq => exact .inl (heq ▸ rfl)
        | @checkpoint holder config hconfig heq =>
            subst heq
            by_cases ha : a = holder
            · subst ha
              exact .inr ⟨signers, config, rfl, hconfig, rfl, rfl,
                Function.update_self ..⟩
            · exact .inl (Function.update_of_ne ha _ _)
        | quorumDecay _ _ _ _ heq => exact .inl (heq ▸ rfl)
        | rest hsame => exact .inl (congrFun hsame.weightCheckpoint a)
      · refine .inl (changes_keep (I := fun m => m.store.weightCheckpoint a =
          w.machine.store.weightCheckpoint a) (fun m m' hchange hm => ?_)
          (exec_changes hexec) rfl)
        have hsame := (hchange.sameSettings he).weightCheckpoint
        exact (congrFun hsame a).trans hm
  | tick => exact .inl rfl
  | transfer => exact .inl rfl
  | mint => exact .inl rfl

/-- The clock of `a` starts anew: its first checkpoint, or one with a balance
above the recorded one. -/
def Restarts (token a : Address) (w : World State) (l : Label Entry) : Prop :=
  (∃ signers, l = .call signers (.checkpointVotingPower a)) ∧
    ∀ cp, w.machine.store.weightCheckpoint a = some cp →
      cp.amount < w.machine.bank.balance token a

/-- `a` receives tokens while it has less than its checkpoint records. -/
def Refills (self token a : Address) (w : World State) (l : Label Entry) :
    Prop :=
  (∃ cp, w.machine.store.weightCheckpoint a = some cp ∧
      (w.machine.bank.balance token a : ℤ) < cp.amount) ∧
    ∃ w', (system self).Step w l w' ∧
      w.machine.bank.balance token a < w'.machine.bank.balance token a

/-- The clock of `a` runs on, and `token` is the governance token. -/
structure Continues (token a : Address) (w : World State) (l : Label Entry) :
    Prop where
  same_token : ∀ config, w.machine.store.config = some config →
    config.govToken = token
  running : ¬ Restarts token a w l

/-- The part of the balance of `a` that has the age of its checkpoint. -/
def agedPart (token a : Address) (w : World State) : ℤ :=
  w.machine.store.aged a (w.machine.bank.balance token a)

theorem agedPart_of_none
    (h : w.machine.store.weightCheckpoint a = none) :
    agedPart token a w = 0 := by
  rw [agedPart, State.aged, h]

theorem agedPart_of_some {cp : WeightCheckpoint}
    (h : w.machine.store.weightCheckpoint a = some cp) :
    agedPart token a w = min cp.amount (w.machine.bank.balance token a) := by
  rw [agedPart, State.aged, h]

/-- A clock that runs on keeps its start.  A checkpoint lowers the recorded
balance to the present one, which leaves the aged part as it was. -/
theorem step_running (h : (system self).Step w l w')
    (hrunning : Continues token a w l) :
    w'.machine.store.weightCheckpoint a =
        w.machine.store.weightCheckpoint a ∨
      ∃ cp : WeightCheckpoint,
        w.machine.store.weightCheckpoint a = some cp ∧
        (w.machine.bank.balance token a : ℤ) ≤ cp.amount ∧
        w'.machine.store.weightCheckpoint a =
          some ⟨w.machine.bank.balance token a, cp.since⟩ ∧
        w'.now = w.now ∧ w'.machine.bank = w.machine.bank := by
  rcases step_checkpoint h a with hsame |
      ⟨signers, config, rfl, hconfig, hnow, hbank, hcp'⟩
  · exact .inl hsame
  · obtain rfl := hrunning.same_token config hconfig
    have hkept : ∃ cp, w.machine.store.weightCheckpoint a = some cp ∧
        (w.machine.bank.balance config.govToken a : ℤ) ≤ cp.amount := by
      by_contra hnone
      push Not at hnone
      exact hrunning.running ⟨⟨signers, rfl⟩, hnone⟩
    obtain ⟨cp, hcp, hle⟩ := hkept
    refine .inr ⟨cp, hcp, hle, ?_, hnow, hbank⟩
    rw [hcp', State.checkpointed, hcp]
    simp [hle]

theorem refills_iff (h : (system self).Step w l w') {cp : WeightCheckpoint}
    (hcp : w.machine.store.weightCheckpoint a = some cp) :
    Refills self token a w l ↔
      (w.machine.bank.balance token a : ℤ) < cp.amount ∧
        w.machine.bank.balance token a < w'.machine.bank.balance token a := by
  constructor
  · rintro ⟨⟨cp', hcp', hlow⟩, w'', hstep, hmore⟩
    obtain rfl := Option.some.inj (hcp.symm.trans hcp')
    obtain rfl := h.unique hstep
    exact ⟨hlow, hmore⟩
  · rintro ⟨hlow, hmore⟩
    exact ⟨⟨cp, hcp, hlow⟩, w', h, hmore⟩

/-- Without a restart of the clock the aged part does not grow, unless the step
refills; then it contains tokens that were not held before. -/
theorem aged_step_iff (h : (system self).Step w l w')
    (hrunning : Continues token a w l) :
    (¬ Refills self token a w l → agedPart token a w' ≤ agedPart token a w) ∧
      (agedPart token a w' ≤ w.machine.bank.balance token a ↔
        ¬ Refills self token a w l) := by
  cases hcp : w.machine.store.weightCheckpoint a with
  | none =>
      have hnot : ¬ Refills self token a w l := by
        rintro ⟨⟨cp, hsome, -⟩, -⟩
        rw [hcp] at hsome
        cases hsome
      rcases step_running h hrunning with hsame | ⟨cp, hsome, -⟩
      · rw [agedPart_of_none (hsame.trans hcp), agedPart_of_none hcp]
        simp [hnot]
      · rw [hcp] at hsome
        cases hsome
  | some cp =>
      rw [refills_iff h hcp, agedPart_of_some hcp]
      rcases step_running h hrunning with hsame |
          ⟨cp', hcp', hle, hlowered, -, hbank⟩
      · rw [agedPart_of_some (hsame.trans hcp)]
        omega
      · obtain rfl := Option.some.inj (hcp.symm.trans hcp')
        rw [agedPart_of_some hlowered, hbank]
        omega

/-! ## Runs -/

def weightOf (token a : Address) (w : World State) : ℤ :=
  w.machine.store.timeWeighted w.now a (w.machine.bank.balance token a)

/-- A step that leaves the balance of `a` and the settings as they are. -/
def Rests (self token a : Address) (w : World State) (l : Label Entry) : Prop :=
  ∀ w', (system self).Step w l w' →
    w'.machine.bank.balance token a = w.machine.bank.balance token a ∧
      w'.machine.store.timeWeight = w.machine.store.timeWeight

/-- Only `aged` tokens of `a` have the age of its checkpoint, the rest counts
at the least rate. -/
def Ages (token a : Address) (w : World State) (aged : ℤ) : Prop :=
  0 ≤ aged ∧ aged ≤ w.machine.bank.balance token a ∧
    weightOf token a w = w.machine.store.mixed w.now a aged
      (w.machine.bank.balance token a)

theorem ages_agedPart (hw : w.machine.store.Weighs) :
    Ages token a w (agedPart token a w) := by
  have haged : 0 ≤ agedPart token a w ∧
      agedPart token a w ≤ w.machine.bank.balance token a :=
    hw.aged_bounds (Int.natCast_nonneg _)
  exact ⟨haged.1, haged.2, w.machine.store.timeWeighted_eq_mixed w.now a _⟩

/-- The aged part at the end of a run without a restart was held all the way. -/
theorem aged_run (hrun : ((system self).restrict fun w l =>
      Continues token a w l ∧ ¬ Refills self token a w l).Run w ls w') :
    agedPart token a w' ≤ agedPart token a w := by
  refine hrun.relation (R := fun u v => agedPart token a v ≤ agedPart token a u)
    (fun _ => Int.le_refl _) (fun _ _ _ h h' => Int.le_trans h' h) ?_
  rintro u l v ⟨⟨hrunning, hno⟩, hstep⟩
  exact (aged_step_iff hstep hrunning).1 hno

/-- A resting holder whose clock runs on does not lose weight. -/
theorem weight_step (h : (system self).Step w l w')
    (hw : w.machine.store.Weighs) (hrunning : Continues token a w l)
    (hrests : Rests self token a w l) :
    weightOf token a w ≤ weightOf token a w' := by
  obtain ⟨hbalance, hrules⟩ := hrests w' h
  have hnow : w.now ≤ w'.now := h.now_le
  have haged : agedPart token a w' = agedPart token a w ∧
      w.machine.store.maturity w.now a ≤
        w'.machine.store.maturity w'.now a := by
    rcases step_running h hrunning with hsame |
        ⟨cp, hcp, hle, hlowered, hnow', -⟩
    · refine ⟨by rw [agedPart, agedPart, State.aged, hsame, hbalance]; rfl, ?_⟩
      rw [State.maturity, State.maturity, hsame, hrules]
      split
      · omega
      · exact Nat.le_refl 0
    · rw [agedPart_of_some hlowered, agedPart_of_some hcp, hbalance,
        State.maturity, State.maturity, hcp, hlowered, hrules, hnow']
      refine ⟨?_, Nat.le_refl _⟩
      show min (w.machine.bank.balance token a : ℤ) _ = _
      omega
  have hages : Ages token a w (agedPart token a w) := ages_agedPart hw
  have hages' : weightOf token a w' = w'.machine.store.mixed w'.now a
      (agedPart token a w') (w'.machine.bank.balance token a) :=
    w'.machine.store.timeWeighted_eq_mixed w'.now a _
  rw [hages.2.2, hages', haged.1, hbalance]
  exact hw.mixed_mono hrules haged.2 hages.1

/-- The weight of `a` is between zero and its balance, and does not fall as
long as the balance, the settings and the clock stay.  If `a` never receives
tokens while it has less than its checkpoint records, only tokens that it had
in every state since the clock started have the age of the checkpoint; a step
in which it does gives that age to others. -/
theorem age_not_borrowed (self token a : Address) :
    (∀ w, (system self).Reachable w → 0 ≤ weightOf token a w ∧
      weightOf token a w ≤ w.machine.bank.balance token a) ∧
    (∀ w ls w', (system self).Reachable w →
      ((system self).restrict fun w l =>
        Continues token a w l ∧ Rests self token a w l).Run w ls w' →
      weightOf token a w ≤ weightOf token a w') ∧
    (∀ w ls w', (system self).Reachable w →
      ((system self).restrict fun w l =>
        Continues token a w l ∧ ¬ Refills self token a w l).Run w ls w' →
      ∃ aged, Ages token a w' aged ∧
        ∀ before after u, ls = before ++ after →
          (system self).Run w before u → (system self).Run u after w' →
            aged ≤ u.machine.bank.balance token a) ∧
    ∀ w l w', (system self).Reachable w → (system self).Step w l w' →
      Continues token a w l →
      (agedPart token a w' ≤ w.machine.bank.balance token a ↔
        ¬ Refills self token a w l) := by
  refine ⟨?_, ?_, ?_, ?_⟩
  · intro w hw
    exact (hw.invariant (weighs_inductive self)).bounds (Int.natCast_nonneg _)
  · intro w ls w' hw hrun
    refine (hrun.preserves (Q := fun v => (system self).Reachable v ∧
      weightOf token a w ≤ weightOf token a v) ?_ ⟨hw, Int.le_refl _⟩).2
    rintro v l v' ⟨hv, hle⟩ ⟨⟨hrunning, hrests⟩, hstep⟩
    have hweighs := hv.invariant (weighs_inductive self)
    exact ⟨hv.step hstep,
      hle.trans (weight_step hstep hweighs hrunning hrests)⟩
  · intro w ls w' hw hrun
    have hend := (hw.run hrun.of_restrict).invariant (weighs_inductive self)
    refine ⟨agedPart token a w', ages_agedPart hend, ?_⟩
    rintro before after u rfl hbefore -
    obtain ⟨t, hfirst, hlast⟩ := TransitionSystem.run_append_iff.mp hrun
    obtain rfl : u = t :=
      hbefore.unique (fun _ _ _ _ => Step.unique) hfirst.of_restrict
    have hu := (hw.run hbefore).invariant (weighs_inductive self)
    exact (aged_run hlast).trans (ages_agedPart hu).2.1
  · intro w l w' _ hstep hrunning
    exact (aged_step_iff hstep hrunning).2

/-! ## Tokens that come back -/

namespace Scenario

/-- Alice has had 500 tokens for as long as the ramp is. -/
def seasoning : List (Label Entry) :=
  [launch, .call [admin] (.setTimeWeight admin true 1000 1000),
    .call [alice] (.checkpointVotingPower alice), .tick 1000]

def seasoned : World State :=
  (TransitionSystem.execute (step exec dao) seasoning genesis).get
    (by decide +kernel)

def trimming : Label Entry := .transfer shield alice carol 200

def trimmed : World State :=
  (step exec dao seasoned trimming).get (by decide +kernel)

def emptying : Label Entry := .transfer shield alice carol 500

def emptied : World State :=
  (step exec dao seasoned emptying).get (by decide +kernel)

def replacing : Label Entry := .transfer shield bob alice 300

def replaced : World State :=
  (step exec dao emptied replacing).get (by decide +kernel)

theorem seasoned_reachable : (system dao).Reachable seasoned :=
  TransitionSystem.reachable_of_execute (fun _ _ _ => step_sound) ⟨rfl, rfl⟩
    (Option.some_get _).symm

theorem emptying_step : (system dao).Step seasoned emptying emptied :=
  step_sound (Option.some_get _).symm

end Scenario

open Scenario

theorem age_not_borrowed_trimmed :
    ∃ aged, Ages shield alice trimmed aged ∧
      ∀ before after u, [trimming] = before ++ after →
        (system dao).Run seasoned before u → (system dao).Run u after trimmed →
          aged ≤ u.machine.bank.balance shield alice := by
  have hstep : (system dao).Step seasoned trimming trimmed :=
    step_sound (Option.some_get _).symm
  have hconfig : seasoned.machine.store.config = some Scenario.config := by
    decide +kernel
  have hcontinues : Continues shield alice seasoned trimming := by
    refine ⟨fun config h => ?_, ?_⟩
    · obtain rfl := Option.some.inj (hconfig.symm.trans h)
      rfl
    · rintro ⟨⟨signers, h⟩, -⟩
      cases h
  have hless : trimmed.machine.bank.balance shield alice ≤
      seasoned.machine.bank.balance shield alice := by
    decide +kernel
  have hno : ¬ Refills dao shield alice seasoned trimming := by
    rintro ⟨-, w', hstep', hmore⟩
    obtain rfl := hstep.unique hstep'
    omega
  exact (age_not_borrowed dao shield alice).2.2.1 seasoned [trimming] trimmed
    seasoned_reachable (.cons ⟨⟨hcontinues, hno⟩, hstep⟩ (.nil _))

/-- Alice sends all her tokens away and receives 300 from Bob: they count in
full, as if she had had them all along. -/
theorem replaced_tokens_are_aged :
    (system dao).Reachable seasoned ∧
      (system dao).Step seasoned emptying emptied ∧
      emptied.machine.bank.balance shield alice = 0 ∧
      (system dao).Step emptied replacing replaced ∧
      weightOf shield alice replaced = 300 ∧
      ¬ ∃ aged, Ages shield alice replaced aged ∧
        aged ≤ emptied.machine.bank.balance shield alice := by
  have hempty : emptied.machine.bank.balance shield alice = 0 := by
    decide +kernel
  refine ⟨seasoned_reachable, emptying_step, hempty,
    step_sound (Option.some_get _).symm, by decide +kernel, ?_⟩
  rintro ⟨aged, ⟨hnonneg, -, hweight⟩, hle⟩
  rw [hempty] at hle
  obtain rfl : aged = 0 := by omega
  have hfair : weightOf shield alice replaced ≠
      replaced.machine.store.mixed replaced.now alice 0
        (replaced.machine.bank.balance shield alice) := by
    decide +kernel
  exact hfair hweight

end Parashield.GovernanceDao
