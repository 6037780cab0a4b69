import Parashield.OracleVerifier.Overflow
import Parashield.OracleVerifier.Standing

/-!
# Oracle verifier: reputation

A verification rewrites the score of an oracle from its counters; the stale
penalty and the administrator edit the score and leave the counters.  The next
verification moves the score the right way, and by no more than its one
observation is worth, exactly if the edit has left what the counters give.
-/

namespace Parashield.OracleVerifier

open Support Support.Contract Invocation

/-! ## Counters and scores -/

namespace OracleReputation

/-- What the counters give: the share of accurate submissions in thousandths,
500 without any. -/
def earned (r : OracleReputation) : ℕ :=
  if r.totalSubmissions = 0 then 500
  else r.accurateSubmissions * 1000 / r.totalSubmissions

/-- What they give after one more observation. -/
def next (r : OracleReputation) (accurate : Bool) : ℕ :=
  (r.accurateSubmissions + accurate.toNat) * 1000 / (r.totalSubmissions + 1)

/-- The record after one more observation, as a verification stores it. -/
def observe (r : OracleReputation) (accurate : Bool) (now : ℕ) :
    OracleReputation :=
  { r with
    totalSubmissions := r.totalSubmissions + 1
    accurateSubmissions := r.accurateSubmissions + accurate.toNat
    score := r.next accurate % 2 ^ 32
    lastUpdated := now }

/-- An observation that takes the record from `r` to `r'` moves the score the
right way. -/
structure MovesRightly (accurate : Bool) (r r' : OracleReputation) : Prop where
  score : r'.score ≤ 1000
  inaccurate : accurate = false → r'.score ≤ r.score
  accurate : accurate = true → r.score ≤ r'.score

/-- The observation moves the score by no more than what the counters give. -/
def MovesByOne (r r' : OracleReputation) : Prop :=
  |(r'.score : ℤ) - r.score| ≤ |(r'.score : ℤ) - r.earned|

/-- The score lies between what the two observations would make of it. -/
def Between (r : OracleReputation) : Prop :=
  r.next false ≤ r.score ∧ r.score ≤ r.next true

variable {r r' : OracleReputation}

theorem Sound.next_le (h : r.Sound) (accurate : Bool) :
    r.next accurate ≤ 1000 := by
  have hone : accurate.toNat ≤ 1 := Bool.toNat_le accurate
  exact share_le (Nat.add_le_add h.accurate hone)

theorem Sound.score_observe (h : r.Sound) (accurate : Bool) (now : ℕ) :
    (r.observe accurate now).score = r.next accurate := by
  have hnext := h.next_le accurate
  exact Nat.mod_eq_of_lt (by omega)

theorem earned_observe (accurate : Bool) (now : ℕ) :
    (r.observe accurate now).earned = r.next accurate :=
  if_neg (Nat.succ_ne_zero _)

theorem Sound.observe (h : r.Sound) (accurate : Bool) (now : ℕ) :
    (r.observe accurate now).Sound where
  score := by
    rw [h.score_observe]
    exact h.next_le accurate
  accurate := Nat.add_le_add h.accurate (Bool.toNat_le accurate)

/-- A failure does not raise the share. -/
theorem Sound.next_false_le (h : r.Sound) : r.next false ≤ r.earned := by
  have haccurate := h.accurate
  unfold next earned
  split_ifs with hzero
  · rw [hzero] at haccurate ⊢
    simp [Nat.le_zero.mp haccurate]
  · exact Nat.div_le_div_left (Nat.le_succ _) (Nat.pos_of_ne_zero hzero)

/-- A success does not lower the share. -/
theorem Sound.le_next_true (h : r.Sound) : r.earned ≤ r.next true := by
  have haccurate := h.accurate
  unfold next earned
  split_ifs with hzero
  · rw [hzero] at haccurate ⊢
    simp [Nat.le_zero.mp haccurate]
  · have hshare := share_le haccurate
    have hfloor := Nat.div_mul_le_self (r.accurateSubmissions * 1000)
      r.totalSubmissions
    rw [Nat.le_div_iff_mul_le (Nat.succ_pos _), Nat.mul_succ,
      Bool.toNat_true, Nat.add_mul]
    omega

theorem Sound.between_earned (h : r.Sound) (hscore : r.score = r.earned) :
    r.Between := by
  unfold Between
  rw [hscore]
  exact ⟨h.next_false_le, h.le_next_true⟩

theorem Between.movesRightly {accurate : Bool} (h : r.Between)
    (hsound : r.Sound) (hnext : r'.score = r.next accurate) :
    r.MovesRightly accurate r' where
  score := hnext ▸ hsound.next_le accurate
  inaccurate hfalse := by
    rw [hnext, hfalse]
    exact h.1
  accurate htrue := by
    rw [hnext, htrue]
    exact h.2

/-- A score between the two moves by no more than each observation is worth
exactly if it is what the counters give. -/
theorem Between.movesByOne_iff (h : r.Between) (hsound : r.Sound) :
    (∀ accurate (r' : OracleReputation), r'.score = r.next accurate →
      r.MovesByOne r') ↔ r.score = r.earned := by
  constructor
  · intro hmoves
    have hfalse := hmoves false { r with score := r.next false } rfl
    have htrue := hmoves true { r with score := r.next true } rfl
    have hbelow := hsound.next_false_le
    have habove := hsound.le_next_true
    obtain ⟨hlow, hhigh⟩ := h
    unfold MovesByOne at hfalse htrue
    simp only [Int.abs_eq_natAbs] at hfalse htrue
    omega
  · intro hscore accurate r' _
    unfold MovesByOne
    rw [hscore]

end OracleReputation

/-- An edit of the score of `r`: the new one lies between what the two
observations would make of it, and it is lower only where it is what the
counters give. -/
def OracleReputation.Admits (r : OracleReputation) (score : ℕ) : Prop :=
  r.next false ≤ score ∧ score ≤ r.next true ∧
    (score < r.score → score = r.earned)

instance (r : OracleReputation) (score : ℕ) : Decidable (r.Admits score) :=
  inferInstanceAs (Decidable (_ ∧ _))

/-- The edits of scores that the call makes. -/
def EditsFairly (s : State) (now : ℕ) (e : Entry) : Prop :=
  match e with
  | .setReputation _ oracle dataType score =>
      (s.getReputation oracle dataType).Admits score
  | e => ∀ k, e.submitsFor = some k →
      (s.getReputation k.2 k.1).Admits
        ((s.getReputation k.2 k.1).score -
          e.penalties s now * s.staleReputationPenalty)

section Calls

variable {env : Env} {e : Entry} {m m' : Machine State} {oracle : Address}
  {dataType : Symbol} {accurate : Bool} {u : Unit}

/-! ## Verifications -/

theorem updateReputation_record
    (h : updateReputation env oracle dataType accurate m = .ok (u, m')) :
    m'.store.getReputation oracle dataType =
        (m.store.getReputation oracle dataType).observe accurate env.now ∧
      ∀ o d, (d, o) ≠ (dataType, oracle) →
        m'.store.getReputation o d = m.store.getReputation o d := by
  simp [updateReputation, storeReputation] at h
  obtain ⟨-, -, -, rfl⟩ := h
  refine ⟨?_, fun o d hne => ?_⟩
  · simp [State.getReputation, OracleReputation.observe,
      OracleReputation.next]
  · simp [State.getReputation, Function.update_of_ne hne]

/-- One observation of a verification. -/
def Observes (env : Env) (m m' : Machine State) : Prop :=
  ∃ oracle dataType accurate,
    updateReputation env oracle dataType accurate m = .ok ((), m')

/-- Observations, one after the other. -/
abbrev Observed (env : Env) : Machine State → Machine State → Prop :=
  Relation.ReflTransGen (Observes env)

theorem scoreReadings_observed {median tolerance : ℤ}
    {points : List OracleDataPoint}
    (h : forEach points (scoreReading env dataType median tolerance) m =
      .ok (u, m')) : Observed env m m' := by
  have hkeeps : Keeps (Observed env m)
      (forEach points (scoreReading env dataType median tolerance)) := by
    apply keeps_forEach
    intro p _ t v t' ht hrun
    rcases scoreReading_cases hrun with rfl | ⟨accurate, hupdate⟩
    · exact ht
    · exact ht.tail ⟨p.oracle, dataType, accurate, hupdate⟩
  exact hkeeps m u m' .refl h

theorem verifyTrigger_observed {key : Symbol} {condition : TriggerCondition}
    {b : Bool} (h : verifyTrigger env dataType key condition m = .ok (b, m')) :
    Observed env m m' := by
  simp [verifyTrigger, requireDataTypeActive] at h
  obtain ⟨-, -, points, -, -, v, -, -, _, hscore⟩ := h
  exact scoreReadings_observed hscore

theorem verifyTriggerFresh_observed {key : Symbol}
    {condition : TriggerCondition} {maxAgeSeconds : ℕ} {b : Bool}
    (h : verifyTriggerFresh env dataType key condition maxAgeSeconds m =
      .ok (b, m')) : Observed env m m' := by
  simp [verifyTriggerFresh, requireDataTypeActive] at h
  obtain ⟨-, -, points, -, -, -, -, v, -, -, _, hscore⟩ := h
  exact scoreReadings_observed hscore

theorem batchVerifyFresh_observed {queries : List OracleReadingQuery}
    {bs : List Bool} (h : batchVerifyFresh env queries m = .ok (bs, m')) :
    Observed env m m' := by
  have hkeeps : Keeps (Observed env m) (batchVerifyFresh env queries) := by
    apply keeps_collect
    intro query _ t b t' ht hrun
    exact ht.trans (verifyTriggerFresh_observed hrun)
  exact hkeeps m bs m' .refl h

/-! ## What the calls keep -/

/-- Every record is sound, and its score between what the two observations
would make of it. -/
structure Fair (m : Machine State) : Prop where
  sound : m.store.core.Rated
  between : ∀ oracle dataType, (m.store.getReputation oracle dataType).Between

theorem Observes.edited (h : Observes env m m') (hfair : Fair m) :
    Fair m' ∧ ∀ o d, m'.store.getReputation o d = m.store.getReputation o d ∨
      (m'.store.getReputation o d).score =
        (m'.store.getReputation o d).earned := by
  obtain ⟨oracle, dataType, accurate, hupdate⟩ := h
  obtain ⟨hrecord, hothers⟩ := updateReputation_record hupdate
  have hsound := hfair.sound oracle dataType
  have hearned : (m'.store.getReputation oracle dataType).score =
      (m'.store.getReputation oracle dataType).earned := by
    rw [hrecord, OracleReputation.earned_observe]
    exact hsound.score_observe accurate env.now
  have hafter : (m'.store.getReputation oracle dataType).Sound := by
    rw [hrecord]
    exact hsound.observe accurate env.now
  refine ⟨⟨fun o d => ?_, fun o d => ?_⟩, fun o d => ?_⟩
  all_goals by_cases hk : (d, o) = (dataType, oracle)
  · obtain ⟨rfl, rfl⟩ := Prod.mk.inj hk
    exact hafter
  · have hsame : m'.store.core.record o d = m.store.core.record o d :=
      hothers o d hk
    rw [hsame]
    exact hfair.sound o d
  · obtain ⟨rfl, rfl⟩ := Prod.mk.inj hk
    exact hafter.between_earned hearned
  · rw [hothers o d hk]
    exact hfair.between o d
  · obtain ⟨rfl, rfl⟩ := Prod.mk.inj hk
    exact .inr hearned
  · exact .inl (hothers o d hk)

/-- Verifications leave a score as it is or at what the counters give. -/
theorem Observed.edited (h : Observed env m m') (hfair : Fair m) :
    Fair m' ∧ ∀ o d, m'.store.getReputation o d = m.store.getReputation o d ∨
      (m'.store.getReputation o d).score =
        (m'.store.getReputation o d).earned := by
  induction h with
  | refl => exact ⟨hfair, fun _ _ => .inl rfl⟩
  | tail _ hobserves ih =>
      obtain ⟨hmid, hsofar⟩ := ih
      obtain ⟨hend, hlast⟩ := hobserves.edited hmid
      refine ⟨hend, fun o d => ?_⟩
      rcases hlast o d with hsame | hearned
      · rw [hsame]
        exact hsofar o d
      · exact .inr hearned

/-- The entry points that may write reputation records. -/
def Entry.rates : Entry → Bool
  | .setReputation .. => true
  | .verifyTrigger .. => true
  | .verifyTriggerFresh .. => true
  | .batchVerifyFresh .. => true
  | e => e.submitsFor.isSome

theorem exec_reputation (h : exec env e m = .ok ((), m'))
    (he : e.rates = false) : m'.store.reputation = m.store.reputation := by
  cases e with
  | setMinStake =>
      simp [exec, setMinStake, setting] at h
      obtain ⟨-, -, rfl⟩ := h
      rfl
  | invalidateData =>
      simp [exec, invalidateData] at h
      obtain ⟨-, rfl⟩ := h
      rfl
  | setReputation => cases he
  | submitData => cases he
  | batchSubmitData => cases he
  | submitDataBatch => cases he
  | submitEncryptedData => cases he
  | verifyTrigger => cases he
  | verifyTriggerFresh => cases he
  | batchVerifyFresh => cases he
  | _ => exact congrArg Ledger.reputation (exec_ledger h rfl)

/-- Scores are fair, and those lowered are at what the counters give. -/
structure Edited (m m' : Machine State) : Prop where
  fair : Fair m'
  lowered : ∀ oracle dataType,
    (m'.store.getReputation oracle dataType).score <
      (m.store.getReputation oracle dataType).score →
    (m'.store.getReputation oracle dataType).score =
      (m'.store.getReputation oracle dataType).earned

theorem Edited.of_observed (hfair : Fair m) (h : Observed env m m') :
    Edited m m' := by
  obtain ⟨hafter, hscores⟩ := h.edited hfair
  refine ⟨hafter, fun o d hlower => ?_⟩
  rcases hscores o d with hsame | hearned
  · rw [hsame] at hlower
    exact (lt_irrefl _ hlower).elim
  · exact hearned

variable (oracle dataType) in
/-- An edit of one score. -/
theorem Edited.of_edit (hfair : Fair m) (hrated : m'.store.core.Rated)
    (hadmits : (m.store.getReputation oracle dataType).Admits
      (m'.store.getReputation oracle dataType).score)
    (htotal : (m'.store.getReputation oracle dataType).totalSubmissions =
      (m.store.getReputation oracle dataType).totalSubmissions)
    (haccurate :
      (m'.store.getReputation oracle dataType).accurateSubmissions =
        (m.store.getReputation oracle dataType).accurateSubmissions)
    (hothers : ∀ o d, (d, o) ≠ (dataType, oracle) →
      m'.store.getReputation o d = m.store.getReputation o d) :
    Edited m m' := by
  obtain ⟨hlow, hhigh, hearned⟩ := hadmits
  have hnext : ∀ accurate,
      (m'.store.getReputation oracle dataType).next accurate =
        (m.store.getReputation oracle dataType).next accurate := by
    intro accurate
    unfold OracleReputation.next
    rw [htotal, haccurate]
  refine ⟨⟨hrated, fun o d => ?_⟩, fun o d hlower => ?_⟩
  all_goals by_cases hk : (d, o) = (dataType, oracle)
  · obtain ⟨rfl, rfl⟩ := Prod.mk.inj hk
    unfold OracleReputation.Between
    rw [hnext, hnext]
    exact ⟨hlow, hhigh⟩
  · rw [hothers o d hk]
    exact hfair.between o d
  · obtain ⟨rfl, rfl⟩ := Prod.mk.inj hk
    rw [hearned hlower]
    unfold OracleReputation.earned
    rw [htotal, haccurate]
  · rw [hothers o d hk] at hlower
    exact (lt_irrefl _ hlower).elim

theorem submission_edited {k : Symbol × Address} (hfair : Fair m)
    (h : exec env e m = .ok ((), m')) (he : e.submitsFor = some k)
    (hadmits : (m.store.getReputation k.2 k.1).Admits
      ((m.store.getReputation k.2 k.1).score -
        e.penalties m.store env.now * m.store.staleReputationPenalty)) :
    Edited m m' := by
  have hmarked := exec_marked h he
  have hrecord : m'.store.getReputation k.2 k.1 =
      (m.store.settled env.now e k).reputation :=
    congrArg Standing.reputation hmarked.self
  refine .of_edit k.2 k.1 hfair ((exec_wrote h).rated hfair.sound) ?_ ?_ ?_
    fun o d hne => ?_
  · rw [hrecord, score_settled]
    exact hadmits
  · rw [hrecord]
    exact totals_settled.1
  · rw [hrecord]
    exact totals_settled.2
  · have hstanding := congrFun hmarked.standing (d, o)
    rw [Function.update_of_ne hne] at hstanding
    exact congrArg Standing.reputation hstanding

theorem setReputation_edited {admin : Address} {score : ℕ} (hfair : Fair m)
    (h : exec env (.setReputation admin oracle dataType score) m =
      .ok ((), m'))
    (hadmits : (m.store.getReputation oracle dataType).Admits score) :
    Edited m m' := by
  have hrated := (exec_wrote h).rated hfair.sound
  simp [exec, setReputation, storeReputation] at h
  obtain ⟨-, -, rfl⟩ := h
  refine .of_edit oracle dataType hfair hrated ?_ ?_ ?_ fun o d hne => ?_
  · simpa [State.getReputation] using hadmits
  · simp [State.getReputation]
  · simp [State.getReputation]
  · simp [State.getReputation, Function.update_of_ne hne]

/-- Every call that edits scores fairly keeps them fair. -/
theorem exec_edited (h : exec env e m = .ok ((), m'))
    (hedits : EditsFairly m.store env.now e) (hfair : Fair m) :
    Edited m m' := by
  have hsame : e.rates = false → Edited m m' := by
    intro he
    have hrecord : ∀ o d,
        m'.store.getReputation o d = m.store.getReputation o d := by
      intro o d
      unfold State.getReputation
      rw [exec_reputation h he]
    refine ⟨⟨(exec_wrote h).rated hfair.sound, fun o d => ?_⟩,
      fun o d hlower => ?_⟩
    · rw [hrecord]
      exact hfair.between o d
    · rw [hrecord] at hlower
      exact (lt_irrefl _ hlower).elim
  cases e with
  | setReputation => exact setReputation_edited hfair h hedits
  | submitData => exact submission_edited hfair h rfl (hedits _ rfl)
  | batchSubmitData => exact submission_edited hfair h rfl (hedits _ rfl)
  | submitDataBatch => exact submission_edited hfair h rfl (hedits _ rfl)
  | submitEncryptedData => exact submission_edited hfair h rfl (hedits _ rfl)
  | verifyTrigger =>
      obtain ⟨b, h⟩ := perform_ok.mp h
      exact .of_observed hfair (verifyTrigger_observed h)
  | verifyTriggerFresh =>
      obtain ⟨b, h⟩ := perform_ok.mp h
      exact .of_observed hfair (verifyTriggerFresh_observed h)
  | batchVerifyFresh =>
      obtain ⟨bs, h⟩ := perform_ok.mp h
      exact .of_observed hfair (batchVerifyFresh_observed h)
  | _ => exact hsame rfl

end Calls

/-! ## Runs -/

/-- Calls edit scores fairly. -/
def FairEdits (w : World State) : Label Entry → Prop
  | .call _ e => EditsFairly w.machine.store w.now e
  | _ => True

section Runs

variable {self : Address} {w₀ w : World State} {ls : List (Label Entry)}

theorem fair_inductive (self : Address) :
    ((system self).restrict FairEdits).Inductive fun w => Fair w.machine where
  init w hw := by
    have hstore : w.machine.store = State.deployed := by rw [hw.1]
    have hrated : (system self).Inductive fun w =>
        w.machine.store.core.Rated := rated_inductive
    have hsound := hrated.init w hw
    refine ⟨hsound, fun oracle dataType => ?_⟩
    have hrecord := hsound oracle dataType
    refine hrecord.between_earned ?_
    rw [hstore]
    rfl
  step w l w' h hstep := by
    obtain ⟨hedits, hstep⟩ := hstep
    cases hstep with
    | call _ hexec => exact (exec_edited hexec hedits h).fair
    | tick => exact h
    | transfer => exact ⟨h.sound, h.between⟩
    | mint => exact ⟨h.sound, h.between⟩

/-- In every run whose edits of scores are fair, scores stay in range, every
observation of a verification moves the score of its oracle the right way, and
where a call lowers a score, the next observation moves it by no more than it
is worth. -/
theorem reputation_moves_rightly (hinit : (system self).Init w₀)
    (hrun : ((system self).restrict FairEdits).Run w₀ ls w)
    (oracle : Address) (dataType : Symbol) :
    (w.machine.store.getReputation oracle dataType).score ≤ 1000 ∧
      (∀ env m accurate m', Observed env w.machine m →
        updateReputation env oracle dataType accurate m = .ok ((), m') →
        (m.store.getReputation oracle dataType).MovesRightly accurate
          (m'.store.getReputation oracle dataType)) ∧
      ∀ signers e w₁,
        ((system self).restrict FairEdits).Step w (.call signers e) w₁ →
        (w₁.machine.store.getReputation oracle dataType).score <
          (w.machine.store.getReputation oracle dataType).score →
        ∀ env accurate m',
          updateReputation env oracle dataType accurate w₁.machine =
            .ok ((), m') →
          (w₁.machine.store.getReputation oracle dataType).MovesByOne
            (m'.store.getReputation oracle dataType) := by
  have hreach : ((system self).restrict FairEdits).Reachable w :=
    TransitionSystem.Reachable.run (.init hinit) hrun
  have hfair := hreach.invariant (fair_inductive self)
  refine ⟨(hfair.sound oracle dataType).score, ?_, ?_⟩
  · intro env m accurate m' hobserved hupdate
    obtain ⟨hmid, -⟩ := hobserved.edited hfair
    have hsound := hmid.sound oracle dataType
    refine (hmid.between oracle dataType).movesRightly hsound ?_
    rw [(updateReputation_record hupdate).1]
    exact hsound.score_observe accurate env.now
  · rintro signers e w₁ ⟨hedits, hstep⟩ hlower env accurate m' hupdate
    obtain ⟨-, hexec⟩ := hstep.exec_eq
    have hedited := exec_edited hexec hedits hfair
    have hsound := hedited.fair.sound oracle dataType
    refine ((hedited.fair.between oracle dataType).movesByOne_iff hsound).mpr
      (hedited.lowered oracle dataType hlower) accurate _ ?_
    rw [(updateReputation_record hupdate).1]
    exact hsound.score_observe accurate env.now

end Runs

/-! ## A score taken back, and one that comes back -/

namespace Scenario

/-- The record of the first oracle. -/
def recordOf (w : World State) : OracleReputation :=
  w.machine.store.getReputation oracleA Symbols.weather

def rating (score : ℕ) : Label Entry :=
  .call [admin] (.setReputation admin oracleA Symbols.weather score)

def installed : World State :=
  (step exec verifier genesis (.call [admin] (.initializeVerifier admin))).get
    (by decide +kernel)

/-- The score is raised to 600, and taken back to 500. -/
def raised : World State :=
  (step exec verifier installed (rating 600)).get (by decide +kernel)

def takenBackScore : World State :=
  (step exec verifier raised (rating 500)).get (by decide +kernel)

/-- A trigger that finds both readings accurate. -/
def judging : Label Entry :=
  .call [] (.verifyTrigger Symbols.weather rain wet)

def praised : World State :=
  (step exec verifier reported judging).get (by decide +kernel)

def demoted : World State :=
  (step exec verifier praised (rating 0)).get (by decide +kernel)

def judgedAgain : World State :=
  (step exec verifier demoted judging).get (by decide +kernel)

end Scenario

open Scenario

/-- A failure takes the score of 500 to 0, which is what it is worth. -/
theorem reputation_moves_rightly_takenBack :
    (recordOf raised).score = 600 ∧ (recordOf takenBackScore).score = 500 ∧
      ∃ m', updateReputation (callEnv verifier takenBackScore []) oracleA
          Symbols.weather false takenBackScore.machine = .ok ((), m') ∧
        (recordOf takenBackScore).MovesByOne
          (m'.store.getReputation oracleA Symbols.weather) := by
  have hrun : ((system verifier).restrict FairEdits).Run genesis
      [.call [admin] (.initializeVerifier admin), rating 600] raised := by
    refine .cons (t := installed) ⟨nofun, step_sound (Option.some_get _).symm⟩
      (.cons ⟨?_, step_sound (Option.some_get _).symm⟩ (.nil _))
    show (recordOf installed).Admits 600
    decide +kernel
  have hstep : ((system verifier).restrict FairEdits).Step raised (rating 500)
      takenBackScore := by
    refine ⟨?_, step_sound (Option.some_get _).symm⟩
    show (recordOf raised).Admits 500
    decide +kernel
  have hraised : (recordOf raised).score = 600 := by decide +kernel
  have hback : (recordOf takenBackScore).score = 500 := by decide +kernel
  have hlower : (recordOf takenBackScore).score <
      (recordOf raised).score := by
    rw [hraised, hback]
    decide
  obtain ⟨-, -, hmoves⟩ := reputation_moves_rightly ⟨rfl, rfl⟩ hrun oracleA
    Symbols.weather
  refine ⟨hraised, hback, ?_⟩
  cases hupdate : updateReputation (callEnv verifier takenBackScore []) oracleA
      Symbols.weather false takenBackScore.machine with
  | ok p => exact ⟨p.2, rfl, hmoves _ _ _ hstep hlower _ _ _ hupdate⟩
  | error x =>
      have hfine : (updateReputation (callEnv verifier takenBackScore [])
          oracleA Symbols.weather false
          takenBackScore.machine).toOption.isSome = true := by
        decide +kernel
      rw [hupdate] at hfine
      cases hfine

/-- The administrator takes the score from 1000 to 0, and the next
verification, which finds the reading inaccurate, raises it to 500. -/
theorem reputation_reduction_undone :
    (system verifier).Reachable demoted ∧
      (system verifier).Step demoted judging judgedAgain ∧
      (recordOf praised).score = 1000 ∧
      (recordOf demoted).score = 0 ∧
      (recordOf demoted).totalSubmissions = 1 ∧
      (recordOf demoted).accurateSubmissions = 1 ∧
      (recordOf judgedAgain).totalSubmissions = 2 ∧
      (recordOf judgedAgain).accurateSubmissions = 1 ∧
      (recordOf judgedAgain).score = 500 := by
  have hpraised : (system verifier).Reachable praised :=
    reported_reachable.step (step_sound (Option.some_get _).symm)
  refine ⟨hpraised.step (step_sound (Option.some_get _).symm),
    step_sound (Option.some_get _).symm, ?_⟩
  decide +kernel

end Parashield.OracleVerifier
