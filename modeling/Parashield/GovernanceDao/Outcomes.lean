import Parashield.GovernanceDao.Finalizing
import Parashield.GovernanceDao.Stages

/-!
# Governance DAO: late outcomes

After the reclaim timeout anyone may close a proposal as Failed whatever its
tally.  The execution deadline is set at the creation and the execution time
at the finalization, so a proposal that passes late cannot be executed.
-/

namespace Parashield.GovernanceDao

open Support Support.Contract Invocation

variable {self : Address} {env : Env} {e : Entry} {m m' t : Machine State}
  {w w₁ w₂ w' : World State} {pid : ℕ} {p p' : Proposal} {config : DaoConfig}

/-! ## Reclaimed deposits -/

theorem reclaimDeposit_iff {handles : Handles} {u : Unit} :
    reclaimDeposit env handles pid m = .ok (u, m') ↔
      ∃ p config B, m.store.proposal pid = some p ∧ p.status = .active ∧
        satAddU64 p.voteEnd depositReclaimTimeout < env.now ∧
        m.store.config = some config ∧ p.Addable ∧
        m.bank.transfer config.govToken env.self p.proposer p.deposit =
          some B ∧
        m' = ⟨m.store.closed handles pid p { p with status := .failed }
          (m.store.attended p) (.depositReclaimed pid p.proposer p.deposit),
          B⟩ := by
  simp only [reclaimDeposit, recordParticipation, refundDeposit, storeProposal,
    clearProposalHash, storeHash, publish, bind_ok, loadProposal_ok,
    loadConfig_ok, ensure_ok, update_ok, transferToken_ok, totalVotes_iff]
  constructor
  · rintro ⟨p, _, ⟨hp, rfl⟩, _, _, ⟨hactive, rfl⟩, _, _, ⟨hdue, rfl⟩, config, _,
      ⟨hconfig, rfl⟩, votes, _, ⟨hadd, rfl, rfl⟩, _, _, rfl, _, _,
      ⟨-, B, hB, rfl⟩, _, _, rfl, _, _, rfl, rfl⟩
    exact ⟨p, config, B, hp, hactive, hdue, hconfig, hadd, hB, rfl⟩
  · rintro ⟨p, config, B, hp, hactive, hdue, hconfig, hadd, hB, rfl⟩
    exact ⟨p, m, ⟨hp, rfl⟩, (), m, ⟨hactive, rfl⟩, (), m, ⟨hdue, rfl⟩, config, m,
      ⟨hconfig, rfl⟩, _, m, ⟨hadd, rfl, rfl⟩, (), _, rfl, (), _,
      ⟨.inl trivial, B, hB, rfl⟩, (), _, rfl, (), _, rfl, rfl⟩

/-- The proposal `pid` has the same status in both worlds, and its proposer as
many tokens. -/
structure SameSettlement (token : Address) (pid : ℕ) (w₁ w₂ : World State) :
    Prop where
  status : (w₁.machine.store.proposal pid).map Proposal.status =
    (w₂.machine.store.proposal pid).map Proposal.status
  balance : ∀ p, w₁.machine.store.proposal pid = some p →
    w₁.machine.bank.balance token p.proposer =
      w₂.machine.bank.balance token p.proposer

/-- What a reclaim leaves is what the finalization of a failing proposal
leaves, up to the event. -/
theorem reclaim_finalizes {signers signers' : List Address}
    {handles handles' : Handles} (hclock : w.now ≤ maxU64)
    (hp : w.machine.store.proposal pid = some p)
    (hconfig : w.machine.store.config = some config)
    (hself : self ∉ signers')
    (hreclaim : (system self).Step w
      (.call signers (.reclaimDeposit handles pid)) w₁)
    (hfail : ¬ w.machine.store.Approves config p) :
    ∃ w₂, (system self).Step w (.call signers' (.finalize handles' pid)) w₂ ∧
      SameSettlement config.govToken pid w₁ w₂ := by
  cases hreclaim with
  | call _ hexec =>
      obtain ⟨q, c, B, hq, hactive, hdue, hc, hadd, hB, rfl⟩ :=
        reclaimDeposit_iff.mp hexec
      obtain rfl := Option.some.inj (hp.symm.trans hq)
      obtain rfl := Option.some.inj (hconfig.symm.trans hc)
      have hfinalizable : w.machine.store.Finalizable w.now pid p := by
        -- the timeout is not saturated, since it is over
        change satAddU64 p.voteEnd depositReclaimTimeout < w.now at hdue
        unfold satAddU64 depositReclaimTimeout at hdue
        unfold maxU64 at hdue hclock
        have hdelay : finalizeDelay = 300 := rfl
        exact ⟨hp, hactive, by omega, by omega⟩
      have hfinalized : Finalized (callEnv self w signers') handles' pid
          w.machine _ :=
        ⟨p, config, hfinalizable, hconfig, hadd, .failed hfail hB rfl⟩
      refine ⟨_, .call hself (finalize_iff.mpr hfinalized), ?_, fun _ _ => rfl⟩
      change Option.map Proposal.status ((State.closed _ _ _ _ _ _ _).proposal
        pid) = Option.map Proposal.status ((State.closed _ _ _ _ _ _
          _).proposal pid)
      rw [State.closed_proposal, State.closed_proposal]

/-- A reclaim leaves the status and the deposit that a finalization would
leave exactly if the tally does not pass. -/
theorem reclaim_agrees_iff {signers signers' : List Address}
    {handles handles' : Handles} (hclock : w.now ≤ maxU64)
    (hp : w.machine.store.proposal pid = some p)
    (hconfig : w.machine.store.config = some config)
    (hself : self ∉ signers')
    (hreclaim : (system self).Step w
      (.call signers (.reclaimDeposit handles pid)) w₁) :
    (∃ w₂, (system self).Step w (.call signers' (.finalize handles' pid)) w₂ ∧
      SameSettlement config.govToken pid w₁ w₂) ↔
      ¬ w.machine.store.Approves config p := by
  refine ⟨?_, reclaim_finalizes hclock hp hconfig hself hreclaim⟩
  rintro ⟨w₂, hstep, hsame⟩ happroves
  cases hreclaim with
  | call _ hexec =>
      obtain ⟨q, c, B, hq, -, -, hc, -, -, rfl⟩ := reclaimDeposit_iff.mp hexec
      cases hstep with
      | call _ hexec' =>
          obtain ⟨q', c', hq', hc', -, hconcluded⟩ := finalize_iff.mp hexec'
          obtain rfl := Option.some.inj (hp.symm.trans hq'.stored)
          obtain rfl := Option.some.inj (hconfig.symm.trans hc')
          cases hconcluded with
          | failed hfail _ _ => exact hfail happroves
          | passed _ _ heq =>
              have hstatus := hsame.status
              rw [heq] at hstatus
              change Option.map Proposal.status
                ((State.closed _ _ _ _ _ _ _).proposal pid) =
                  Option.map Proposal.status
                    ((State.closed _ _ _ _ _ _ _).proposal pid) at hstatus
              rw [State.closed_proposal, State.closed_proposal] at hstatus
              cases hstatus

/-! ## Execution windows -/

/-- A proposal that a call passes was decided by it. -/
theorem exec_decides {u : Unit} (h : exec env e m = .ok (u, m'))
    (hm : Numbered m.store) (hp : m.store.proposal pid = some p)
    (hbefore : p.status ≠ .passed) (hp' : m'.store.proposal pid = some p')
    (hpassed : p'.status = .passed) :
    ∃ t config, Decides env pid m t m' e ∧ t.store.config = some config ∧
      m.store.config = some config ∧ t.store.proposal pid = some p ∧
      p'.executionTime = env.now + config.proposalTimelock := by
  obtain ⟨q, hq, hturn⟩ := exec_turn h hm hp
  obtain rfl := Option.some.inj (hp'.symm.trans hq)
  cases hturn with
  | steady hsame _ => exact absurd (hsame.symm.trans hpassed) hbefore
  | started _ _ hstatus => cases hpassed.symm.trans hstatus
  | lapsed _ _ hstatus => cases hpassed.symm.trans hstatus
  | executed _ _ hstatus => cases hpassed.symm.trans hstatus
  | refunded _ _ hstatus =>
      rcases hstatus with hstatus | hstatus
      · cases hpassed.symm.trans hstatus
      · cases hpassed.symm.trans hstatus
  | @passed config hclosing hactive _ hconfig _ htime =>
      have hdecides : ∃ t, Decides env pid m t m' e := by
        cases e with
        | finalize handles id =>
            have hid : id = pid := by
              by_contra hne
              exact hclosing (if_neg hne)
            subst hid
            exact ⟨m, .alone h rfl⟩
        | finalizeBatch handles ids =>
            have hmem : pid ∈ ids := by
              by_contra hnot
              exact hclosing (if_neg hnot)
            exact decides_of_mem h hmem
        | reclaimDeposit handles id =>
            have hid : id = pid := by
              by_contra hne
              exact hclosing (if_neg hne)
            subst hid
            obtain ⟨_, _, _, _, -, -, -, -, -, rfl⟩ := reclaimDeposit_iff.mp h
            rw [State.closed_proposal] at hp'
            obtain rfl := Option.some.inj hp'
            cases hpassed
        | cancel handles admin id =>
            have hid : id = pid := by
              by_contra hne
              exact hclosing (if_neg hne)
            subst hid
            obtain ⟨_, _, _, _, _, -, -, -, -, -, -, rfl⟩ :=
              (cancel_spec h).change
            rw [State.closed_proposal] at hp'
            obtain rfl := Option.some.inj hp'
            cases hpassed
        | execute handles outcome id =>
            have hid : id = pid := by
              by_contra hne
              exact hclosing (if_neg hne)
            subst hid
            rcases execute_spec h with ⟨q, hdue, -⟩ |
                ⟨q, _, _, _, _, hdue, -⟩
            · obtain rfl := Option.some.inj (hp.symm.trans hdue.stored)
              exact absurd hdue.passed hbefore
            · obtain rfl := Option.some.inj (hp.symm.trans hdue.stored)
              exact absurd hdue.passed hbefore
        | _ => exact absurd rfl hclosing
      obtain ⟨t, hdecides⟩ := hdecides
      obtain ⟨q, c, hq', hq, hc', hc⟩ := hdecides.stored
      obtain rfl := Option.some.inj (hp.symm.trans hq)
      obtain rfl := Option.some.inj (hconfig.symm.trans hc)
      exact ⟨t, config, hdecides, hc', hc, hq', htime⟩

/-- The deadline follows from the end of the voting. -/
def Dated (s : State) : Prop :=
  ∀ pid p, s.proposal pid = some p → p.executionDeadline =
    satAddU64 (satAddU64 p.voteEnd finalizeDelay) executionWindow

theorem dated_inductive (self : Address) :
    (system self).Inductive fun w =>
      Numbered w.machine.store ∧ Dated w.machine.store := by
  refine (numbered_inductive self).and (fun w hw => ?_)
    fun w l w' hm _ hdated hstep => ?_
  · intro pid p hp
    rw [hw.1, show State.deployed.proposal pid = none from rfl] at hp
    cases hp
  · intro pid p' hp'
    cases hp : w.machine.store.proposal pid with
    | none =>
        obtain ⟨_, o, config, -, rfl⟩ := step_created hstep hp hp'
        rfl
    | some p =>
        obtain ⟨q, hq, hterms⟩ := run_hasTerms (.cons hstep (.nil w')) hm hp
        obtain rfl := Option.some.inj (hp'.symm.trans hq)
        rw [hterms.executionDeadline, hterms.voteEnd]
        exact hdated pid p hp

/-- The timelock from `now` on is over by the deadline of the proposal. -/
def Proposal.InTime (p : Proposal) (now : ℕ) (config : DaoConfig) : Prop :=
  now + config.proposalTimelock ≤
    satAddU64 (satAddU64 p.voteEnd finalizeDelay) executionWindow

/-- Each proposal that a call finds passing is decided in time. -/
def PassedInTime (self : Address) (w : World State) : Label Entry → Prop
  | .call signers e => ∀ pid t m' config p,
      Decides (callEnv self w signers) pid w.machine t m' e →
      t.store.config = some config → t.store.proposal pid = some p →
      t.store.Approves config p → p.InTime w.now config
  | _ => True

/-- Passed proposals have an execution time within their deadline. -/
def Windowed (s : State) : Prop :=
  ∀ pid p, s.proposal pid = some p → p.status = .passed →
    p.executionTime ≤ p.executionDeadline

theorem step_windowed {l : Label Entry} (hm : Numbered w.machine.store)
    (hdated : Dated w.machine.store) (hwindowed : Windowed w.machine.store)
    (hguard : PassedInTime self w l) (hstep : (system self).Step w l w') :
    Windowed w'.machine.store := by
  intro pid p' hp' hpassed
  cases hp : w.machine.store.proposal pid with
  | none =>
      obtain ⟨_, o, config, -, rfl⟩ := step_created hstep hp hp'
      rcases ProposalStatus.isOpen_schedule config w.now with hopen | hopen
      · cases hpassed.symm.trans hopen
      · cases hpassed.symm.trans hopen
  | some p =>
      obtain ⟨q, hq, hterms⟩ := run_hasTerms (.cons hstep (.nil w')) hm hp
      obtain rfl := Option.some.inj (hp'.symm.trans hq)
      by_cases hbefore : p.status = .passed
      · -- a Passed proposal keeps its execution time
        obtain ⟨q, hq, hturn⟩ := step_turn hstep hm hp
        obtain rfl := Option.some.inj (hp'.symm.trans hq)
        have htime : p'.executionTime = p.executionTime := by
          rcases hturn with ⟨-, hsame⟩ | ⟨_, _, -, hturn⟩
          · exact hsame
          · cases hturn with
            | steady _ hsame => exact hsame
            | started _ hdiscussed _ => cases hbefore.symm.trans hdiscussed
            | passed _ hactive _ _ _ _ => cases hbefore.symm.trans hactive
            | refunded _ hnext hstatus =>
                rw [hbefore] at hnext
                rw [hpassed] at hnext
                cases hnext
            | lapsed _ _ hstatus => cases hpassed.symm.trans hstatus
            | executed _ _ hstatus => cases hpassed.symm.trans hstatus
        rw [htime, hterms.executionDeadline]
        exact hwindowed pid p hp hbefore
      · cases hstep with
        | call _ hexec =>
            obtain ⟨t, config, hdecides, hconfig, -, hstored, htime⟩ :=
              exec_decides hexec hm hp hbefore hp' hpassed
            have happroves := (hdecides.isPassed_iff hconfig hstored).mp
              ⟨p', hp', hpassed⟩
            rw [htime, hterms.executionDeadline, hdated pid p hp]
            exact hguard pid t _ config p hdecides hconfig hstored happroves
        | tick =>
            obtain rfl := Option.some.inj (hp.symm.trans hp')
            exact absurd hpassed hbefore
        | transfer =>
            obtain rfl := Option.some.inj (hp.symm.trans hp')
            exact absurd hpassed hbefore
        | mint =>
            obtain rfl := Option.some.inj (hp.symm.trans hp')
            exact absurd hpassed hbefore

theorem windowed_inductive (self : Address) :
    ((system self).restrict (PassedInTime self)).Inductive fun w =>
      (Numbered w.machine.store ∧ Dated w.machine.store) ∧
        Windowed w.machine.store := by
  refine ((dated_inductive self).restrict _).and (fun w hw => ?_)
    fun w l w' ⟨hm, hdated⟩ _ hwindowed ⟨hguard, hstep⟩ =>
      step_windowed hm hdated hwindowed hguard hstep
  intro pid p hp
  rw [hw.1, show State.deployed.proposal pid = none from rfl] at hp
  cases hp

/-- After some wait the timelock of `p` is over and its deadline is not. -/
def Proposal.Opens (p : Proposal) (self : Address) (w : World State) : Prop :=
  ∃ seconds v, (system self).Step w (.tick seconds) v ∧
    p.executionTime ≤ v.now ∧ v.now ≤ p.executionDeadline

/-- Proposals that pass keep an execution window in every run that decides
them in time, and a step that passes one leaves it a window exactly if it
does. -/
theorem execution_window_iff :
    (∀ w, ((system self).restrict (PassedInTime self)).Reachable w →
      ∀ pid p, w.machine.store.proposal pid = some p → p.status = .passed →
        p.executionTime ≤ p.executionDeadline) ∧
    ∀ w l w' pid p p', (system self).Reachable w → (system self).Step w l w' →
      w.machine.store.proposal pid = some p → p.status ≠ .passed →
      w'.machine.store.proposal pid = some p' → p'.status = .passed →
      ∃ config, w.machine.store.config = some config ∧
        (p'.executionTime ≤ p'.executionDeadline ↔ p.InTime w.now config) ∧
        (p'.Opens self w' ↔ p.InTime w.now config) := by
  refine ⟨fun w hw => (hw.invariant (windowed_inductive self)).2,
    fun w l w' pid p p' hw hstep hp hbefore hp' hpassed => ?_⟩
  obtain ⟨hm, hdated⟩ := hw.invariant (dated_inductive self)
  obtain ⟨q, hq, hterms⟩ := run_hasTerms (.cons hstep (.nil w')) hm hp
  obtain rfl := Option.some.inj (hp'.symm.trans hq)
  have hdeadline : p'.executionDeadline =
      satAddU64 (satAddU64 p.voteEnd finalizeDelay) executionWindow :=
    hterms.executionDeadline.trans (hdated pid p hp)
  have hmax : p'.executionDeadline ≤ maxU64 :=
    hdeadline.trans_le (Nat.min_le_right _ _)
  cases hstep with
  | @call signers e m' _ hexec =>
      obtain ⟨t, config, -, -, hconfig, -, htime⟩ :=
        exec_decides hexec hm hp hbefore hp' hpassed
      change p'.executionTime = w.now + config.proposalTimelock at htime
      have hwindow : p'.executionTime ≤ p'.executionDeadline ↔
          p.InTime w.now config := by
        rw [htime, hdeadline, Proposal.InTime]
      refine ⟨config, hconfig, hwindow, ?_⟩
      rw [← hwindow]
      constructor
      · rintro ⟨seconds, v, -, hover, hopen⟩
        exact hover.trans hopen
      · intro hle
        exact ⟨config.proposalTimelock, _,
          .tick (htime.symm.trans_le (hle.trans hmax)), htime.le,
          htime.symm.trans_le hle⟩
  | tick =>
      obtain rfl := Option.some.inj (hp.symm.trans hp')
      exact absurd hpassed hbefore
  | transfer =>
      obtain rfl := Option.some.inj (hp.symm.trans hp')
      exact absurd hpassed hbefore
  | mint =>
      obtain rfl := Option.some.inj (hp.symm.trans hp')
      exact absurd hpassed hbefore

/-! ## A vote that is left alone -/

namespace Scenario

/-- Alice votes for her proposal, and nobody closes it for two weeks. -/
def neglecting : List (Label Entry) :=
  [.call [alice] (.vote alice 0 .for), .tick (604800 + 1209600 + 1)]

def neglected : World State :=
  (TransitionSystem.execute (step exec dao) neglecting proposed).get
    (by decide +kernel)

/-- Nobody votes on it. -/
def ignored : World State :=
  (step exec dao proposed (.tick (604800 + 1209600 + 1))).get
    (by decide +kernel)

/-- Alice votes, and the vote is closed soon after its end. -/
def timely : World State :=
  (TransitionSystem.execute (step exec dao)
    [.call [alice] (.vote alice 0 .for), .tick 605101] proposed).get
      (by decide +kernel)

def reclaiming : Label Entry := .call [] (.reclaimDeposit inOrder 0)

def finalizing : Label Entry := .call [] (.finalize inOrder 0)

def neglectedReclaimed : World State :=
  (step exec dao neglected reclaiming).get (by decide +kernel)

def neglectedFinalized : World State :=
  (step exec dao neglected finalizing).get (by decide +kernel)

def ignoredReclaimed : World State :=
  (step exec dao ignored reclaiming).get (by decide +kernel)

def timelyFinalized : World State :=
  (step exec dao timely finalizing).get (by decide +kernel)

def timelyPassed : Proposal :=
  (timelyFinalized.machine.store.proposal 0).get (by decide +kernel)

def neglectedMotion : Proposal :=
  (neglected.machine.store.proposal 0).get (by decide +kernel)

def latePassed : Proposal :=
  (neglectedFinalized.machine.store.proposal 0).get (by decide +kernel)

theorem neglected_reachable : (system dao).Reachable neglected := by
  have hrun : (system dao).Run proposed neglecting neglected :=
    TransitionSystem.run_of_execute (fun _ _ _ => step_sound)
      (Option.some_get _).symm
  exact proposed_reachable.run hrun

theorem timely_reachable : (system dao).Reachable timely := by
  have hrun : (system dao).Run proposed
      [.call [alice] (.vote alice 0 .for), .tick 605101] timely :=
    TransitionSystem.run_of_execute (fun _ _ _ => step_sound)
      (Option.some_get _).symm
  exact proposed_reachable.run hrun

theorem neglectedFinalized_step :
    (system dao).Step neglected finalizing neglectedFinalized :=
  step_sound (Option.some_get _).symm

theorem neglected_approved : neglected.machine.store.Approves Scenario.config
    neglectedMotion := by
  unfold State.Approves
  decide +kernel

end Scenario

open Scenario

theorem reclaim_agrees_iff_ignored :
    ∃ w₂, (system dao).Step ignored finalizing w₂ ∧
      SameSettlement shield 0 ignoredReclaimed w₂ := by
  have hfail : ¬ ignored.machine.store.Approves Scenario.config
      ((ignored.machine.store.proposal 0).get (by decide +kernel)) := by
    unfold State.Approves
    decide +kernel
  exact (reclaim_agrees_iff (by decide +kernel)
    (Option.some_get _).symm (by decide +kernel) (by decide)
    (step_sound (l := reclaiming) (Option.some_get _).symm)).mpr hfail

/-- A proposal that meets quorum and majority is turned into Failed. -/
theorem reclaim_fails_passing :
    (system dao).Reachable neglected ∧
    neglected.machine.store.Approves Scenario.config neglectedMotion ∧
    (system dao).Step neglected reclaiming neglectedReclaimed ∧
    (neglectedReclaimed.machine.store.proposal 0).map Proposal.status =
      some .failed ∧
    (system dao).Step neglected finalizing neglectedFinalized ∧
    (neglectedFinalized.machine.store.proposal 0).map Proposal.status =
      some .passed ∧
    ¬ SameSettlement shield 0 neglectedReclaimed neglectedFinalized := by
  have hfailed : (neglectedReclaimed.machine.store.proposal 0).map
      Proposal.status = some .failed := by
    decide +kernel
  have hpassed : (neglectedFinalized.machine.store.proposal 0).map
      Proposal.status = some .passed := by
    decide +kernel
  refine ⟨neglected_reachable, neglected_approved,
    step_sound (Option.some_get _).symm, hfailed, neglectedFinalized_step,
    hpassed, fun h => ?_⟩
  have hsame := h.status
  rw [hfailed, hpassed] at hsame
  cases hsame

theorem execution_window_iff_timely : timelyPassed.Opens dao timelyFinalized := by
  have hstored : timely.machine.store.proposal 0 =
      some ((timely.machine.store.proposal 0).get (by decide +kernel)) :=
    (Option.some_get _).symm
  have hstep : (system dao).Step timely finalizing timelyFinalized :=
    step_sound (Option.some_get _).symm
  obtain ⟨config, hconfig, -, hopens⟩ := execution_window_iff.2 timely
    finalizing timelyFinalized 0 _ timelyPassed timely_reachable hstep hstored
    (by decide +kernel) (Option.some_get _).symm (by decide +kernel)
  have hplain : timely.machine.store.config = some Scenario.config := by
    decide +kernel
  obtain rfl := Option.some.inj (hconfig.symm.trans hplain)
  refine hopens.mpr ?_
  unfold Proposal.InTime
  decide +kernel

/-- A proposal that passes late has its execution time after its deadline. -/
theorem execution_window_empty :
    (system dao).Reachable neglected ∧
    (system dao).Step neglected finalizing neglectedFinalized ∧
    neglectedFinalized.machine.store.proposal 0 = some latePassed ∧
    latePassed.status = .passed ∧
    latePassed.executionDeadline < latePassed.executionTime :=
  ⟨neglected_reachable, neglectedFinalized_step, (Option.some_get _).symm,
    by decide +kernel, by decide +kernel⟩

end Parashield.GovernanceDao
