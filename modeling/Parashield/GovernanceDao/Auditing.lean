import Parashield.GovernanceDao.Lifecycle
import Parashield.GovernanceDao.Stages

/-!
# Governance DAO: the audit trail

An execution writes a record of who proposed what was executed, when, and with
which votes.  Nothing else writes records, and a proposal is not touched any
more once it is executed, so the trail holds exactly the executed proposals as
they are stored.
-/

namespace Parashield.GovernanceDao

open Support Support.Contract Invocation

variable {self : Address} {env : Env} {s s' : State} {m m' : Machine State}
  {w w' : World State} {pid : ℕ} {p p' : Proposal} {e : Entry}

/-! ## Executed proposals -/

/-- The record of an execution of `p` at `now`. -/
def Proposal.audited (p : Proposal) (pid now : ℕ) : ExecutionAuditRecord where
  proposalId := pid
  executor := p.proposer
  target := p.target
  function := p.function
  executedAt := now
  votesFor := p.votesFor
  votesAgainst := p.votesAgainst

/-- The executed proposals of `s'` and their records are those of `s`. -/
structure SameTrail (s s' : State) : Prop where
  records : s'.executionAudit = s.executionAudit
  executed : ∀ pid p, p.status = .executed →
    (s'.proposal pid = some p ↔ s.proposal pid = some p)

theorem SameTrail.of_eq (hrecords : s'.executionAudit = s.executionAudit)
    (hproposal : s'.proposal = s.proposal) : SameTrail s s' where
  records := hrecords
  executed _ _ _ := by
    rw [hproposal]

/-- Replacing a proposal that is not executed by one that is not either. -/
theorem SameTrail.of_update {id : ℕ} {q' : Proposal}
    (status : ProposalStatus) (hrecords : s'.executionAudit = s.executionAudit)
    (hq : ∀ q, s.proposal id = some q → q.status ≠ .executed)
    (hstatus : q'.status = status) (hne : status ≠ .executed)
    (heq : s'.proposal = Function.update s.proposal id (some q')) :
    SameTrail s s' where
  records := hrecords
  executed pid p hp := by
    rw [heq]
    by_cases hid : pid = id
    · subst hid
      rw [Function.update_self, Option.some.injEq]
      constructor
      · rintro rfl
        exact absurd (hstatus.symm.trans hp) hne
      · intro hstored
        exact absurd hp (hq p hstored)
    · rw [Function.update_of_ne hid]

theorem ProposalStatus.IsOpen.ne_executed {status : ProposalStatus}
    (h : status.IsOpen) : status ≠ .executed := by
  rintro rfl
  exact absurd h (by simp [ProposalStatus.IsOpen])

theorem stored_ne_executed {id : ℕ} {q : Proposal}
    (hq : s.proposal id = some q) (hne : q.status ≠ .executed) :
    ∀ q', s.proposal id = some q' → q'.status ≠ .executed := by
  intro q' hq'
  obtain rfl := Option.some.inj (hq.symm.trans hq')
  exact hne

/-- Calls aside write no record. -/
theorem aside_executionAudit {u : Unit} (h : exec env e m = .ok (u, m'))
    (he : e.IsAside) : m'.store.executionAudit = m.store.executionAudit := by
  cases e with
  | registerTemplate =>
      simp [exec, registerTemplate, storeTemplate] at h
      obtain ⟨-, -, -, -, ⟨-, rfl⟩ | ⟨-, rfl⟩⟩ := h
      · rfl
      · rfl
  | deactivateTemplate =>
      simp [exec, deactivateTemplate, storeTemplate] at h
      obtain ⟨-, _, -, rfl⟩ := h
      rfl
  | setTimeWeight =>
      simp [exec, setTimeWeight] at h
      obtain ⟨-, -, rfl⟩ := h
      rfl
  | checkpointVotingPower =>
      simp [exec, checkpointVotingPower] at h
      obtain ⟨-, _, -, rfl⟩ := h
      rfl
  | setQuorumDecay =>
      simp [exec, setQuorumDecay] at h
      obtain ⟨-, _, -, -, -, -, -, rfl⟩ := h
      rfl
  | setImpactMultipliers =>
      simp [exec, setImpactMultipliers, forEach] at h
      obtain ⟨-, -, -, -, rfl⟩ := h
      rfl
  | pruneParticipationHistory =>
      simp [exec, pruneParticipationHistory] at h
      rw [h]
  | setRiskPool =>
      simp [exec, setRiskPool] at h
      obtain ⟨-, rfl⟩ := h
      rfl
  | setGuardians =>
      simp [exec, setGuardians] at h
      obtain ⟨-, -, -, rfl⟩ := h
      rfl
  | addComment =>
      simp [exec, addComment, storeComment] at h
      obtain ⟨-, -, _, -, -, -, rfl⟩ := h
      rfl
  | deleteComment =>
      simp [exec, deleteComment, storeComment] at h
      obtain ⟨-, -, rfl⟩ := h
      rfl
  | _ => exact he.elim

/-- What a change does to the trail: nothing, or an execution is added. -/
theorem Change.trail (h : Change env e m m') (he : ¬ e.IsAside)
    (hm : Numbered m.store) :
    SameTrail m.store m'.store ∨
      ∃ id q bps, m.store.Due env.now id q ∧
        env.now ≤ q.executionDeadline ∧
        m'.store = m.store.fulfilled env.now id q bps := by
  cases h with
  | aside haside _ _ => exact absurd haside he
  | initialized h =>
      obtain ⟨-, _, _, -, -, rfl⟩ := h
      exact .inl (.of_eq rfl rfl)
  | configured h =>
      obtain ⟨-, _, -, rfl⟩ := h
      exact .inl (.of_eq rfl rfl)
  | opened _ h =>
      obtain ⟨-, -, config, _, -, -, rfl⟩ := h
      have hopen := ProposalStatus.isOpen_schedule config env.now
      refine .inl (.of_update _ rfl (fun q hq => ?_) rfl hopen.ne_executed rfl)
      exact absurd (hm.stored _ q hq).2 (lt_irrefl _)
  | delegated _ _ _ heq =>
      rw [heq]
      exact .inl (.of_eq rfl rfl)
  | revoked _ _ _ heq =>
      rw [heq]
      exact .inl (.of_eq rfl rfl)
  | @voted voter choice ballots _ h =>
      obtain ⟨_, _, _, _, _, -, -, -, -, -, hballots, rfl⟩ := h.change
      have hrecords := congrArg State.executionAudit hballots.upToVotes.eq
      refine .inl ⟨hrecords, fun pid p hp => ?_⟩
      by_cases hmem : pid ∈ ballots.map Prod.fst
      · obtain ⟨⟨id, q⟩, hb, rfl⟩ := List.mem_map.mp hmem
        have heligible := h.eligible _ hb
        obtain ⟨weight, -, hq⟩ := hballots.proposal_of_mem h.distinct hb
        constructor
        · intro hstored
          obtain rfl := Option.some.inj (hq.symm.trans hstored)
          rw [Proposal.setVotes_status, heligible.active] at hp
          cases hp
        · intro hstored
          obtain rfl := Option.some.inj (heligible.stored.symm.trans hstored)
          rw [heligible.active] at hp
          cases hp
      · rw [hballots.proposal_of_notMem hmem]
  | withdrawn _ h =>
      obtain ⟨_, _, -, -, rfl⟩ := h.change
      exact .inl (.of_eq rfl rfl)
  | passed _ h =>
      obtain ⟨q, _, _, hq, hactive, -, -, -, rfl⟩ := h
      refine .inl (.of_update .passed rfl (stored_ne_executed hq ?_) rfl
        (by decide) rfl)
      rw [hactive]
      decide
  | @refunded _ _ status _ h =>
      obtain ⟨q, _, _, _, _, hq, hopen, -, -, -, -, rfl⟩ := h.change
      refine .inl (.of_update status rfl
        (stored_ne_executed hq hopen.ne_executed) rfl ?_ rfl)
      rcases h.outcome with rfl | rfl
      · decide
      · decide
  | started _ h =>
      obtain ⟨q, _, hq, hdiscussed, -, -, -, rfl⟩ := h
      refine .inl (.of_update .active rfl (stored_ne_executed hq ?_) rfl
        (by decide) rfl)
      rw [hdiscussed]
      decide
  | lapsed _ h =>
      obtain ⟨q, hdue, -, rfl⟩ := h
      refine .inl (.of_update .expired rfl
        (stored_ne_executed hdue.stored ?_) rfl (by decide) rfl)
      rw [hdue.passed]
      decide
  | executed _ h =>
      obtain ⟨q, _, bps, _, _, hdue, hdeadline, -, -, -, -, -, rfl⟩ := h
      exact .inr ⟨_, q, bps, hdue, hdeadline, rfl⟩
  | vetoed _ h =>
      obtain ⟨q, _, hq, hexecuted, -, rfl⟩ := h.change
      refine .inl (.of_update q.status rfl (stored_ne_executed hq hexecuted)
        ?_ hexecuted rfl)
      rfl

/-! ## The trail over runs -/

/-- The records are those of the executed proposals, made in their windows. -/
structure Audited (s : State) (now : ℕ) : Prop where
  recorded : ∀ pid a, s.executionAudit pid = some a →
    ∃ p, s.proposal pid = some p ∧ p.status = .executed ∧
      a = p.audited pid a.executedAt ∧ p.executionTime ≤ a.executedAt ∧
      a.executedAt ≤ p.executionDeadline ∧ a.executedAt ≤ now
  complete : ∀ pid p, s.proposal pid = some p → p.status = .executed →
    (s.executionAudit pid).isSome = true

theorem Audited.sameTrail {now : ℕ} (h : Audited s now)
    (htrail : SameTrail s s') : Audited s' now where
  recorded pid a ha := by
    rw [htrail.records] at ha
    obtain ⟨p, hp, hexecuted, hrecord⟩ := h.recorded pid a ha
    exact ⟨p, (htrail.executed pid p hexecuted).mpr hp, hexecuted, hrecord⟩
  complete pid p hp hexecuted := by
    rw [htrail.records]
    exact h.complete pid p ((htrail.executed pid p hexecuted).mp hp) hexecuted

theorem Audited.fulfilled {now id bps : ℕ} {q : Proposal} (h : Audited s now)
    (hdue : s.Due now id q) (hdeadline : now ≤ q.executionDeadline) :
    Audited (s.fulfilled now id q bps) now where
  recorded pid a ha := by
    by_cases hid : pid = id
    · subst hid
      have hself : (s.fulfilled now pid q bps).executionAudit pid = _ :=
        Function.update_self ..
      obtain rfl := Option.some.inj (hself.symm.trans ha)
      exact ⟨_, Function.update_self .., rfl, rfl, hdue.unlocked, hdeadline,
        le_rfl⟩
    · have hother : s.executionAudit pid = some a :=
        (Function.update_of_ne hid _ _).symm.trans ha
      obtain ⟨p, hp, hrecord⟩ := h.recorded pid a hother
      exact ⟨p, (Function.update_of_ne hid _ _).trans hp, hrecord⟩
  complete pid p hp hexecuted := by
    by_cases hid : pid = id
    · subst hid
      have hself : (s.fulfilled now pid q bps).executionAudit pid = _ :=
        Function.update_self ..
      rw [hself]
      rfl
    · have hother : s.proposal pid = some p :=
        (Function.update_of_ne hid _ _).symm.trans hp
      have hkept : (s.fulfilled now id q bps).executionAudit pid =
          s.executionAudit pid := Function.update_of_ne hid _ _
      rw [hkept]
      exact h.complete pid p hother hexecuted

/-- A record is not replaced: what is executed is not due. -/
theorem Audited.kept {now id bps : ℕ} {q : Proposal} (h : Audited s now)
    (hdue : s.Due now id q) {a : ExecutionAuditRecord}
    (ha : s.executionAudit pid = some a) :
    (s.fulfilled now id q bps).executionAudit pid = some a := by
  have hid : pid ≠ id := by
    rintro rfl
    obtain ⟨p, hp, hexecuted, -⟩ := h.recorded pid a ha
    obtain rfl := Option.some.inj (hp.symm.trans hdue.stored)
    rw [hdue.passed] at hexecuted
    cases hexecuted
  exact (Function.update_of_ne hid _ _).trans ha

/-- What holds of the trail before a call holds after it, and no record is
lost. -/
theorem exec_audited {u : Unit} (h : exec env e m = .ok (u, m'))
    (hm : Numbered m.store) (ha : Audited m.store env.now) :
    Audited m'.store env.now ∧
      ∀ pid a, m.store.executionAudit pid = some a →
        m'.store.executionAudit pid = some a := by
  by_cases he : e.IsAside
  · have hsame : SameTrail m.store m'.store :=
      .of_eq (aside_executionAudit h he) (aside_spec h he).1.proposal
    refine ⟨ha.sameTrail hsame, fun pid a hrecord => ?_⟩
    rw [hsame.records]
    exact hrecord
  · refine (changes_keep (I := fun t => Numbered t.store ∧
      Audited t.store env.now ∧
      ∀ pid a, m.store.executionAudit pid = some a →
        t.store.executionAudit pid = some a) ?_ (exec_changes h)
      ⟨hm, ha, fun _ _ => id⟩).2
    rintro t t' hchange ⟨hnumbered, ht, hkept⟩
    refine ⟨hchange.numbered hnumbered, ?_⟩
    rcases hchange.trail he hnumbered with
      hsame | ⟨id, q, bps, hdue, hdeadline, hstore⟩
    · refine ⟨ht.sameTrail hsame, fun pid a hrecord => ?_⟩
      rw [hsame.records]
      exact hkept pid a hrecord
    · rw [hstore]
      exact ⟨ht.fulfilled hdue hdeadline, fun pid a hrecord =>
        ht.kept hdue (hkept pid a hrecord)⟩

theorem Audited.later {now now' : ℕ} (h : Audited s now)
    (hle : now ≤ now') : Audited s now' where
  recorded pid a ha := by
    obtain ⟨p, hp, hexecuted, heq, hunlocked, hdeadline, hpast⟩ :=
      h.recorded pid a ha
    exact ⟨p, hp, hexecuted, heq, hunlocked, hdeadline, hpast.trans hle⟩
  complete := h.complete

theorem step_audited {l : Label Entry} (hstep : (system self).Step w l w')
    (hm : Numbered w.machine.store) (ha : Audited w.machine.store w.now) :
    Audited w'.machine.store w'.now ∧
      ∀ pid a, w.machine.store.executionAudit pid = some a →
        w'.machine.store.executionAudit pid = some a := by
  cases hstep with
  | call _ hexec => exact exec_audited hexec hm ha
  | tick => exact ⟨ha.later (Nat.le_add_right _ _), fun _ _ => id⟩
  | transfer => exact ⟨ha, fun _ _ => id⟩
  | mint => exact ⟨ha, fun _ _ => id⟩

theorem audited_inductive (self : Address) :
    (system self).Inductive fun w =>
      Numbered w.machine.store ∧ Audited w.machine.store w.now where
  init w hw := by
    refine ⟨(numbered_inductive self).init w hw, ?_⟩
    rw [hw.1]
    refine ⟨fun pid a ha => ?_, fun pid p hp => ?_⟩
    · cases ha
    · cases hp
  step w l w' h hstep :=
    ⟨(numbered_inductive self).step w l w' h.1 hstep,
      (step_audited hstep h.1 h.2).1⟩

/-- In every reachable state there is a record for exactly the executed
proposals.  It names the proposer, the target and the function, the final
votes and a time in the window in which the proposal could be executed, and
stays the same over every further run. -/
theorem audit_trail_exact {ls : List (Label Entry)}
    (hw : (system self).Reachable w) (hrun : (system self).Run w ls w')
    (pid : ℕ) :
    ((w.machine.store.executionAudit pid).isSome = true ↔
        ∃ p, w.machine.store.proposal pid = some p ∧
          p.status = .executed) ∧
      ∀ a, w.machine.store.executionAudit pid = some a →
        w'.machine.store.executionAudit pid = some a ∧
        ∃ p, w.machine.store.proposal pid = some p ∧
          a = p.audited pid a.executedAt ∧
          p.executionTime ≤ a.executedAt ∧
          a.executedAt ≤ p.executionDeadline ∧ a.executedAt ≤ w.now := by
  have hsound := hw.invariant (audited_inductive self)
  refine ⟨⟨fun hsome => ?_, ?_⟩, fun a ha => ⟨?_, ?_⟩⟩
  · obtain ⟨a, ha⟩ := Option.isSome_iff_exists.mp hsome
    obtain ⟨p, hp, hexecuted, -⟩ := hsound.2.recorded pid a ha
    exact ⟨p, hp, hexecuted⟩
  · rintro ⟨p, hp, hexecuted⟩
    exact hsound.2.complete pid p hp hexecuted
  · refine (hrun.preserves (Q := fun t => (Numbered t.machine.store ∧
      Audited t.machine.store t.now) ∧
      t.machine.store.executionAudit pid = some a) ?_ ⟨hsound, ha⟩).2
    rintro t l t' ⟨ht, hrecord⟩ hstep
    exact ⟨(audited_inductive self).step t l t' ht hstep,
      (step_audited hstep ht.1 ht.2).2 pid a hrecord⟩
  · obtain ⟨p, hp, -, hrecord⟩ := hsound.2.recorded pid a ha
    exact ⟨p, hp, hrecord⟩

open Scenario in
theorem audit_trail_exact_enacted :
    (enacted.machine.store.executionAudit 0).isSome = true ↔
      ∃ p, enacted.machine.store.proposal 0 = some p ∧ p.status = .executed := by
  have hinit : (system dao).Init genesis := ⟨rfl, rfl⟩
  have hrun : (system dao).Run genesis enacting enacted :=
    TransitionSystem.run_of_execute (fun _ _ _ => step_sound)
      (Option.some_get _).symm
  have hreachable := (TransitionSystem.Reachable.init hinit).run hrun
  exact (audit_trail_exact hreachable (.nil _) 0).1

end Parashield.GovernanceDao
