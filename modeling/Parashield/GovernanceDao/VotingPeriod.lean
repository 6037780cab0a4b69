import Parashield.GovernanceDao.Stages
import Parashield.Support.Failure

/-!
# Governance DAO: the voting period

The end of voting is fixed when a proposal is created, while voting starts when
somebody calls for it.  Voting lasts for the whole period exactly if it starts
no later than the discussion period ends.
-/

namespace Parashield.GovernanceDao

open Support Support.Contract Invocation

variable {self : Address} {env : Env} {s : State} {m m' : Machine State}
  {w w' created u : World State} {pid period : ℕ} {p p' : Proposal} {e : Entry}
  {config : DaoConfig}

/-! ## Before the end of voting -/

/-- A batch finalizes none of its proposals before the end of their voting. -/
theorem batch_late {handles : ℕ → Handles} {rest : List ℕ} {a : Unit}
    (h : forEach rest (fun id => do
      let p ← requireFinalizable env id
      conclude env (handles id) config id p) m = .ok (a, m'))
    (hconfig : m.store.config = some config) (hmem : pid ∈ rest)
    (hp : m.store.proposal pid = some p) : p.voteEnd + finalizeDelay < env.now := by
  induction rest generalizing m with
  | nil => cases hmem
  | cons id rest ih =>
      simp only [forEach, bind_ok] at h
      obtain ⟨_, m₁, ⟨q, _, hq, hconclude⟩, h⟩ := h
      obtain ⟨hstored, hactive, hdelay, rfl⟩ := requireFinalizable_ok hq
      by_cases hid : pid = id
      · subst hid
        rw [hp, Option.some.injEq] at hstored
        exact hstored ▸ hdelay
      · have hrest : pid ∈ rest := (List.mem_cons.mp hmem).resolve_left hid
        rcases conclude_spec hconclude hstored hactive hdelay hconfig with
          ⟨_, _, _, _, _, _, _, _, rfl⟩ |
            ⟨_, _, _, _, _, _, _, _, _, _, _, _, rfl⟩
        · exact ih h hconfig hrest ((Function.update_of_ne hid _ _).trans hp)
        · exact ih h hconfig hrest ((Function.update_of_ne hid _ _).trans hp)

theorem reclaimDeposit_late {handles : Handles} {a : Unit}
    (h : reclaimDeposit env handles pid m = .ok (a, m'))
    (hp : m.store.proposal pid = some p) :
    satAddU64 p.voteEnd depositReclaimTimeout < env.now := by
  simp only [reclaimDeposit, bind_ok, loadProposal_ok, ensure_ok] at h
  obtain ⟨q, _, ⟨hq, rfl⟩, _, _, ⟨-, rfl⟩, _, _, ⟨hlate, rfl⟩, -⟩ := h
  rw [hp, Option.some.injEq] at hq
  exact hq ▸ hlate

/-- Of the calls that close a proposal, only a cancellation comes before the
end of its voting. -/
theorem closing_early {a : Unit} (h : exec env e m = .ok (a, m'))
    (hp : m.store.proposal pid = some p) (hactive : p.status = .active)
    (hearly : env.now ≤ p.voteEnd) (hclock : env.now ≤ maxU64)
    (hclosing : e.closing pid ≠ none) :
    ∃ handles admin, e = .cancel handles admin pid := by
  cases e with
  | cancel handles admin id =>
      obtain rfl : id = pid := by
        by_contra hid
        exact hclosing (if_neg hid)
      exact ⟨handles, admin, rfl⟩
  | finalize handles id =>
      obtain rfl : id = pid := by
        by_contra hid
        exact hclosing (if_neg hid)
      simp only [exec, finalize, bind_ok] at h
      obtain ⟨q, _, hq, -⟩ := h
      obtain ⟨hstored, -, hdelay, -⟩ := requireFinalizable_ok hq
      rw [hp, Option.some.injEq] at hstored
      subst hstored
      omega
  | finalizeBatch handles ids =>
      have hmem : pid ∈ ids := by
        by_contra hmem
        exact hclosing (if_neg hmem)
      simp only [exec, finalizeBatch, bind_ok, ensure_ok, loadConfig_ok] at h
      obtain ⟨_, _, ⟨-, rfl⟩, _, _, ⟨-, rfl⟩, config, _, ⟨hconfig, rfl⟩, h⟩ := h
      have hlate := batch_late h hconfig hmem hp
      omega
  | reclaimDeposit handles id =>
      obtain rfl : id = pid := by
        by_contra hid
        exact hclosing (if_neg hid)
      have hlate := reclaimDeposit_late h hp
      unfold satAddU64 at hlate
      omega
  | execute handles outcome id =>
      obtain rfl : id = pid := by
        by_contra hid
        exact hclosing (if_neg hid)
      have hpassed : p.status = .passed := by
        rcases execute_spec h with ⟨q, hdue, -⟩ | ⟨q, _, _, _, _, hdue, -⟩
        all_goals
          have hstored := hdue.stored
          rw [hp, Option.some.injEq] at hstored
          exact hstored ▸ hdue.passed
      rw [hactive] at hpassed
      cases hpassed
  | _ => exact absurd rfl hclosing

def State.IsActive (s : State) (pid : ℕ) : Prop :=
  ∃ p, s.proposal pid = some p ∧ p.status = .active

theorem State.isActive_iff :
    s.IsActive pid ↔ (s.proposal pid).map Proposal.status = some .active := by
  simp [State.IsActive]

def State.IsCancelled (s : State) (pid : ℕ) : Prop :=
  ∃ p, s.proposal pid = some p ∧ p.status = .cancelled

/-- Until the end of its voting, an Active proposal can only be cancelled. -/
theorem exec_early {a : Unit} (h : exec env e m = .ok (a, m'))
    (hm : Numbered m.store) (hp : m.store.proposal pid = some p)
    (hactive : p.status = .active) (hearly : env.now ≤ p.voteEnd)
    (hclock : env.now ≤ maxU64) :
    m'.store.IsActive pid ∨ m'.store.IsCancelled pid := by
  obtain ⟨p', hp', hturn⟩ := exec_turn h hm hp
  have hcancelled : e.closing pid ≠ none → m'.store.IsCancelled pid := by
    intro hclosing
    obtain ⟨handles, admin, rfl⟩ :=
      closing_early h hp hactive hearly hclock hclosing
    obtain ⟨_, _, _, _, _, -, -, -, -, -, -, rfl⟩ := (cancel_spec h).change
    exact ⟨_, Function.update_self .., rfl⟩
  cases hturn with
  | steady hstatus _ => exact .inl ⟨p', hp', hstatus.trans hactive⟩
  | passed hclosing _ _ _ _ _ => exact .inr (hcancelled hclosing)
  | refunded hclosing _ _ => exact .inr (hcancelled hclosing)
  | started _ hdiscussion _ =>
      rw [hactive] at hdiscussion
      cases hdiscussion
  | lapsed _ hpassed _ =>
      rw [hactive] at hpassed
      cases hpassed
  | executed _ hpassed _ =>
      rw [hactive] at hpassed
      cases hpassed

theorem step_cancelled {l : Label Entry} (h : (system self).Step w l w')
    (hm : Numbered w.machine.store)
    (hcancelled : w.machine.store.IsCancelled pid) :
    w'.machine.store.IsCancelled pid := by
  obtain ⟨p, hp, hstatus⟩ := hcancelled
  obtain ⟨p', hp', hsame | hnext⟩ := step_next h hm hp
  · exact ⟨p', hp', hsame.trans hstatus⟩
  · rw [hstatus] at hnext
    cases hnext

/-! ## Time -/

theorem step_clock {l : Label Entry} (h : (system self).Step w l w')
    (hclock : w.now ≤ maxU64) : w.now ≤ w'.now ∧ w'.now ≤ maxU64 := by
  cases h with
  | call => exact ⟨le_rfl, hclock⟩
  | tick hle => exact ⟨Nat.le_add_right _ _, hle⟩
  | transfer => exact ⟨le_rfl, hclock⟩
  | mint => exact ⟨le_rfl, hclock⟩

theorem run_clock {ls : List (Label Entry)} (hrun : (system self).Run w ls w')
    (hclock : w.now ≤ maxU64) : w'.now ≤ maxU64 :=
  hrun.preserves (Q := fun w => w.now ≤ maxU64)
    (fun _ _ _ hclock hstep => (step_clock hstep hclock).2) hclock

/-- From an Active proposal, voting runs to its end or is cancelled. -/
theorem run_early {ls : List (Label Entry)} (hrun : (system self).Run w ls w')
    (hm : Numbered w.machine.store) (hclock : w.now ≤ maxU64)
    (hp : w.machine.store.proposal pid = some p) (hactive : p.status = .active)
    (hearly : w'.now ≤ p.voteEnd) :
    w'.machine.store.IsActive pid ∨ w'.machine.store.IsCancelled pid := by
  refine (hrun.preserves (Q := fun v => v.now ≤ maxU64 ∧
    Numbered v.machine.store ∧ v.machine.store.HasTerms pid p ∧
    (v.now ≤ p.voteEnd →
      v.machine.store.IsActive pid ∨ v.machine.store.IsCancelled pid)) ?_
    ⟨hclock, hm, ⟨p, hp, .refl p⟩, fun _ => .inl ⟨p, hp, hactive⟩⟩).2.2.2
    hearly
  rintro v l v' ⟨hclock, hv, ⟨q, hq, hterms⟩, hopen⟩ hstep
  obtain ⟨hmono, hclock'⟩ := step_clock hstep hclock
  refine ⟨hclock', (numbered_inductive self).step v l v' hv hstep, ?_,
    fun hend => ?_⟩
  · obtain ⟨q', hq', hterms'⟩ := run_hasTerms (.cons hstep (.nil _)) hv hq
    exact ⟨q', hq', hterms.trans hterms'⟩
  · have hbefore : v.now ≤ p.voteEnd := hmono.trans hend
    rcases hopen hbefore with ⟨r, hr, hractive⟩ | hcancelled
    · rw [hq, Option.some.injEq] at hr
      subst hr
      cases hstep with
      | call _ hexec =>
          exact exec_early hexec hv hq hractive
            (hbefore.trans_eq hterms.voteEnd.symm) hclock
      | tick => exact .inl ⟨q, hq, hractive⟩
      | transfer => exact .inl ⟨q, hq, hractive⟩
      | mint => exact .inl ⟨q, hq, hractive⟩
    · exact .inr (step_cancelled hstep hv hcancelled)

/-! ## Open voting -/

/-- The vote is turned away because voting is not open. -/
def NotOpen (fault : Fault Error) : Prop :=
  fault = .error .votingClosed ∨ fault = .error .proposalNotActive ∨
    fault = .error .discussionPeriodNotEnded ∨ fault = .error .proposalNotFound

/-- The proposal is Active, and nobody's vote is turned away because voting is
not open. -/
structure VotingOpen (dao : Address) (w : World State) (pid : ℕ) : Prop where
  active : w.machine.store.IsActive pid
  votes : ∀ signers voter choice,
    Avoids NotOpen (exec (callEnv dao w signers) (.vote voter pid choice))
      w.machine

theorem countDelegator_avoids {govToken voter delegator : Address} :
    Avoids NotOpen (countDelegator env govToken voter pid delegator) m := by
  simp [countDelegator, publish]

theorem voteWeight_avoids {govToken voter : Address} {own : ℤ} :
    Avoids NotOpen (voteWeight env govToken voter pid own) m := by
  have hcollect : ∀ ds t, Avoids NotOpen
      (collect ds (countDelegator env govToken voter pid)) t := fun ds t =>
    avoids_collect (I := fun _ => True) (fun _ _ _ _ => countDelegator_avoids)
      (fun _ _ _ _ _ _ _ => trivial) trivial
  simp [voteWeight, collectDelegatedWeight, hcollect, NotOpen]

/-- Up to the end of voting, no vote on an Active proposal is turned away
because voting is not open. -/
theorem vote_avoids {voter : Address} {choice : VoteChoice}
    (hp : m.store.proposal pid = some p) (hactive : p.status = .active)
    (hopen : env.now ≤ p.voteEnd) :
    Avoids NotOpen (vote env voter pid choice) m := by
  simp [vote, requireBallot, loadProposal, loadConfig, ensureNotDelegated,
    ensureNotCounted, ownWeight, Proposal.tally, storeLock, storeVote,
    storeProposal, publish, voteWeight_avoids, NotOpen, hp, hactive, hopen]

/-- After the end of voting, a vote is turned away. -/
theorem vote_closed {voter : Address} {choice : VoteChoice}
    (hsigned : voter ∈ env.signers) (hp : m.store.proposal pid = some p)
    (hactive : p.status = .active) (hclosed : p.voteEnd < env.now) :
    vote env voter pid choice m = .error (.error .votingClosed) := by
  have hauth : (requireAuth env voter : Call Unit) m = .ok ((), m) :=
    requireAuth_ok.mpr ⟨hsigned, rfl⟩
  have hballot : requireBallot env voter pid m =
      .error (.error .votingClosed) := by
    have hload : loadProposal pid m = .ok (p, m) :=
      loadProposal_ok.mpr ⟨hp, rfl⟩
    have hdiscussed : (ensure (p.status ≠ .discussion)
        .discussionPeriodNotEnded : Call Unit) m = .ok ((), m) :=
      ensure_ok.mpr ⟨by rw [hactive]; rintro ⟨⟩, rfl⟩
    have hopened : (ensure (p.status = .active) .proposalNotActive :
        Call Unit) m = .ok ((), m) :=
      ensure_ok.mpr ⟨hactive, rfl⟩
    rw [requireBallot, bind_of_ok hload, bind_of_ok hdiscussed,
      bind_of_ok hopened]
    exact bind_of_error (require_of_not (not_le.mpr hclosed))
  rw [vote, bind_of_ok hauth]
  exact bind_of_error hballot

/-! ## The voting period -/

theorem DaoConfig.schedule_end (config : DaoConfig) (now : ℕ) :
    (config.schedule now).2 =
      min (now + config.discussionPeriod + config.votingPeriod) maxU64 := by
  unfold DaoConfig.schedule satAddU64
  split
  · dsimp only
    omega
  · dsimp only
    omega

/-- The proposal `pid` is created in the state `created` under `config`, and
becomes Active in the state `u`: at once, or by a later step. -/
structure Activated (dao : Address) (pid : ℕ) (created : World State)
    (config : DaoConfig) (u : World State) : Prop where
  clock : created.now ≤ maxU64
  reachable : (system dao).Reachable created
  absent : created.machine.store.proposal pid = none
  configured : created.machine.store.config = some config
  active : u.machine.store.IsActive pid
  steps : ∃ l b, (system dao).Step created l b ∧
    b.machine.store.proposal pid ≠ none ∧
    (u = b ∨ ∃ ls t l', (system dao).Run b ls t ∧
      ¬ t.machine.store.IsActive pid ∧ (system dao).Step t l' u)

theorem activated_of_started {ls : List (Label Entry)} {b t : World State}
    {l l' : Label Entry} (hclock : created.now ≤ maxU64)
    (hreachable : (system self).Reachable created)
    (habsent : created.machine.store.proposal pid = none)
    (hconfig : created.machine.store.config = some config)
    (hcreate : (system self).Step created l b)
    (hsome : (b.machine.store.proposal pid).isSome = true)
    (hrun : (system self).Run b ls t)
    (hbefore : (t.machine.store.proposal pid).map Proposal.status =
      some .discussion)
    (hstart : (system self).Step t l' u)
    (hafter : (u.machine.store.proposal pid).map Proposal.status =
      some .active) :
    Activated self pid created config u := by
  refine ⟨hclock, hreachable, habsent, hconfig, State.isActive_iff.mpr hafter,
    l, b, hcreate, Option.isSome_iff_ne_none.mp hsome,
    .inr ⟨ls, t, l', hrun, ?_, hstart⟩⟩
  rw [State.isActive_iff, hbefore]
  exact nofun

/-- Voting stays open for `period` after the state `u`, unless the proposal is
cancelled. -/
def FullPeriod (self : Address) (pid : ℕ) (u : World State) (period : ℕ) :
    Prop :=
  ∀ ls w, (system self).Run u ls w → w.now ≤ u.now + period →
    w.machine.store.IsCancelled pid ∨ VotingOpen self w pid

/-- Where the end of voting lies when the proposal becomes Active. -/
theorem Activated.voteEnd (h : Activated self pid created config u) :
    Numbered u.machine.store ∧ u.now ≤ maxU64 ∧
      ∃ p, u.machine.store.proposal pid = some p ∧ p.status = .active ∧
        p.voteEnd = min (created.now + config.discussionPeriod +
          config.votingPeriod) maxU64 := by
  obtain ⟨l, b, hcreate, hsome, hlater⟩ := h.steps
  have hrun : ∃ ls, (system self).Run b ls u := by
    rcases hlater with rfl | ⟨ls, t, l', hrun, -, hstep⟩
    · exact ⟨[], .nil _⟩
    · exact ⟨_, hrun.concat hstep⟩
  obtain ⟨ls, hrun⟩ := hrun
  have hb : Numbered b.machine.store :=
    (h.reachable.step hcreate).invariant (numbered_inductive self)
  obtain ⟨q, hq⟩ := Option.ne_none_iff_exists'.mp hsome
  obtain ⟨_, o, config', hconfig, hq'⟩ := step_created hcreate h.absent hq
  obtain rfl : config = config' := by
    rw [h.configured, Option.some.injEq] at hconfig
    exact hconfig
  obtain ⟨p, hp, hactive⟩ := h.active
  obtain ⟨p', hp', hterms⟩ := run_hasTerms hrun hb hq
  obtain rfl : p = p' := by
    rw [hp, Option.some.injEq] at hp'
    exact hp'
  refine ⟨run_numbered hrun hb, ?_, p, hp, hactive, ?_⟩
  · exact run_clock hrun (step_clock hcreate h.clock).2
  · rw [hterms.voteEnd, hq']
    exact config.schedule_end created.now

/-- Voting on a proposal is open for the voting period in force at its
creation, from the moment it becomes Active, exactly if that happens no later
than the discussion period in force at its creation ends, or the end of voting
lies beyond all ledger times. -/
theorem full_period_iff (h : Activated self pid created config u) :
    FullPeriod self pid u config.votingPeriod ↔
      u.now ≤ created.now + config.discussionPeriod ∨
        maxU64 ≤ created.now + config.discussionPeriod +
          config.votingPeriod := by
  obtain ⟨hm, hclock, p, hp, hactive, hend⟩ := h.voteEnd
  constructor
  · intro hfull
    by_contra htime
    -- some time after the end of voting lies within the period
    obtain ⟨seconds, hpast, hwithin, hfits⟩ : ∃ seconds,
        p.voteEnd < u.now + seconds ∧
          u.now + seconds ≤ u.now + config.votingPeriod ∧
            u.now + seconds ≤ maxU64 :=
      ⟨p.voteEnd + 1 - u.now, by omega, by omega, by omega⟩
    have htick : (system self).Run u [.tick seconds]
        { u with now := u.now + seconds } := .cons (.tick hfits) (.nil _)
    rcases hfull _ _ htick hwithin with ⟨q, hq, hcancelled⟩ | hopen
    · obtain rfl : p = q := Option.some.inj (hp.symm.trans hq)
      rw [hactive] at hcancelled
      cases hcancelled
    · have hclosed : vote
          (callEnv self { u with now := u.now + seconds } [self]) self pid .for
          u.machine = .error (.error .votingClosed) :=
        vote_closed List.mem_cons_self hp hactive hpast
      exact hopen.votes [self] self .for _ hclosed (.inl rfl)
  · intro htime ls w hrun hwithin
    have hbefore : w.now ≤ p.voteEnd := by
      have hwclock := run_clock hrun hclock
      omega
    rcases run_early hrun hm hclock hp hactive hbefore with
      ⟨q, hq, hqactive⟩ | hcancelled
    · refine .inr ⟨⟨q, hq, hqactive⟩, fun signers voter choice => ?_⟩
      obtain ⟨q', hq', hterms⟩ := run_hasTerms hrun hm hp
      obtain rfl : q = q' := Option.some.inj (hq.symm.trans hq')
      exact vote_avoids hq hqactive (hbefore.trans_eq hterms.voteEnd.symm)
    · exact .inl hcancelled

/-! ## Voting that starts late -/

namespace Scenario

/-- Proposals are discussed for a day. -/
def discussing : DaoConfig := { Scenario.config with discussionPeriod := 86400 }

def brewing : World State :=
  (step exec dao genesis (.call [admin] (.initializeDao admin discussing))).get
    (by decide +kernel)

def tabled : World State :=
  (step exec dao brewing motion).get (by decide +kernel)

/-- Nobody calls for the vote until three days later. -/
def dawdled : World State :=
  (step exec dao tabled (.tick 259200)).get (by decide +kernel)

def belated : World State :=
  (step exec dao dawdled (.call [] (.startVoting 0))).get (by decide +kernel)

/-- The vote is called for when the discussion ends. -/
def discussed : World State :=
  (step exec dao tabled (.tick 86400)).get (by decide +kernel)

def prompt : World State :=
  (step exec dao discussed (.call [] (.startVoting 0))).get
    (by decide +kernel)

/-- The proposal passes while its voting period still runs. -/
def hasty : World State :=
  (TransitionSystem.execute (step exec dao)
    [.call [alice] (.vote alice 0 .for), .tick 432301,
      .call [] (.finalize inOrder 0)] belated).get (by decide +kernel)

end Scenario

open Scenario

theorem brewing_reachable : (system dao).Reachable brewing := by
  have hinit : (system dao).Init genesis := ⟨rfl, rfl⟩
  exact (TransitionSystem.Reachable.init hinit).step
    (step_sound (Option.some_get _).symm)

theorem tabled_step : (system dao).Step brewing motion tabled :=
  step_sound (Option.some_get _).symm

theorem prompt_activated : Activated dao 0 brewing discussing prompt := by
  have hwait : (system dao).Run tabled [.tick 86400] discussed :=
    .cons (step_sound (Option.some_get _).symm) (.nil _)
  have hstart : (system dao).Step discussed (.call [] (.startVoting 0)) prompt :=
    step_sound (Option.some_get _).symm
  exact activated_of_started (by decide +kernel) brewing_reachable
    (by decide +kernel) (by decide +kernel) tabled_step (by decide +kernel)
    hwait (by decide +kernel) hstart (by decide +kernel)

theorem belated_activated : Activated dao 0 brewing discussing belated := by
  have hwait : (system dao).Run tabled [.tick 259200] dawdled :=
    .cons (step_sound (Option.some_get _).symm) (.nil _)
  have hstart : (system dao).Step dawdled (.call [] (.startVoting 0)) belated :=
    step_sound (Option.some_get _).symm
  exact activated_of_started (by decide +kernel) brewing_reachable
    (by decide +kernel) (by decide +kernel) tabled_step (by decide +kernel)
    hwait (by decide +kernel) hstart (by decide +kernel)

theorem full_period_prompt :
    FullPeriod dao 0 prompt discussing.votingPeriod :=
  (full_period_iff prompt_activated).mpr (.inl (by decide +kernel))

/-- Voting started three days after the proposal was made is over five days
later, and the proposal is finalized, though the period is seven days. -/
theorem belated_period_short :
    Activated dao 0 brewing discussing belated ∧
    (∃ ls, (system dao).Run belated ls hasty) ∧
    hasty.now < belated.now + discussing.votingPeriod ∧
    (hasty.machine.store.proposal 0).map Proposal.status = some .passed ∧
    ¬ FullPeriod dao 0 belated discussing.votingPeriod := by
  have hrun : ∃ ls, (system dao).Run belated ls hasty :=
    ⟨_, TransitionSystem.run_of_execute (fun _ _ _ => step_sound)
      (Option.some_get _).symm⟩
  have hearly : hasty.now < belated.now + discussing.votingPeriod := by
    decide +kernel
  have hpassed : (hasty.machine.store.proposal 0).map Proposal.status =
      some .passed := by
    decide +kernel
  refine ⟨belated_activated, hrun, hearly, hpassed, fun hfull => ?_⟩
  obtain ⟨ls, hrun⟩ := hrun
  rcases hfull ls hasty hrun hearly.le with ⟨p, hp, hcancelled⟩ | hopen
  · rw [hp, Option.map_some, hcancelled] at hpassed
    cases hpassed
  · rw [State.isActive_iff.mp hopen.active] at hpassed
    cases hpassed

end Parashield.GovernanceDao
