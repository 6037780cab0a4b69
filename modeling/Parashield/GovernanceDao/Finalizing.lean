import Parashield.GovernanceDao.Changes

/-!
# Governance DAO: finalization

When a finalization is accepted and what it leaves.  A batch finalizes one
proposal after the other.
-/

namespace Parashield.GovernanceDao

open Support Support.Contract Invocation

variable {self : Address} {env : Env} {e : Entry} {s s' : State}
  {m m' t : Machine State} {w w' : World State} {pid : ℕ} {p : Proposal} {config : DaoConfig}

/-! ## One proposal -/

/-- The stored proposal `p` can be finalized. -/
structure State.Finalizable (s : State) (now pid : ℕ) (p : Proposal) :
    Prop where
  stored : s.proposal pid = some p
  active : p.status = .active
  bounded : p.voteEnd + finalizeDelay < 2 ^ 64
  delayed : p.voteEnd + finalizeDelay < now

theorem requireFinalizable_iff :
    requireFinalizable env pid m = .ok (p, m') ↔
      m.store.Finalizable env.now pid p ∧ m' = m := by
  simp only [requireFinalizable, bind_ok, loadProposal_ok, ensure_ok,
    unsigned_ok, pure_ok]
  constructor
  · rintro ⟨_, _, ⟨hp, rfl⟩, _, _, ⟨hactive, rfl⟩, _, _, ⟨hbound, rfl, rfl⟩, _,
      _, ⟨hdelay, rfl⟩, rfl, rfl⟩
    exact ⟨⟨hp, hactive, hbound, hdelay⟩, rfl⟩
  · rintro ⟨⟨hp, hactive, hbound, hdelay⟩, rfl⟩
    exact ⟨p, _, ⟨hp, rfl⟩, (), _, ⟨hactive, rfl⟩, _, _, ⟨hbound, rfl, rfl⟩, (),
      _, ⟨hdelay, rfl⟩, rfl, rfl⟩

/-- The turnout history with the turnout of `p`. -/
def State.attended (s : State) (p : Proposal) : ParticipationHistory where
  recentBps :=
    latest
      (if s.quorumDecay.window = 0 then defaultParticipationWindow
        else s.quorumDecay.window)
      (s.participation.recentBps ++
        [turnoutBps (p.votesFor + p.votesAgainst + p.votesAbstain)
          p.totalSupply])
  totalRecorded := satAddU64 s.participation.totalRecorded 1

/-- The votes on `p` can be added up. -/
structure Proposal.Addable (p : Proposal) : Prop where
  partisan : InI128 (p.votesFor + p.votesAgainst)
  total : InI128 (p.votesFor + p.votesAgainst + p.votesAbstain)

theorem totalVotes_iff {votes : ℤ} :
    p.totalVotes m = .ok (votes, m') ↔
      p.Addable ∧ votes = p.votesFor + p.votesAgainst + p.votesAbstain ∧
        m' = m := by
  simp only [Proposal.totalVotes, bind_ok, i128_ok]
  constructor
  · rintro ⟨_, _, ⟨hpartisan, rfl, rfl⟩, htotal, rfl, rfl⟩
    exact ⟨⟨hpartisan, htotal⟩, rfl, rfl⟩
  · rintro ⟨⟨hpartisan, htotal⟩, rfl, rfl⟩
    exact ⟨_, _, ⟨hpartisan, rfl, rfl⟩, htotal, rfl, rfl⟩

/-- `p` passes under the quorum now in force. -/
def State.Approves (s : State) (config : DaoConfig) (p : Proposal) : Prop :=
  p.passes (s.effectiveQuorum config).quorumBps config.majorityBps

/-- The vote on `p` is counted and its outcome stored. -/
inductive Concluded (env : Env) (handles : Handles) (config : DaoConfig)
    (pid : ℕ) (p : Proposal) (m m' : Machine State) : Prop
  | passed :
      m.store.Approves config p → env.now + config.proposalTimelock < 2 ^ 64 →
      m' = ⟨m.store.closed handles pid p
        { p with
          status := .passed
          executionTime := env.now + config.proposalTimelock }
        (m.store.attended p) (.proposalFinalized pid .passed), m.bank⟩ →
      Concluded env handles config pid p m m'
  | failed {B : Bank} :
      ¬ m.store.Approves config p →
      m.bank.transfer config.govToken env.self p.proposer p.deposit =
        some B →
      m' = ⟨m.store.closed handles pid p { p with status := .failed }
        (m.store.attended p) (.proposalFinalized pid .failed), B⟩ →
      Concluded env handles config pid p m m'

theorem conclude_iff {handles : Handles} {u : Unit} :
    conclude env handles config pid p m = .ok (u, m') ↔
      p.Addable ∧ Concluded env handles config pid p m m' := by
  simp only [conclude, recordParticipation, refundDeposit, storeProposal,
    clearProposalHash, storeHash, publish, bind_ok, load_ok, update_ok,
    whenever_transferToken_ok, totalVotes_iff]
  constructor
  · rintro ⟨votes, _, ⟨hadd, rfl, rfl⟩, _, _, ⟨rfl, rfl⟩, counted, _, hcount, _,
      _, rfl, _, _, ⟨B, hB, rfl⟩, _, _, rfl, _, _, rfl, rfl⟩
    refine ⟨hadd, ?_⟩
    rcases ite_ok.mp hcount with ⟨hpass, hcount⟩ | ⟨hfail, hcount⟩
    · simp only [bind_ok, unsigned_ok, pure_ok] at hcount
      obtain ⟨_, _, ⟨hfit, rfl, rfl⟩, rfl, rfl⟩ := hcount
      obtain ⟨hne, -⟩ | ⟨-, rfl⟩ := hB
      · exact absurd rfl hne
      · exact .passed hpass hfit rfl
    · obtain ⟨rfl, rfl⟩ := pure_ok.mp hcount
      obtain ⟨-, -, hB⟩ | ⟨hpassed, -⟩ := hB
      · exact .failed hfail hB rfl
      · exact absurd (by simp) hpassed
  · rintro ⟨hadd, h⟩
    cases h with
    | passed hpass hfit heq =>
        refine ⟨_, m, ⟨hadd, rfl, rfl⟩, _, m, ⟨rfl, rfl⟩, _, m,
          ite_ok.mpr (.inl ⟨hpass, ?_⟩), (), _, rfl, (), _,
          ⟨m.bank, .inr ⟨by simp, rfl⟩, rfl⟩, (), _, rfl, (), _, rfl, heq⟩
        simp only [bind_ok, unsigned_ok, pure_ok]
        exact ⟨_, _, ⟨hfit, rfl, rfl⟩, rfl, rfl⟩
    | @failed B hfail hB heq =>
        exact ⟨_, m, ⟨hadd, rfl, rfl⟩, _, m, ⟨rfl, rfl⟩, _, m,
          ite_ok.mpr (.inr ⟨hfail, pure_ok.mpr ⟨rfl, rfl⟩⟩), (), _, rfl, (), _,
          ⟨B, .inl ⟨by simp, .inl trivial, hB⟩, rfl⟩, (), _, rfl, (), _, rfl, heq⟩

/-- `pid` is finalized. -/
structure Finalized (env : Env) (handles : Handles) (pid : ℕ)
    (m m' : Machine State) : Prop where
  change : ∃ p config, m.store.Finalizable env.now pid p ∧
    m.store.config = some config ∧ p.Addable ∧
    Concluded env handles config pid p m m'

theorem finalize_iff {handles : Handles} {u : Unit} :
    finalize env handles pid m = .ok (u, m') ↔
      Finalized env handles pid m m' := by
  simp only [finalize, bind_ok, loadConfig_ok, requireFinalizable_iff,
    conclude_iff]
  constructor
  · rintro ⟨p, _, ⟨hp, rfl⟩, config, _, ⟨hconfig, rfl⟩, hadd, h⟩
    exact ⟨p, config, hp, hconfig, hadd, h⟩
  · rintro ⟨p, config, hp, hconfig, hadd, h⟩
    exact ⟨p, m, ⟨hp, rfl⟩, config, m, ⟨hconfig, rfl⟩, hadd, h⟩

theorem Concluded.settings {handles : Handles}
    (h : Concluded env handles config pid p m m') :
    m'.store.config = m.store.config ∧
      m'.store.quorumDecay = m.store.quorumDecay := by
  cases h with
  | passed _ _ heq =>
      rw [heq]
      exact ⟨rfl, rfl⟩
  | failed _ _ heq =>
      rw [heq]
      exact ⟨rfl, rfl⟩

/-- A concluded proposal is Passed or Failed, and the others are as before. -/
theorem Concluded.proposal {handles : Handles}
    (h : Concluded env handles config pid p m m') :
    ∃ p', (p'.status = .passed ∨ p'.status = .failed) ∧
      m'.store.proposal =
        Function.update m.store.proposal pid (some p') := by
  cases h with
  | passed _ _ heq =>
      rw [heq]
      exact ⟨_, .inl rfl, rfl⟩
  | failed _ _ heq =>
      rw [heq]
      exact ⟨_, .inr rfl, rfl⟩

/-! ## One after the other -/

/-- The proposals `ids` are finalized one after the other. -/
inductive FinalizedEach (env : Env) (handles : ℕ → Handles) :
    List ℕ → Machine State → Machine State → Prop
  | nil (m : Machine State) : FinalizedEach env handles [] m m
  | cons {m m₁ m' : Machine State} {pid : ℕ} {ids : List ℕ} :
      Finalized env (handles pid) pid m m₁ →
      FinalizedEach env handles ids m₁ m' →
      FinalizedEach env handles (pid :: ids) m m'

theorem finalizedEach_nil_iff {handles : ℕ → Handles} :
    FinalizedEach env handles [] m m' ↔ m' = m := by
  constructor
  · intro h
    cases h
    rfl
  · rintro rfl
    exact .nil _

theorem finalizedEach_cons_iff {handles : ℕ → Handles} {ids : List ℕ} :
    FinalizedEach env handles (pid :: ids) m m' ↔
      ∃ m₁, Finalized env (handles pid) pid m m₁ ∧
        FinalizedEach env handles ids m₁ m' := by
  constructor
  · intro h
    cases h with
    | cons hfirst hrest => exact ⟨_, hfirst, hrest⟩
  · rintro ⟨m₁, hfirst, hrest⟩
    exact .cons hfirst hrest

theorem finalizedEach_append_iff {handles : ℕ → Handles}
    {ids ids' : List ℕ} :
    FinalizedEach env handles (ids ++ ids') m m' ↔
      ∃ m₁, FinalizedEach env handles ids m m₁ ∧
        FinalizedEach env handles ids' m₁ m' := by
  induction ids generalizing m with
  | nil => simp [finalizedEach_nil_iff]
  | cons pid ids ih =>
      simp only [List.cons_append, finalizedEach_cons_iff, ih]
      constructor
      · rintro ⟨m₁, hfirst, m₂, hids, hids'⟩
        exact ⟨m₂, ⟨m₁, hfirst, hids⟩, hids'⟩
      · rintro ⟨m₂, ⟨m₁, hfirst, hids⟩, hids'⟩
        exact ⟨m₁, hfirst, m₂, hids, hids'⟩

/-- The loop of a batch, which reads the configuration once. -/
theorem forEach_conclude_iff {handles : ℕ → Handles} {ids : List ℕ} {u : Unit}
    (hconfig : m.store.config = some config) :
    forEach ids (fun pid => do
      let p ← requireFinalizable env pid
      conclude env (handles pid) config pid p) m = .ok (u, m') ↔
      FinalizedEach env handles ids m m' := by
  induction ids generalizing m with
  | nil => simp [forEach, finalizedEach_nil_iff]
  | cons pid ids ih =>
      simp only [forEach, bind_ok, finalizedEach_cons_iff,
        requireFinalizable_iff, conclude_iff]
      constructor
      · rintro ⟨_, m₁, ⟨p, _, ⟨hp, rfl⟩, hadd, h⟩, hrest⟩
        have hconfig₁ := h.settings.1.trans hconfig
        exact ⟨m₁, ⟨p, config, hp, hconfig, hadd, h⟩, (ih hconfig₁).mp hrest⟩
      · rintro ⟨m₁, ⟨p, config', hp, hconfig', hadd, h⟩, hrest⟩
        obtain rfl := Option.some.inj (hconfig.symm.trans hconfig')
        have hconfig₁ := h.settings.1.trans hconfig
        exact ⟨(), m₁, ⟨p, m, ⟨hp, rfl⟩, hadd, h⟩, (ih hconfig₁).mpr hrest⟩

theorem finalizeBatch_iff {handles : ℕ → Handles} {ids : List ℕ} {u : Unit} :
    finalizeBatch env handles ids m = .ok (u, m') ↔
      ids ≠ [] ∧ ids.length ≤ maxBatchFinalize ∧
        FinalizedEach env handles ids m m' := by
  simp only [finalizeBatch, bind_ok, ensure_ok, loadConfig_ok]
  constructor
  · rintro ⟨_, _, ⟨hne, rfl⟩, _, _, ⟨hlen, rfl⟩, config, _, ⟨hconfig, rfl⟩, h⟩
    exact ⟨hne, hlen, (forEach_conclude_iff hconfig).mp h⟩
  · rintro ⟨hne, hlen, h⟩
    obtain ⟨pid, ids, rfl⟩ := List.exists_cons_of_ne_nil hne
    obtain ⟨_, ⟨p, config, -, hconfig, -⟩, -⟩ := finalizedEach_cons_iff.mp h
    exact ⟨(), m, ⟨hne, rfl⟩, (), m, ⟨hlen, rfl⟩, config, m, ⟨hconfig, rfl⟩,
      (forEach_conclude_iff hconfig).mpr h⟩

/-- Calls to finalize the proposals `ids`, in order. -/
def finalizeCalls (signers : List Address) (handles : ℕ → Handles)
    (ids : List ℕ) : List (Label Entry) :=
  ids.map fun pid => .call signers (.finalize (handles pid) pid)

theorem run_finalizeCalls_iff {signers : List Address}
    {handles : ℕ → Handles} {ids : List ℕ} (hself : self ∉ signers) :
    (system self).Run w (finalizeCalls signers handles ids) w' ↔
      FinalizedEach (callEnv self w signers) handles ids w.machine
        w'.machine ∧ w'.now = w.now := by
  induction ids generalizing w with
  | nil =>
      simp only [finalizeCalls, List.map_nil, TransitionSystem.run_nil_iff,
        finalizedEach_nil_iff]
      constructor
      · rintro rfl
        exact ⟨rfl, rfl⟩
      · rintro ⟨hmachine, hnow⟩
        cases w'
        cases w
        simp_all
  | cons pid ids ih =>
      simp only [finalizeCalls, List.map_cons, TransitionSystem.run_cons_iff,
        finalizedEach_cons_iff]
      constructor
      · rintro ⟨t, hstep, hrun⟩
        obtain ⟨hrest, hnow⟩ := ih.mp hrun
        cases hstep with
        | call _ hexec =>
            exact ⟨⟨_, finalize_iff.mp hexec, hrest⟩, hnow⟩
      · rintro ⟨⟨m₁, hfirst, hrest⟩, hnow⟩
        exact ⟨{ w with machine := m₁ },
          .call hself (finalize_iff.mpr hfirst), ih.mpr ⟨hrest, hnow⟩⟩

/-! ## The index of actions -/

/-- The machine with another index. -/
def withIndex (m : Machine State) (index : ContentHash → Option ℕ) :
    Machine State :=
  ⟨{ m.store with activeProposalHash := index }, m.bank⟩

theorem Concluded.indexed {handles : Handles}
    (h : Concluded env handles config pid p m m') (handles' : Handles)
    (index : ContentHash → Option ℕ) :
    Concluded env handles' config pid p (withIndex m index)
      (withIndex m' (Function.update index
        (proposalContentHash handles' p.target p.function p.args) none)) := by
  cases h with
  | passed hpass hfit heq =>
      rw [heq]
      exact .passed hpass hfit rfl
  | failed hfail hB heq =>
      rw [heq]
      exact .failed hfail hB rfl

/-- The content hash of a stored proposal. -/
def State.hashOf (s : State) (handles : ℕ → Handles) (pid : ℕ) :
    Option ContentHash :=
  (s.proposal pid).map fun p =>
    proposalContentHash (handles pid) p.target p.function p.args

/-- The index without the entries of the proposals `ids`. -/
def State.cleared (s : State) (handles : ℕ → Handles) (ids : List ℕ)
    (index : ContentHash → Option ℕ) : ContentHash → Option ℕ :=
  fun hash => if hash ∈ ids.filterMap (s.hashOf handles) then none
    else index hash

theorem State.cleared_nil {handles : ℕ → Handles}
    {index : ContentHash → Option ℕ} : s.cleared handles [] index = index := by
  funext hash
  simp [State.cleared]

theorem Concluded.hashOf {handles : Handles} {handles' : ℕ → Handles}
    (h : Concluded env handles config pid p m m')
    (hp : m.store.proposal pid = some p) :
    m'.store.hashOf handles' = m.store.hashOf handles' := by
  funext id
  cases h with
  | passed _ _ heq =>
      rw [heq]
      by_cases hid : id = pid
      · subst hid
        simp [State.hashOf, State.closed, hp]
      · simp [State.hashOf, State.closed, Function.update_of_ne hid]
  | failed _ _ heq =>
      rw [heq]
      by_cases hid : id = pid
      · subst hid
        simp [State.hashOf, State.closed, hp]
      · simp [State.hashOf, State.closed, Function.update_of_ne hid]

/-- Whatever the index and the handles, the same proposals are finalized, and
the entries of their actions leave the index. -/
theorem FinalizedEach.indexed {handles handles' : ℕ → Handles} {ids : List ℕ}
    (h : FinalizedEach env handles ids m m')
    (index : ContentHash → Option ℕ) :
    FinalizedEach env handles' ids (withIndex m index)
      (withIndex m' (m.store.cleared handles' ids index)) := by
  induction h generalizing index with
  | nil m =>
      rw [State.cleared_nil]
      exact .nil _
  | @cons m m₁ m' pid ids hfirst _ ih =>
      obtain ⟨p, config, hp, hconfig, hadd, h⟩ := hfirst
      have hindex : m.store.cleared handles' (pid :: ids) index =
          m₁.store.cleared handles' ids (Function.update index
            (proposalContentHash (handles' pid) p.target p.function p.args)
            none) := by
        have hhash : m.store.hashOf handles' pid = some (proposalContentHash
            (handles' pid) p.target p.function p.args) := by
          rw [State.hashOf, hp.stored, Option.map_some]
        funext hash
        simp only [State.cleared, h.hashOf hp.stored,
          List.filterMap_cons_some hhash, List.mem_cons,
          Function.update_apply]
        grind
      rw [hindex]
      exact .cons ⟨p, config, ⟨hp.stored, hp.active, hp.bounded, hp.delayed⟩,
        hconfig, hadd, h.indexed _ _⟩ (ih _)

theorem Finalized.unique {handles : Handles} {m₁ m₂ : Machine State}
    (h₁ : Finalized env handles pid m m₁)
    (h₂ : Finalized env handles pid m m₂) : m₁ = m₂ := by
  have hcall₁ : finalize env handles pid m = .ok ((), m₁) :=
    finalize_iff.mpr h₁
  have hcall₂ : finalize env handles pid m = .ok ((), m₂) :=
    finalize_iff.mpr h₂
  rw [hcall₁, Except.ok.injEq, Prod.mk.injEq] at hcall₂
  exact hcall₂.2

theorem FinalizedEach.unique {handles : ℕ → Handles} {ids : List ℕ}
    {m₁ m₂ : Machine State} (h₁ : FinalizedEach env handles ids m m₁)
    (h₂ : FinalizedEach env handles ids m m₂) : m₁ = m₂ := by
  induction h₁ with
  | nil m => exact (finalizedEach_nil_iff.mp h₂).symm
  | cons hfirst _ ih =>
      obtain ⟨t, hfirst', hrest⟩ := finalizedEach_cons_iff.mp h₂
      rw [← hfirst.unique hfirst'] at hrest
      exact ih hrest

/-- The index after the finalizations. -/
theorem FinalizedEach.eq_indexed {handles : ℕ → Handles} {ids : List ℕ}
    (h : FinalizedEach env handles ids m m') :
    m' = withIndex m' (m.store.cleared handles ids
      m.store.activeProposalHash) :=
  h.unique (h.indexed m.store.activeProposalHash)

/-- The entries of the index that belong to one of the proposals `ids` are the
same under both kinds of handles. -/
def State.HashedAlike (s : State) (handles handles' : ℕ → Handles)
    (ids : List ℕ) : Prop :=
  ∀ hash, s.activeProposalHash hash ≠ none →
    (hash ∈ ids.filterMap (s.hashOf handles) ↔
      hash ∈ ids.filterMap (s.hashOf handles'))

theorem State.cleared_eq_iff {handles handles' : ℕ → Handles}
    {ids : List ℕ} :
    s.cleared handles ids s.activeProposalHash =
        s.cleared handles' ids s.activeProposalHash ↔
      s.HashedAlike handles handles' ids := by
  simp only [funext_iff, State.cleared, State.HashedAlike]
  refine forall_congr' fun hash => ?_
  by_cases hentry : s.activeProposalHash hash = none
  · simp [hentry]
  · grind

/-! ## Batches -/

/-- The worlds differ in nothing but the index of actions. -/
structure SameButIndex (w w' : World State) : Prop where
  now : w'.now = w.now
  bank : w'.machine.bank = w.machine.bank
  store : w'.machine.store = { w.machine.store with
    activeProposalHash := w'.machine.store.activeProposalHash }

theorem world_eq {w w' : World State} (hnow : w.now = w'.now)
    (hmachine : w.machine = w'.machine) : w = w' := by
  cases w
  cases w'
  exact congrArg₂ World.mk hnow hmachine

theorem step_finalizeBatch_iff {signers : List Address}
    {handles : ℕ → Handles} {ids : List ℕ} (hne : ids ≠ [])
    (hlen : ids.length ≤ maxBatchFinalize) :
    (system self).Step w (.call signers (.finalizeBatch handles ids)) w' ↔
      self ∉ signers ∧ FinalizedEach (callEnv self w signers) handles ids
        w.machine w'.machine ∧ w'.now = w.now := by
  constructor
  · intro hstep
    cases hstep with
    | call hself hexec =>
        exact ⟨hself, (finalizeBatch_iff.mp hexec).2.2, rfl⟩
  · rintro ⟨hself, heach, hnow⟩
    have heq : ⟨w.now, w'.machine⟩ = w' := world_eq hnow.symm rfl
    rw [← heq]
    exact .call hself (finalizeBatch_iff.mpr ⟨hne, hlen, heach⟩)

section Batch

variable {signers : List Address} {handles handles' : ℕ → Handles}
  {ids : List ℕ} {w₁ w₂ : World State}

theorem batch_accepted_iff (hne : ids ≠ [])
    (hlen : ids.length ≤ maxBatchFinalize) :
    (∃ w₁, (system self).Step w
        (.call signers (.finalizeBatch handles ids)) w₁) ↔
      ∃ w₂, (system self).Run w (finalizeCalls signers handles' ids) w₂ := by
  simp only [step_finalizeBatch_iff hne hlen]
  constructor
  · rintro ⟨w₁, hself, heach, -⟩
    exact ⟨⟨w.now, _⟩, (run_finalizeCalls_iff hself).mpr
      ⟨heach.indexed w.machine.store.activeProposalHash, rfl⟩⟩
  · rintro ⟨w₂, hrun⟩
    have hself : self ∉ signers := by
      obtain ⟨pid, ids, rfl⟩ := List.exists_cons_of_ne_nil hne
      obtain ⟨_, hstep, -⟩ := TransitionSystem.run_cons_iff.mp hrun
      exact hstep.exec_eq.1
    obtain ⟨heach, -⟩ := (run_finalizeCalls_iff hself).mp hrun
    exact ⟨⟨w.now, _⟩, hself,
      heach.indexed w.machine.store.activeProposalHash, rfl⟩

theorem batch_outcome (hne : ids ≠ []) (hlen : ids.length ≤ maxBatchFinalize)
    (hstep : (system self).Step w
      (.call signers (.finalizeBatch handles ids)) w₁)
    (hrun : (system self).Run w (finalizeCalls signers handles' ids) w₂) :
    SameButIndex w₁ w₂ ∧
      (w₁ = w₂ ↔ w.machine.store.HashedAlike handles handles' ids) := by
  obtain ⟨hself, hbatch, hnow₁⟩ := (step_finalizeBatch_iff hne hlen).mp hstep
  obtain ⟨heach, hnow₂⟩ := (run_finalizeCalls_iff hself).mp hrun
  -- both ends are the end of the batch, with an index of their own
  have heq₁ := hbatch.eq_indexed
  have heq₂ := heach.unique
    (hbatch.indexed w.machine.store.activeProposalHash)
  refine ⟨⟨hnow₂.trans hnow₁.symm, ?_, ?_⟩, ?_⟩
  · rw [heq₂]
    rfl
  · rw [heq₂]
    rfl
  · rw [← State.cleared_eq_iff]
    constructor
    · rintro rfl
      exact congrArg (fun m => m.store.activeProposalHash)
        (heq₁.symm.trans heq₂)
    · intro hindex
      refine world_eq (hnow₁.trans hnow₂.symm) ?_
      rw [heq₂, ← hindex]
      exact heq₁

/-- A batch is accepted exactly when its proposals can be finalized one after
the other, and then leaves what these calls leave, where the index agrees if
and only if they hash the indexed actions alike.  A refused batch changes
nothing. -/
theorem batch_finalizes_in_order (hne : ids ≠ [])
    (hlen : ids.length ≤ maxBatchFinalize) :
    ((∃ w₁, (system self).Step w (.call signers (.finalizeBatch handles ids))
        w₁) ↔
      ∃ w₂, (system self).Run w (finalizeCalls signers handles' ids) w₂) ∧
    (∀ w₁ w₂,
      (system self).Step w (.call signers (.finalizeBatch handles ids)) w₁ →
      (system self).Run w (finalizeCalls signers handles' ids) w₂ →
      SameButIndex w₁ w₂ ∧
        (w₁ = w₂ ↔ w.machine.store.HashedAlike handles handles' ids)) ∧
    ∀ w', (system self).attempts.Step w
        (.call signers (.finalizeBatch handles ids)) w' →
      (∀ w₂, ¬ (system self).Run w (finalizeCalls signers handles' ids) w₂) →
      w' = w := by
  refine ⟨batch_accepted_iff hne hlen,
    fun w₁ w₂ => batch_outcome hne hlen, fun w' hattempt hrefused => ?_⟩
  rcases hattempt with hstep | ⟨-, rfl⟩
  · obtain ⟨w₂, hrun⟩ := (batch_accepted_iff hne hlen).mp ⟨w', hstep⟩
    exact absurd hrun (hrefused w₂)
  · rfl

end Batch

/-! ## Decisions -/

def State.IsPassed (s : State) (pid : ℕ) : Prop :=
  ∃ p, s.proposal pid = some p ∧ p.status = .passed

/-- A call that is accepted in `m` and leaves `m'` decides `pid`, on its own or
as one of a batch, when the state is `t`. -/
inductive Decides (env : Env) (pid : ℕ) (m t m' : Machine State) :
    Entry → Prop
  | alone {handles : Handles} :
      exec env (.finalize handles pid) m = .ok ((), m') → t = m →
      Decides env pid m t m' (.finalize handles pid)
  | batch {handles : ℕ → Handles} {before after : List ℕ} :
      exec env (.finalizeBatch handles (before ++ pid :: after)) m =
        .ok ((), m') →
      FinalizedEach env handles before m t →
      Decides env pid m t m' (.finalizeBatch handles (before ++ pid :: after))

/-- Every proposal of a batch is decided. -/
theorem decides_of_mem {handles : ℕ → Handles} {ids : List ℕ}
    (h : exec env (.finalizeBatch handles ids) m = .ok ((), m'))
    (hpid : pid ∈ ids) :
    ∃ t, Decides env pid m t m' (.finalizeBatch handles ids) := by
  obtain ⟨before, after, rfl⟩ := List.append_of_mem hpid
  obtain ⟨-, -, heach⟩ := finalizeBatch_iff.mp h
  obtain ⟨t, hbefore, -⟩ := finalizedEach_append_iff.mp heach
  exact ⟨t, .batch h hbefore⟩

/-- A proposal that is not Active stays as it is. -/
theorem FinalizedEach.proposal_of_closed {handles : ℕ → Handles}
    {ids : List ℕ} (h : FinalizedEach env handles ids m m')
    (hp : m.store.proposal pid = some p) (hclosed : p.status ≠ .active) :
    m'.store.proposal pid = some p := by
  induction h with
  | nil => exact hp
  | @cons m m₁ m' id ids hfirst _ ih =>
      obtain ⟨q, config, hq, -, -, hconcluded⟩ := hfirst
      have hne : pid ≠ id := by
        rintro rfl
        obtain rfl := Option.some.inj (hp.symm.trans hq.stored)
        exact hclosed hq.active
      obtain ⟨p', -, heq⟩ := hconcluded.proposal
      refine ih ?_
      rw [heq, Function.update_of_ne hne]
      exact hp

theorem State.closed_proposal {handles : Handles} {p p' : Proposal}
    {turnout : ParticipationHistory} {e : Event} :
    (s.closed handles pid p p' turnout e).proposal pid = some p' :=
  Function.update_self ..

theorem Concluded.isPassed_iff {handles : Handles}
    (h : Concluded env handles config pid p m m') :
    m'.store.IsPassed pid ↔ m.store.Approves config p := by
  cases h with
  | passed hpass _ heq =>
      rw [heq]
      exact iff_of_true ⟨_, State.closed_proposal, rfl⟩ hpass
  | failed hfail _ heq =>
      rw [heq]
      refine iff_of_false ?_ hfail
      rintro ⟨p', hp', hpassed⟩
      rw [State.closed_proposal] at hp'
      obtain rfl := Option.some.inj hp'
      cases hpassed

/-- A proposal that is Active after other finalizations was so before. -/
theorem FinalizedEach.proposal_of_active {handles : ℕ → Handles}
    {ids : List ℕ} (h : FinalizedEach env handles ids m m')
    (hp : m'.store.proposal pid = some p) (hactive : p.status = .active) :
    m.store.proposal pid = some p := by
  induction h with
  | nil => exact hp
  | @cons m m₁ m' id ids hfirst _ ih =>
      obtain ⟨q, config, -, -, -, hconcluded⟩ := hfirst
      obtain ⟨p', hdecided, heq⟩ := hconcluded.proposal
      have hp₁ := ih hp
      rw [heq, Function.update_apply] at hp₁
      split at hp₁
      · obtain rfl := Option.some.inj hp₁
        rcases hdecided with hpassed | hfailed
        · cases hactive.symm.trans hpassed
        · cases hactive.symm.trans hfailed
      · exact hp₁

theorem FinalizedEach.config_eq {handles : ℕ → Handles} {ids : List ℕ}
    (h : FinalizedEach env handles ids m m') :
    m'.store.config = m.store.config := by
  induction h with
  | nil => rfl
  | cons hfirst _ ih =>
      obtain ⟨_, _, -, -, -, hconcluded⟩ := hfirst
      exact ih.trans hconcluded.settings.1

/-- What is decided, and under which configuration, is known from the
start. -/
theorem Decides.stored (h : Decides env pid m t m' e) :
    ∃ p config, t.store.proposal pid = some p ∧
      m.store.proposal pid = some p ∧ t.store.config = some config ∧
      m.store.config = some config := by
  cases h with
  | alone hexec heq =>
      obtain ⟨p, config, hp, hconfig, -⟩ := finalize_iff.mp hexec
      rw [heq]
      exact ⟨p, config, hp.stored, hp.stored, hconfig, hconfig⟩
  | @batch handles before after hexec hbefore =>
      obtain ⟨-, -, heach⟩ := finalizeBatch_iff.mp hexec
      obtain ⟨t₁, hbefore₁, hrest⟩ := finalizedEach_append_iff.mp heach
      rw [← hbefore.unique hbefore₁] at hrest
      obtain ⟨t', ⟨p, config, hp, hconfig, -⟩, -⟩ :=
        finalizedEach_cons_iff.mp hrest
      exact ⟨p, config, hp.stored,
        hbefore.proposal_of_active hp.stored hp.active, hconfig,
        hbefore.config_eq ▸ hconfig⟩

/-- What comes after a decision leaves its proposal alone. -/
theorem Decides.concluded (h : Decides env pid m t m' e)
    (hconfig : t.store.config = some config)
    (hp : t.store.proposal pid = some p) :
    ∃ handles t', t.store.Finalizable env.now pid p ∧
      Concluded env handles config pid p t t' ∧
      m'.store.proposal pid = t'.store.proposal pid := by
  have hfinalized : ∃ handles t' after, Finalized env (handles pid) pid t t' ∧
      FinalizedEach env handles after t' m' := by
    cases h with
    | @alone handles hexec heq =>
        rw [heq]
        exact ⟨fun _ => handles, m', [], finalize_iff.mp hexec, .nil m'⟩
    | @batch handles before after hexec hbefore =>
        obtain ⟨-, -, heach⟩ := finalizeBatch_iff.mp hexec
        obtain ⟨t₁, hbefore₁, hrest⟩ := finalizedEach_append_iff.mp heach
        rw [← hbefore.unique hbefore₁] at hrest
        obtain ⟨t', hfirst, hafter⟩ := finalizedEach_cons_iff.mp hrest
        exact ⟨handles, t', after, hfirst, hafter⟩
  obtain ⟨handles, t', after, ⟨q, c, hq, hc, -, hconcluded⟩, hafter⟩ :=
    hfinalized
  obtain rfl := Option.some.inj (hconfig.symm.trans hc)
  obtain rfl := Option.some.inj (hp.symm.trans hq.stored)
  obtain ⟨p', hdecided, heq⟩ := hconcluded.proposal
  have hp' : t'.store.proposal pid = some p' := by
    rw [heq, Function.update_self]
  have hclosed : p'.status ≠ .active := by
    rcases hdecided with hpassed | hfailed
    · rw [hpassed]
      exact nofun
    · rw [hfailed]
      exact nofun
  exact ⟨handles pid, t', hq, hconcluded,
    (hafter.proposal_of_closed hp' hclosed).trans hp'.symm⟩

/-- A decision is made by the code's own predicate. -/
theorem Decides.isPassed_iff (h : Decides env pid m t m' e)
    (hconfig : t.store.config = some config)
    (hp : t.store.proposal pid = some p) :
    m'.store.IsPassed pid ↔ t.store.Approves config p := by
  obtain ⟨handles, t', -, hconcluded, heq⟩ := h.concluded hconfig hp
  rw [← hconcluded.isPassed_iff, State.IsPassed, heq, State.IsPassed]

/-- A proposal that passes is decided early enough for its timelock. -/
theorem Decides.timelock_lt (h : Decides env pid m t m' e)
    (hconfig : t.store.config = some config)
    (hp : t.store.proposal pid = some p) (hpassed : m'.store.IsPassed pid) :
    finalizeDelay + 1 + config.proposalTimelock < 2 ^ 64 := by
  have happroves := (h.isPassed_iff hconfig hp).mp hpassed
  obtain ⟨handles, t', hdue, hconcluded, -⟩ := h.concluded hconfig hp
  cases hconcluded with
  | passed _ hfit _ =>
      have hdelayed := hdue.delayed
      omega
  | failed hfail _ _ => exact absurd happroves hfail

/-! ## A batch of one -/

namespace Scenario

/-- Alice proposes a call with an object of the host. -/
def parcel : Label Entry :=
  .call [alice] (.createProposal inOrder alice [79] pool pause [.object [1]]
    [1, 2, 3, 4, 5])

def ripened : World State :=
  (TransitionSystem.execute (step exec dao) [launch, parcel, .tick 605101]
    genesis).get (by decide +kernel)

/-- The handles where objects come before the arguments. -/
def shifted : Handles := fun position => position + 10

def batched : World State :=
  (step exec dao ripened
    (.call [] (.finalizeBatch (fun _ => inOrder) [0]))).get
      (by decide +kernel)

def shelved : World State :=
  (TransitionSystem.execute (step exec dao)
    (finalizeCalls [] (fun _ => shifted) [0]) ripened).get
      (by decide +kernel)

theorem ripened_reachable : (system dao).Reachable ripened := by
  have hrun : (system dao).Run genesis [launch, parcel, .tick 605101]
      ripened :=
    TransitionSystem.run_of_execute (fun _ _ _ => step_sound)
      (Option.some_get _).symm
  have hgenesis : (system dao).Reachable genesis := .init ⟨rfl, rfl⟩
  exact hgenesis.run hrun

theorem batched_step : (system dao).Step ripened
    (.call [] (.finalizeBatch (fun _ => inOrder) [0])) batched :=
  step_sound (Option.some_get _).symm

theorem shelved_run : (system dao).Run ripened
    (finalizeCalls [] (fun _ => shifted) [0]) shelved :=
  TransitionSystem.run_of_execute (fun _ _ _ => step_sound)
    (Option.some_get _).symm

end Scenario

open Scenario

theorem batch_finalizes_in_order_ripened : SameButIndex batched shelved :=
  ((batch_finalizes_in_order (by decide) (by decide)).2.1 _ _ batched_step
    shelved_run).1

/-- The batch frees the action of its proposal, the single call does not. -/
theorem batch_index_differs :
    (system dao).Reachable ripened ∧
    (system dao).Step ripened
      (.call [] (.finalizeBatch (fun _ => inOrder) [0])) batched ∧
    (system dao).Run ripened (finalizeCalls [] (fun _ => shifted) [0])
      shelved ∧
    batched.machine.store.activeProposalHash (proposalContentHash inOrder pool
      pause [.object [1]]) = none ∧
    shelved.machine.store.activeProposalHash (proposalContentHash inOrder pool
      pause [.object [1]]) = some 0 :=
  ⟨ripened_reachable, batched_step, shelved_run, by decide +kernel,
    by decide +kernel⟩

end Parashield.GovernanceDao
