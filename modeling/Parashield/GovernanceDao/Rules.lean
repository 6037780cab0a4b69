import Parashield.GovernanceDao.Lifecycle
import Parashield.Support.Lockstep

/-!
# Governance DAO: the rules in force

The rules a proposal is decided by are read from the live configuration, not
from the one it was created under.  Two runs that differ in `update_config`
calls treat a proposal alike as long as every other call finds the same values
in the rules that count.
-/

namespace Parashield.GovernanceDao

open Support Support.Contract Invocation

variable {self : Address} {env : Env} {s s' : State} {m m' : Machine State}
  {w w' : World State} {pid id : ℕ} {p p' : Proposal} {same : Prop}
  {c c' : Option DaoConfig} {config config' : DaoConfig}

/-! ## Twin states -/

/-- The proposals differ in their times at most, and not at all if `same`
holds. -/
structure Proposal.Alike (same : Prop) (p p' : Proposal) : Prop where
  eq : p' = { p with
    voteEnd := p'.voteEnd
    executionTime := p'.executionTime
    executionDeadline := p'.executionDeadline }
  exact_of : same → p' = p

/-- The storage with other rules and proposals. -/
def State.revised (s : State) (config : Option DaoConfig)
    (proposal : ℕ → Option Proposal) : State :=
  { s with config := config, proposal := proposal }

@[simp] theorem State.revised_nextProposalId
    {proposal : ℕ → Option Proposal} :
    (s.revised c proposal).nextProposalId = s.nextProposalId := rfl

@[simp] theorem State.revised_delegateOf {proposal : ℕ → Option Proposal} :
    (s.revised c proposal).delegateOf = s.delegateOf := rfl

@[simp] theorem State.revised_effectiveThreshold
    {proposal : ℕ → Option Proposal} :
    (s.revised c proposal).effectiveThreshold = s.effectiveThreshold := rfl

@[simp] theorem State.revised_effectiveQuorum
    {proposal : ℕ → Option Proposal} :
    (s.revised c proposal).effectiveQuorum = s.effectiveQuorum := rfl

@[simp] theorem State.revised_timeWeighted
    {proposal : ℕ → Option Proposal} :
    (s.revised c proposal).timeWeighted = s.timeWeighted := rfl

/-- The states are the same but for the configuration, `c` in one and `c'` in
the other, and for the times of proposals other than `pid`. -/
structure Twins (pid : ℕ) (c c' : Option DaoConfig) (m m' : Machine State) :
    Prop where
  bank : m'.bank = m.bank
  store : m'.store = m.store.revised m'.store.config m'.store.proposal
  left : m.store.config = c
  right : m'.store.config = c'
  taken : pid < m.store.nextProposalId
  alike : ∀ q, Option.Rel (Proposal.Alike (q = pid)) (m.store.proposal q)
    (m'.store.proposal q)

/-- A change that treats two proposals alike. -/
theorem Proposal.Alike.map (h : p.Alike same p') (f : Proposal → Proposal)
    (hf : ∀ p voteEnd executionTime executionDeadline,
      f { p with
          voteEnd := voteEnd
          executionTime := executionTime
          executionDeadline := executionDeadline } =
        { f p with
          voteEnd := voteEnd
          executionTime := executionTime
          executionDeadline := executionDeadline }) :
    (f p).Alike same (f p') := by
  refine ⟨?_, fun hs => congrArg f (h.exact_of hs)⟩
  rw [h.eq, hf]

/-- In lockstep on twin states. -/
abbrev TwinCalls {α β : Type} (pid : ℕ) (c c' : Option DaoConfig)
    (V : α → β → Prop) (d : Call α) (d' : Call β) : Prop :=
  Lockstep (Twins pid c c') V d d'

/-- In lockstep on twin states, with values that do not matter. -/
abbrev TwinUnits {α β : Type} (pid : ℕ) (c c' : Option DaoConfig)
    (d : Call α) (d' : Call β) : Prop :=
  LockstepUnit (Twins pid c c') d d'

/-! ## Steps of a call -/

section Steps

/-- Readings of the storage of twin states. -/
inductive TwinStores (pid : ℕ) (s : State) : State → Prop
  | mk {config : Option DaoConfig} {proposal : ℕ → Option Proposal} :
      pid < s.nextProposalId →
      (∀ q, Option.Rel (Proposal.Alike (q = pid)) (s.proposal q)
        (proposal q)) →
      TwinStores pid s (s.revised config proposal)

theorem twins_load : TwinCalls pid c c' (TwinStores pid) load load := by
  refine lockstep_bind lockstep_get fun m m' h => lockstep_pure ?_
  rw [h.store]
  exact .mk h.taken h.alike

/-- Readings of twin states as a whole. -/
inductive TwinMachines (m : Machine State) : Machine State → Prop
  | mk {config : Option DaoConfig} {proposal : ℕ → Option Proposal} :
      TwinMachines m ⟨m.store.revised config proposal, m.bank⟩

theorem twins_get : TwinCalls pid c c' TwinMachines get get := by
  refine lockstep_get.weaken fun m m' h => ?_
  have heq : m' = ⟨m'.store, m'.bank⟩ := rfl
  rw [heq, h.store, h.bank]
  exact .mk

theorem twins_loadConfig (fault fault' : Fault Error) :
    TwinCalls pid c c' (fun config config' => c = some config ∧
      c' = some config') (loadConfig fault) (loadConfig fault') := by
  intro m m' h config m₁ config' m₁' hleft hright
  obtain ⟨hconfig, rfl⟩ := loadConfig_ok.mp hleft
  obtain ⟨hconfig', rfl⟩ := loadConfig_ok.mp hright
  exact ⟨⟨h.left ▸ hconfig, h.right ▸ hconfig'⟩, h⟩

theorem twins_loadProposal (id : ℕ) :
    TwinCalls pid c c' (Proposal.Alike (id = pid)) (loadProposal id)
      (loadProposal id) := by
  intro m m' h p m₁ p' m₁' hleft hright
  obtain ⟨hp, rfl⟩ := loadProposal_ok.mp hleft
  obtain ⟨hp', rfl⟩ := loadProposal_ok.mp hright
  have halike := h.alike id
  rw [hp, hp'] at halike
  cases halike with
  | some halike => exact ⟨halike, h⟩

theorem twins_ensure (a b : Prop) [Decidable a] [Decidable b]
    (e e' : Error) :
    TwinCalls pid c c' (fun _ _ => a ∧ b) (ensure a e) (ensure b e') :=
  lockstep_require a b _ _

theorem twins_requireAuth (a b : Address) :
    TwinUnits pid c c' (requireAuth env a) (requireAuth env b) :=
  (lockstep_require _ _ _ _).weaken fun _ _ _ => trivial

/-- Updates of what twins share. -/
theorem twins_update {f : State → State}
    (h : ∀ s config proposal,
      f (s.revised config proposal) = (f s).revised config proposal)
    (hnext : ∀ s, pid < s.nextProposalId → pid < (f s).nextProposalId) :
    TwinUnits pid c c' (update f) (update f) := by
  have hconfig : ∀ s, (f s).config = s.config := by
    intro s
    have hs := congrArg State.config (h s s.config s.proposal)
    exact hs
  have hproposal : ∀ s, (f s).proposal = s.proposal := by
    intro s
    have hs := congrArg State.proposal (h s s.config s.proposal)
    exact hs
  refine lockstep_modify fun m m' hm => ⟨hm.bank, ?_, ?_, ?_, ?_, fun q => ?_⟩
  · change f m'.store =
      (f m.store).revised (f m'.store).config (f m'.store).proposal
    rw [hconfig, hproposal, ← h, ← hm.store]
  · exact (hconfig _).trans hm.left
  · exact (hconfig _).trans hm.right
  · exact hnext _ hm.taken
  · change Option.Rel _ ((f m.store).proposal q) ((f m'.store).proposal q)
    rw [hproposal, hproposal]
    exact hm.alike q

/-- Updates that leave the numbering alone. -/
theorem twins_set {f : State → State}
    (h : ∀ s config proposal,
      f (s.revised config proposal) = (f s).revised config proposal)
    (hnext : ∀ s, (f s).nextProposalId = s.nextProposalId) :
    TwinUnits pid c c' (update f) (update f) :=
  twins_update h fun s htaken => htaken.trans_eq (hnext s).symm

theorem twins_storeProposal (h : p.Alike (id = pid) p') :
    TwinUnits pid c c' (storeProposal id p) (storeProposal id p') := by
  refine lockstep_modify fun m m' hm => ⟨hm.bank, ?_, hm.left, hm.right,
    hm.taken, fun q => ?_⟩
  · have hstore := congrArg (fun s : State => { s with
      proposal := Function.update m'.store.proposal id (some p') }) hm.store
    exact hstore
  · change Option.Rel _ (Function.update m.store.proposal id (some p) q)
      (Function.update m'.store.proposal id (some p') q)
    by_cases hq : q = id
    · subst hq
      rw [Function.update_self, Function.update_self]
      exact .some h
    · rw [Function.update_of_ne hq, Function.update_of_ne hq]
      exact hm.alike q

theorem twins_publish {e e' : Event} (h : e = e') :
    TwinUnits pid c c' (publish e) (publish e') :=
  h ▸ twins_set (fun _ _ _ => rfl) fun _ => rfl

theorem twins_storeHash (hash : ContentHash) (entry : Option ℕ) :
    TwinUnits pid c c' (storeHash hash entry) (storeHash hash entry) :=
  twins_set (fun _ _ _ => rfl) fun _ => rfl

theorem twins_transferToken (token sender recipient : Address) (amount : ℤ) :
    TwinUnits pid c c' (transferToken env token sender recipient amount)
      (transferToken env token sender recipient amount) := by
  intro m m' hm _ m₁ _ m₁' hleft hright
  obtain ⟨-, B, hB, rfl⟩ := transferToken_ok.mp hleft
  obtain ⟨-, B', hB', rfl⟩ := transferToken_ok.mp hright
  rw [hm.bank, hB, Option.some.injEq] at hB'
  exact ⟨trivial, hB'.symm, hm.store, hm.left, hm.right, hm.taken, hm.alike⟩

theorem twins_perform {α : Type} {d : Call α} (h : TwinUnits pid c c' d d) :
    TwinUnits pid c c' (perform d) (perform d) :=
  lockstep_bind h fun _ _ _ => lockstep_pure trivial

theorem twins_requireAdmin (caller : Address) :
    TwinUnits pid c c' (requireAdmin env caller) (requireAdmin env caller) := by
  intro m m' hm _ m₁ _ m₁' hleft hright
  obtain ⟨-, rfl⟩ := requireAdmin_ok.mp hleft
  obtain ⟨-, rfl⟩ := requireAdmin_ok.mp hright
  exact ⟨trivial, hm⟩

theorem twins_unsigned {bits x y : ℕ} (fault : Fault Error) (h : y = x) :
    TwinCalls pid c c' (fun a b => b = a ∧ a = x) (unsigned bits x fault)
      (unsigned bits y fault) := by
  intro m m' hm a m₁ b m₁' hleft hright
  obtain ⟨-, rfl, rfl⟩ := unsigned_ok.mp hleft
  obtain ⟨-, rfl, rfl⟩ := unsigned_ok.mp hright
  exact ⟨⟨h, rfl⟩, hm⟩

theorem twins_i128 {x y : ℤ} (fault : Fault Error) (h : x = y) :
    TwinCalls pid c c' Eq (i128 x fault) (i128 y fault) := by
  intro m m' hm a m₁ b m₁' hleft hright
  obtain ⟨-, rfl, rfl⟩ := i128_ok.mp hleft
  obtain ⟨-, rfl, rfl⟩ := i128_ok.mp hright
  exact ⟨h, hm⟩

end Steps

/-! ## Creation -/

section Creation

variable {handles : Handles} {kind : ProposalKind} {proposer target : Address}
  {title impact : Bytes} {function : Symbol} {args : List Val}

/-- The rules that decide what a creation does to others. -/
structure DaoConfig.SameEntry (config config' : DaoConfig) : Prop where
  govToken : config'.govToken = config.govToken
  proposalThreshold : config'.proposalThreshold = config.proposalThreshold
  totalSupply : config'.totalSupply = config.totalSupply
  discussion : 0 < config'.discussionPeriod ↔ 0 < config.discussionPeriod

theorem DaoConfig.SameEntry.status (h : config.SameEntry config') (now : ℕ) :
    (config'.schedule now).1 = (config.schedule now).1 := by
  unfold DaoConfig.schedule
  by_cases hpos : 0 < config.discussionPeriod
  · rw [if_pos hpos, if_pos (h.discussion.mpr hpos)]
  · rw [if_neg hpos, if_neg fun hpos' => hpos (h.discussion.mp hpos')]

theorem DaoConfig.SameEntry.deposit (h : config.SameEntry config') :
    s.effectiveThreshold self config' kind target =
      s.effectiveThreshold self config kind target := by
  unfold State.effectiveThreshold
  rw [h.proposalThreshold]

theorem twins_ensureNotProposed (hash : ContentHash) :
    TwinUnits pid c c' (ensureNotProposed hash) (ensureNotProposed hash) := by
  refine lockstep_bind twins_load fun s s' _ => ?_
  exact (twins_ensure _ _ _ _).weaken fun _ _ _ => trivial

theorem twins_openProposal
    (hrules : ∀ config config', c = some config → c' = some config' →
      config.SameEntry config') :
    TwinUnits pid c c'
      (openProposal env handles kind proposer title target function args
        impact)
      (openProposal env handles kind proposer title target function args
        impact) := by
  refine lockstep_bind (twins_ensureNotProposed _) fun _ _ _ => ?_
  refine lockstep_bind (twins_loadConfig _ _) ?_
  rintro config config' ⟨hconfig, hconfig'⟩
  have hsame := hrules config config' hconfig hconfig'
  refine lockstep_bind twins_load fun s s' hs => ?_
  obtain ⟨htaken, -⟩ := hs
  refine lockstep_bind twins_get fun _ _ _ => ?_
  refine lockstep_bind (twins_ensure _ _ _ _) fun _ _ _ => ?_
  have hstatus := hsame.status env.now
  rcases hleft : config.schedule env.now with ⟨status, voteEnd⟩
  rcases hright : config'.schedule env.now with ⟨status', voteEnd'⟩
  rw [hleft, hright] at hstatus
  obtain rfl : status' = status := hstatus
  rw [State.revised_effectiveThreshold, hsame.deposit, hsame.govToken,
    hsame.totalSupply]
  refine lockstep_bind (twins_storeProposal ⟨rfl, ?_⟩) fun _ _ _ => ?_
  · rintro rfl
    exact absurd htaken (lt_irrefl _)
  refine lockstep_bind (twins_unsigned _ rfl) ?_
  rintro next _ ⟨rfl, hnext⟩
  refine lockstep_bind (twins_update (fun _ _ _ => rfl) ?_) fun _ _ _ => ?_
  · exact fun _ _ => hnext ▸ Nat.lt_succ_of_lt htaken
  refine lockstep_bind (twins_storeHash _ _) fun _ _ _ => ?_
  refine lockstep_bind (twins_transferToken _ _ _ _) fun _ _ _ => ?_
  refine lockstep_bind (twins_publish rfl) fun _ _ _ => ?_
  exact lockstep_pure trivial

theorem twins_createProposal
    (hrules : ∀ config config', c = some config → c' = some config' →
      config.SameEntry config') :
    TwinUnits pid c c'
      (createProposal env handles proposer title target function args impact)
      (createProposal env handles proposer title target function args
        impact) := by
  refine lockstep_bind (twins_requireAuth _ _) fun _ _ _ => ?_
  refine lockstep_bind (twins_ensure _ _ _ _) fun _ _ _ => ?_
  refine lockstep_bind (twins_ensure _ _ _ _) fun _ _ _ => ?_
  refine lockstep_bind (twins_ensure _ _ _ _) fun _ _ _ => ?_
  refine lockstep_bind (twins_ensure _ _ _ _) fun _ _ _ => ?_
  exact twins_openProposal hrules

theorem twins_proposeUpgrade {newWasmHash : Bytes}
    (hrules : ∀ config config', c = some config → c' = some config' →
      config.SameEntry config') :
    TwinUnits pid c c'
      (proposeUpgrade env handles proposer title target newWasmHash impact)
      (proposeUpgrade env handles proposer title target newWasmHash
        impact) := by
  refine lockstep_bind (twins_requireAuth _ _) fun _ _ _ => ?_
  refine lockstep_bind (twins_ensure _ _ _ _) fun _ _ _ => ?_
  refine lockstep_bind (twins_ensure _ _ _ _) fun _ _ _ => ?_
  exact twins_openProposal hrules

theorem twins_createProposalFromTemplate {name : Symbol}
    (hrules : ∀ config config', c = some config → c' = some config' →
      config.SameEntry config') :
    TwinUnits pid c c'
      (createProposalFromTemplate env handles proposer name title target
        function args impact)
      (createProposalFromTemplate env handles proposer name title target
        function args impact) := by
  refine lockstep_bind twins_load fun s s' _ => ?_
  refine lockstep_bind (lockstep_unwrap _ _ _ _) fun _ _ _ => ?_
  refine lockstep_bind (twins_ensure _ _ _ _) fun _ _ _ => ?_
  refine lockstep_bind (twins_ensure _ _ _ _) fun _ _ _ => ?_
  refine lockstep_bind (twins_ensure _ _ _ _) fun _ _ _ => ?_
  exact twins_createProposal hrules

end Creation

/-! ## Delegation and votes -/

section Votes

variable {delegator delegate voter govToken : Address} {choice : VoteChoice}

theorem twins_removeDelegator :
    TwinUnits pid c c' (removeDelegator delegate delegator)
      (removeDelegator delegate delegator) := by
  refine lockstep_bind twins_load fun s s' hs => ?_
  obtain ⟨-, -⟩ := hs
  exact twins_set (fun _ _ _ => rfl) fun _ => rfl

theorem twins_leaveDelegate :
    TwinUnits pid c c' (leaveDelegate delegator delegate)
      (leaveDelegate delegator delegate) := by
  refine lockstep_bind twins_load fun s s' hs => ?_
  obtain ⟨-, -⟩ := hs
  rw [State.revised_delegateOf]
  cases s.delegateOf delegator with
  | none => exact lockstep_pure trivial
  | some current =>
      refine lockstep_bind (twins_ensure _ _ _ _) fun _ _ _ => ?_
      exact twins_removeDelegator

theorem twins_delegate :
    TwinUnits pid c c' (GovernanceDao.delegate env delegator delegate)
      (GovernanceDao.delegate env delegator delegate) := by
  refine lockstep_bind (twins_requireAuth _ _) fun _ _ _ => ?_
  refine lockstep_bind (twins_ensure _ _ _ _) fun _ _ _ => ?_
  refine lockstep_bind twins_load fun _ _ _ => ?_
  refine lockstep_bind (twins_ensure _ _ _ _) fun _ _ _ => ?_
  refine lockstep_bind (twins_ensure _ _ _ _) fun _ _ _ => ?_
  refine lockstep_bind (twins_ensure _ _ _ _) fun _ _ _ => ?_
  refine lockstep_bind twins_leaveDelegate fun _ _ _ => ?_
  refine lockstep_bind twins_load fun s s' hs => ?_
  obtain ⟨-, -⟩ := hs
  refine lockstep_bind (twins_ensure _ _ _ _) fun _ _ _ => ?_
  refine lockstep_bind (twins_set (fun _ _ _ => rfl) fun _ => rfl)
    fun _ _ _ => ?_
  refine lockstep_bind (twins_set (fun _ _ _ => rfl) fun _ => rfl)
    fun _ _ _ => ?_
  refine lockstep_bind (twins_set (fun _ _ _ => rfl) fun _ => rfl)
    fun _ _ _ => ?_
  refine lockstep_bind (twins_loadConfig _ _) fun _ _ _ => ?_
  exact lockstep_pure trivial

theorem twins_delegateWithExpiry {seconds : ℕ} :
    TwinUnits pid c c' (delegateWithExpiry env delegator delegate seconds)
      (delegateWithExpiry env delegator delegate seconds) := by
  refine lockstep_bind (twins_ensure _ _ _ _) fun _ _ _ => ?_
  refine lockstep_bind twins_delegate fun _ _ _ => ?_
  exact twins_set (fun _ _ _ => rfl) fun _ => rfl

theorem twins_revokeDelegation :
    TwinUnits pid c c' (revokeDelegation env delegator)
      (revokeDelegation env delegator) := by
  refine lockstep_bind (twins_requireAuth _ _) fun _ _ _ => ?_
  refine lockstep_bind twins_load fun s s' hs => ?_
  obtain ⟨-, -⟩ := hs
  refine lockstep_bind (lockstep_unwrap _ _ _ _) ?_
  rintro current current' ⟨hcurrent, hcurrent'⟩
  obtain rfl := Option.some.inj (hcurrent.symm.trans hcurrent')
  refine lockstep_bind (twins_set (fun _ _ _ => rfl) fun _ => rfl)
    fun _ _ _ => ?_
  refine lockstep_bind (twins_set (fun _ _ _ => rfl) fun _ => rfl)
    fun _ _ _ => ?_
  exact twins_removeDelegator

theorem twins_ensureNotCounted :
    TwinUnits pid c c' (ensureNotCounted voter id)
      (ensureNotCounted voter id) := by
  refine lockstep_bind twins_load fun _ _ _ => ?_
  exact (twins_ensure _ _ _ _).weaken fun _ _ _ => trivial

theorem twins_ensureNotDelegated :
    TwinUnits pid c c' (ensureNotDelegated voter)
      (ensureNotDelegated voter) := by
  refine lockstep_bind twins_load fun _ _ _ => ?_
  exact (twins_ensure _ _ _ _).weaken fun _ _ _ => trivial

theorem twins_requireBallot :
    TwinCalls pid c c' (Proposal.Alike (id = pid)) (requireBallot env voter id)
      (requireBallot env voter id) := by
  refine lockstep_bind (twins_loadProposal id) fun p p' halike => ?_
  refine lockstep_bind (twins_ensure _ _ _ _) fun _ _ _ => ?_
  refine lockstep_bind (twins_ensure _ _ _ _) fun _ _ _ => ?_
  refine lockstep_bind (twins_ensure _ _ _ _) fun _ _ _ => ?_
  refine lockstep_bind twins_load fun _ _ _ => ?_
  refine lockstep_bind (twins_ensure _ _ _ _) fun _ _ _ => ?_
  exact lockstep_pure halike

theorem twins_ownWeight :
    TwinCalls pid c c' Eq (ownWeight govToken voter)
      (ownWeight govToken voter) := by
  refine lockstep_bind twins_get fun m m' hm => ?_
  obtain ⟨⟩ := hm
  refine lockstep_bind (twins_ensure _ _ _ _) fun _ _ _ => ?_
  exact lockstep_pure rfl

theorem twins_countDelegator :
    TwinCalls pid c c' Eq (countDelegator env govToken voter id delegator)
      (countDelegator env govToken voter id delegator) := by
  refine lockstep_bind twins_get fun m m' hm => ?_
  obtain ⟨⟩ := hm
  refine lockstep_ite Iff.rfl (fun _ => lockstep_pure rfl) fun _ => ?_
  refine lockstep_bind (twins_set (fun _ _ _ => rfl) fun _ => rfl)
    fun _ _ _ => ?_
  rw [State.revised_timeWeighted]
  refine lockstep_bind (twins_publish rfl) fun _ _ _ => ?_
  exact lockstep_pure rfl

theorem twins_voteWeight {own : ℤ} :
    TwinCalls pid c c' Eq (voteWeight env govToken voter id own)
      (voteWeight env govToken voter id own) := by
  have hcollect : TwinCalls pid c c' Eq
      (collectDelegatedWeight env govToken voter id)
      (collectDelegatedWeight env govToken voter id) := by
    refine lockstep_bind twins_load fun s s' hs => ?_
    obtain ⟨-, -⟩ := hs
    refine lockstep_bind (lockstep_collect fun _ _ => twins_countDelegator) ?_
    rintro weights _ rfl
    exact lockstep_pure rfl
  refine lockstep_bind hcollect ?_
  rintro weight _ rfl
  refine lockstep_bind (twins_ensure _ _ _ _) fun _ _ _ => ?_
  exact lockstep_pure rfl

/-- Votes are added to the same tally. -/
theorem twins_tally {weight : ℤ} (h : p.Alike same p') :
    TwinCalls pid c c' (Proposal.Alike same) (p.tally choice weight)
      (p'.tally choice weight) := by
  have hvotes : p'.votes choice = p.votes choice := by
    rw [h.eq]
    cases choice <;> rfl
  refine lockstep_bind (twins_i128 _ (by rw [hvotes])) ?_
  rintro votes _ rfl
  refine lockstep_pure (h.map (fun p => p.setVotes choice votes) ?_)
  intro p _ _ _
  cases choice <;> rfl

/-- A vote counts the same and locks the same where the token and the cap are
the same. -/
theorem twins_vote
    (hrules : ∀ config config', c = some config → c' = some config' →
      config'.govToken = config.govToken ∧
        config'.voteWeightCap = config.voteWeightCap) :
    TwinUnits pid c c' (vote env voter id choice)
      (vote env voter id choice) := by
  refine lockstep_bind (twins_requireAuth _ _) fun _ _ _ => ?_
  refine lockstep_bind twins_requireBallot fun p p' halike => ?_
  refine lockstep_bind (twins_loadConfig _ _) ?_
  rintro config config' ⟨hconfig, hconfig'⟩
  obtain ⟨htoken, hcap⟩ := hrules config config' hconfig hconfig'
  have hcapped : config'.capped = config.capped := by
    funext own
    rw [DaoConfig.capped, hcap, DaoConfig.capped]
  rw [htoken, hcapped]
  refine lockstep_bind twins_ensureNotDelegated fun _ _ _ => ?_
  refine lockstep_bind twins_ensureNotCounted fun _ _ _ => ?_
  refine lockstep_bind twins_ownWeight ?_
  rintro own _ rfl
  refine lockstep_bind twins_load fun s s' hs => ?_
  obtain ⟨-, -⟩ := hs
  rw [State.revised_timeWeighted]
  refine lockstep_bind twins_voteWeight ?_
  rintro weight _ rfl
  refine lockstep_bind (twins_transferToken _ _ _ _) fun _ _ _ => ?_
  refine lockstep_bind (twins_set (fun _ _ _ => rfl) fun _ => rfl)
    fun _ _ _ => ?_
  refine lockstep_bind (twins_tally halike) fun voted voted' hvoted => ?_
  refine lockstep_bind (twins_set (fun _ _ _ => rfl) fun _ => rfl)
    fun _ _ _ => ?_
  refine lockstep_bind (twins_storeProposal hvoted) fun _ _ _ => ?_
  exact twins_publish rfl

theorem twins_tallyBallot {own lock : ℤ} (h : p.Alike (id = pid) p') :
    TwinUnits pid c c'
      (tallyBallot env govToken voter choice own lock id p)
      (tallyBallot env govToken voter choice own lock id p') := by
  refine lockstep_bind twins_voteWeight ?_
  rintro weight _ rfl
  refine lockstep_bind (twins_tally h) fun voted voted' hvoted => ?_
  refine lockstep_bind (twins_set (fun _ _ _ => rfl) fun _ => rfl)
    fun _ _ _ => ?_
  refine lockstep_bind (twins_set (fun _ _ _ => rfl) fun _ => rfl)
    fun _ _ _ => ?_
  refine lockstep_bind (twins_storeProposal hvoted) fun _ _ _ => ?_
  exact twins_publish rfl

theorem twins_tallyBatch {own lock : ℤ} {ballots ballots' : List (ℕ × Proposal)}
    (h : List.Forall₂ (fun b b' : ℕ × Proposal => b'.1 = b.1 ∧
      b.2.Alike (b.1 = pid) b'.2) ballots ballots') :
    TwinUnits pid c c'
      (tallyBatch env govToken voter choice own lock ballots)
      (tallyBatch env govToken voter choice own lock ballots') := by
  induction h generalizing lock with
  | nil => exact lockstep_pure trivial
  | @cons b b' ballots ballots' hb _ ih =>
      obtain ⟨id, p⟩ := b
      obtain ⟨_, p'⟩ := b'
      obtain ⟨rfl, halike⟩ := hb
      exact lockstep_bind (twins_tallyBallot halike) fun _ _ _ => ih

theorem twins_voteBatch {ids : List ℕ}
    (hrules : ∀ config config', c = some config → c' = some config' →
      config'.govToken = config.govToken ∧
        config'.voteWeightCap = config.voteWeightCap) :
    TwinUnits pid c c' (voteBatch env voter ids choice)
      (voteBatch env voter ids choice) := by
  refine lockstep_bind (twins_requireAuth _ _) fun _ _ _ => ?_
  refine lockstep_bind (twins_ensure _ _ _ _) fun _ _ _ => ?_
  refine lockstep_bind (twins_ensure _ _ _ _) fun _ _ _ => ?_
  refine lockstep_bind twins_ensureNotDelegated fun _ _ _ => ?_
  refine lockstep_bind (twins_loadConfig _ _) ?_
  rintro config config' ⟨hconfig, hconfig'⟩
  obtain ⟨htoken, hcap⟩ := hrules config config' hconfig hconfig'
  have hcapped : config'.capped = config.capped := by
    funext own
    rw [DaoConfig.capped, hcap, DaoConfig.capped]
  rw [htoken, hcapped]
  have hballot : ∀ id, TwinCalls pid c c' (Proposal.Alike (id = pid))
      (requireBatchBallot env voter id) (requireBatchBallot env voter id) := by
    intro id
    refine lockstep_bind twins_requireBallot fun p p' halike => ?_
    refine lockstep_bind twins_ensureNotCounted fun _ _ _ => ?_
    exact lockstep_pure halike
  refine lockstep_bind (lockstep_collect_zip fun id _ => hballot id)
    fun ps ps' hballots => ?_
  refine lockstep_bind twins_ownWeight ?_
  rintro own _ rfl
  refine lockstep_bind twins_load fun s s' hs => ?_
  obtain ⟨-, -⟩ := hs
  rw [State.revised_timeWeighted]
  refine lockstep_bind (twins_transferToken _ _ _ _) fun _ _ _ => ?_
  exact twins_tallyBatch hballots

theorem twins_withdrawTokens
    (hrules : ∀ config config', c = some config → c' = some config' →
      config'.govToken = config.govToken) :
    TwinUnits pid c c' (withdrawTokens env voter id)
      (withdrawTokens env voter id) := by
  refine lockstep_bind (twins_requireAuth _ _) fun _ _ _ => ?_
  refine lockstep_bind (twins_loadProposal id) fun _ _ _ => ?_
  refine lockstep_bind (twins_ensure _ _ _ _) fun _ _ _ => ?_
  refine lockstep_bind twins_load fun s s' hs => ?_
  obtain ⟨-, -⟩ := hs
  refine lockstep_ite Iff.rfl (fun _ => ?_) fun _ => ?_
  · exact (twins_ensure _ _ _ _).weaken fun _ _ _ => trivial
  · refine lockstep_bind (twins_set (fun _ _ _ => rfl) fun _ => rfl)
      fun _ _ _ => ?_
    refine lockstep_bind (twins_loadConfig _ _) ?_
    rintro config config' ⟨hconfig, hconfig'⟩
    rw [hrules config config' hconfig hconfig']
    refine lockstep_bind (twins_transferToken _ _ _ _) fun _ _ _ => ?_
    exact twins_publish rfl

theorem twins_checkpointVotingPower
    (hrules : ∀ config config', c = some config → c' = some config' →
      config'.govToken = config.govToken) :
    TwinUnits pid c c' (checkpointVotingPower env voter)
      (checkpointVotingPower env voter) := by
  refine lockstep_bind (twins_requireAuth _ _) fun _ _ _ => ?_
  refine lockstep_bind (twins_loadConfig _ _) ?_
  rintro config config' ⟨hconfig, hconfig'⟩
  rw [hrules config config' hconfig hconfig']
  refine lockstep_bind twins_get fun m m' hm => ?_
  obtain ⟨⟩ := hm
  exact twins_set (fun _ _ _ => rfl) fun _ => rfl

end Votes

/-! ## Outcome -/

section Outcomes

variable {handles : Handles} {admin : Address}

theorem Proposal.Alike.totalVotes (h : p.Alike same p') :
    p'.totalVotes = p.totalVotes := by
  rw [h.eq]
  rfl

theorem Proposal.Alike.passes (h : p.Alike same p') (quorum majority : ℕ) :
    p'.passes quorum majority ↔ p.passes quorum majority := by
  rw [h.eq]
  rfl

theorem twins_totalVotes (h : p.Alike same p') :
    TwinCalls pid c c' Eq p.totalVotes p'.totalVotes := by
  rw [h.totalVotes]
  refine lockstep_bind (twins_i128 _ rfl) ?_
  rintro votes _ rfl
  exact twins_i128 _ rfl

theorem twins_refundDeposit (htoken : config'.govToken = config.govToken)
    (h : p.Alike same p') :
    TwinUnits pid c c' (refundDeposit env config p)
      (refundDeposit env config' p') := by
  have hrefund : refundDeposit env config' p' = refundDeposit env config p := by
    rw [refundDeposit, htoken, h.eq, refundDeposit]
  rw [hrefund]
  exact twins_transferToken _ _ _ _

theorem twins_clearProposalHash (h : p.Alike same p') :
    TwinUnits pid c c' (clearProposalHash handles p)
      (clearProposalHash handles p') := by
  have hclear : clearProposalHash handles p' = clearProposalHash handles p := by
    rw [h.eq]
    rfl
  rw [hclear]
  exact twins_storeHash _ _

theorem Proposal.Alike.withStatus (h : p.Alike same p')
    (status : ProposalStatus) :
    ({ p with status := status } : Proposal).Alike same
      { p' with status := status } :=
  h.map (fun p => { p with status := status }) fun _ _ _ _ => rfl

/-- The rules that decide what a finalization does. -/
structure DaoConfig.SameCount (same : Prop) (config config' : DaoConfig) :
    Prop where
  govToken : config'.govToken = config.govToken
  quorumBps : config'.quorumBps = config.quorumBps
  majorityBps : config'.majorityBps = config.majorityBps
  timelock_of : same → config'.proposalTimelock = config.proposalTimelock

theorem twins_count {quorum : ℕ} (hrules : config.SameCount same config')
    (h : p.Alike same p') :
    TwinCalls pid c c' (Proposal.Alike same) (p.count env quorum config)
      (p'.count env quorum config') := by
  unfold Proposal.count
  rw [hrules.majorityBps]
  refine lockstep_ite (h.passes _ _).symm (fun _ => ?_) fun _ => ?_
  · intro m m' hm q m₁ q' m₁' hleft hright
    simp only [bind_ok, unsigned_ok, pure_ok] at hleft hright
    obtain ⟨_, _, ⟨-, rfl, rfl⟩, rfl, rfl⟩ := hleft
    obtain ⟨_, _, ⟨-, rfl, rfl⟩, rfl, rfl⟩ := hright
    refine ⟨⟨?_, fun hs => ?_⟩, hm⟩
    · rw [h.eq]
    · rw [h.exact_of hs, hrules.timelock_of hs]
  · exact lockstep_pure (h.withStatus .failed)

theorem twins_recordParticipation (votes : ℤ) (h : p.Alike same p') :
    TwinUnits pid c c' (recordParticipation votes p.totalSupply)
      (recordParticipation votes p'.totalSupply) := by
  have hsupply : p'.totalSupply = p.totalSupply := by rw [h.eq]
  rw [hsupply]
  exact twins_set (fun _ _ _ => rfl) fun _ => rfl

theorem twins_conclude (hrules : config.SameCount (id = pid) config')
    (h : p.Alike (id = pid) p') :
    TwinUnits pid c c' (conclude env handles config id p)
      (conclude env handles config' id p') := by
  refine lockstep_bind (twins_totalVotes h) ?_
  rintro votes _ rfl
  refine lockstep_bind twins_load fun s s' hs => ?_
  obtain ⟨-, -⟩ := hs
  have hquorum : s.effectiveQuorum config' = s.effectiveQuorum config := by
    rw [State.effectiveQuorum, hrules.quorumBps, State.effectiveQuorum]
  rw [State.revised_effectiveQuorum, hquorum]
  refine lockstep_bind (twins_count hrules h) fun q q' hq => ?_
  have hstatus : q'.status = q.status := by rw [hq.eq]
  rw [hstatus]
  refine lockstep_bind (twins_recordParticipation _ h) fun _ _ _ => ?_
  refine lockstep_bind (lockstep_whenever Iff.rfl
    (twins_refundDeposit hrules.govToken h)) fun _ _ _ => ?_
  refine lockstep_bind (twins_storeProposal hq) fun _ _ _ => ?_
  refine lockstep_bind (twins_clearProposalHash h) fun _ _ _ => ?_
  exact twins_publish rfl

theorem twins_requireFinalizable :
    TwinCalls pid c c' (Proposal.Alike (id = pid)) (requireFinalizable env id)
      (requireFinalizable env id) := by
  refine lockstep_bind (twins_loadProposal id) fun p p' halike => ?_
  refine lockstep_bind (twins_ensure _ _ _ _) fun _ _ _ => ?_
  have hdelayed : TwinUnits pid c c'
      (unsigned 64 (p.voteEnd + finalizeDelay) .trap : Call ℕ)
      (unsigned 64 (p'.voteEnd + finalizeDelay) .trap : Call ℕ) :=
    lockstep_bind (lockstep_require _ _ _ _) fun _ _ _ => lockstep_pure trivial
  refine lockstep_bind hdelayed fun _ _ _ => ?_
  refine lockstep_bind (twins_ensure _ _ _ _) fun _ _ _ => ?_
  exact lockstep_pure halike

/-- A finalization has the same outcome where quorum, majority and token are
the same, and the same execution time where the timelock is too. -/
theorem twins_finalize
    (hrules : ∀ config config', c = some config → c' = some config' →
      config.SameCount (id = pid) config') :
    TwinUnits pid c c' (finalize env handles id) (finalize env handles id) := by
  refine lockstep_bind twins_requireFinalizable fun p p' halike => ?_
  refine lockstep_bind (twins_loadConfig _ _) ?_
  rintro config config' ⟨hconfig, hconfig'⟩
  exact twins_conclude (hrules config config' hconfig hconfig') halike

theorem twins_finalizeBatch {handles : ℕ → Handles} {ids : List ℕ}
    (hrules : ∀ config config', c = some config → c' = some config' →
      config.SameCount (pid ∈ ids) config') :
    TwinUnits pid c c' (finalizeBatch env handles ids)
      (finalizeBatch env handles ids) := by
  refine lockstep_bind (twins_ensure _ _ _ _) fun _ _ _ => ?_
  refine lockstep_bind (twins_ensure _ _ _ _) fun _ _ _ => ?_
  refine lockstep_bind (twins_loadConfig _ _) ?_
  rintro config config' ⟨hconfig, hconfig'⟩
  have hsame := hrules config config' hconfig hconfig'
  refine lockstep_forEach fun id hid => ?_
  refine lockstep_bind twins_requireFinalizable fun p p' halike => ?_
  refine twins_conclude ⟨hsame.govToken, hsame.quorumBps, hsame.majorityBps,
    fun heq => hsame.timelock_of (heq ▸ hid)⟩ halike

theorem twins_reclaimDeposit
    (hrules : ∀ config config', c = some config → c' = some config' →
      config'.govToken = config.govToken) :
    TwinUnits pid c c' (reclaimDeposit env handles id)
      (reclaimDeposit env handles id) := by
  refine lockstep_bind (twins_loadProposal id) fun p p' halike => ?_
  refine lockstep_bind (twins_ensure _ _ _ _) fun _ _ _ => ?_
  refine lockstep_bind (twins_ensure _ _ _ _) fun _ _ _ => ?_
  refine lockstep_bind (twins_loadConfig _ _) ?_
  rintro config config' ⟨hconfig, hconfig'⟩
  have hevent : Event.depositReclaimed id p.proposer p.deposit =
      .depositReclaimed id p'.proposer p'.deposit := by rw [halike.eq]
  refine lockstep_bind (twins_totalVotes halike) ?_
  rintro votes _ rfl
  refine lockstep_bind (twins_recordParticipation _ halike) fun _ _ _ => ?_
  refine lockstep_bind (twins_refundDeposit
    (hrules config config' hconfig hconfig') halike) fun _ _ _ => ?_
  refine lockstep_bind (twins_storeProposal (halike.withStatus .failed))
    fun _ _ _ => ?_
  refine lockstep_bind (twins_clearProposalHash halike) fun _ _ _ => ?_
  exact twins_publish hevent

theorem twins_cancel
    (hrules : ∀ config config', c = some config → c' = some config' →
      config'.govToken = config.govToken) :
    TwinUnits pid c c' (cancel env handles admin id)
      (cancel env handles admin id) := by
  refine lockstep_bind (twins_requireAdmin _) fun _ _ _ => ?_
  refine lockstep_bind (twins_loadProposal id) fun p p' halike => ?_
  refine lockstep_bind (twins_ensure _ _ _ _) fun _ _ _ => ?_
  refine lockstep_bind (twins_storeProposal (halike.withStatus .cancelled))
    fun _ _ _ => ?_
  refine lockstep_bind (twins_loadConfig _ _) ?_
  rintro config config' ⟨hconfig, hconfig'⟩
  refine lockstep_bind (twins_refundDeposit
    (hrules config config' hconfig hconfig') halike) fun _ _ _ => ?_
  refine lockstep_bind (twins_clearProposalHash halike) fun _ _ _ => ?_
  exact twins_publish rfl

theorem twins_startVoting :
    TwinUnits pid c c' (startVoting env id) (startVoting env id) := by
  refine lockstep_bind (twins_loadProposal id) fun p p' halike => ?_
  refine lockstep_bind (twins_ensure _ _ _ _) fun _ _ _ => ?_
  refine lockstep_bind (twins_loadConfig _ _) fun _ _ _ => ?_
  refine lockstep_bind (twins_ensure _ _ _ _) fun _ _ _ => ?_
  refine lockstep_bind (twins_ensure _ _ _ _) fun _ _ _ => ?_
  refine lockstep_bind (twins_storeProposal (halike.withStatus .active))
    fun _ _ _ => ?_
  exact twins_publish rfl

theorem twins_vetoProposal {guardian : Address} {reason : Symbol} :
    TwinUnits pid c c' (vetoProposal env guardian id reason)
      (vetoProposal env guardian id reason) := by
  refine lockstep_bind (twins_requireAuth _ _) fun _ _ _ => ?_
  refine lockstep_bind twins_load fun _ _ _ => ?_
  refine lockstep_bind (twins_ensure _ _ _ _) fun _ _ _ => ?_
  refine lockstep_bind (twins_loadProposal id) fun p p' halike => ?_
  refine lockstep_bind (twins_ensure _ _ _ _) fun _ _ _ => ?_
  refine lockstep_bind (twins_ensure _ _ _ _) fun _ _ _ => ?_
  refine lockstep_bind (twins_storeProposal (halike.map
    (fun p => { p with isVetoed := true }) fun _ _ _ _ => rfl)) fun _ _ _ => ?_
  exact twins_publish rfl

end Outcomes

/-! ## Execution -/

section Execution

variable {handles : Handles} {target : Address} {outcome : Outcome}

theorem twins_invokeContract :
    TwinCalls pid c c' Eq (invokeContract env target outcome)
      (invokeContract env target outcome) := by
  intro m m' hm r m₁ r' m₁' hleft hright
  obtain ⟨-, hr, hm₁⟩ := invokeContract_ok hleft
  obtain ⟨-, hr', hm₁'⟩ := invokeContract_ok hright
  rw [hm.bank, hr, Option.some.injEq, Prod.mk.injEq] at hr'
  obtain ⟨hbank, rfl⟩ := hr'
  rw [hm₁, hm₁']
  exact ⟨rfl, hbank.symm, hm.store, hm.left, hm.right, hm.taken, hm.alike⟩

theorem twins_executionBps (result : Option ℕ) :
    TwinCalls pid c c' Eq (executionBps result) (executionBps result) := by
  cases result with
  | none => exact lockstep_pure rfl
  | some bps =>
      refine lockstep_bind (twins_ensure _ _ _ _) fun _ _ _ => ?_
      exact lockstep_pure rfl

theorem twins_execute
    (hbranch : ∀ p p', m.store.proposal id = some p →
      m'.store.proposal id = some p' →
        (p.executionDeadline < env.now ↔ p'.executionDeadline < env.now))
    (hrules : ∀ config config', c = some config → c' = some config' →
      config'.govToken = config.govToken)
    {u u' : Unit} {m₁ m₁' : Machine State} (hm : Twins pid c c' m m')
    (hleft : execute env handles outcome id m = .ok (u, m₁))
    (hright : execute env handles outcome id m' = .ok (u', m₁')) :
    Twins pid c c' m₁ m₁' := by
  obtain ⟨p, _, hp, hrest⟩ := bind_ok.mp hleft
  obtain ⟨p', _, hp', hrest'⟩ := bind_ok.mp hright
  obtain ⟨halike, -⟩ := twins_loadProposal id m m' hm p _ p' _ hp hp'
  obtain ⟨hp, rfl⟩ := loadProposal_ok.mp hp
  obtain ⟨hp', rfl⟩ := loadProposal_ok.mp hp'
  have hlate := hbranch p p' hp hp'
  refine ((?_ : TwinUnits pid c c' _ _) _ _ hm u m₁ u' m₁' hrest hrest').2
  refine lockstep_bind (twins_ensure _ _ _ _) fun _ _ _ => ?_
  refine lockstep_bind (twins_ensure _ _ _ _) fun _ _ _ => ?_
  refine lockstep_bind (twins_ensure _ _ _ _) fun _ _ _ => ?_
  refine lockstep_bind (twins_ensure _ _ _ _) fun _ _ _ => ?_
  refine lockstep_bind (twins_ensure _ _ _ _) fun _ _ _ => ?_
  refine lockstep_bind (twins_ensure _ _ _ _) fun _ _ _ => ?_
  refine lockstep_ite hlate (fun _ => ?_) fun _ => ?_
  · refine lockstep_bind (twins_storeProposal (halike.withStatus .expired))
      fun _ _ _ => ?_
    refine lockstep_bind (twins_clearProposalHash halike) fun _ _ _ => ?_
    exact twins_publish rfl
  · have hexecuted := halike.withStatus .executed
    rw [halike.eq] at hexecuted ⊢
    refine lockstep_bind twins_invokeContract ?_
    rintro result _ rfl
    refine lockstep_bind (twins_executionBps result) ?_
    rintro bps _ rfl
    refine lockstep_bind (lockstep_whenever Iff.rfl ?_) fun _ _ _ => ?_
    · refine lockstep_bind (twins_loadConfig _ _) ?_
      rintro config config' ⟨hconfig, hconfig'⟩
      rw [hrules config config' hconfig hconfig']
      exact twins_transferToken _ _ _ _
    refine lockstep_bind (twins_publish rfl) fun _ _ _ => ?_
    refine lockstep_bind (twins_storeProposal hexecuted) fun _ _ _ => ?_
    refine lockstep_bind (twins_set (fun _ _ _ => rfl) fun _ => rfl)
      fun _ _ _ => ?_
    exact twins_publish rfl

end Execution

/-! ## Settings -/

/-- Settings, templates and comments are changed the same way. -/
theorem twins_aside {e : Entry} (he : e.IsAside)
    (hne : ∀ holder, e ≠ .checkpointVotingPower holder) :
    TwinUnits pid c c' (exec env e) (exec env e) := by
  cases e with
  | registerTemplate =>
      refine lockstep_bind (twins_requireAdmin _) fun _ _ _ => ?_
      refine lockstep_bind (twins_ensure _ _ _ _) fun _ _ _ => ?_
      refine lockstep_bind (twins_ensure _ _ _ _) fun _ _ _ => ?_
      refine lockstep_bind twins_load fun s s' hs => ?_
      obtain ⟨-, -⟩ := hs
      refine lockstep_bind (twins_ensure _ _ _ _) fun _ _ _ => ?_
      refine lockstep_bind (twins_set (fun _ _ _ => rfl) fun _ => rfl)
        fun _ _ _ => ?_
      exact lockstep_whenever Iff.rfl (twins_set (fun _ _ _ => rfl)
        fun _ => rfl)
  | deactivateTemplate =>
      refine lockstep_bind (twins_requireAdmin _) fun _ _ _ => ?_
      refine lockstep_bind twins_load fun s s' hs => ?_
      obtain ⟨-, -⟩ := hs
      refine lockstep_bind (lockstep_unwrap _ _ _ _) ?_
      rintro template template' ⟨ht, ht'⟩
      obtain rfl := Option.some.inj (ht.symm.trans ht')
      exact twins_set (fun _ _ _ => rfl) fun _ => rfl
  | setTimeWeight =>
      refine lockstep_bind (twins_requireAdmin _) fun _ _ _ => ?_
      refine lockstep_bind (twins_ensure _ _ _ _) fun _ _ _ => ?_
      exact twins_set (fun _ _ _ => rfl) fun _ => rfl
  | checkpointVotingPower => exact absurd rfl (hne _)
  | setQuorumDecay =>
      refine lockstep_bind (twins_requireAdmin _) fun _ _ _ => ?_
      refine lockstep_bind (twins_loadConfig _ _) fun _ _ _ => ?_
      refine lockstep_bind (twins_ensure _ _ _ _) fun _ _ _ => ?_
      refine lockstep_bind (twins_ensure _ _ _ _) fun _ _ _ => ?_
      refine lockstep_bind (twins_ensure _ _ _ _) fun _ _ _ => ?_
      refine lockstep_bind (twins_ensure _ _ _ _) fun _ _ _ => ?_
      exact twins_set (fun _ _ _ => rfl) fun _ => rfl
  | setImpactMultipliers =>
      refine lockstep_bind (twins_requireAdmin _) fun _ _ _ => ?_
      refine lockstep_bind (lockstep_forEach fun _ _ => (twins_ensure _ _ _
        _).weaken fun _ _ _ => trivial) fun _ _ _ => ?_
      exact twins_set (fun _ _ _ => rfl) fun _ => rfl
  | pruneParticipationHistory =>
      simp only [exec, pruneParticipationHistory]
      exact twins_set (fun _ _ _ => rfl) fun _ => rfl
  | setRiskPool =>
      refine lockstep_bind (twins_requireAdmin _) fun _ _ _ => ?_
      exact twins_set (fun _ _ _ => rfl) fun _ => rfl
  | setGuardians =>
      refine lockstep_bind (twins_requireAdmin _) fun _ _ _ => ?_
      refine lockstep_bind (twins_ensure _ _ _ _) fun _ _ _ => ?_
      refine lockstep_bind (twins_ensure _ _ _ _) fun _ _ _ => ?_
      exact twins_set (fun _ _ _ => rfl) fun _ => rfl
  | addComment =>
      refine twins_perform ?_
      refine lockstep_bind (twins_requireAuth _ _) fun _ _ _ => ?_
      refine lockstep_bind (twins_ensure _ _ _ _) fun _ _ _ => ?_
      refine lockstep_bind (twins_loadProposal _) fun _ _ _ => ?_
      refine lockstep_bind (twins_ensure _ _ _ _) fun _ _ _ => ?_
      refine lockstep_bind twins_load fun s s' hs => ?_
      obtain ⟨-, -⟩ := hs
      refine lockstep_bind (twins_ensure _ _ _ _) fun _ _ _ => ?_
      refine lockstep_bind (twins_set (fun _ _ _ => rfl) fun _ => rfl)
        fun _ _ _ => ?_
      refine lockstep_bind (twins_set (fun _ _ _ => rfl) fun _ => rfl)
        fun _ _ _ => ?_
      exact lockstep_pure trivial
  | deleteComment =>
      refine lockstep_bind (twins_requireAdmin _) fun _ _ _ => ?_
      refine lockstep_bind twins_load fun _ _ _ => ?_
      refine lockstep_bind (twins_ensure _ _ _ _) fun _ _ _ => ?_
      exact twins_set (fun _ _ _ => rfl) fun _ => rfl
  | _ => exact he.elim

/-- A new configuration on one side leaves twins behind. -/
theorem Twins.reconfigured (h : Twins pid c c' m m')
    (config config' : Option DaoConfig) :
    Twins pid config config' ⟨{ m.store with config := config }, m.bank⟩
      ⟨{ m'.store with config := config' }, m'.bank⟩ where
  bank := h.bank
  store := congrArg (fun s : State => { s with config := config' }) h.store
  left := rfl
  right := rfl
  taken := h.taken
  alike := h.alike

/-! ## Calls -/

/-- The configurations agree on the rules by which the call treats `pid`, and
by which it changes what other proposals share with it. -/
def Entry.SameRules (pid : ℕ) (config config' : DaoConfig) : Entry → Prop
  | .createProposal .. | .createProposalFromTemplate .. | .proposeUpgrade .. =>
      config.SameEntry config'
  | .vote .. | .voteBatch .. =>
      config'.govToken = config.govToken ∧
        config'.voteWeightCap = config.voteWeightCap
  | .finalize _ id => config.SameCount (id = pid) config'
  | .finalizeBatch _ ids => config.SameCount (pid ∈ ids) config'
  | .checkpointVotingPower _ | .withdrawTokens .. | .reclaimDeposit ..
  | .cancel .. | .execute .. => config'.govToken = config.govToken
  | _ => True

/-- An execution finds the deadline missed in both states or in neither. -/
def Entry.SameDeadline (now : ℕ) (s s' : State) : Entry → Prop
  | .execute _ _ id => ∀ p p', s.proposal id = some p →
      s'.proposal id = some p' →
        (p.executionDeadline < now ↔ p'.executionDeadline < now)
  | _ => True

def Entry.isUpdate : Entry → Bool
  | .updateConfig .. => true
  | _ => false

theorem exec_twins {e : Entry} {u u' : Unit} {m₁ m₁' : Machine State}
    (he : e.isUpdate = false)
    (hrules : ∀ config config', m.store.config = some config →
      m'.store.config = some config' → e.SameRules pid config config')
    (hdeadline : e.SameDeadline env.now m.store m'.store)
    (hnew : Numbered m.store) (hm : Twins pid c c' m m')
    (hleft : exec env e m = .ok (u, m₁))
    (hright : exec env e m' = .ok (u', m₁')) :
    ∃ c₁ c₁', Twins pid c₁ c₁' m₁ m₁' := by
  rw [hm.left, hm.right] at hrules
  have hunits : TwinUnits pid c c' (exec env e) (exec env e) →
      ∃ c₁ c₁', Twins pid c₁ c₁' m₁ m₁' := fun h =>
    ⟨c, c', (h m m' hm u m₁ u' m₁' hleft hright).2⟩
  cases e with
  | initializeDao admin config =>
      simp [exec, initializeDao, storeConfig] at hleft
      have hnext := (hnew.unset hleft.1).2.2
      have htaken := hm.taken
      omega
  | updateConfig => cases he
  | setProposalThreshold =>
      simp [exec, setProposalThreshold, storeConfig] at hleft hright
      obtain ⟨-, -, old, -, rfl⟩ := hleft
      obtain ⟨-, -, old', -, rfl⟩ := hright
      exact ⟨_, _, hm.reconfigured _ _⟩
  | createProposal => exact hunits (twins_perform (twins_createProposal hrules))
  | createProposalFromTemplate =>
      exact hunits (twins_perform (twins_createProposalFromTemplate hrules))
  | proposeUpgrade => exact hunits (twins_perform (twins_proposeUpgrade hrules))
  | delegate => exact hunits twins_delegate
  | delegateWithExpiry => exact hunits twins_delegateWithExpiry
  | revokeDelegation => exact hunits twins_revokeDelegation
  | vote => exact hunits (twins_vote hrules)
  | voteBatch => exact hunits (twins_voteBatch hrules)
  | withdrawTokens => exact hunits (twins_withdrawTokens hrules)
  | finalize => exact hunits (twins_finalize hrules)
  | finalizeBatch => exact hunits (twins_finalizeBatch hrules)
  | reclaimDeposit => exact hunits (twins_reclaimDeposit hrules)
  | cancel => exact hunits (twins_cancel hrules)
  | startVoting => exact hunits twins_startVoting
  | execute =>
      exact ⟨c, c', twins_execute hdeadline hrules hm hleft hright⟩
  | vetoProposal => exact hunits twins_vetoProposal
  | checkpointVotingPower => exact hunits (twins_checkpointVotingPower hrules)
  | _ => exact hunits (twins_aside trivial (by rintro _ ⟨⟩))

/-! ## Two runs -/

/-- The states that two runs are in, with the same proposal `pid`. -/
structure Related (pid : ℕ) (w w' : World State) : Prop where
  now : w'.now = w.now
  numbered : Numbered w.machine.store
  twins : ∃ c c', Twins pid c c' w.machine w'.machine

/-- The step finds the same rules in both runs where they count. -/
def SameRules (pid : ℕ) (w w' : World State) : Label Entry → Prop
  | .call _ e =>
      (∀ config config', w.machine.store.config = some config →
        w'.machine.store.config = some config' →
          e.SameRules pid config config') ∧
      e.SameDeadline w.now w.machine.store w'.machine.store
  | _ => True

/-- The step is an `update_config` call. -/
def isUpdate : Label Entry → Bool
  | .call _ e => e.isUpdate
  | _ => false

theorem update_machine {l : Label Entry} (hl : isUpdate l = true)
    (hstep : (system self).Step w l w') :
    ∃ config, w' = { w with machine :=
      ⟨{ w.machine.store with config := config }, w.machine.bank⟩ } := by
  cases hstep with
  | @call _ e _ _ hexec =>
      cases e with
      | updateConfig admin config =>
          simp [exec, updateConfig, storeConfig] at hexec
          obtain ⟨-, -, rfl⟩ := hexec
          exact ⟨some config, rfl⟩
      | _ => cases hl
  | tick => cases hl
  | transfer => cases hl
  | mint => cases hl

namespace Related

variable {l : Label Entry} {w₁ w₁' : World State}

theorem update_left (h : Related pid w w') (hl : isUpdate l = true)
    (hstep : (system self).Step w l w₁) : Related pid w₁ w' := by
  have hnumbered := (numbered_inductive self).step w l w₁ h.numbered hstep
  obtain ⟨c, c', htwins⟩ := h.twins
  obtain ⟨config, rfl⟩ := update_machine hl hstep
  exact ⟨h.now, hnumbered, _, _,
    htwins.reconfigured config w'.machine.store.config⟩

theorem update_right (h : Related pid w w') (hl : isUpdate l = true)
    (hstep : (system self).Step w' l w₁') : Related pid w w₁' := by
  obtain ⟨c, c', htwins⟩ := h.twins
  obtain ⟨config, rfl⟩ := update_machine hl hstep
  exact ⟨h.now, h.numbered, _, _,
    htwins.reconfigured w.machine.store.config config⟩

/-- A step that finds the same rules keeps the runs related. -/
theorem step (h : Related pid w w') (hl : isUpdate l = false)
    (hsame : SameRules pid w w' l) (hstep : (system self).Step w l w₁)
    (hstep' : (system self).Step w' l w₁') : Related pid w₁ w₁' := by
  have hnumbered := (numbered_inductive self).step w l w₁ h.numbered hstep
  obtain ⟨c, c', htwins⟩ := h.twins
  cases hstep with
  | @call signers e m₁ _ hexec =>
      obtain ⟨-, hexec'⟩ := hstep'.exec_eq
      have henv : callEnv self w' signers = callEnv self w signers := by
        rw [callEnv, h.now, callEnv]
      rw [henv] at hexec'
      have hnow : w₁'.now = w'.now := by
        cases hstep'
        rfl
      exact ⟨hnow.trans h.now, hnumbered, exec_twins hl hsame.1 hsame.2
        h.numbered htwins hexec hexec'⟩
  | tick =>
      cases hstep'
      exact ⟨congrArg (· + _) h.now, hnumbered, c, c', htwins⟩
  | transfer _ hB =>
      cases hstep' with
      | transfer _ hB' =>
          rw [htwins.bank, hB, Option.some.injEq] at hB'
          exact ⟨h.now, hnumbered, c, c', hB'.symm, htwins.store, htwins.left,
            htwins.right, htwins.taken, htwins.alike⟩
  | mint =>
      cases hstep'
      exact ⟨h.now, hnumbered, c, c',
        congrArg (fun B => Bank.mint B _ _ _) htwins.bank, htwins.store,
        htwins.left, htwins.right, htwins.taken, htwins.alike⟩

end Related

/-- The steps that are no `update_config` calls. -/
def others (ls : List (Label Entry)) : List (Label Entry) :=
  ls.filter fun l => !isUpdate l

/-- Each step that two runs have in common finds the same rules in both. -/
def RulesKept (self : Address) (pid : ℕ) (w w' : World State)
    (ls ls' : List (Label Entry)) : Prop :=
  ∀ before l after before' after' t t', ls = before ++ l :: after →
    ls' = before' ++ l :: after' → isUpdate l = false →
    others before = others before' → (system self).Run w before t →
    (system self).Run w' before' t' → SameRules pid t t' l

theorem RulesKept.tail_left {l : Label Entry} {w₁ : World State}
    {ls ls' : List (Label Entry)} (h : RulesKept self pid w w' (l :: ls) ls')
    (hl : isUpdate l = true) (hstep : (system self).Step w l w₁) :
    RulesKept self pid w₁ w' ls ls' := by
  rintro before x after before' after' t t' rfl hls' hx hothers hrun hrun'
  refine h (l :: before) x after before' after' t t' rfl hls' hx ?_
    (.cons hstep hrun) hrun'
  rw [others, List.filter_cons_of_neg (by simp [hl])]
  exact hothers

theorem RulesKept.tail_right {l : Label Entry} {w₁' : World State}
    {ls ls' : List (Label Entry)} (h : RulesKept self pid w w' ls (l :: ls'))
    (hl : isUpdate l = true) (hstep : (system self).Step w' l w₁') :
    RulesKept self pid w w₁' ls ls' := by
  rintro before x after before' after' t t' hls rfl hx hothers hrun hrun'
  refine h before x after (l :: before') after' t t' hls rfl hx ?_ hrun
    (.cons hstep hrun')
  rw [hothers, others, others, List.filter_cons_of_neg (by simp [hl])]

theorem RulesKept.tail {l : Label Entry} {w₁ w₁' : World State}
    {ls ls' : List (Label Entry)}
    (h : RulesKept self pid w w' (l :: ls) (l :: ls'))
    (hstep : (system self).Step w l w₁)
    (hstep' : (system self).Step w' l w₁') :
    RulesKept self pid w₁ w₁' ls ls' := by
  rintro before x after before' after' t t' rfl rfl hx hothers hrun hrun'
  refine h (l :: before) x after (l :: before') after' t t' rfl rfl hx ?_
    (.cons hstep hrun) (.cons hstep' hrun')
  have hfilter := congrArg (fun xs => [l].filter (fun l => !isUpdate l) ++ xs)
    hothers
  simpa only [others, ← List.filter_append, List.singleton_append] using hfilter

/-- Runs that differ in `update_config` calls stay related. -/
theorem run_related {v v' : World State} {ls ls' : List (Label Entry)}
    (hrun : (system self).Run w ls v) (hrun' : (system self).Run w' ls' v')
    (hsame : others ls = others ls') (hkept : RulesKept self pid w w' ls ls')
    (h : Related pid w w') : Related pid v v' := by
  induction hrun generalizing w' ls' with
  | nil w =>
      induction hrun' with
      | nil => exact h
      | @cons w' w₁' v' l ls' hstep' _ ih =>
          cases hl : isUpdate l with
          | true =>
              refine ih ?_ (hkept.tail_right hl hstep')
                (h.update_right hl hstep')
              rw [hsame, others, List.filter_cons_of_neg (by simp [hl])]
              rfl
          | false =>
              rw [others, others, List.filter_cons_of_pos (by simp [hl])]
                at hsame
              cases hsame
  | @cons w w₁ v l ls hstep hrest ih =>
      cases hl : isUpdate l with
      | true =>
          refine ih hrun' ?_ (hkept.tail_left hl hstep) (h.update_left hl hstep)
          rw [← hsame, others, others, List.filter_cons_of_neg (by simp [hl])]
      | false =>
          induction hrun' with
          | nil =>
              rw [others, List.filter_cons_of_pos (by simp [hl])] at hsame
              cases hsame
          | @cons w' w₁' v' l' ls' hstep' hrest' ih' =>
              cases hl' : isUpdate l' with
              | true =>
                  refine ih' ih ?_ (hkept.tail_right hl' hstep')
                    (h.update_right hl' hstep')
                  rw [hsame, others, others,
                    List.filter_cons_of_neg (by simp [hl'])]
              | false =>
                  rw [others, others, List.filter_cons_of_pos (by simp [hl]),
                    List.filter_cons_of_pos (by simp [hl']),
                    List.cons.injEq] at hsame
                  obtain ⟨rfl, hsame⟩ := hsame
                  have hfirst := hkept [] l ls [] ls' w w' rfl rfl hl rfl
                    (.nil w) (.nil w')
                  exact ih hrest' hsame (hkept.tail hstep hstep')
                    (h.step hl hfirst hstep hstep')

/-- Two runs from the same state that differ in `update_config` calls treat a
proposal the same, and move the same tokens, as long as each other step finds
the same rules in both where they count. -/
theorem config_updates_unfelt {v v' : World State}
    {ls ls' : List (Label Entry)} (hw : (system self).Reachable w)
    (hp : w.machine.store.proposal pid = some p)
    (hrun : (system self).Run w ls v) (hrun' : (system self).Run w ls' v')
    (hsame : others ls = others ls')
    (hkept : RulesKept self pid w w ls ls') :
    v'.machine.store.proposal pid = v.machine.store.proposal pid ∧
      v'.machine.bank = v.machine.bank := by
  have hnumbered := hw.invariant (numbered_inductive self)
  have hself : Twins pid w.machine.store.config w.machine.store.config
      w.machine w.machine :=
    ⟨rfl, rfl, rfl, rfl, (hnumbered.stored pid p hp).2, fun q => by
      cases w.machine.store.proposal q with
      | none => exact .none
      | some q => exact .some ⟨rfl, fun _ => rfl⟩⟩
  have hrelated := run_related hrun hrun' hsame hkept
    ⟨rfl, hnumbered, _, _, hself⟩
  obtain ⟨c, c', htwins⟩ := hrelated.twins
  refine ⟨?_, htwins.bank⟩
  have halike := htwins.alike pid
  cases hv : v.machine.store.proposal pid with
  | none =>
      rw [hv] at halike
      cases hv' : v'.machine.store.proposal pid with
      | none => rfl
      | some => rw [hv'] at halike; cases halike
  | some q =>
      rw [hv] at halike
      cases hv' : v'.machine.store.proposal pid with
      | none => rw [hv'] at halike; cases halike
      | some q' =>
          rw [hv'] at halike
          cases halike with
          | some halike => rw [halike.exact_of rfl]

/-! ## Rules changed during the vote -/

namespace Scenario

/-- Alice votes for her proposal. -/
def ballot : Label Entry := .call [alice] (.vote alice 0 .for)

/-- The vote is counted, under the rules there are by then. -/
def deciding (rules : List (Label Entry)) : List (Label Entry) :=
  ballot :: (rules ++ [.tick 605101, .call [] (.finalize inOrder 0)])

/-- The administrator asks for more votes than Alice has. -/
def raised : Label Entry :=
  .call [admin] (.updateConfig admin { Scenario.config with
    quorumBps := 5000 })

/-- The administrator asks for a longer timelock. -/
def postponed : Label Entry :=
  .call [admin] (.updateConfig admin { Scenario.config with
    proposalTimelock := 604800 })

/-- The administrator changes the rules for new proposals. -/
def reformed : Label Entry :=
  .call [admin] (.updateConfig admin { Scenario.config with
    votingPeriod := 3600 })

def decided (rules : List (Label Entry)) : Option (World State) :=
  TransitionSystem.execute (step exec dao) (deciding rules) proposed

def decidedAsProposed : World State := (decided []).get (by decide +kernel)

def decidedRaised : World State := (decided [raised]).get (by decide +kernel)

def decidedPostponed : World State :=
  (decided [postponed]).get (by decide +kernel)

def underReform : World State :=
  (step exec dao proposed reformed).get (by decide +kernel)

def votedReformed : World State :=
  (step exec dao underReform ballot).get (by decide +kernel)

def votedAsProposed : World State :=
  (step exec dao proposed ballot).get (by decide +kernel)

theorem reformed_step : (system dao).Step proposed reformed underReform :=
  step_sound (Option.some_get _).symm

theorem decided_run {rules : List (Label Entry)} (v : World State)
    (h : decided rules = some v) :
    (system dao).Run proposed (deciding rules) v :=
  TransitionSystem.run_of_execute (fun _ _ _ => step_sound) h

/-- The vote finds the same token and cap before and after the reform. -/
theorem reformed_kept :
    RulesKept dao 0 proposed proposed [reformed, ballot] [ballot] := by
  rintro before l after before' after' t t' hls hls' hl - hrun hrun'
  rcases before with _ | ⟨x, _ | ⟨y, before⟩⟩
  · cases hls
    cases hl
  · cases hls
    rcases before' with _ | ⟨x', before'⟩
    · cases hls'
      obtain ⟨_, hstep, hnil⟩ := TransitionSystem.run_cons_iff.mp hrun
      obtain rfl := TransitionSystem.run_nil_iff.mp hnil
      obtain rfl := TransitionSystem.run_nil_iff.mp hrun'
      obtain rfl := hstep.unique reformed_step
      refine ⟨fun config config' hconfig hconfig' => ?_, trivial⟩
      have hleft : underReform.machine.store.config =
          some { Scenario.config with votingPeriod := 3600 } := by
        decide +kernel
      have hright : proposed.machine.store.config = some Scenario.config := by
        decide +kernel
      obtain rfl := Option.some.inj (hleft.symm.trans hconfig)
      obtain rfl := Option.some.inj (hright.symm.trans hconfig')
      exact ⟨rfl, rfl⟩
    · simp at hls'
  · simp at hls

end Scenario

open Scenario

/-- Runs that differ in `update_config` calls made while a proposal is voted on
decide it differently, in status and in execution time. -/
theorem config_updates_felt :
    (system dao).Reachable proposed ∧
    (proposed.machine.store.proposal 0).isSome = true ∧
    ((system dao).Run proposed (deciding []) decidedAsProposed ∧
      (system dao).Run proposed (deciding [raised]) decidedRaised ∧
      (system dao).Run proposed (deciding [postponed]) decidedPostponed) ∧
    (others (deciding [raised]) = others (deciding []) ∧
      others (deciding [postponed]) = others (deciding [])) ∧
    (decidedAsProposed.machine.store.proposal 0).map Proposal.status =
      some .passed ∧
    (decidedRaised.machine.store.proposal 0).map Proposal.status =
      some .failed ∧
    (decidedPostponed.machine.store.proposal 0).map Proposal.executionTime ≠
      (decidedAsProposed.machine.store.proposal 0).map
        Proposal.executionTime := by
  refine ⟨proposed_reachable, by decide +kernel, ⟨decided_run _ ?_,
    decided_run _ ?_, decided_run _ ?_⟩, ⟨rfl, rfl⟩, by decide +kernel,
    by decide +kernel, by decide +kernel⟩
  · exact (Option.some_get _).symm
  · exact (Option.some_get _).symm
  · exact (Option.some_get _).symm

/-- A change of the voting period alone is not felt. -/
theorem config_updates_unfelt_reformed :
    votedAsProposed.machine.store.proposal 0 =
        votedReformed.machine.store.proposal 0 ∧
      votedAsProposed.machine.bank = votedReformed.machine.bank :=
  config_updates_unfelt (p := (proposed.machine.store.proposal 0).get
      (by decide +kernel)) proposed_reachable (Option.some_get _).symm
    (.cons reformed_step (.cons (step_sound (Option.some_get _).symm)
      (.nil _)))
    (.cons (step_sound (Option.some_get _).symm) (.nil _)) rfl reformed_kept

end Parashield.GovernanceDao
