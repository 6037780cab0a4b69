import Mathlib.Logic.Relation
import Parashield.GovernanceDao.Calls

/-!
# Governance DAO: what a call can do

`Change` lists what an entry point can do to proposals, votes, delegations and
tokens; each accepted call is a sequence of such changes.  Settings, templates
and comments are changed aside.
-/

namespace Parashield.GovernanceDao

open Support Support.Contract Invocation

variable {env : Env} {s s' : State} {m m' : Machine State}

/-! ## Creation -/

/-- What the creation of a proposal is about. -/
structure Opening where
  handles : Handles
  kind : ProposalKind
  proposer : Address
  title : Bytes
  target : Address
  function : Symbol
  args : List Val
  impactAnalysis : Bytes

namespace Opening

def hash (o : Opening) : ContentHash :=
  proposalContentHash o.handles o.target o.function o.args

/-- The new proposal. -/
def proposal (o : Opening) (env : Env) (s : State) (config : DaoConfig) :
    Proposal where
  id := s.nextProposalId
  proposer := o.proposer
  title := o.title
  target := o.target
  function := o.function
  args := o.args
  deposit := s.effectiveThreshold env.self config o.kind o.target
  status := (config.schedule env.now).1
  votesFor := 0
  votesAgainst := 0
  votesAbstain := 0
  createdAt := env.now
  voteEnd := (config.schedule env.now).2
  executionTime := 0
  executionDeadline :=
    satAddU64 (satAddU64 (config.schedule env.now).2 finalizeDelay)
      executionWindow
  totalSupply := config.totalSupply
  kind := o.kind
  impactAnalysis := o.impactAnalysis
  isVetoed := false

/-- The storage with the new proposal in it. -/
def store (o : Opening) (env : Env) (s : State) (config : DaoConfig) :
    State :=
  { s with
    proposal :=
      Function.update s.proposal s.nextProposalId
        (some (o.proposal env s config))
    nextProposalId := s.nextProposalId + 1
    activeProposalHash :=
      Function.update s.activeProposalHash o.hash (some s.nextProposalId)
    events :=
      .proposalCreated s.nextProposalId o.proposer o.target o.function ::
        s.events }

end Opening

/-- The index names no open proposal under `hash`. -/
def State.NotProposed (s : State) (hash : ContentHash) : Prop :=
  ∀ pid p, s.activeProposalHash hash = some pid → s.proposal pid = some p →
    ¬ p.status.IsOpen

/-- A proposal is created and its deposit taken. -/
structure Opened (env : Env) (o : Opening) (m m' : Machine State) : Prop where
  fresh : m.store.NotProposed o.hash
  signed : o.proposer ∈ env.signers
  change : ∃ config B, m.store.config = some config ∧
    m.bank.transfer config.govToken o.proposer env.self
      (o.proposal env m.store config).deposit = some B ∧
    m' = ⟨o.store env m.store config, B⟩

/-- The proposal a call creates. -/
def Entry.opening (env : Env) : Entry → Option Opening
  | .createProposal handles proposer title target function args impact =>
      some ⟨handles, .standard, proposer, title, target, function, args,
        impact⟩
  | .createProposalFromTemplate handles proposer _ title target function args
      impact =>
      some ⟨handles, .standard, proposer, title, target, function, args,
        impact⟩
  | .proposeUpgrade handles proposer title target newWasmHash impact =>
      some ⟨handles, .upgrade, proposer, title, target, upgradeFunction,
        upgradeArgs env.self newWasmHash, impact⟩
  | _ => none

theorem openProposal_spec {o : Opening} {pid : ℕ}
    (h : openProposal env o.handles o.kind o.proposer o.title o.target
      o.function o.args o.impactAnalysis m = .ok (pid, m'))
    (hsigned : o.proposer ∈ env.signers) : Opened env o m m' := by
  simp [openProposal, ensureNotProposed, storeProposal, storeHash, publish]
    at h
  obtain ⟨hfresh, config, hconfig, -, -, B, ⟨-, hB⟩, rfl, -⟩ := h
  exact ⟨fun pid p hpid hp => hfresh pid hpid p hp, hsigned, config, B,
    hconfig, hB, rfl⟩

theorem createProposal_spec {o : Opening} {pid : ℕ} (hkind : o.kind = .standard)
    (h : createProposal env o.handles o.proposer o.title o.target o.function
      o.args o.impactAnalysis m = .ok (pid, m')) : Opened env o m m' := by
  simp only [createProposal, bind_ok, requireAuth_ok, ensure_ok] at h
  obtain ⟨_, _, ⟨hsigned, rfl⟩, _, _, ⟨-, rfl⟩, _, _, ⟨-, rfl⟩, _, _,
    ⟨-, rfl⟩, _, _, ⟨-, rfl⟩, h⟩ := h
  rw [← hkind] at h
  exact openProposal_spec h hsigned

theorem proposeUpgrade_spec {handles : Handles} {proposer target : Address}
    {title newWasmHash impact : Bytes} {pid : ℕ}
    (h : proposeUpgrade env handles proposer title target newWasmHash impact
      m = .ok (pid, m')) :
    Opened env ⟨handles, .upgrade, proposer, title, target, upgradeFunction,
      upgradeArgs env.self newWasmHash, impact⟩ m m' := by
  simp only [proposeUpgrade, bind_ok, requireAuth_ok, ensure_ok] at h
  obtain ⟨_, _, ⟨hsigned, rfl⟩, _, _, ⟨-, rfl⟩, _, _, ⟨-, rfl⟩, h⟩ := h
  exact openProposal_spec
    (o := ⟨handles, .upgrade, proposer, title, target, upgradeFunction,
      upgradeArgs env.self newWasmHash, impact⟩) h hsigned

theorem createProposalFromTemplate_spec {o : Opening} {name : Symbol} {pid : ℕ}
    (hkind : o.kind = .standard)
    (h : createProposalFromTemplate env o.handles o.proposer name o.title
      o.target o.function o.args o.impactAnalysis m = .ok (pid, m')) :
    Opened env o m m' := by
  simp only [createProposalFromTemplate, bind_ok, load_ok, unwrap_ok,
    ensure_ok] at h
  obtain ⟨_, _, ⟨rfl, rfl⟩, _, _, ⟨-, rfl⟩, _, _, ⟨-, rfl⟩, _, _, ⟨-, rfl⟩, _, _,
    ⟨-, rfl⟩, h⟩ := h
  exact createProposal_spec hkind h

/-! ## Delegation -/

/-- The lists of delegators without `delegator`, which leaves its present
delegate. -/
def State.detached (s : State) (delegator : Address) :
    Address → List Address :=
  match s.delegateOf delegator with
  | some current =>
      Function.update s.delegators current
        ((s.delegators current).filter fun entry => entry ≠ delegator)
  | none => s.delegators

/-- The storage with the delegation in it. -/
def State.delegated (s : State) (delegator delegate : Address)
    (expiry : ℕ) : State :=
  { s with
    delegateOf := Function.update s.delegateOf delegator (some delegate)
    delegators :=
      Function.update (s.detached delegator) delegate
        (s.detached delegator delegate ++ [delegator])
    delegationExpiry :=
      Function.update s.delegationExpiry delegator (some expiry) }

/-- The storage without the delegation. -/
def State.revoked (s : State) (delegator : Address) : State :=
  { s with
    delegateOf := Function.update s.delegateOf delegator none
    delegators := s.detached delegator
    delegationExpiry := Function.update s.delegationExpiry delegator none }

/-- `delegator` may delegate to `delegate`. -/
structure State.MayDelegate (s : State) (delegator delegate : Address) :
    Prop where
  distinct : delegator ≠ delegate
  no_chain : s.delegateOf delegate = none
  no_delegators : s.delegators delegator = []
  changed : s.delegateOf delegator ≠ some delegate
  room : (s.detached delegator delegate).length < maxDelegators

theorem removeDelegator_detached {delegator current : Address} {u : Unit}
    (h : removeDelegator current delegator m = .ok (u, m'))
    (hcurrent : m.store.delegateOf delegator = some current) :
    m' = ⟨{ m.store with delegators := m.store.detached delegator },
      m.bank⟩ := by
  simp [removeDelegator, storeDelegators] at h
  simp only [h, State.detached, hcurrent, decide_not]

theorem leaveDelegate_spec {delegator delegate : Address} {u : Unit}
    (h : leaveDelegate delegator delegate m = .ok (u, m')) :
    m.store.delegateOf delegator ≠ some delegate ∧
      m' = ⟨{ m.store with delegators := m.store.detached delegator },
        m.bank⟩ := by
  simp only [leaveDelegate, bind_ok, load_ok] at h
  obtain ⟨s, t, ⟨hs, ht⟩, h⟩ := h
  rw [hs, ht] at h
  cases hcurrent : m.store.delegateOf delegator with
  | none =>
      rw [hcurrent] at h
      obtain ⟨-, rfl⟩ := pure_ok.mp h
      exact ⟨by rintro ⟨⟩, by simp only [State.detached, hcurrent]⟩
  | some current =>
      rw [hcurrent] at h
      simp only [bind_ok, ensure_ok] at h
      obtain ⟨_, _, ⟨hne, rfl⟩, h⟩ := h
      exact ⟨by simpa using hne, removeDelegator_detached h hcurrent⟩

theorem delegate_spec {delegator delegate : Address} {u : Unit}
    (h : GovernanceDao.delegate env delegator delegate m = .ok (u, m')) :
    delegator ∈ env.signers ∧ m.store.MayDelegate delegator delegate ∧
      m' = ⟨m.store.delegated delegator delegate
        (satAddU64 env.now delegationPeriod), m.bank⟩ := by
  obtain ⟨_, _, hauth, hrest⟩ := bind_ok.mp h
  obtain ⟨_, _, hdistinct, hrest⟩ := bind_ok.mp hrest
  obtain ⟨s, _, hload, hrest⟩ := bind_ok.mp hrest
  obtain ⟨_, _, hnotback, hrest⟩ := bind_ok.mp hrest
  obtain ⟨_, _, hchain, hrest⟩ := bind_ok.mp hrest
  obtain ⟨_, _, hfree, hrest⟩ := bind_ok.mp hrest
  obtain ⟨_, m₁, hleave, hwrites⟩ := bind_ok.mp hrest
  obtain ⟨hsigned, rfl⟩ := requireAuth_ok.mp hauth
  obtain ⟨hne, rfl⟩ := ensure_ok.mp hdistinct
  obtain ⟨rfl, rfl⟩ := load_ok.mp hload
  obtain ⟨-, rfl⟩ := ensure_ok.mp hnotback
  obtain ⟨hchain, rfl⟩ := ensure_ok.mp hchain
  obtain ⟨hfree, rfl⟩ := ensure_ok.mp hfree
  obtain ⟨hchanged, rfl⟩ := leaveDelegate_spec hleave
  simp only [storeDelegate, storeDelegators, storeExpiry, bind_ok, load_ok,
    ensure_ok, update_ok, loadConfig_ok, pure_ok] at hwrites
  obtain ⟨_, _, ⟨rfl, rfl⟩, _, _, ⟨hroom, rfl⟩, _, _, rfl, _, _, rfl, _, _,
    rfl, _, _, ⟨-, rfl⟩, -, rfl⟩ := hwrites
  exact ⟨hsigned, ⟨hne, hchain, hfree, hchanged, hroom⟩, rfl⟩

theorem delegateWithExpiry_spec {delegator delegate : Address} {seconds : ℕ}
    {u : Unit}
    (h : delegateWithExpiry env delegator delegate seconds m = .ok (u, m')) :
    delegator ∈ env.signers ∧ m.store.MayDelegate delegator delegate ∧
      m' = ⟨m.store.delegated delegator delegate (satAddU64 env.now seconds),
        m.bank⟩ := by
  simp only [delegateWithExpiry, storeExpiry, bind_ok, ensure_ok, update_ok]
    at h
  obtain ⟨_, _, ⟨-, rfl⟩, _, _, hdelegate, rfl⟩ := h
  obtain ⟨hsigned, hmay, rfl⟩ := delegate_spec hdelegate
  exact ⟨hsigned, hmay, by simp [State.delegated]⟩

theorem revokeDelegation_spec {delegator : Address} {u : Unit}
    (h : revokeDelegation env delegator m = .ok (u, m')) :
    delegator ∈ env.signers ∧ m.store.delegateOf delegator ≠ none ∧
      m' = ⟨m.store.revoked delegator, m.bank⟩ := by
  simp only [revokeDelegation, storeDelegate, storeExpiry, removeDelegator,
    storeDelegators, bind_ok, requireAuth_ok, load_ok, unwrap_ok, update_ok]
    at h
  obtain ⟨_, _, ⟨hsigned, rfl⟩, _, _, ⟨rfl, rfl⟩, delegate, _,
    ⟨hdelegate, rfl⟩, _, _, rfl, _, _, rfl, _, _, ⟨rfl, rfl⟩, rfl⟩ := h
  refine ⟨hsigned, by simp [hdelegate], ?_⟩
  simp only [State.revoked, State.detached, hdelegate]

/-! ## Votes -/

/-- The delegator is marked as counted in the proposal. -/
def State.marked (s : State) (pid : ℕ) (voter delegator : Address)
    (weight : ℤ) : State :=
  { s with
    delegatedVote := Function.update s.delegatedVote (pid, delegator) true
    events := .delegationUsed pid voter delegator weight :: s.events }

/-- The vote is counted, with `lock` of the voter's tokens in custody for
it. -/
def State.voted (s : State) (pid : ℕ) (p : Proposal) (record : VoteRecord)
    (lock : ℤ) : State :=
  { s with
    lockedBalance :=
      Function.update s.lockedBalance (pid, record.voter) lock
    voteRecord :=
      Function.update s.voteRecord (pid, record.voter) (some record)
    proposal :=
      Function.update s.proposal pid
        (some (p.setVotes record.choice
          (p.votes record.choice + record.weight)))
    events :=
      .voteCast pid record.voter record.choice record.weight :: s.events }

/-- One pass over the delegators of `voter`, with the balances of `B`: each
adds a weight, zero if it holds nothing or is marked already. -/
inductive Swept (env : Env) (govToken voter : Address) (pid : ℕ) (B : Bank) :
    State → List Address → List ℤ → State → Prop
  | nil (s : State) : Swept env govToken voter pid B s [] [] s
  | skip {s s' : State} {delegator : Address} {ds : List Address}
      {ws : List ℤ} :
      (B.balance govToken delegator = 0 ∨
        s.delegatedVote (pid, delegator) = true) →
      Swept env govToken voter pid B s ds ws s' →
      Swept env govToken voter pid B s (delegator :: ds) (0 :: ws) s'
  | count {s s' : State} {delegator : Address} {ds : List Address}
      {ws : List ℤ} {weight : ℤ} :
      0 < B.balance govToken delegator →
      s.delegatedVote (pid, delegator) = false →
      weight = s.timeWeighted env.now delegator
        (B.balance govToken delegator) →
      Swept env govToken voter pid B (s.marked pid voter delegator weight) ds
        ws s' →
      Swept env govToken voter pid B s (delegator :: ds) (weight :: ws) s'

/-- Votes counted one after the other, all with the own weight `own`.  The
first has `lock` in custody, the others nothing. -/
inductive Ballots (env : Env) (govToken voter : Address) (choice : VoteChoice)
    (own : ℤ) (B : Bank) : ℤ → List (ℕ × Proposal) → State → State → Prop
  | nil (lock : ℤ) (s : State) : Ballots env govToken voter choice own B lock
      [] s s
  | cons {s s₁ s' : State} {lock : ℤ} {pid : ℕ} {p : Proposal}
      {rest : List (ℕ × Proposal)} {ws : List ℤ} {weight : ℤ} :
      Swept env govToken voter pid B s (s.delegators voter) ws s₁ →
      weight = satI128 (own + satSum ws) → 0 < weight →
      Ballots env govToken voter choice own B 0 rest
        (s₁.voted pid p ⟨voter, choice, weight⟩ lock) s' →
      Ballots env govToken voter choice own B lock ((pid, p) :: rest) s s'

/-- Only marks may differ. -/
structure UpToMarks (s s' : State) : Prop where
  eq : s' = { s with
    delegatedVote := s'.delegatedVote
    events := s'.events }

/-- Only votes, marks and locks may differ. -/
structure UpToVotes (s s' : State) : Prop where
  eq : s' = { s with
    proposal := s'.proposal
    voteRecord := s'.voteRecord
    lockedBalance := s'.lockedBalance
    delegatedVote := s'.delegatedVote
    events := s'.events }

theorem Swept.upToMarks {govToken voter : Address} {pid : ℕ} {B : Bank}
    {ds : List Address} {ws : List ℤ}
    (h : Swept env govToken voter pid B s ds ws s') : UpToMarks s s' := by
  induction h with
  | nil => exact ⟨rfl⟩
  | skip _ _ ih => exact ih
  | count _ _ _ _ ih => exact ⟨ih.eq⟩

theorem Ballots.upToVotes {govToken voter : Address} {choice : VoteChoice}
    {own lock : ℤ} {B : Bank} {ballots : List (ℕ × Proposal)}
    (h : Ballots env govToken voter choice own B lock ballots s s') :
    UpToVotes s s' := by
  induction h with
  | nil => exact ⟨rfl⟩
  | cons hswept _ _ _ ih =>
      refine ⟨ih.eq.trans ?_⟩
      rw [hswept.upToMarks.eq]
      rfl

/-- `voter` may vote on the stored proposal `p`. -/
structure State.Eligible (s : State) (now : ℕ) (voter : Address) (pid : ℕ)
    (p : Proposal) : Prop where
  stored : s.proposal pid = some p
  active : p.status = .active
  voting : now ≤ p.voteEnd
  unvoted : s.voteRecord (pid, voter) = none
  uncounted : s.delegatedVote (pid, voter) = false

/-- A vote on the proposals `ballots`, which takes `capped` tokens of the
voter into custody.  The balances of delegators are read before or after
that. -/
structure Voted (env : Env) (voter : Address) (choice : VoteChoice)
    (ballots : List (ℕ × Proposal)) (m m' : Machine State) : Prop where
  signed : voter ∈ env.signers
  nonempty : ballots ≠ []
  distinct : (ballots.map Prod.fst).Nodup
  undelegated : m.store.delegateOf voter = none
  eligible : ∀ b ∈ ballots, m.store.Eligible env.now voter b.1 b.2
  change : ∃ config capped B Bc s,
    m.store.config = some config ∧
    0 < (m.bank.balance config.govToken voter : ℤ) ∧
    capped = config.capped (m.bank.balance config.govToken voter) ∧
    m.bank.transfer config.govToken voter env.self capped = some B ∧
    (Bc = m.bank ∨ Bc = B) ∧
    Ballots env config.govToken voter choice
      (m.store.timeWeighted env.now voter capped) Bc capped ballots m.store
      s ∧
    m' = ⟨s, B⟩

theorem countDelegator_swept {govToken voter : Address} {pid : ℕ}
    {delegator : Address} {w : ℤ} {s : State} {ds : List Address}
    {ws : List ℤ}
    (h : countDelegator env govToken voter pid delegator m = .ok (w, m'))
    (hrest : Swept env govToken voter pid m.bank m'.store ds ws s) :
    m'.bank = m.bank ∧
      Swept env govToken voter pid m.bank m.store (delegator :: ds)
        (w :: ws) s := by
  simp only [countDelegator, bind_ok, get_ok] at h
  obtain ⟨a, t, ⟨ha, ht⟩, h⟩ := h
  rw [ha, ht] at h
  rcases ite_ok.mp h with ⟨hskip, h⟩ | ⟨hcount, h⟩
  · obtain ⟨rfl, rfl⟩ := pure_ok.mp h
    exact ⟨rfl, .skip (by simpa using hskip) hrest⟩
  · simp only [publish, bind_ok, update_ok, pure_ok] at h
    obtain ⟨_, _, rfl, _, _, rfl, rfl, rfl⟩ := h
    simp only [not_or, not_le, Bool.not_eq_true, Int.natCast_pos] at hcount
    exact ⟨rfl, .count hcount.1 hcount.2 rfl hrest⟩

theorem countDelegators_swept {govToken voter : Address} {pid : ℕ}
    {ds : List Address} {ws : List ℤ}
    (h : collect ds (countDelegator env govToken voter pid) m =
      .ok (ws, m')) :
    m'.bank = m.bank ∧
      Swept env govToken voter pid m.bank m.store ds ws m'.store := by
  induction ds generalizing m ws with
  | nil =>
      obtain ⟨rfl, rfl⟩ := pure_ok.mp h
      exact ⟨rfl, .nil _⟩
  | cons d ds ih =>
      simp only [collect, bind_ok, pure_ok] at h
      obtain ⟨w, m₁, hfirst, ws, m₂, hrest, rfl, rfl⟩ := h
      obtain ⟨hbank, hswept⟩ := ih hrest
      have hbank₁ := (countDelegator_swept (s := m₁.store) hfirst (.nil _)).1
      rw [hbank₁] at hswept hbank
      exact ⟨hbank, (countDelegator_swept hfirst hswept).2⟩

theorem voteWeight_swept {govToken voter : Address} {pid : ℕ} {own w : ℤ}
    (h : voteWeight env govToken voter pid own m = .ok (w, m')) :
    0 < w ∧ m'.bank = m.bank ∧ ∃ ws, w = satI128 (own + satSum ws) ∧
      Swept env govToken voter pid m.bank m.store (m.store.delegators voter)
        ws m'.store := by
  simp only [voteWeight, collectDelegatedWeight, bind_ok, load_ok, ensure_ok,
    pure_ok] at h
  obtain ⟨_, _, ⟨_, _, ⟨rfl, rfl⟩, ws, _, hws, rfl, rfl⟩, _, _, ⟨hpos, rfl⟩,
    rfl, rfl⟩ := h
  obtain ⟨hbank, hswept⟩ := countDelegators_swept hws
  exact ⟨hpos, hbank, ws, rfl, hswept⟩

theorem tally_ok {p p' : Proposal} {choice : VoteChoice} {weight : ℤ}
    (h : p.tally choice weight m = .ok (p', m')) :
    p' = p.setVotes choice (p.votes choice + weight) ∧ m' = m := by
  simp only [Proposal.tally, bind_ok, i128_ok, pure_ok] at h
  obtain ⟨_, _, ⟨-, rfl, rfl⟩, rfl, rfl⟩ := h
  exact ⟨rfl, rfl⟩

theorem requireBallot_ok {voter : Address} {pid : ℕ} {p : Proposal}
    (h : requireBallot env voter pid m = .ok (p, m')) :
    m.store.proposal pid = some p ∧ p.status = .active ∧ env.now ≤ p.voteEnd ∧
      m.store.voteRecord (pid, voter) = none ∧ m' = m := by
  simp only [requireBallot, bind_ok, loadProposal_ok, ensure_ok, load_ok,
    pure_ok] at h
  obtain ⟨_, _, ⟨hp, rfl⟩, _, _, ⟨-, rfl⟩, _, _, ⟨hactive, rfl⟩, _, _,
    ⟨hvoting, rfl⟩, _, _, ⟨rfl, rfl⟩, _, _, ⟨hunvoted, rfl⟩, rfl, rfl⟩ := h
  exact ⟨hp, hactive, hvoting, hunvoted, rfl⟩

theorem ownWeight_ok {govToken voter : Address} {own : ℤ}
    (h : ownWeight govToken voter m = .ok (own, m')) :
    own = m.bank.balance govToken voter ∧ 0 < own ∧ m' = m := by
  simp only [ownWeight, bind_ok, get_ok, ensure_ok, pure_ok] at h
  obtain ⟨_, _, ⟨rfl, rfl⟩, _, _, ⟨hpos, rfl⟩, rfl, rfl⟩ := h
  exact ⟨rfl, hpos, rfl⟩

theorem vote_spec {voter : Address} {pid : ℕ} {choice : VoteChoice} {u : Unit}
    (h : vote env voter pid choice m = .ok (u, m')) :
    ∃ p, Voted env voter choice [(pid, p)] m m' := by
  obtain ⟨_, _, hauth, hchecks⟩ := bind_ok.mp h
  obtain ⟨p, _, hballot, hchecks⟩ := bind_ok.mp hchecks
  obtain ⟨config, _, hconfig, hchecks⟩ := bind_ok.mp hchecks
  obtain ⟨_, _, hfree, hchecks⟩ := bind_ok.mp hchecks
  obtain ⟨_, _, huncounted, hchecks⟩ := bind_ok.mp hchecks
  obtain ⟨own, _, hown, hchecks⟩ := bind_ok.mp hchecks
  obtain ⟨s, _, hload, hchecks⟩ := bind_ok.mp hchecks
  obtain ⟨weight, m₁, hweight, hwrites⟩ := bind_ok.mp hchecks
  simp only [storeLock, storeVote, storeProposal, publish, bind_ok,
    transferToken_ok, update_ok] at hwrites
  obtain ⟨_, _, ⟨-, B, hB, rfl⟩, _, _, rfl, p', _, htally, _, _, rfl, _, _, rfl,
    rfl⟩ := hwrites
  obtain ⟨hsigned, rfl⟩ := requireAuth_ok.mp hauth
  obtain ⟨hp, hactive, hvoting, hunvoted, rfl⟩ := requireBallot_ok hballot
  obtain ⟨hconfig, rfl⟩ := loadConfig_ok.mp hconfig
  simp only [ensureNotDelegated, ensureNotCounted, bind_ok, load_ok,
    ensure_ok] at hfree huncounted
  obtain ⟨_, _, ⟨rfl, rfl⟩, hfree, rfl⟩ := hfree
  obtain ⟨_, _, ⟨rfl, rfl⟩, huncounted, rfl⟩ := huncounted
  obtain ⟨rfl, hpos, rfl⟩ := ownWeight_ok hown
  obtain ⟨rfl, rfl⟩ := load_ok.mp hload
  obtain ⟨hwpos, hbank, ws, hw, hswept⟩ := voteWeight_swept hweight
  obtain ⟨rfl, rfl⟩ := tally_ok htally
  rw [hbank] at hB
  refine ⟨p, hsigned, by simp, by simp, hfree, ?_, config, _, B, _, _,
    hconfig, hpos, rfl, hB, .inl rfl, .cons hswept hw hwpos (.nil _ _), rfl⟩
  simp only [List.mem_singleton, forall_eq]
  exact ⟨hp, hactive, hvoting, hunvoted, huncounted⟩

theorem requireBatchBallot_ok {voter : Address} {pid : ℕ} {p : Proposal}
    (h : requireBatchBallot env voter pid m = .ok (p, m')) :
    m.store.Eligible env.now voter pid p ∧ m' = m := by
  simp only [requireBatchBallot, ensureNotCounted, bind_ok, load_ok,
    ensure_ok, pure_ok] at h
  obtain ⟨p, _, hballot, _, _, ⟨_, _, ⟨rfl, rfl⟩, huncounted, rfl⟩, rfl,
    rfl⟩ := h
  obtain ⟨hp, hactive, hvoting, hunvoted, rfl⟩ := requireBallot_ok hballot
  exact ⟨⟨hp, hactive, hvoting, hunvoted, huncounted⟩, rfl⟩

/-- The first pass of a batch pairs each id with its stored proposal. -/
theorem requireBatchBallots_ok {voter : Address} {ids : List ℕ}
    {ps : List Proposal}
    (h : collect ids (requireBatchBallot env voter) m = .ok (ps, m')) :
    m' = m ∧ (ids.zip ps).map Prod.fst = ids ∧
      ∀ b ∈ ids.zip ps, m.store.Eligible env.now voter b.1 b.2 := by
  induction ids generalizing m ps with
  | nil =>
      obtain ⟨rfl, rfl⟩ := pure_ok.mp h
      exact ⟨rfl, rfl, by simp⟩
  | cons id ids ih =>
      simp only [collect, bind_ok, pure_ok] at h
      obtain ⟨p, m₁, hfirst, ps, m₂, hrest, rfl, rfl⟩ := h
      obtain ⟨helig, rfl⟩ := requireBatchBallot_ok hfirst
      obtain ⟨rfl, hids, hall⟩ := ih hrest
      refine ⟨rfl, by simp [hids], ?_⟩
      simp only [List.zip_cons_cons, List.mem_cons, forall_eq_or_imp]
      exact ⟨helig, hall⟩

theorem tallyBallot_ok {govToken voter : Address} {choice : VoteChoice}
    {own lock : ℤ} {pid : ℕ} {p : Proposal} {u : Unit}
    (h : tallyBallot env govToken voter choice own lock pid p m =
      .ok (u, m')) :
    m'.bank = m.bank ∧ ∃ ws weight s₁,
      Swept env govToken voter pid m.bank m.store (m.store.delegators voter)
        ws s₁ ∧
      weight = satI128 (own + satSum ws) ∧ 0 < weight ∧
      m'.store = s₁.voted pid p ⟨voter, choice, weight⟩ lock := by
  simp only [tallyBallot, storeLock, storeVote, storeProposal, publish,
    bind_ok, update_ok] at h
  obtain ⟨weight, m₁, hweight, p', _, htally, _, _, rfl, _, _, rfl, _, _, rfl,
    rfl⟩ := h
  obtain ⟨hwpos, hbank, ws, hw, hswept⟩ := voteWeight_swept hweight
  obtain ⟨rfl, rfl⟩ := tally_ok htally
  exact ⟨hbank, ws, weight, _, hswept, hw, hwpos, rfl⟩

theorem tallyBatch_ballots {govToken voter : Address} {choice : VoteChoice}
    {own lock : ℤ} {ballots : List (ℕ × Proposal)} {u : Unit}
    (h : tallyBatch env govToken voter choice own lock ballots m =
      .ok (u, m')) :
    m'.bank = m.bank ∧
      Ballots env govToken voter choice own m.bank lock ballots m.store
        m'.store := by
  induction ballots generalizing m lock with
  | nil =>
      obtain ⟨-, rfl⟩ := pure_ok.mp h
      exact ⟨rfl, .nil _ _⟩
  | cons b ballots ih =>
      obtain ⟨pid, p⟩ := b
      simp only [tallyBatch, bind_ok] at h
      obtain ⟨_, m₁, hfirst, hrest⟩ := h
      obtain ⟨hbank, ws, weight, s₁, hswept, hw, hwpos, hstore⟩ :=
        tallyBallot_ok hfirst
      obtain ⟨hbank', hballots⟩ := ih hrest
      rw [hbank] at hbank' hballots
      rw [hstore] at hballots
      exact ⟨hbank', .cons hswept hw hwpos hballots⟩

theorem voteBatch_spec {voter : Address} {ids : List ℕ} {choice : VoteChoice}
    {u : Unit} (h : voteBatch env voter ids choice m = .ok (u, m')) :
    ∃ ballots, ballots.map Prod.fst = ids ∧
      Voted env voter choice ballots m m' := by
  simp only [voteBatch, ensureNotDelegated, bind_ok, requireAuth_ok,
    loadConfig_ok, ensure_ok, load_ok, transferToken_ok] at h
  obtain ⟨_, _, ⟨hsigned, rfl⟩, _, _, ⟨hne, rfl⟩, _, _, ⟨hnodup, rfl⟩, _, _,
    ⟨_, _, ⟨rfl, rfl⟩, hfree, rfl⟩, config, _, ⟨hconfig, rfl⟩, ps, _, hballots,
    own, _, hown, _, _, ⟨rfl, rfl⟩, _, _, ⟨-, B, hB, rfl⟩, htally⟩ := h
  obtain ⟨rfl, hids, helig⟩ := requireBatchBallots_ok hballots
  obtain ⟨rfl, hpos, rfl⟩ := ownWeight_ok hown
  obtain ⟨hbank, hcounted⟩ := tallyBatch_ballots htally
  refine ⟨_, hids, hsigned, ?_, hids.symm ▸ hnodup, hfree, helig, config, _,
    B, B, m'.store, hconfig, hpos, rfl, hB, .inr rfl, hcounted, ?_⟩
  · intro hempty
    rw [hempty] at hids
    exact hne hids.symm
  · change m'.bank = B at hbank
    rw [← hbank]

/-! ## Custody -/

/-- Locked tokens of a proposal that is not Active are returned. -/
structure Withdrawn (env : Env) (voter : Address) (pid : ℕ)
    (m m' : Machine State) : Prop where
  signed : voter ∈ env.signers
  inactive : ∃ p, m.store.proposal pid = some p ∧ p.status ≠ .active
  locked : 0 < m.store.lockedBalance (pid, voter)
  change : ∃ config B, m.store.config = some config ∧
    m.bank.transfer config.govToken env.self voter
      (m.store.lockedBalance (pid, voter)) = some B ∧
    m' = ⟨{ m.store with
        lockedBalance :=
          Function.update m.store.lockedBalance (pid, voter) 0
        events :=
          .tokensWithdrawn pid voter (m.store.lockedBalance (pid, voter)) ::
            m.store.events }, B⟩

theorem withdrawTokens_spec {voter : Address} {pid : ℕ} {u : Unit}
    (h : withdrawTokens env voter pid m = .ok (u, m')) :
    (m.store.lockedBalance (pid, voter) ≤ 0 ∧ m' = m) ∨
      Withdrawn env voter pid m m' := by
  simp only [withdrawTokens, bind_ok, requireAuth_ok, loadProposal_ok,
    ensure_ok, load_ok] at h
  obtain ⟨_, _, ⟨hsigned, rfl⟩, p, _, ⟨hp, rfl⟩, _, _, ⟨hinactive, rfl⟩, _, _,
    ⟨rfl, rfl⟩, h⟩ := h
  rcases ite_ok.mp h with ⟨hnone, h⟩ | ⟨hlocked, h⟩
  · exact .inl ⟨hnone, (ensure_ok.mp h).2⟩
  · simp only [storeLock, publish, bind_ok, update_ok, loadConfig_ok,
      transferToken_ok] at h
    obtain ⟨_, _, rfl, config, _, ⟨hconfig, rfl⟩, _, _, ⟨-, B, hB, rfl⟩,
      rfl⟩ := h
    exact .inr ⟨hsigned, ⟨p, hp, hinactive⟩, by omega, config, B, hconfig, hB,
      rfl⟩

/-! ## Outcome -/

/-- The storage with the proposal closed under `p'` and its action free to be
proposed again. -/
def State.closed (s : State) (handles : Handles) (pid : ℕ) (p p' : Proposal)
    (turnout : ParticipationHistory) (e : Event) : State :=
  { s with
    proposal := Function.update s.proposal pid (some p')
    activeProposalHash :=
      Function.update s.activeProposalHash
        (proposalContentHash handles p.target p.function p.args) none
    participation := turnout
    events := e :: s.events }

/-- The vote on an Active proposal is counted and it passes. -/
structure Passed (env : Env) (handles : Handles) (pid : ℕ)
    (m m' : Machine State) : Prop where
  change : ∃ p config turnout, m.store.proposal pid = some p ∧
    p.status = .active ∧ p.voteEnd + finalizeDelay < env.now ∧
    m.store.config = some config ∧
    p.passes (m.store.effectiveQuorum config).quorumBps config.majorityBps ∧
    m' = ⟨m.store.closed handles pid p
      { p with
        status := .passed
        executionTime := env.now + config.proposalTimelock }
      turnout (.proposalFinalized pid .passed), m.bank⟩

/-- An open proposal is closed without passing and its deposit refunded. -/
structure Refunded (env : Env) (handles : Handles) (pid : ℕ)
    (status : ProposalStatus) (m m' : Machine State) : Prop where
  outcome : status = .failed ∨ status = .cancelled
  change : ∃ p config turnout e B, m.store.proposal pid = some p ∧
    p.status.IsOpen ∧ (p.status = .discussion → status = .cancelled) ∧
    m.store.config = some config ∧
    (e = .proposalFinalized pid .failed ∨
      e = .depositReclaimed pid p.proposer p.deposit ∨
      e = .proposalCancelled pid) ∧
    m.bank.transfer config.govToken env.self p.proposer p.deposit = some B ∧
    m' = ⟨m.store.closed handles pid p { p with status := status } turnout e,
      B⟩

theorem requireFinalizable_ok {pid : ℕ} {p : Proposal}
    (h : requireFinalizable env pid m = .ok (p, m')) :
    m.store.proposal pid = some p ∧ p.status = .active ∧
      p.voteEnd + finalizeDelay < env.now ∧ m' = m := by
  simp only [requireFinalizable, bind_ok, loadProposal_ok, ensure_ok,
    unsigned_ok, pure_ok] at h
  obtain ⟨_, _, ⟨hp, rfl⟩, _, _, ⟨hactive, rfl⟩, _, _, ⟨-, rfl, rfl⟩, _, _,
    ⟨hdelay, rfl⟩, rfl, rfl⟩ := h
  exact ⟨hp, hactive, hdelay, rfl⟩

theorem totalVotes_ok {p : Proposal} {votes : ℤ}
    (h : p.totalVotes m = .ok (votes, m')) :
    votes = p.votesFor + p.votesAgainst + p.votesAbstain ∧ m' = m := by
  simp only [Proposal.totalVotes, bind_ok, i128_ok] at h
  obtain ⟨_, _, ⟨-, rfl, rfl⟩, -, rfl, rfl⟩ := h
  exact ⟨rfl, rfl⟩

theorem conclude_spec {handles : Handles} {config : DaoConfig} {pid : ℕ}
    {p : Proposal} {u : Unit}
    (h : conclude env handles config pid p m = .ok (u, m'))
    (hp : m.store.proposal pid = some p) (hactive : p.status = .active)
    (hdelay : p.voteEnd + finalizeDelay < env.now)
    (hconfig : m.store.config = some config) :
    Passed env handles pid m m' ∨ Refunded env handles pid .failed m m' := by
  simp only [conclude, recordParticipation, refundDeposit, storeProposal,
    clearProposalHash, storeHash, publish, bind_ok, load_ok, update_ok,
    whenever_transferToken_ok] at h
  obtain ⟨votes, _, hvotes, _, _, ⟨rfl, rfl⟩, counted, _, hcount, _, _, rfl, _,
    _, ⟨B, hB, rfl⟩, _, _, rfl, _, _, rfl, rfl⟩ := h
  obtain ⟨-, rfl⟩ := totalVotes_ok hvotes
  rcases ite_ok.mp hcount with ⟨hpass, hcount⟩ | ⟨hfail, hcount⟩
  · simp only [bind_ok, unsigned_ok, pure_ok] at hcount
    obtain ⟨_, _, ⟨-, rfl, rfl⟩, rfl, rfl⟩ := hcount
    obtain ⟨hne, -⟩ | ⟨-, rfl⟩ := hB
    · exact absurd rfl hne
    · exact .inl ⟨p, config, _, hp, hactive, hdelay, hconfig, hpass, rfl⟩
  · obtain ⟨rfl, rfl⟩ := pure_ok.mp hcount
    obtain ⟨-, -, hB⟩ | ⟨hpassed, -⟩ := hB
    · have hdiscussed : p.status = .discussion →
          ProposalStatus.failed = .cancelled := by
        rw [hactive]
        rintro ⟨⟩
      exact .inr ⟨.inl rfl, p, config, _, _, B, hp, .inl hactive, hdiscussed,
        hconfig, .inl rfl, hB, rfl⟩
    · exact absurd (by simp) hpassed

theorem finalize_spec {handles : Handles} {pid : ℕ} {u : Unit}
    (h : finalize env handles pid m = .ok (u, m')) :
    Passed env handles pid m m' ∨ Refunded env handles pid .failed m m' := by
  simp only [finalize, bind_ok, loadConfig_ok] at h
  obtain ⟨p, _, hp, config, _, ⟨hconfig, rfl⟩, h⟩ := h
  obtain ⟨hp, hactive, hdelay, rfl⟩ := requireFinalizable_ok hp
  exact conclude_spec h hp hactive hdelay hconfig

theorem reclaimDeposit_spec {handles : Handles} {pid : ℕ} {u : Unit}
    (h : reclaimDeposit env handles pid m = .ok (u, m')) :
    Refunded env handles pid .failed m m' := by
  simp only [reclaimDeposit, recordParticipation, refundDeposit, storeProposal,
    clearProposalHash, storeHash, publish, bind_ok, loadProposal_ok,
    loadConfig_ok, ensure_ok, update_ok, transferToken_ok] at h
  obtain ⟨p, _, ⟨hp, rfl⟩, _, _, ⟨hactive, rfl⟩, _, _, ⟨-, rfl⟩, config, _,
    ⟨hconfig, rfl⟩, votes, _, hvotes, _, _, rfl, _, _, ⟨-, B, hB, rfl⟩, _, _,
    rfl, _, _, rfl, rfl⟩ := h
  obtain ⟨-, rfl⟩ := totalVotes_ok hvotes
  have hdiscussed : p.status = .discussion →
      ProposalStatus.failed = .cancelled := by
    rw [hactive]
    rintro ⟨⟩
  exact ⟨.inl rfl, p, config, _, _, B, hp, .inl hactive, hdiscussed, hconfig,
    .inr (.inl rfl), hB, rfl⟩

theorem cancel_spec {handles : Handles} {admin : Address} {pid : ℕ} {u : Unit}
    (h : cancel env handles admin pid m = .ok (u, m')) :
    Refunded env handles pid .cancelled m m' := by
  simp only [cancel, refundDeposit, storeProposal, clearProposalHash,
    storeHash, publish, bind_ok, requireAdmin_ok, loadProposal_ok,
    loadConfig_ok, ensure_ok, update_ok, transferToken_ok] at h
  obtain ⟨_, _, ⟨-, rfl⟩, p, _, ⟨hp, rfl⟩, _, _, ⟨hopen, rfl⟩, _, _, rfl,
    config, _, ⟨hconfig, rfl⟩, _, _, ⟨-, B, hB, rfl⟩, _, _, rfl, rfl⟩ := h
  exact ⟨.inr rfl, p, config, _, _, B, hp, hopen, fun _ => rfl, hconfig,
    .inr (.inr rfl), hB, rfl⟩

/-- The storage with the proposal replaced, and nothing else. -/
def State.amended (s : State) (pid : ℕ) (p' : Proposal) (e : Event) : State :=
  { s with
    proposal := Function.update s.proposal pid (some p')
    events := e :: s.events }

/-- Voting on a discussed proposal starts. -/
structure Started (env : Env) (pid : ℕ) (m m' : Machine State) : Prop where
  change : ∃ p config, m.store.proposal pid = some p ∧
    p.status = .discussion ∧ m.store.config = some config ∧
    config.discussionPeriod ≠ 0 ∧
    satAddU64 p.createdAt config.discussionPeriod ≤ env.now ∧
    m' = ⟨m.store.amended pid { p with status := .active }
      (.discussionPeriodEnded pid), m.bank⟩

theorem startVoting_spec {pid : ℕ} {u : Unit}
    (h : startVoting env pid m = .ok (u, m')) : Started env pid m m' := by
  simp only [startVoting, storeProposal, publish, bind_ok, loadProposal_ok,
    loadConfig_ok, ensure_ok, update_ok] at h
  obtain ⟨p, _, ⟨hp, rfl⟩, _, _, ⟨hstatus, rfl⟩, config, _, ⟨hconfig, rfl⟩, _,
    _, ⟨hperiod, rfl⟩, _, _, ⟨hended, rfl⟩, _, _, rfl, rfl⟩ := h
  exact ⟨p, config, hp, hstatus, hconfig, hperiod, hended, rfl⟩

/-- A guardian vetoes the proposal. -/
structure Vetoed (env : Env) (guardian : Address) (pid : ℕ)
    (m m' : Machine State) : Prop where
  signed : guardian ∈ env.signers
  listed : guardian ∈ m.store.guardians
  change : ∃ p reason, m.store.proposal pid = some p ∧
    p.status ≠ .executed ∧ p.isVetoed = false ∧
    m' = ⟨m.store.amended pid { p with isVetoed := true }
      (.proposalVetoed pid guardian reason), m.bank⟩

theorem vetoProposal_spec {guardian : Address} {pid : ℕ} {reason : Symbol}
    {u : Unit} (h : vetoProposal env guardian pid reason m = .ok (u, m')) :
    Vetoed env guardian pid m m' := by
  simp only [vetoProposal, storeProposal, publish, bind_ok, requireAuth_ok,
    load_ok, loadProposal_ok, ensure_ok, update_ok] at h
  obtain ⟨_, _, ⟨hsigned, rfl⟩, _, _, ⟨rfl, rfl⟩, _, _, ⟨hguardian, rfl⟩, p, _,
    ⟨hp, rfl⟩, _, _, ⟨hexecuted, rfl⟩, _, _, ⟨hveto, rfl⟩, _, _, rfl, rfl⟩ := h
  exact ⟨hsigned, hguardian, p, reason, hp, hexecuted, hveto, rfl⟩

/-! ## Execution -/

/-- The proposal can be executed or expires. -/
structure State.Due (s : State) (now pid : ℕ) (p : Proposal) : Prop where
  stored : s.proposal pid = some p
  passed : p.status = .passed
  unvetoed : p.isVetoed = false
  unlocked : p.executionTime ≤ now

/-- A Passed proposal is executed after its deadline and expires. -/
structure Lapsed (env : Env) (handles : Handles) (pid : ℕ)
    (m m' : Machine State) : Prop where
  change : ∃ p, m.store.Due env.now pid p ∧ p.executionDeadline < env.now ∧
    m' = ⟨m.store.closed handles pid p { p with status := .expired }
      m.store.participation (.proposalExpired pid), m.bank⟩

/-- The storage after an execution. -/
def State.fulfilled (s : State) (now pid : ℕ) (p : Proposal) (bps : ℕ) :
    State :=
  { s with
    proposal :=
      Function.update s.proposal pid (some { p with status := .executed })
    executionAudit :=
      Function.update s.executionAudit pid
        (some ⟨pid, p.proposer, p.target, p.function, now, p.votesFor,
          p.votesAgainst⟩)
    events :=
      .proposalExecuted pid p.proposer p.target p.function now ::
        .proposalDepositRefunded pid p.proposer p.deposit bps
          (p.refundAmount bps) (p.deposit - p.refundAmount bps) :: s.events }

/-- A Passed proposal is executed in time.  The target acts first, then the
completed part of the deposit is refunded. -/
structure Executed (env : Env) (outcome : Outcome) (pid : ℕ)
    (m m' : Machine State) : Prop where
  change : ∃ p result bps B₁ B, m.store.Due env.now pid p ∧
    env.now ≤ p.executionDeadline ∧ p.target ≠ env.self ∧
    outcome m.bank = some (B₁, result) ∧ bps = result.getD 10000 ∧
    bps ≤ 10000 ∧
    ((0 < p.refundAmount bps ∧ ∃ config, m.store.config = some config ∧
        B₁.transfer config.govToken env.self p.proposer
          (p.refundAmount bps) = some B) ∨
      (p.refundAmount bps ≤ 0 ∧ B = B₁)) ∧
    m' = ⟨m.store.fulfilled env.now pid p bps, B⟩

theorem invokeContract_ok {target : Address} {outcome : Outcome}
    {result : Option ℕ}
    (h : invokeContract env target outcome m = .ok (result, m')) :
    target ≠ env.self ∧ outcome m.bank = some (m'.bank, result) ∧
      m' = ⟨m.store, m'.bank⟩ := by
  simp only [invokeContract, bind_ok, require_ok, get_ok, unwrap_ok, set_ok,
    pure_ok] at h
  obtain ⟨_, _, ⟨htarget, rfl⟩, _, _, ⟨rfl, rfl⟩, ⟨B, r⟩, _, ⟨hB, rfl⟩, _, _,
    rfl, rfl, rfl⟩ := h
  exact ⟨htarget, hB, rfl⟩

theorem executionBps_ok {result : Option ℕ} {bps : ℕ}
    (h : executionBps result m = .ok (bps, m')) :
    bps = result.getD 10000 ∧ bps ≤ 10000 ∧ m' = m := by
  cases result with
  | none =>
      obtain ⟨rfl, rfl⟩ := pure_ok.mp h
      exact ⟨rfl, le_refl _, rfl⟩
  | some value =>
      simp only [executionBps, bind_ok, ensure_ok, pure_ok] at h
      obtain ⟨_, _, ⟨hle, rfl⟩, rfl, rfl⟩ := h
      exact ⟨rfl, hle, rfl⟩

theorem execute_spec {handles : Handles} {outcome : Outcome} {pid : ℕ}
    {u : Unit} (h : execute env handles outcome pid m = .ok (u, m')) :
    Lapsed env handles pid m m' ∨ Executed env outcome pid m m' := by
  simp only [execute, bind_ok, loadProposal_ok, ensure_ok] at h
  obtain ⟨p, _, ⟨hp, rfl⟩, _, _, ⟨-, rfl⟩, _, _, ⟨-, rfl⟩, _, _, ⟨-, rfl⟩, _,
    _, ⟨hpassed, rfl⟩, _, _, ⟨hveto, rfl⟩, _, m, ⟨hunlocked, rfl⟩, h⟩ := h
  have hdue : m.store.Due env.now pid p := ⟨hp, hpassed, hveto, hunlocked⟩
  rcases ite_ok.mp h with ⟨hlate, h⟩ | ⟨hintime, h⟩
  · simp only [storeProposal, clearProposalHash, storeHash, publish, bind_ok,
      update_ok] at h
    obtain ⟨_, _, rfl, _, _, rfl, rfl⟩ := h
    exact .inl ⟨p, hdue, hlate, rfl⟩
  · simp only [storeProposal, publish, bind_ok, update_ok, whenever_ok,
      loadConfig_ok, transferToken_ok] at h
    obtain ⟨result, _, hinvoke, bps, m₁, hbps, _, m₂, hrefund, _, _, rfl, _, _,
      rfl, _, _, rfl, rfl⟩ := h
    obtain ⟨htarget, houtcome, hm₁⟩ := invokeContract_ok hinvoke
    obtain ⟨hval, hle, rfl⟩ := executionBps_ok hbps
    have hstore : m₁.store = m.store := by rw [hm₁]
    refine .inr ⟨p, result, bps, m₁.bank, m₂.bank, hdue, by omega, htarget,
      houtcome, hval, hle, ?_, ?_⟩
    · rcases hrefund with ⟨hpos, config, _, ⟨hconfig, rfl⟩, -, B, hB, rfl⟩ |
          ⟨hnone, rfl⟩
      · exact .inl ⟨hpos, config, hstore ▸ hconfig, hB⟩
      · exact .inr ⟨by omega, rfl⟩
    · have hstore₂ : m₂.store = m.store := by
        rcases hrefund with ⟨-, config, _, ⟨-, rfl⟩, -, B, -, rfl⟩ | ⟨-, rfl⟩
        · exact hstore
        · exact hstore
      simp only [hstore₂, State.fulfilled]

/-! ## Settings -/

/-- Proposals, votes, delegations and the configuration are the same. -/
structure SameBook (s s' : State) : Prop where
  initialized : s'.initialized = s.initialized
  admin : s'.admin = s.admin
  config : s'.config = s.config
  nextProposalId : s'.nextProposalId = s.nextProposalId
  proposal : s'.proposal = s.proposal
  voteRecord : s'.voteRecord = s.voteRecord
  lockedBalance : s'.lockedBalance = s.lockedBalance
  delegateOf : s'.delegateOf = s.delegateOf
  delegationExpiry : s'.delegationExpiry = s.delegationExpiry
  delegators : s'.delegators = s.delegators
  delegatedVote : s'.delegatedVote = s.delegatedVote
  activeProposalHash : s'.activeProposalHash = s.activeProposalHash
  events : s'.events = s.events

/-- The bounds that every stored configuration meets. -/
structure DaoConfig.Valid (config : DaoConfig) : Prop where
  votingPeriod_ge : minVotingPeriod ≤ config.votingPeriod
  votingPeriod_le : config.votingPeriod ≤ maxVotingPeriod
  quorumBps_ge : minQuorumBps ≤ config.quorumBps
  quorumBps_le : config.quorumBps ≤ maxQuorumBps

@[simp] theorem validateConfig_ok {config : DaoConfig} {u : Unit} :
    validateConfig config m = .ok (u, m') ↔ config.Valid ∧ m' = m := by
  simp only [validateConfig, bind_ok, ensure_ok]
  constructor
  · rintro ⟨_, _, ⟨hmin, rfl⟩, _, _, ⟨hmax, rfl⟩, _, _, ⟨hlow, rfl⟩, hhigh,
      rfl⟩
    exact ⟨⟨hmin, hmax, hlow, hhigh⟩, rfl⟩
  · rintro ⟨⟨hmin, hmax, hlow, hhigh⟩, rfl⟩
    exact ⟨(), _, ⟨hmin, rfl⟩, (), _, ⟨hmax, rfl⟩, (), _, ⟨hlow, rfl⟩, hhigh,
      rfl⟩

/-- The call changes settings, templates or comments only. -/
def Entry.IsAside : Entry → Prop
  | .registerTemplate .. | .deactivateTemplate .. | .setTimeWeight ..
  | .checkpointVotingPower .. | .setQuorumDecay .. | .setImpactMultipliers ..
  | .pruneParticipationHistory .. | .setRiskPool .. | .setGuardians ..
  | .addComment .. | .deleteComment .. => True
  | _ => False

theorem aside_spec {e : Entry} {u : Unit}
    (h : exec env e m = .ok (u, m')) (he : e.IsAside) :
    SameBook m.store m'.store ∧ m'.bank = m.bank := by
  cases e with
  | registerTemplate =>
      simp [exec, registerTemplate, storeTemplate] at h
      obtain ⟨-, -, -, -, ⟨-, rfl⟩ | ⟨-, rfl⟩⟩ := h
      · exact ⟨by constructor <;> rfl, rfl⟩
      · exact ⟨by constructor <;> rfl, rfl⟩
  | deactivateTemplate =>
      simp [exec, deactivateTemplate, storeTemplate] at h
      obtain ⟨-, _, -, rfl⟩ := h
      exact ⟨by constructor <;> rfl, rfl⟩
  | setTimeWeight =>
      simp [exec, setTimeWeight] at h
      obtain ⟨-, -, rfl⟩ := h
      exact ⟨by constructor <;> rfl, rfl⟩
  | checkpointVotingPower =>
      simp [exec, checkpointVotingPower] at h
      obtain ⟨-, _, -, rfl⟩ := h
      exact ⟨by constructor <;> rfl, rfl⟩
  | setQuorumDecay =>
      simp [exec, setQuorumDecay] at h
      obtain ⟨-, _, -, -, -, -, -, rfl⟩ := h
      exact ⟨by constructor <;> rfl, rfl⟩
  | setImpactMultipliers =>
      simp [exec, setImpactMultipliers, forEach] at h
      obtain ⟨-, -, -, -, rfl⟩ := h
      exact ⟨by constructor <;> rfl, rfl⟩
  | pruneParticipationHistory =>
      simp [exec, pruneParticipationHistory] at h
      exact ⟨by rw [h]; constructor <;> rfl, by rw [h]⟩
  | setRiskPool =>
      simp [exec, setRiskPool] at h
      obtain ⟨-, rfl⟩ := h
      exact ⟨by constructor <;> rfl, rfl⟩
  | setGuardians =>
      simp [exec, setGuardians] at h
      obtain ⟨-, -, -, rfl⟩ := h
      exact ⟨by constructor <;> rfl, rfl⟩
  | addComment =>
      simp [exec, addComment, storeComment] at h
      obtain ⟨-, -, _, -, -, -, rfl⟩ := h
      exact ⟨by constructor <;> rfl, rfl⟩
  | deleteComment =>
      simp [exec, deleteComment, storeComment] at h
      obtain ⟨-, -, rfl⟩ := h
      exact ⟨by constructor <;> rfl, rfl⟩
  | _ => exact he.elim

/-- Time weights, checkpoints and the decay of the quorum are the same. -/
structure SameWeighing (s s' : State) : Prop where
  timeWeight : s'.timeWeight = s.timeWeight
  weightCheckpoint : s'.weightCheckpoint = s.weightCheckpoint
  quorumDecay : s'.quorumDecay = s.quorumDecay

/-- The checkpoint of a holder of `balance`. -/
def State.checkpointed (s : State) (now : ℕ) (holder : Address)
    (balance : ℤ) : WeightCheckpoint where
  amount := balance
  since :=
    match s.weightCheckpoint holder with
    | some prev => if balance ≤ prev.amount then prev.since else now
    | none => now

/-- What a call aside does to the rules of the votes. -/
inductive Aside (env : Env) (m m' : Machine State) : Entry → Prop
  | timeWeight {admin : Address} {enabled : Bool} {rampPeriod minBps : ℕ} :
      (enabled = true → rampPeriod ≠ 0 ∧ minBps ≤ fullWeightBps) →
      m' = ⟨{ m.store with timeWeight := ⟨enabled, rampPeriod, minBps⟩ },
        m.bank⟩ →
      Aside env m m' (.setTimeWeight admin enabled rampPeriod minBps)
  | checkpoint {holder : Address} {config : DaoConfig} :
      m.store.config = some config →
      m' = ⟨{ m.store with
        weightCheckpoint :=
          Function.update m.store.weightCheckpoint holder
            (some (m.store.checkpointed env.now holder
              (m.bank.balance config.govToken holder))) }, m.bank⟩ →
      Aside env m m' (.checkpointVotingPower holder)
  | quorumDecay {admin : Address} {enabled : Bool}
      {floorBps decayPerPeriodBps window : ℕ} {config : DaoConfig} :
      m.store.config = some config →
      (enabled = true → floorBps < config.quorumBps) →
      (enabled = true → minQuorumBps ≤ floorBps ∧ floorBps ≤ maxQuorumBps) →
      (enabled = true → decayPerPeriodBps ≠ 0) →
      m' = ⟨{ m.store with
        quorumDecay := ⟨enabled, max floorBps minQuorumBps, decayPerPeriodBps,
          window⟩ }, m.bank⟩ →
      Aside env m m' (.setQuorumDecay admin enabled floorBps decayPerPeriodBps
        window)
  | rest {e : Entry} : SameWeighing m.store m'.store → Aside env m m' e

theorem aside_cases {e : Entry} {u : Unit}
    (h : exec env e m = .ok (u, m')) (he : e.IsAside) :
    Aside env m m' e := by
  cases e with
  | setTimeWeight =>
      simp [exec, setTimeWeight] at h
      obtain ⟨-, hvalid, rfl⟩ := h
      exact .timeWeight hvalid rfl
  | checkpointVotingPower =>
      simp [exec, checkpointVotingPower] at h
      obtain ⟨-, config, hconfig, rfl⟩ := h
      exact .checkpoint hconfig rfl
  | setQuorumDecay =>
      simp [exec, setQuorumDecay] at h
      obtain ⟨-, config, hconfig, hbelow, hbounds, -, hdecay, rfl⟩ := h
      exact .quorumDecay hconfig hbelow hbounds hdecay rfl
  | registerTemplate =>
      simp [exec, registerTemplate, storeTemplate] at h
      obtain ⟨-, -, -, -, ⟨-, rfl⟩ | ⟨-, rfl⟩⟩ := h
      · exact .rest ⟨rfl, rfl, rfl⟩
      · exact .rest ⟨rfl, rfl, rfl⟩
  | deactivateTemplate =>
      simp [exec, deactivateTemplate, storeTemplate] at h
      obtain ⟨-, _, -, rfl⟩ := h
      exact .rest ⟨rfl, rfl, rfl⟩
  | setImpactMultipliers =>
      simp [exec, setImpactMultipliers, forEach] at h
      obtain ⟨-, -, -, -, rfl⟩ := h
      exact .rest ⟨rfl, rfl, rfl⟩
  | pruneParticipationHistory =>
      simp [exec, pruneParticipationHistory] at h
      rw [h]
      exact .rest ⟨rfl, rfl, rfl⟩
  | setRiskPool =>
      simp [exec, setRiskPool] at h
      obtain ⟨-, rfl⟩ := h
      exact .rest ⟨rfl, rfl, rfl⟩
  | setGuardians =>
      simp [exec, setGuardians] at h
      obtain ⟨-, -, -, rfl⟩ := h
      exact .rest ⟨rfl, rfl, rfl⟩
  | addComment =>
      simp [exec, addComment, storeComment] at h
      obtain ⟨-, -, _, -, -, -, rfl⟩ := h
      exact .rest ⟨rfl, rfl, rfl⟩
  | deleteComment =>
      simp [exec, deleteComment, storeComment] at h
      obtain ⟨-, -, rfl⟩ := h
      exact .rest ⟨rfl, rfl, rfl⟩
  | _ => exact he.elim

/-- A new configuration by the administrator. -/
structure Configured (env : Env) (e : Entry) (m m' : Machine State) :
    Prop where
  authorized : ∃ admin, IsAdmin env m.store admin
  change : ∃ config,
    ((∃ admin, e = .updateConfig admin config ∧ config.Valid) ∨
      ∃ admin threshold old, e = .setProposalThreshold admin threshold ∧
        m.store.config = some old ∧
        config = { old with proposalThreshold := threshold }) ∧
    m' = ⟨{ m.store with config := some config }, m.bank⟩

/-- The first configuration. -/
structure Initialized (e : Entry) (m m' : Machine State) : Prop where
  fresh : m.store.initialized = false
  change : ∃ admin config, e = .initializeDao admin config ∧ config.Valid ∧
    m' = ⟨{ m.store with
      initialized := true
      admin := some admin
      config := some config
      nextProposalId := 0 }, m.bank⟩

/-! ## Changes -/

/-- The delegation a call makes. -/
def Entry.delegation : Entry → Option (Address × Address)
  | .delegate delegator target => some (delegator, target)
  | .delegateWithExpiry delegator target _ => some (delegator, target)
  | _ => none

/-- The voter, the proposals and the choice of a vote. -/
def Entry.voting : Entry → Option (Address × List ℕ × VoteChoice)
  | .vote voter pid choice => some (voter, [pid], choice)
  | .voteBatch voter pids choice => some (voter, pids, choice)
  | _ => none

/-- The handles with which a call hashes the action of the proposal `pid` that
it closes. -/
def Entry.closing (pid : ℕ) : Entry → Option Handles
  | .finalize handles id => if id = pid then some handles else none
  | .finalizeBatch handles ids =>
      if pid ∈ ids then some (handles pid) else none
  | .reclaimDeposit handles id => if id = pid then some handles else none
  | .cancel handles _ id => if id = pid then some handles else none
  | .execute handles _ id => if id = pid then some handles else none
  | _ => none

/-- One change by a call of entry `e`. -/
inductive Change (env : Env) (e : Entry) (m m' : Machine State) : Prop
  | aside : e.IsAside → SameBook m.store m'.store → m'.bank = m.bank →
      Change env e m m'
  | initialized : Initialized e m m' → Change env e m m'
  | configured : Configured env e m m' → Change env e m m'
  | opened {o : Opening} : e.opening env = some o → Opened env o m m' →
      Change env e m m'
  | delegated {delegator delegate : Address} {expiry : ℕ} :
      e.delegation = some (delegator, delegate) →
      delegator ∈ env.signers →
      m.store.MayDelegate delegator delegate →
      m' = ⟨m.store.delegated delegator delegate expiry, m.bank⟩ →
      Change env e m m'
  | revoked {delegator : Address} :
      e = .revokeDelegation delegator → delegator ∈ env.signers →
      m.store.delegateOf delegator ≠ none →
      m' = ⟨m.store.revoked delegator, m.bank⟩ → Change env e m m'
  | voted {voter : Address} {choice : VoteChoice}
      {ballots : List (ℕ × Proposal)} :
      e.voting = some (voter, ballots.map Prod.fst, choice) →
      Voted env voter choice ballots m m' → Change env e m m'
  | withdrawn {voter : Address} {pid : ℕ} :
      e = .withdrawTokens voter pid → Withdrawn env voter pid m m' →
      Change env e m m'
  | passed {pid : ℕ} {handles : Handles} :
      e.closing pid = some handles → Passed env handles pid m m' →
      Change env e m m'
  | refunded {pid : ℕ} {handles : Handles} {status : ProposalStatus} :
      e.closing pid = some handles → Refunded env handles pid status m m' →
      Change env e m m'
  | started {pid : ℕ} : e = .startVoting pid → Started env pid m m' →
      Change env e m m'
  | lapsed {pid : ℕ} {handles : Handles} {outcome : Outcome} :
      e = .execute handles outcome pid → Lapsed env handles pid m m' →
      Change env e m m'
  | executed {pid : ℕ} {handles : Handles} {outcome : Outcome} :
      e = .execute handles outcome pid → Executed env outcome pid m m' →
      Change env e m m'
  | vetoed {guardian : Address} {pid : ℕ} {reason : Symbol} :
      e = .vetoProposal guardian pid reason →
      Vetoed env guardian pid m m' → Change env e m m'

/-- The rules of the votes and the comments are the same. -/
structure SameSettings (s s' : State) : Prop extends SameWeighing s s' where
  proposalComment : s'.proposalComment = s.proposalComment
  nextCommentId : s'.nextCommentId = s.nextCommentId

/-- Calls about proposals leave them alone. -/
theorem Change.sameSettings {e : Entry} (h : Change env e m m')
    (he : ¬ e.IsAside) : SameSettings m.store m'.store := by
  cases h with
  | aside haside _ _ => exact absurd haside he
  | initialized h =>
      obtain ⟨-, _, _, -, -, rfl⟩ := h
      exact ⟨⟨rfl, rfl, rfl⟩, rfl, rfl⟩
  | configured h =>
      obtain ⟨-, _, -, rfl⟩ := h
      exact ⟨⟨rfl, rfl, rfl⟩, rfl, rfl⟩
  | opened _ h =>
      obtain ⟨-, -, _, _, -, -, rfl⟩ := h
      exact ⟨⟨rfl, rfl, rfl⟩, rfl, rfl⟩
  | delegated _ _ _ heq =>
      rw [heq]
      exact ⟨⟨rfl, rfl, rfl⟩, rfl, rfl⟩
  | revoked _ _ _ heq =>
      rw [heq]
      exact ⟨⟨rfl, rfl, rfl⟩, rfl, rfl⟩
  | voted _ h =>
      obtain ⟨_, _, _, _, _, -, -, -, -, -, hballots, rfl⟩ := h.change
      rw [hballots.upToVotes.eq]
      exact ⟨⟨rfl, rfl, rfl⟩, rfl, rfl⟩
  | withdrawn _ h =>
      obtain ⟨_, _, -, -, rfl⟩ := h.change
      exact ⟨⟨rfl, rfl, rfl⟩, rfl, rfl⟩
  | passed _ h =>
      obtain ⟨_, _, _, -, -, -, -, -, rfl⟩ := h
      exact ⟨⟨rfl, rfl, rfl⟩, rfl, rfl⟩
  | refunded _ h =>
      obtain ⟨_, _, _, _, _, -, -, -, -, -, -, rfl⟩ := h.change
      exact ⟨⟨rfl, rfl, rfl⟩, rfl, rfl⟩
  | started _ h =>
      obtain ⟨_, _, -, -, -, -, -, rfl⟩ := h
      exact ⟨⟨rfl, rfl, rfl⟩, rfl, rfl⟩
  | lapsed _ h =>
      obtain ⟨_, -, -, rfl⟩ := h
      exact ⟨⟨rfl, rfl, rfl⟩, rfl, rfl⟩
  | executed _ h =>
      obtain ⟨_, _, _, _, _, -, -, -, -, -, -, -, rfl⟩ := h
      exact ⟨⟨rfl, rfl, rfl⟩, rfl, rfl⟩
  | vetoed _ h =>
      obtain ⟨_, _, -, -, -, rfl⟩ := h.change
      exact ⟨⟨rfl, rfl, rfl⟩, rfl, rfl⟩

/-- The configuration stays unless one is stored. -/
theorem Change.config_cases {e : Entry} (h : Change env e m m') :
    m'.store.config = m.store.config ∨ Initialized e m m' ∨
      Configured env e m m' := by
  cases h with
  | initialized h => exact .inr (.inl h)
  | configured h => exact .inr (.inr h)
  | aside _ hbook _ => exact .inl hbook.config
  | opened _ h =>
      obtain ⟨-, -, _, _, -, -, rfl⟩ := h
      exact .inl rfl
  | delegated _ _ _ heq =>
      rw [heq]
      exact .inl rfl
  | revoked _ _ _ heq =>
      rw [heq]
      exact .inl rfl
  | voted _ h =>
      obtain ⟨_, _, _, _, _, -, -, -, -, -, hballots, rfl⟩ := h.change
      rw [hballots.upToVotes.eq]
      exact .inl rfl
  | withdrawn _ h =>
      obtain ⟨_, _, -, -, rfl⟩ := h.change
      exact .inl rfl
  | passed _ h =>
      obtain ⟨_, _, _, -, -, -, -, -, rfl⟩ := h
      exact .inl rfl
  | refunded _ h =>
      obtain ⟨_, _, _, _, _, -, -, -, -, -, -, rfl⟩ := h.change
      exact .inl rfl
  | started _ h =>
      obtain ⟨_, _, -, -, -, -, -, rfl⟩ := h
      exact .inl rfl
  | lapsed _ h =>
      obtain ⟨_, -, -, rfl⟩ := h
      exact .inl rfl
  | executed _ h =>
      obtain ⟨_, _, _, _, _, -, -, -, -, -, -, -, rfl⟩ := h
      exact .inl rfl
  | vetoed _ h =>
      obtain ⟨_, _, -, -, -, rfl⟩ := h.change
      exact .inl rfl

/-- The changes of one call, in order. -/
abbrev Changes (env : Env) (e : Entry) : Machine State → Machine State → Prop :=
  Relation.ReflTransGen (Change env e)

/-- What each change of a call keeps, the call keeps. -/
theorem changes_keep {e : Entry} {I : Machine State → Prop}
    (hchange : ∀ m m', Change env e m m' → I m → I m')
    (h : Changes env e m m') (hI : I m) : I m' := by
  induction h with
  | refl => exact hI
  | tail _ hlast ih => exact hchange _ _ hlast ih

theorem finalizeBatch_changes {handles : ℕ → Handles} {ids rest : List ℕ}
    {config : DaoConfig} {u : Unit}
    (h : forEach rest (fun pid => do
      let p ← requireFinalizable env pid
      conclude env (handles pid) config pid p) m = .ok (u, m'))
    (hrest : ∀ pid ∈ rest, pid ∈ ids)
    (hconfig : m.store.config = some config) :
    Changes env (.finalizeBatch handles ids) m m' := by
  induction rest generalizing m with
  | nil =>
      obtain ⟨-, rfl⟩ := pure_ok.mp h
      exact .refl
  | cons pid rest ih =>
      simp only [forEach, bind_ok] at h
      obtain ⟨_, m₁, ⟨p, _, hp, hconclude⟩, h⟩ := h
      obtain ⟨hstored, hactive, hdelay, rfl⟩ := requireFinalizable_ok hp
      have hclosing : (Entry.finalizeBatch handles ids).closing pid =
          some (handles pid) :=
        if_pos (hrest pid List.mem_cons_self)
      have hstep := conclude_spec hconclude hstored hactive hdelay hconfig
      have hconfig₁ : m₁.store.config = some config := by
        rcases hstep with ⟨_, _, _, _, _, _, _, _, rfl⟩ |
            ⟨_, _, _, _, _, _, _, _, _, _, _, _, rfl⟩
        · exact hconfig
        · exact hconfig
      have hlater := ih h (fun q hq => hrest q (List.mem_cons_of_mem _ hq))
        hconfig₁
      rcases hstep with hpassed | hrefunded
      · exact .head (.passed hclosing hpassed) hlater
      · exact .head (.refunded hclosing hrefunded) hlater

/-- Only a batch of finalizations makes more than one change. -/
theorem exec_single {e : Entry} {u : Unit} (h : exec env e m = .ok (u, m'))
    (he : ∀ handles ids, e ≠ .finalizeBatch handles ids) :
    Relation.ReflGen (Change env e) m m' := by
  cases e with
  | finalizeBatch handles ids => exact absurd rfl (he handles ids)
  | initializeDao admin config =>
      simp [exec, initializeDao, storeConfig] at h
      obtain ⟨hfresh, -, hvalid, rfl⟩ := h
      exact .single (.initialized
        ⟨hfresh, admin, config, rfl, hvalid, rfl⟩)
  | updateConfig admin config =>
      simp [exec, updateConfig, storeConfig] at h
      obtain ⟨hadmin, hvalid, rfl⟩ := h
      exact .single (.configured
        ⟨⟨admin, hadmin⟩, config, .inl ⟨admin, rfl, hvalid⟩, rfl⟩)
  | setProposalThreshold admin threshold =>
      simp [exec, setProposalThreshold, storeConfig] at h
      obtain ⟨hadmin, -, old, hold, rfl⟩ := h
      exact .single (.configured ⟨⟨admin, hadmin⟩,
        _, .inr ⟨admin, threshold, old, rfl, hold, rfl⟩, rfl⟩)
  | createProposal =>
      obtain ⟨_, h⟩ := perform_ok.mp h
      exact .single (.opened rfl (createProposal_spec (o := ⟨_, _, _, _, _, _,
        _, _⟩) rfl h))
  | createProposalFromTemplate =>
      obtain ⟨_, h⟩ := perform_ok.mp h
      exact .single (.opened rfl (createProposalFromTemplate_spec
        (o := ⟨_, _, _, _, _, _, _, _⟩) rfl h))
  | proposeUpgrade =>
      obtain ⟨_, h⟩ := perform_ok.mp h
      exact .single (.opened rfl (proposeUpgrade_spec h))
  | delegate =>
      obtain ⟨hsigned, hmay, heq⟩ := delegate_spec h
      exact .single (.delegated rfl hsigned hmay heq)
  | delegateWithExpiry =>
      obtain ⟨hsigned, hmay, heq⟩ := delegateWithExpiry_spec h
      exact .single (.delegated rfl hsigned hmay heq)
  | revokeDelegation =>
      obtain ⟨hsigned, hdelegate, heq⟩ := revokeDelegation_spec h
      exact .single (.revoked rfl hsigned hdelegate heq)
  | vote =>
      obtain ⟨p, hvoted⟩ := vote_spec h
      exact .single (.voted rfl hvoted)
  | voteBatch =>
      obtain ⟨ballots, rfl, hvoted⟩ := voteBatch_spec h
      exact .single (.voted rfl hvoted)
  | withdrawTokens =>
      rcases withdrawTokens_spec h with ⟨-, rfl⟩ | hwithdrawn
      · exact .refl
      · exact .single (.withdrawn rfl hwithdrawn)
  | finalize handles pid =>
      have hclosing : (Entry.finalize handles pid).closing pid =
          some handles := if_pos rfl
      rcases finalize_spec h with hpassed | hrefunded
      · exact .single (.passed hclosing hpassed)
      · exact .single (.refunded hclosing hrefunded)
  | reclaimDeposit =>
      exact .single (.refunded (if_pos rfl) (reclaimDeposit_spec h))
  | cancel =>
      exact .single (.refunded (if_pos rfl) (cancel_spec h))
  | startVoting =>
      exact .single (.started rfl (startVoting_spec h))
  | execute =>
      rcases execute_spec h with hlapsed | hexecuted
      · exact .single (.lapsed rfl hlapsed)
      · exact .single (.executed rfl hexecuted)
  | vetoProposal =>
      exact .single (.vetoed rfl (vetoProposal_spec h))
  | _ =>
      obtain ⟨hbook, hbank⟩ := aside_spec h trivial
      exact .single (.aside trivial hbook hbank)

theorem exec_changes {e : Entry} {u : Unit}
    (h : exec env e m = .ok (u, m')) : Changes env e m m' := by
  by_cases he : ∃ handles ids, e = .finalizeBatch handles ids
  · obtain ⟨handles, ids, rfl⟩ := he
    simp only [exec, finalizeBatch, bind_ok, ensure_ok, loadConfig_ok] at h
    obtain ⟨_, _, ⟨-, rfl⟩, _, _, ⟨-, rfl⟩, config, _, ⟨hconfig, rfl⟩, h⟩ := h
    exact finalizeBatch_changes h (fun _ hpid => hpid) hconfig
  · push Not at he
    exact (exec_single h he).to_reflTransGen

end Parashield.GovernanceDao
