import Parashield.GovernanceDao.Proposals

/-!
# Governance DAO: delegation and voting

Delegation of voting power, its weight in time, votes on one proposal or on a
batch, and the custody of the voter's own tokens.
-/

namespace Parashield.GovernanceDao

open Support Support.Contract Invocation

/-! ## Delegation -/

def storeDelegate (delegator : Address) (delegate : Option Address) :
    Call Unit :=
  update fun s =>
    { s with delegateOf := Function.update s.delegateOf delegator delegate }

def storeExpiry (delegator : Address) (expiry : Option ℕ) : Call Unit :=
  update fun s =>
    { s with
      delegationExpiry :=
        Function.update s.delegationExpiry delegator expiry }

def storeDelegators (delegate : Address) (delegators : List Address) :
    Call Unit :=
  update fun s =>
    { s with
      delegators := Function.update s.delegators delegate delegators }

def removeDelegator (delegate delegator : Address) : Call Unit := do
  let s ← load
  storeDelegators delegate
    ((s.delegators delegate).filter fun entry => entry ≠ delegator)

/-- A delegator that points elsewhere leaves its present delegate first. -/
def leaveDelegate (delegator delegate : Address) : Call Unit := do
  let s ← load
  match s.delegateOf delegator with
  | some current => do
      ensure (current ≠ delegate) .alreadyDelegated
      removeDelegator current delegator
  | none => pure ()

/-- Delegate for 180 days.  Only the delegate's own delegation is rejected as
a chain, and only a delegator without delegators may delegate. -/
def delegate (env : Env) (delegator delegate : Address) : Call Unit := do
  requireAuth env delegator
  ensure (delegator ≠ delegate) .selfDelegation
  let s ← load
  ensure (s.delegateOf delegate ≠ some delegator) .circularDelegation
  ensure (s.delegateOf delegate = none) .selfDelegation
  ensure (s.delegators delegator = []) .selfDelegation
  leaveDelegate delegator delegate
  let s ← load
  ensure ((s.delegators delegate).length < maxDelegators) .tooManyDelegators
  storeDelegate delegator (some delegate)
  storeDelegators delegate (s.delegators delegate ++ [delegator])
  storeExpiry delegator (some (satAddU64 env.now delegationPeriod))
  -- the event reports the delegator's balance
  let _ ← loadConfig .trap

def delegateWithExpiry (env : Env) (delegator delegate : Address)
    (durationSeconds : ℕ) : Call Unit := do
  ensure (durationSeconds ≠ 0) .invalidInput
  GovernanceDao.delegate env delegator delegate
  storeExpiry delegator (some (satAddU64 env.now durationSeconds))

def revokeDelegation (env : Env) (delegator : Address) : Call Unit := do
  requireAuth env delegator
  let s ← load
  let delegate ← unwrap (s.delegateOf delegator) (.error .noDelegation)
  storeDelegate delegator none
  storeExpiry delegator none
  removeDelegator delegate delegator

namespace State

def isDelegationExpired (s : State) (now : ℕ) (delegator : Address) : Bool :=
  match s.delegationExpiry delegator with
  | some expiry => decide (expiry < now)
  | none => false

def getDelegate (s : State) (now : ℕ) (delegator : Address) :
    Option Address :=
  if s.isDelegationExpired now delegator then none
  else s.delegateOf delegator

end State

/-! ## Weight -/

def setTimeWeight (env : Env) (admin : Address) (enabled : Bool)
    (rampPeriod minBps : ℕ) : Call Unit := do
  requireAdmin env admin
  ensure (enabled = true → rampPeriod ≠ 0 ∧ minBps ≤ fullWeightBps)
    .invalidTimeWeight
  update fun s =>
    { s with
      timeWeight :=
        { enabled := enabled, rampPeriod := rampPeriod, minBps := minBps } }

/-- A balance at or below the recorded one keeps its age; a larger one starts
anew. -/
def checkpointVotingPower (env : Env) (holder : Address) : Call Unit := do
  requireAuth env holder
  let config ← loadConfig (.error .notInitialized)
  let m ← get
  let balance : ℤ := m.bank.balance config.govToken holder
  let since :=
    match m.store.weightCheckpoint holder with
    | some prev => if balance ≤ prev.amount then prev.since else env.now
    | none => env.now
  update fun s =>
    { s with
      weightCheckpoint :=
        Function.update s.weightCheckpoint holder
          (some { amount := balance, since := since }) }

/-- Voting weight of `balance`, of which the part up to the checkpoint ramps
up with its age. -/
def State.timeWeighted (s : State) (now : ℕ) (holder : Address)
    (balance : ℤ) : ℤ :=
  let cfg := s.timeWeight
  if cfg.enabled = false ∨ balance ≤ 0 then
    balance
  else
    let full : ℤ := fullWeightBps
    let least : ℤ := cfg.minBps
    let (aged, since) : ℤ × ℕ :=
      match s.weightCheckpoint holder with
      | some cp => (min cp.amount balance, cp.since)
      | none => (0, now)
    let elapsed : ℕ := min (now - since) cfg.rampPeriod
    let factor := least + ((full - least) * elapsed).tdiv cfg.rampPeriod
    (satI128 (aged * factor)).tdiv full +
      (satI128 ((balance - aged) * least)).tdiv full

/-- Part of the own balance that a vote counts and locks. -/
def DaoConfig.capped (config : DaoConfig) (ownWeight : ℤ) : ℤ :=
  if 0 < config.voteWeightCap then min ownWeight config.voteWeightCap
  else ownWeight

/-- Mark the delegator as counted and return its weight, which is zero if it
holds nothing or was counted before. -/
def countDelegator (env : Env) (govToken voter : Address) (proposalId : ℕ)
    (delegator : Address) : Call ℤ := do
  let m ← get
  let balance : ℤ := m.bank.balance govToken delegator
  if balance ≤ 0 ∨ m.store.delegatedVote (proposalId, delegator) = true then
    pure 0
  else do
    update fun s =>
      { s with
        delegatedVote :=
          Function.update s.delegatedVote (proposalId, delegator) true }
    let counted := m.store.timeWeighted env.now delegator balance
    publish (.delegationUsed proposalId voter delegator counted)
    pure counted

/-- Sum with saturating additions, from left to right. -/
def satSum (weights : List ℤ) : ℤ :=
  weights.foldl (fun total w => satI128 (total + w)) 0

def collectDelegatedWeight (env : Env) (govToken voter : Address)
    (proposalId : ℕ) : Call ℤ := do
  let s ← load
  let weights ←
    collect (s.delegators voter) (countDelegator env govToken voter proposalId)
  pure (satSum weights)

def getDelegateInfo (delegate : Address) : Call DelegateInfo := do
  let s ← load
  let config ← loadConfig .trap
  let m ← get
  let balances := (s.delegators delegate).map fun delegator =>
    (m.bank.balance config.govToken delegator : ℤ)
  let ownWeight : ℤ := m.bank.balance config.govToken delegate
  pure
    { delegate := delegate
      delegators := s.delegators delegate
      delegatedWeight := satSum balances
      ownWeight := ownWeight
      totalWeight := satI128 (ownWeight + satSum balances) }

/-! ## Votes -/

/-- The tally of a choice. -/
def Proposal.votes (p : Proposal) : VoteChoice → ℤ
  | .for => p.votesFor
  | .against => p.votesAgainst
  | .abstain => p.votesAbstain

def Proposal.setVotes (p : Proposal) (choice : VoteChoice) (votes : ℤ) :
    Proposal :=
  match choice with
  | .for => { p with votesFor := votes }
  | .against => { p with votesAgainst := votes }
  | .abstain => { p with votesAbstain := votes }

/-- Add `weight` to the tally of `choice`. -/
def Proposal.tally (p : Proposal) (choice : VoteChoice) (weight : ℤ) :
    Call Proposal := do
  let votes ← i128 (p.votes choice + weight) (.overflow none)
  pure (p.setVotes choice votes)

/-- The proposal, if its voting is open and `voter` has no record on it. -/
def requireBallot (env : Env) (voter : Address) (proposalId : ℕ) :
    Call Proposal := do
  let p ← loadProposal proposalId
  ensure (p.status ≠ .discussion) .discussionPeriodNotEnded
  ensure (p.status = .active) .proposalNotActive
  ensure (env.now ≤ p.voteEnd) .votingClosed
  let s ← load
  ensure (s.voteRecord (proposalId, voter) = none) .alreadyVoted
  pure p

/-- No delegate has counted the voter's weight in the proposal. -/
def ensureNotCounted (voter : Address) (proposalId : ℕ) : Call Unit := do
  let s ← load
  ensure (s.delegatedVote (proposalId, voter) = false) .weightAlreadyCounted

def ensureNotDelegated (voter : Address) : Call Unit := do
  let s ← load
  ensure (s.delegateOf voter = none) .weightAlreadyCounted

def storeLock (proposalId : ℕ) (voter : Address) (amount : ℤ) : Call Unit :=
  update fun s =>
    { s with
      lockedBalance :=
        Function.update s.lockedBalance (proposalId, voter) amount }

def storeVote (proposalId : ℕ) (record : VoteRecord) : Call Unit :=
  update fun s =>
    { s with
      voteRecord :=
        Function.update s.voteRecord (proposalId, record.voter)
          (some record) }

/-- Own weight and delegated weight together. -/
def voteWeight (env : Env) (govToken voter : Address) (proposalId : ℕ)
    (ownTallyWeight : ℤ) : Call ℤ := do
  let delegatedWeight ← collectDelegatedWeight env govToken voter proposalId
  let weight := satI128 (ownTallyWeight + delegatedWeight)
  ensure (0 < weight) .zeroVoteWeight
  pure weight

/-- The voter's balance, which has to be positive. -/
def ownWeight (govToken voter : Address) : Call ℤ := do
  let m ← get
  let balance : ℤ := m.bank.balance govToken voter
  ensure (0 < balance) .zeroVoteWeight
  pure balance

def vote (env : Env) (voter : Address) (proposalId : ℕ)
    (choice : VoteChoice) : Call Unit := do
  requireAuth env voter
  let p ← requireBallot env voter proposalId
  let config ← loadConfig .trap
  ensureNotDelegated voter
  ensureNotCounted voter proposalId
  let own ← ownWeight config.govToken voter
  let capped := config.capped own
  let s ← load
  let weight ← voteWeight env config.govToken voter proposalId
    (s.timeWeighted env.now voter capped)
  transferToken env config.govToken voter env.self capped
  storeLock proposalId voter capped
  let voted ← p.tally choice weight
  storeVote proposalId { voter := voter, choice := choice, weight := weight }
  storeProposal proposalId voted
  publish (.voteCast proposalId voter choice weight)

/-- First pass of a batch: check every proposal before anything is written. -/
def requireBatchBallot (env : Env) (voter : Address) (proposalId : ℕ) :
    Call Proposal := do
  let p ← requireBallot env voter proposalId
  ensureNotCounted voter proposalId
  pure p

/-- Second pass of a batch: count the vote on one proposal and record
`lockAmount` for it. -/
def tallyBallot (env : Env) (govToken voter : Address) (choice : VoteChoice)
    (ownTallyWeight lockAmount : ℤ) (proposalId : ℕ) (p : Proposal) :
    Call Unit := do
  let weight ← voteWeight env govToken voter proposalId ownTallyWeight
  let voted ← p.tally choice weight
  storeVote proposalId { voter := voter, choice := choice, weight := weight }
  storeLock proposalId voter lockAmount
  storeProposal proposalId voted
  publish (.voteCast proposalId voter choice weight)

/-- The lock lies on the first proposal of a batch; the others record zero. -/
def tallyBatch (env : Env) (govToken voter : Address) (choice : VoteChoice)
    (ownTallyWeight : ℤ) : ℤ → List (ℕ × Proposal) → Call Unit
  | _, [] => pure ()
  | lockAmount, (proposalId, p) :: ballots => do
      tallyBallot env govToken voter choice ownTallyWeight lockAmount
        proposalId p
      tallyBatch env govToken voter choice ownTallyWeight 0 ballots

def voteBatch (env : Env) (voter : Address) (proposalIds : List ℕ)
    (choice : VoteChoice) : Call Unit := do
  requireAuth env voter
  ensure (proposalIds ≠ []) .noProposals
  ensure proposalIds.Nodup .invalidInput
  ensureNotDelegated voter
  let config ← loadConfig .trap
  let proposals ← collect proposalIds (requireBatchBallot env voter)
  let own ← ownWeight config.govToken voter
  let capped := config.capped own
  let s ← load
  transferToken env config.govToken voter env.self capped
  tallyBatch env config.govToken voter choice
    (s.timeWeighted env.now voter capped) capped (proposalIds.zip proposals)

/-- Return the tokens locked on a proposal that is not Active.  Without a lock
the call succeeds for a voter on the proposal, whose tokens are locked on
another proposal of its batch. -/
def withdrawTokens (env : Env) (voter : Address) (proposalId : ℕ) :
    Call Unit := do
  requireAuth env voter
  let p ← loadProposal proposalId
  ensure (p.status ≠ .active) .proposalNotActive
  let s ← load
  let lockedAmount := s.lockedBalance (proposalId, voter)
  if lockedAmount ≤ 0 then
    ensure ((s.voteRecord (proposalId, voter)).isSome = true)
      .insufficientWeight
  else do
    storeLock proposalId voter 0
    let config ← loadConfig .trap
    transferToken env config.govToken env.self voter lockedAmount
    publish (.tokensWithdrawn proposalId voter lockedAmount)

end Parashield.GovernanceDao
