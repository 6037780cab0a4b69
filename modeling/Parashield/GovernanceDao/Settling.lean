import Parashield.GovernanceDao.Voting

/-!
# Governance DAO: outcome of a proposal

Quorum and majority, the five ways a proposal is closed, its execution, and
the veto of a guardian.
-/

namespace Parashield.GovernanceDao

open Support Support.Contract Invocation

/-! ## Quorum -/

/-- Average turnout of the recorded proposals, rounded down. -/
def ParticipationHistory.average (h : ParticipationHistory) : Option ℕ :=
  if h.recentBps = [] then none
  else some (h.recentBps.sum / h.recentBps.length)

/-- The quorum in force, relaxed by whole decay steps where the average
turnout falls short of it. -/
def State.effectiveQuorum (s : State) (config : DaoConfig) :
    EffectiveQuorum :=
  let baseBps := config.quorumBps
  let avgBps := s.participation.average.getD 0
  let undecayed : EffectiveQuorum :=
    { quorumBps := baseBps
      baseBps := baseBps
      avgParticipationBps := avgBps
      decayed := false }
  if s.quorumDecay.enabled = false ∨ s.participation.average = none then
    undecayed
  else if baseBps ≤ avgBps then
    undecayed
  else
    let steps := (baseBps - avgBps) / max s.quorumDecay.decayPerPeriodBps 1
    let reduction :=
      min (steps * s.quorumDecay.decayPerPeriodBps) (2 ^ 32 - 1)
    let decayedBps := max (baseBps - reduction) s.quorumDecay.floorBps
    { quorumBps := decayedBps
      baseBps := baseBps
      avgParticipationBps := avgBps
      decayed := decide (decayedBps < baseBps) }

/-- Turnout in basis points, or the maximum if the product overflows. -/
def turnoutBps (totalVotes totalSupply : ℤ) : ℕ :=
  if totalSupply ≤ 0 then
    0
  else if InI128 (totalVotes * 10000) then
    (max 0 (min ((totalVotes * 10000).tdiv totalSupply) 10000)).toNat
  else
    10000

/-- Keep the newest entries of a list. -/
def latest {α : Type} (window : ℕ) (xs : List α) : List α :=
  xs.drop (xs.length - window)

def recordParticipation (totalVotes totalSupply : ℤ) : Call Unit :=
  update fun s =>
    let window :=
      if s.quorumDecay.window = 0 then defaultParticipationWindow
      else s.quorumDecay.window
    { s with
      participation :=
        { recentBps :=
            latest window
              (s.participation.recentBps ++
                [turnoutBps totalVotes totalSupply])
          totalRecorded := satAddU64 s.participation.totalRecorded 1 } }

/-- Votes needed for the quorum; a supply too large for the product cannot be
reached. -/
def quorumNeeded (totalSupply : ℤ) (quorumBps : ℕ) : ℤ :=
  if InI128 (totalSupply * quorumBps) then
    (totalSupply * quorumBps).tdiv 10000
  else
    maxI128

/-- Share of the For votes in basis points. -/
def forBps (votesFor partisanVotes : ℤ) : ℤ :=
  if 0 < partisanVotes ∧ InI128 (votesFor * 10000) then
    (votesFor * 10000).tdiv partisanVotes
  else
    0

/-- For and Against decide; Abstain counts for neither side. -/
def Proposal.passes (p : Proposal) (quorumBps majorityBps : ℕ) : Prop :=
  let partisanVotes := p.votesFor + p.votesAgainst
  partisanVotes ≠ 0 ∧ quorumNeeded p.totalSupply quorumBps ≤ partisanVotes ∧
    (majorityBps : ℤ) ≤ forBps p.votesFor partisanVotes

instance (p : Proposal) (quorumBps majorityBps : ℕ) :
    Decidable (p.passes quorumBps majorityBps) :=
  inferInstanceAs (Decidable (_ ∧ _ ∧ _))

/-! ## Finalization -/

/-- The proposal, if it is Active and its finalize delay has passed. -/
def requireFinalizable (env : Env) (proposalId : ℕ) : Call Proposal := do
  let p ← loadProposal proposalId
  ensure (p.status = .active) .proposalNotActive
  let delayed ← unsigned 64 (p.voteEnd + finalizeDelay) .trap
  ensure (delayed < env.now) .finalizeDelayNotMet
  pure p

/-- All votes on the proposal. -/
def Proposal.totalVotes (p : Proposal) : Call ℤ := do
  let partisanVotes ← i128 (p.votesFor + p.votesAgainst) (.overflow none)
  i128 (partisanVotes + p.votesAbstain) (.overflow none)

/-- The proposal after the count: Passed with its timelock, or Failed. -/
def Proposal.count (p : Proposal) (env : Env) (quorumBps : ℕ)
    (config : DaoConfig) : Call Proposal :=
  if p.passes quorumBps config.majorityBps then do
    let executionTime ← unsigned 64 (env.now + config.proposalTimelock) .trap
    pure { p with status := .passed, executionTime := executionTime }
  else
    pure { p with status := .failed }

def refundDeposit (env : Env) (config : DaoConfig) (p : Proposal) :
    Call Unit :=
  transferToken env config.govToken env.self p.proposer p.deposit

/-- Count the votes, record the turnout, refund the deposit of a failed
proposal and store the outcome. -/
def conclude (env : Env) (handles : Handles) (config : DaoConfig)
    (proposalId : ℕ) (p : Proposal) : Call Unit := do
  let totalVotes ← p.totalVotes
  let s ← load
  let counted ← p.count env (s.effectiveQuorum config).quorumBps config
  recordParticipation totalVotes p.totalSupply
  whenever (counted.status ≠ .passed) (refundDeposit env config p)
  storeProposal proposalId counted
  clearProposalHash handles p
  publish (.proposalFinalized proposalId counted.status)

def finalize (env : Env) (handles : Handles) (proposalId : ℕ) :
    Call Unit := do
  let p ← requireFinalizable env proposalId
  let config ← loadConfig .trap
  conclude env handles config proposalId p

def finalizeBatch (env : Env) (handles : ℕ → Handles)
    (proposalIds : List ℕ) : Call Unit := do
  ensure (proposalIds ≠ []) .noProposals
  ensure (proposalIds.length ≤ maxBatchFinalize) .batchTooLarge
  let config ← loadConfig .trap
  forEach proposalIds fun proposalId => do
    let p ← requireFinalizable env proposalId
    conclude env (handles proposalId) config proposalId p

def reclaimDeposit (env : Env) (handles : Handles) (proposalId : ℕ) :
    Call Unit := do
  let p ← loadProposal proposalId
  ensure (p.status = .active) .proposalNotActive
  ensure (satAddU64 p.voteEnd depositReclaimTimeout < env.now)
    .proposalNotExpired
  let config ← loadConfig .trap
  let totalVotes ← p.totalVotes
  recordParticipation totalVotes p.totalSupply
  refundDeposit env config p
  storeProposal proposalId { p with status := .failed }
  clearProposalHash handles p
  publish (.depositReclaimed proposalId p.proposer p.deposit)

def cancel (env : Env) (handles : Handles) (admin : Address)
    (proposalId : ℕ) : Call Unit := do
  requireAdmin env admin
  let p ← loadProposal proposalId
  ensure p.status.IsOpen .proposalNotActive
  storeProposal proposalId { p with status := .cancelled }
  let config ← loadConfig .trap
  refundDeposit env config p
  clearProposalHash handles p
  publish (.proposalCancelled proposalId)

def startVoting (env : Env) (proposalId : ℕ) : Call Unit := do
  let p ← loadProposal proposalId
  ensure (p.status = .discussion) .proposalNotActive
  let config ← loadConfig .trap
  ensure (config.discussionPeriod ≠ 0) .discussionPeriodNotRequired
  ensure (satAddU64 p.createdAt config.discussionPeriod ≤ env.now)
    .discussionPeriodNotEnded
  storeProposal proposalId { p with status := .active }
  publish (.discussionPeriodEnded proposalId)

/-! ## Execution -/

/-- What a target does when it is invoked: fail, or leave the tokens as they
then are and return a value, here reported if it is a 32-bit integer.  The host
lets no target call back into the DAO, so the DAO's storage is untouched. -/
abbrev Outcome := Bank → Option (Bank × Option ℕ)

/-- Invoke the target of a proposal. -/
def invokeContract (env : Env) (target : Address) (outcome : Outcome) :
    Call (Option ℕ) := do
  require (target ≠ env.self) .trap
  let m ← get
  let (bank, result) ← unwrap (outcome m.bank) .trap
  set { m with bank := bank }
  pure result

/-- Completion reported by the target; everything but a 32-bit integer counts
as full completion. -/
def executionBps (result : Option ℕ) : Call ℕ :=
  match result with
  | some bps => do
      ensure (bps ≤ 10000) .invalidInput
      pure bps
  | none => pure 10000

/-- The part of the deposit that is refunded after execution. -/
def Proposal.refundAmount (p : Proposal) (bps : ℕ) : ℤ :=
  p.deposit.tdiv 10000 * bps + (p.deposit.tmod 10000 * bps).tdiv 10000

/-- A Passed proposal in its execution window is executed; past the deadline
it expires. -/
def execute (env : Env) (handles : Handles) (outcome : Outcome)
    (proposalId : ℕ) : Call Unit := do
  let p ← loadProposal proposalId
  ensure (p.status ≠ .executed) .alreadyExecuted
  ensure (p.status ≠ .cancelled) .alreadyCancelled
  ensure (p.status ≠ .expired) .executionDeadlineExpired
  ensure (p.status = .passed) .proposalNotPassed
  ensure (p.isVetoed = false) .proposalVetoed
  ensure (p.executionTime ≤ env.now) .timelockNotExpired
  if p.executionDeadline < env.now then do
    storeProposal proposalId { p with status := .expired }
    clearProposalHash handles p
    publish (.proposalExpired proposalId)
  else do
    let result ← invokeContract env p.target outcome
    let bps ← executionBps result
    let refund := p.refundAmount bps
    whenever (0 < refund) do
      let config ← loadConfig .trap
      transferToken env config.govToken env.self p.proposer refund
    publish
      (.proposalDepositRefunded proposalId p.proposer p.deposit bps refund
        (p.deposit - refund))
    storeProposal proposalId { p with status := .executed }
    update fun s =>
      { s with
        executionAudit :=
          Function.update s.executionAudit proposalId
            (some
              { proposalId := proposalId
                executor := p.proposer
                target := p.target
                function := p.function
                executedAt := env.now
                votesFor := p.votesFor
                votesAgainst := p.votesAgainst }) }
    publish
      (.proposalExecuted proposalId p.proposer p.target p.function env.now)

def vetoProposal (env : Env) (guardian : Address) (proposalId : ℕ)
    (reason : Symbol) : Call Unit := do
  requireAuth env guardian
  let s ← load
  ensure (guardian ∈ s.guardians) .notGuardian
  let p ← loadProposal proposalId
  ensure (p.status ≠ .executed) .alreadyExecuted
  ensure (p.isVetoed = false) .proposalVetoed
  storeProposal proposalId { p with isVetoed := true }
  publish (.proposalVetoed proposalId guardian reason)

end Parashield.GovernanceDao
