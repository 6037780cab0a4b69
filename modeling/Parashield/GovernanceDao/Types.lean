import Parashield.Deployment

/-!
# Governance DAO: data model

Proposals, votes, delegations and the storage of the DAO, with the host values
that a proposal carries as arguments.  An entry the code reads with a fallback
carries that fallback as its initial value.
-/

namespace Parashield.GovernanceDao

/-! ## Host values -/

/-- A host value.  Short values lie in the 64-bit payload itself; all others
are objects of the host. -/
inductive Val where
  | small (tag body : ℕ)
  | symbol (s : Symbol)
  | address (a : Address)
  | bytes (b : Bytes)
  | object (content : Bytes)
  deriving DecidableEq, Repr

def Val.u32 (n : ℕ) : Val := .small 4 n

/-- Whether the payload holds the value itself.  Symbols fit up to nine
characters. -/
def Val.isSmall : Val → Bool
  | .small .. => true
  | .symbol s => decide (s.chars.length ≤ 9)
  | .address _ | .bytes _ | .object _ => false

/-- What the payload of a value tells: the value, or the handle under which
the host keeps the object during the invocation. -/
inductive Payload where
  | immediate (v : Val)
  | handle (n : ℕ)
  deriving DecidableEq, Repr

def Val.getPayload (v : Val) (handle : ℕ) : Payload :=
  if v.isSmall then .immediate v else .handle handle

/-- The handles of one invocation, by position: the function name comes first,
the arguments follow. -/
abbrev Handles := ℕ → ℕ

/-- A SHA-256 digest, written as the preimage it is taken of: digests of
different preimages are taken to differ. -/
structure ContentHash where
  target : Address
  function : Payload
  args : List Payload
  deriving DecidableEq, Repr

/-! ## Records -/

inductive ProposalStatus where
  | discussion
  | active
  | passed
  | failed
  | executed
  | cancelled
  | expired
  deriving DecidableEq, Repr

structure ProposalComment where
  id : ℕ
  proposalId : ℕ
  author : Address
  text : Bytes
  createdAt : ℕ
  replyTo : Option ℕ
  deriving DecidableEq, Repr

inductive VoteChoice where
  | for
  | against
  | abstain
  deriving DecidableEq, Repr

inductive ProposalKind where
  | standard
  | upgrade
  deriving DecidableEq, Repr

structure Proposal where
  id : ℕ
  proposer : Address
  title : Bytes
  target : Address
  function : Symbol
  args : List Val
  /-- The amount locked from the proposer at creation. -/
  deposit : ℤ
  status : ProposalStatus
  votesFor : ℤ
  votesAgainst : ℤ
  votesAbstain : ℤ
  createdAt : ℕ
  voteEnd : ℕ
  executionTime : ℕ
  executionDeadline : ℕ
  /-- The total supply configured at creation. -/
  totalSupply : ℤ
  kind : ProposalKind
  impactAnalysis : Bytes
  isVetoed : Bool
  deriving DecidableEq, Repr

structure VoteRecord where
  voter : Address
  choice : VoteChoice
  weight : ℤ
  deriving DecidableEq, Repr

structure DaoConfig where
  govToken : Address
  proposalThreshold : ℤ
  totalSupply : ℤ
  quorumBps : ℕ
  majorityBps : ℕ
  votingPeriod : ℕ
  proposalTimelock : ℕ
  discussionPeriod : ℕ
  /-- Largest own weight of one vote, or zero for no cap. -/
  voteWeightCap : ℤ
  deriving DecidableEq, Repr

structure QuorumDecayConfig where
  enabled : Bool
  floorBps : ℕ
  decayPerPeriodBps : ℕ
  window : ℕ
  deriving DecidableEq, Repr

structure ParticipationHistory where
  /-- Turnout of the latest finalized proposals, oldest first. -/
  recentBps : List ℕ
  totalRecorded : ℕ
  deriving DecidableEq, Repr

structure EffectiveQuorum where
  quorumBps : ℕ
  baseBps : ℕ
  avgParticipationBps : ℕ
  decayed : Bool
  deriving DecidableEq, Repr

structure DelegateInfo where
  delegate : Address
  delegators : List Address
  delegatedWeight : ℤ
  ownWeight : ℤ
  totalWeight : ℤ
  deriving DecidableEq, Repr

structure TimeWeightConfig where
  enabled : Bool
  rampPeriod : ℕ
  minBps : ℕ
  deriving DecidableEq, Repr

structure WeightCheckpoint where
  amount : ℤ
  since : ℕ
  deriving DecidableEq, Repr

structure ProposalTemplate where
  name : Symbol
  description : Bytes
  minTitleLen : ℕ
  requiredArgCount : ℕ
  active : Bool
  deriving DecidableEq, Repr

structure ImpactMultipliers where
  standardBps : ℕ
  upgradeBps : ℕ
  selfTargetBps : ℕ
  deriving DecidableEq, Repr

structure ExecutionAuditRecord where
  proposalId : ℕ
  executor : Address
  target : Address
  function : Symbol
  executedAt : ℕ
  votesFor : ℤ
  votesAgainst : ℤ
  deriving DecidableEq, Repr

/-- The events about proposals, their votes and their deposits. -/
inductive Event where
  | proposalCreated (proposalId : ℕ) (proposer target : Address)
      (function : Symbol)
  | voteCast (proposalId : ℕ) (voter : Address) (choice : VoteChoice)
      (weight : ℤ)
  | delegationUsed (proposalId : ℕ) (delegate delegator : Address)
      (weight : ℤ)
  | tokensWithdrawn (proposalId : ℕ) (voter : Address) (amount : ℤ)
  | proposalFinalized (proposalId : ℕ) (status : ProposalStatus)
  | depositReclaimed (proposalId : ℕ) (proposer : Address) (amount : ℤ)
  | proposalExpired (proposalId : ℕ)
  | proposalDepositRefunded (proposalId : ℕ) (proposer : Address)
      (deposit : ℤ) (executionBps : ℕ) (refundAmount retainedAmount : ℤ)
  | proposalExecuted (proposalId : ℕ) (executor target : Address)
      (function : Symbol) (executedAt : ℕ)
  | proposalCancelled (proposalId : ℕ)
  | discussionPeriodEnded (proposalId : ℕ)
  | proposalVetoed (proposalId : ℕ) (guardian : Address) (reason : Symbol)
  deriving DecidableEq, Repr

inductive Error where
  | alreadyInitialized
  | notInitialized
  | unauthorized
  | insufficientWeight
  | proposalNotFound
  | proposalNotActive
  | alreadyVoted
  | votingClosed
  | votingStillOpen
  | proposalNotPassed
  | alreadyExecuted
  | alreadyCancelled
  | timelockNotExpired
  | finalizeDelayNotMet
  | versionNotNewer
  | limitReached
  | votingPeriodTooShort
  | votingPeriodTooLong
  | invalidAddress
  | notGuardian
  | alreadyApprovedAction
  | noPendingUpgrade
  | invalidThreshold
  | quorumTooLow
  | invalidQuorumDecay
  | selfDelegation
  | noDelegation
  | alreadyDelegated
  | weightAlreadyCounted
  | tooManyDelegators
  | proposalNotExpired
  | templateNotFound
  | templateInactive
  | titleTooShort
  | argCountMismatch
  | discussionPeriodNotEnded
  | discussionPeriodNotRequired
  | noProposals
  | invalidInput
  | executionDeadlineExpired
  | proposalVetoed
  | batchTooLarge
  | invalidImpactMultiplier
  | invalidTimeWeight
  | emptyDescription
  | titleTooLong
  | quorumTooHigh
  | duplicateProposal
  | circularDelegation
  | duplicateTemplateName
  | zeroVoteWeight
  /-- Used by `register_template`, though not among the declared codes. -/
  | invalidParameter
  deriving DecidableEq, Repr

/-! ## Constants -/

def minVotingPeriod : ℕ := 3600

def maxVotingPeriod : ℕ := 30 * 24 * 3600

def finalizeDelay : ℕ := 300

def depositReclaimTimeout : ℕ := 14 * 24 * 3600

/-- How long past the finalize delay a passed proposal can be executed. -/
def executionWindow : ℕ := 7 * 24 * 3600

def minQuorumBps : ℕ := 1000

def maxQuorumBps : ℕ := 10000

def defaultParticipationWindow : ℕ := 5

def maxParticipationWindow : ℕ := 20

def maxDelegators : ℕ := 50

def minMultiplierBps : ℕ := 10000

def maxMultiplierBps : ℕ := 100000

def fullWeightBps : ℕ := 10000

def maxTitleLen : ℕ := 256

def maxImpactAnalysisLen : ℕ := 4096

def maxBatchFinalize : ℕ := 20

def delegationPeriod : ℕ := 180 * 24 * 60 * 60

/-! ## Storage -/

structure State where
  initialized : Bool
  admin : Option Address
  config : Option DaoConfig
  nextProposalId : ℕ
  proposal : ℕ → Option Proposal
  voteRecord : ℕ × Address → Option VoteRecord
  lockedBalance : ℕ × Address → ℤ
  guardians : List Address
  guardianThreshold : ℕ
  quorumDecay : QuorumDecayConfig
  timeWeight : TimeWeightConfig
  weightCheckpoint : Address → Option WeightCheckpoint
  participation : ParticipationHistory
  delegateOf : Address → Option Address
  delegationExpiry : Address → Option ℕ
  delegators : Address → List Address
  /-- The delegator's weight was counted in the proposal. -/
  delegatedVote : ℕ × Address → Bool
  template : Symbol → Option ProposalTemplate
  templateList : List Symbol
  riskPool : Option Address
  executionAudit : ℕ → Option ExecutionAuditRecord
  proposalComment : ℕ → Option ProposalComment
  nextCommentId : ℕ → ℕ
  impactMultipliers : ImpactMultipliers
  /-- The open proposal with a given content. -/
  activeProposalHash : ContentHash → Option ℕ
  /-- The events emitted so far, newest first. -/
  events : List Event

/-- Storage of a freshly deployed DAO. -/
def State.deployed : State where
  initialized := false
  admin := none
  config := none
  nextProposalId := 0
  proposal _ := none
  voteRecord _ := none
  lockedBalance _ := 0
  guardians := []
  guardianThreshold := 0
  quorumDecay :=
    { enabled := false
      floorBps := minQuorumBps
      decayPerPeriodBps := 0
      window := 0 }
  timeWeight := { enabled := false, rampPeriod := 0, minBps := fullWeightBps }
  weightCheckpoint _ := none
  participation := { recentBps := [], totalRecorded := 0 }
  delegateOf _ := none
  delegationExpiry _ := none
  delegators _ := []
  delegatedVote _ := false
  template _ := none
  templateList := []
  riskPool := none
  executionAudit _ := none
  proposalComment _ := none
  nextCommentId _ := 1
  impactMultipliers :=
    { standardBps := minMultiplierBps
      upgradeBps := minMultiplierBps
      selfTargetBps := minMultiplierBps }
  activeProposalHash _ := none
  events := []

end Parashield.GovernanceDao
