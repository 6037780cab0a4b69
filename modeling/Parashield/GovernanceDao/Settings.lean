import Parashield.GovernanceDao.Settling

/-!
# Governance DAO: settings and discussion

Initialization, the settings of the administrator, the guardian committee, and
the comments on proposals.
-/

namespace Parashield.GovernanceDao

open Support Support.Contract Invocation

/-! ## Configuration -/

/-- The bounds on a configuration. -/
def validateConfig (config : DaoConfig) : Call Unit := do
  ensure (minVotingPeriod ≤ config.votingPeriod) .votingPeriodTooShort
  ensure (config.votingPeriod ≤ maxVotingPeriod) .votingPeriodTooLong
  ensure (minQuorumBps ≤ config.quorumBps) .quorumTooLow
  ensure (config.quorumBps ≤ maxQuorumBps) .quorumTooHigh

def storeConfig (config : DaoConfig) : Call Unit :=
  update fun s => { s with config := some config }

def initializeDao (admin : Address) (config : DaoConfig) : Call Unit := do
  let s ← load
  ensure (s.initialized = false) .alreadyInitialized
  ensure (config.govToken.isContract = true) .invalidAddress
  update fun s => { s with initialized := true }
  validateConfig config
  update fun s => { s with admin := some admin }
  storeConfig config
  update fun s => { s with nextProposalId := 0 }

def updateConfig (env : Env) (admin : Address) (config : DaoConfig) :
    Call Unit := do
  requireAdmin env admin
  validateConfig config
  storeConfig config

def setProposalThreshold (env : Env) (admin : Address) (newThreshold : ℤ) :
    Call Unit := do
  requireAdmin env admin
  ensure (0 < newThreshold) .invalidInput
  let config ← loadConfig (.error .notInitialized)
  storeConfig { config with proposalThreshold := newThreshold }

def setQuorumDecay (env : Env) (admin : Address) (enabled : Bool)
    (floorBps decayPerPeriodBps window : ℕ) : Call Unit := do
  requireAdmin env admin
  let config ← loadConfig (.error .notInitialized)
  ensure (enabled = true → floorBps < config.quorumBps) .invalidQuorumDecay
  ensure (enabled = true → minQuorumBps ≤ floorBps ∧ floorBps ≤ maxQuorumBps)
    .quorumTooLow
  ensure (enabled = true → window ≠ 0 ∧ window ≤ maxParticipationWindow)
    .invalidQuorumDecay
  ensure (enabled = true → decayPerPeriodBps ≠ 0) .invalidQuorumDecay
  update fun s =>
    { s with
      quorumDecay :=
        { enabled := enabled
          floorBps := max floorBps minQuorumBps
          decayPerPeriodBps := decayPerPeriodBps
          window := window } }

def setImpactMultipliers (env : Env) (admin : Address)
    (standardBps upgradeBps selfTargetBps : ℕ) : Call Unit := do
  requireAdmin env admin
  forEach [standardBps, upgradeBps, selfTargetBps] fun m =>
    ensure (minMultiplierBps ≤ m ∧ m ≤ maxMultiplierBps)
      .invalidImpactMultiplier
  update fun s =>
    { s with
      impactMultipliers :=
        { standardBps := standardBps
          upgradeBps := upgradeBps
          selfTargetBps := selfTargetBps } }

/-- Anyone may shorten the turnout history. -/
def pruneParticipationHistory (maxEntries : ℕ) : Call Unit :=
  update fun s =>
    { s with
      participation :=
        { s.participation with
          recentBps :=
            latest (min maxEntries maxParticipationWindow)
              s.participation.recentBps } }

def setRiskPool (env : Env) (admin riskPool : Address) : Call Unit := do
  requireAdmin env admin
  update fun s => { s with riskPool := some riskPool }

def setGuardians (env : Env) (admin : Address) (guardians : List Address)
    (threshold : ℕ) : Call Unit := do
  requireAdmin env admin
  ensure guardians.Nodup .invalidInput
  ensure (threshold ≠ 0 ∧ threshold ≤ guardians.length) .invalidThreshold
  update fun s =>
    { s with guardians := guardians, guardianThreshold := threshold }

/-! ## Comments -/

def storeComment (commentId : ℕ) (comment : Option ProposalComment) :
    Call Unit :=
  update fun s =>
    { s with
      proposalComment :=
        Function.update s.proposalComment commentId comment }

/-- Comments are numbered per proposal. -/
def addComment (env : Env) (commenter : Address) (proposalId : ℕ)
    (text : Bytes) (replyTo : Option ℕ) : Call ℕ := do
  requireAuth env commenter
  ensure (text ≠ [] ∧ text.length ≤ 1024) .invalidInput
  let p ← loadProposal proposalId
  ensure (p.status = .discussion ∨ p.status = .active) .invalidInput
  let s ← load
  ensure (∀ replyId ∈ replyTo, (s.proposalComment replyId).isSome = true)
    .proposalNotFound
  let commentId := s.nextCommentId proposalId
  storeComment commentId
    (some
      { id := commentId
        proposalId := proposalId
        author := commenter
        text := text
        createdAt := env.now
        replyTo := replyTo })
  update fun s =>
    { s with
      nextCommentId :=
        Function.update s.nextCommentId proposalId
          (min (commentId + 1) (2 ^ 128 - 1)) }
  pure commentId

def State.getComment (s : State) (commentId : ℕ) : View ProposalComment :=
  Check.unwrap (s.proposalComment commentId) (.error .proposalNotFound)

def deleteComment (env : Env) (admin : Address) (commentId : ℕ) :
    Call Unit := do
  requireAdmin env admin
  let s ← load
  ensure ((s.proposalComment commentId).isSome = true) .proposalNotFound
  storeComment commentId none

end Parashield.GovernanceDao
