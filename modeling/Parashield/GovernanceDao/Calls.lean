import Parashield.GovernanceDao.Settings

/-!
# Governance DAO: entry points and runs

All state-changing entry points of the DAO.
-/

namespace Parashield.GovernanceDao

open Support Support.Contract Invocation

/-- The state-changing entry points with their arguments.  Calls that hash an
action carry the handles the host gives its values, and an execution carries
the outcome of the target. -/
inductive Entry where
  | initializeDao (admin : Address) (config : DaoConfig)
  | createProposal (handles : Handles) (proposer : Address) (title : Bytes)
      (target : Address) (function : Symbol) (args : List Val)
      (impactAnalysis : Bytes)
  | proposeUpgrade (handles : Handles) (proposer : Address) (title : Bytes)
      (target : Address) (newWasmHash impactAnalysis : Bytes)
  | createProposalFromTemplate (handles : Handles) (proposer : Address)
      (templateName : Symbol) (title : Bytes) (target : Address)
      (function : Symbol) (args : List Val) (impactAnalysis : Bytes)
  | registerTemplate (admin : Address) (name : Symbol) (description : Bytes)
      (minTitleLen requiredArgCount : ℕ)
  | deactivateTemplate (admin : Address) (name : Symbol)
  | delegate (delegator delegate : Address)
  | delegateWithExpiry (delegator delegate : Address)
      (durationSeconds : ℕ)
  | revokeDelegation (delegator : Address)
  | setTimeWeight (admin : Address) (enabled : Bool)
      (rampPeriod minBps : ℕ)
  | checkpointVotingPower (holder : Address)
  | vote (voter : Address) (proposalId : ℕ) (choice : VoteChoice)
  | voteBatch (voter : Address) (proposalIds : List ℕ) (choice : VoteChoice)
  | withdrawTokens (voter : Address) (proposalId : ℕ)
  | finalize (handles : Handles) (proposalId : ℕ)
  | finalizeBatch (handles : ℕ → Handles) (proposalIds : List ℕ)
  | reclaimDeposit (handles : Handles) (proposalId : ℕ)
  | cancel (handles : Handles) (admin : Address) (proposalId : ℕ)
  | startVoting (proposalId : ℕ)
  | execute (handles : Handles) (outcome : Outcome) (proposalId : ℕ)
  | vetoProposal (guardian : Address) (proposalId : ℕ) (reason : Symbol)
  | updateConfig (admin : Address) (config : DaoConfig)
  | setProposalThreshold (admin : Address) (newThreshold : ℤ)
  | setQuorumDecay (admin : Address) (enabled : Bool)
      (floorBps decayPerPeriodBps window : ℕ)
  | setImpactMultipliers (admin : Address)
      (standardBps upgradeBps selfTargetBps : ℕ)
  | pruneParticipationHistory (maxEntries : ℕ)
  | setRiskPool (admin riskPool : Address)
  | setGuardians (admin : Address) (guardians : List Address)
      (threshold : ℕ)
  | addComment (commenter : Address) (proposalId : ℕ) (text : Bytes)
      (replyTo : Option ℕ)
  | deleteComment (admin : Address) (commentId : ℕ)

def exec (env : Env) : Entry → Call Unit
  | .initializeDao admin config => initializeDao admin config
  | .createProposal handles proposer title target function args impact =>
      perform (createProposal env handles proposer title target function args
        impact)
  | .proposeUpgrade handles proposer title target newWasmHash impact =>
      perform (proposeUpgrade env handles proposer title target newWasmHash
        impact)
  | .createProposalFromTemplate handles proposer templateName title target
      function args impact =>
      perform (createProposalFromTemplate env handles proposer templateName
        title target function args impact)
  | .registerTemplate admin name description minTitleLen requiredArgCount =>
      registerTemplate env admin name description minTitleLen requiredArgCount
  | .deactivateTemplate admin name => deactivateTemplate env admin name
  | .delegate delegator delegate =>
      GovernanceDao.delegate env delegator delegate
  | .delegateWithExpiry delegator delegate durationSeconds =>
      delegateWithExpiry env delegator delegate durationSeconds
  | .revokeDelegation delegator => revokeDelegation env delegator
  | .setTimeWeight admin enabled rampPeriod minBps =>
      setTimeWeight env admin enabled rampPeriod minBps
  | .checkpointVotingPower holder => checkpointVotingPower env holder
  | .vote voter proposalId choice => vote env voter proposalId choice
  | .voteBatch voter proposalIds choice =>
      voteBatch env voter proposalIds choice
  | .withdrawTokens voter proposalId => withdrawTokens env voter proposalId
  | .finalize handles proposalId => finalize env handles proposalId
  | .finalizeBatch handles proposalIds =>
      finalizeBatch env handles proposalIds
  | .reclaimDeposit handles proposalId =>
      reclaimDeposit env handles proposalId
  | .cancel handles admin proposalId => cancel env handles admin proposalId
  | .startVoting proposalId => startVoting env proposalId
  | .execute handles outcome proposalId =>
      execute env handles outcome proposalId
  | .vetoProposal guardian proposalId reason =>
      vetoProposal env guardian proposalId reason
  | .updateConfig admin config => updateConfig env admin config
  | .setProposalThreshold admin newThreshold =>
      setProposalThreshold env admin newThreshold
  | .setQuorumDecay admin enabled floorBps decayPerPeriodBps window =>
      setQuorumDecay env admin enabled floorBps decayPerPeriodBps window
  | .setImpactMultipliers admin standardBps upgradeBps selfTargetBps =>
      setImpactMultipliers env admin standardBps upgradeBps selfTargetBps
  | .pruneParticipationHistory maxEntries =>
      pruneParticipationHistory maxEntries
  | .setRiskPool admin riskPool => setRiskPool env admin riskPool
  | .setGuardians admin guardians threshold =>
      setGuardians env admin guardians threshold
  | .addComment commenter proposalId text replyTo =>
      perform (addComment env commenter proposalId text replyTo)
  | .deleteComment admin commentId => deleteComment env admin commentId

/-- Runs of the DAO deployed at `self`. -/
def system (self : Address) : TransitionSystem (World State) (Label Entry) :=
  deployment exec State.deployed self

/-! ## A DAO with one proposal -/

namespace Scenario

def dao : Address := .contract 3
def shield : Address := .contract 30
def pool : Address := .contract 2
def admin : Address := .account 1
def alice : Address := .account 2
def bob : Address := .account 3
def carol : Address := .account 4

def config : DaoConfig where
  govToken := shield
  proposalThreshold := 10
  totalSupply := 1000
  quorumBps := 1000
  majorityBps := 5100
  votingPeriod := 604800
  proposalTimelock := 86400
  discussionPeriod := 0
  voteWeightCap := 0

/-- The tokens are with their holders, and nothing is set up. -/
def genesis : World State where
  now := 1000000
  machine :=
    { store := .deployed
      bank :=
        ((Bank.mint ⟨fun _ => none, []⟩ shield alice 500).mint shield bob
          300).mint shield carol 200 }

def launch : Label Entry := .call [admin] (.initializeDao admin config)

/-- Every object gets its position as its handle. -/
def inOrder : Handles := fun position => position

def pause : Symbol := ⟨['p', 'a', 'u', 's', 'e']⟩

/-- Alice proposes to call the pool. -/
def motion : Label Entry :=
  .call [alice] (.createProposal inOrder alice [77] pool pause [.u32 1]
    [1, 2, 3, 4, 5])

def proposed : World State :=
  (TransitionSystem.execute (step exec dao) [launch, motion] genesis).get
    (by decide +kernel)

theorem proposed_run :
    (system dao).Run genesis [launch, motion] proposed :=
  TransitionSystem.run_of_execute (fun _ _ _ => step_sound)
    (Option.some_get _).symm

theorem proposed_reachable : (system dao).Reachable proposed := by
  have hgenesis : (system dao).Reachable genesis := .init ⟨rfl, rfl⟩
  exact hgenesis.run proposed_run

end Scenario

end Parashield.GovernanceDao
