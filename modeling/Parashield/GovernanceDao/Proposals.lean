import Parashield.GovernanceDao.Types

/-!
# Governance DAO: proposals

The content hash that keeps an action from being proposed twice, the deposit a
proposal locks, and the three ways to create a proposal.
-/

namespace Parashield.GovernanceDao

open Support Support.Contract Invocation

abbrev Call (α : Type) := Invocation Error State α

/-- A read-only computation of the DAO. -/
abbrev View (α : Type) := Check (Fault Error) α

/-! ## Internal helpers -/

def requireAdmin (env : Env) (caller : Address) : Call Unit := do
  let s ← load
  let admin ← unwrap s.admin (.error .notInitialized)
  ensure (caller = admin) .unauthorized
  requireAuth env caller

/-- `a` is the admin and authorized the invocation. -/
def IsAdmin (env : Env) (s : State) (a : Address) : Prop :=
  s.admin = some a ∧ a ∈ env.signers

@[simp] theorem requireAdmin_ok {env : Env} {caller : Address}
    {m m' : Machine State} {u : Unit} :
    requireAdmin env caller m = .ok (u, m') ↔
      IsAdmin env m.store caller ∧ m' = m := by
  simp [requireAdmin, IsAdmin]
  tauto

/-- Read the configuration where its absence is reported as `fault`. -/
def loadConfig (fault : Fault Error) : Call DaoConfig := do
  let s ← load
  unwrap s.config fault

@[simp] theorem loadConfig_ok {fault : Fault Error} {m m' : Machine State}
    {config : DaoConfig} :
    loadConfig fault m = .ok (config, m') ↔
      m.store.config = some config ∧ m' = m := by
  simp [loadConfig, and_comm]

def loadProposal (proposalId : ℕ) : Call Proposal := do
  let s ← load
  unwrap (s.proposal proposalId) (.error .proposalNotFound)

@[simp] theorem loadProposal_ok {proposalId : ℕ} {m m' : Machine State}
    {p : Proposal} :
    loadProposal proposalId m = .ok (p, m') ↔
      m.store.proposal proposalId = some p ∧ m' = m := by
  simp [loadProposal, and_comm]

def storeProposal (proposalId : ℕ) (p : Proposal) : Call Unit :=
  update fun s =>
    { s with proposal := Function.update s.proposal proposalId (some p) }

def publish (e : Event) : Call Unit :=
  update fun s => { s with events := e :: s.events }

/-- The proposal can still be voted on, now or after its discussion. -/
def ProposalStatus.IsOpen (status : ProposalStatus) : Prop :=
  status = .active ∨ status = .discussion

instance (status : ProposalStatus) : Decidable status.IsOpen :=
  inferInstanceAs (Decidable (_ ∨ _))

/-! ## Content hash -/

/-- The payloads of the arguments, the first of which is at `position`. -/
def payloads (handles : Handles) : ℕ → List Val → List Payload
  | _, [] => []
  | position, v :: args =>
      v.getPayload (handles position) :: payloads handles (position + 1) args

def proposalContentHash (handles : Handles) (target : Address)
    (function : Symbol) (args : List Val) : ContentHash where
  target := target
  function := (Val.symbol function).getPayload (handles 0)
  args := payloads handles 1 args

def storeHash (hash : ContentHash) (entry : Option ℕ) : Call Unit :=
  update fun s =>
    { s with
      activeProposalHash := Function.update s.activeProposalHash hash entry }

/-- Remove the index entry under the content hash of `p`, if there is one. -/
def clearProposalHash (handles : Handles) (p : Proposal) : Call Unit :=
  storeHash (proposalContentHash handles p.target p.function p.args) none

/-- The index does not name an open proposal under `hash`. -/
def ensureNotProposed (hash : ContentHash) : Call Unit := do
  let s ← load
  ensure
    (∀ existing ∈ s.activeProposalHash hash, ∀ p ∈ s.proposal existing,
      ¬ p.status.IsOpen) .duplicateProposal

/-! ## Creation -/

/-- The deposit for a proposal, after escalation. -/
def State.effectiveThreshold (s : State) (self : Address) (config : DaoConfig)
    (kind : ProposalKind) (target : Address) : ℤ :=
  let multBps : ℕ :=
    match kind with
    | .upgrade => s.impactMultipliers.upgradeBps
    | .standard =>
        if target = self then s.impactMultipliers.selfTargetBps
        else s.impactMultipliers.standardBps
  (satI128 (config.proposalThreshold * multBps)).tdiv minMultiplierBps

/-- The status a proposal starts in and the end of its voting. -/
def DaoConfig.schedule (config : DaoConfig) (now : ℕ) : ProposalStatus × ℕ :=
  if 0 < config.discussionPeriod then
    (.discussion,
      satAddU64 (satAddU64 now config.discussionPeriod) config.votingPeriod)
  else
    (.active, satAddU64 now config.votingPeriod)

/-- What every kind of creation does once its texts are checked: reject a
duplicate of an open proposal, store the proposal under the next id and take
its deposit. -/
def openProposal (env : Env) (handles : Handles) (kind : ProposalKind)
    (proposer : Address) (title : Bytes) (target : Address)
    (function : Symbol) (args : List Val) (impactAnalysis : Bytes) :
    Call ℕ := do
  let hash := proposalContentHash handles target function args
  ensureNotProposed hash
  let config ← loadConfig (.error .notInitialized)
  let s ← load
  let deposit := s.effectiveThreshold env.self config kind target
  let m ← get
  ensure (deposit ≤ m.bank.balance config.govToken proposer)
    .insufficientWeight
  let proposalId := s.nextProposalId
  let (status, voteEnd) := config.schedule env.now
  storeProposal proposalId
    { id := proposalId
      proposer := proposer
      title := title
      target := target
      function := function
      args := args
      deposit := deposit
      status := status
      votesFor := 0
      votesAgainst := 0
      votesAbstain := 0
      createdAt := env.now
      voteEnd := voteEnd
      executionTime := 0
      executionDeadline :=
        satAddU64 (satAddU64 voteEnd finalizeDelay) executionWindow
      totalSupply := config.totalSupply
      kind := kind
      impactAnalysis := impactAnalysis
      isVetoed := false }
  let next ← unsigned 64 (proposalId + 1) (.error .limitReached)
  update fun s => { s with nextProposalId := next }
  storeHash hash (some proposalId)
  transferToken env config.govToken proposer env.self deposit
  publish (.proposalCreated proposalId proposer target function)
  pure proposalId

def createProposal (env : Env) (handles : Handles) (proposer : Address)
    (title : Bytes) (target : Address) (function : Symbol) (args : List Val)
    (impactAnalysis : Bytes) : Call ℕ := do
  requireAuth env proposer
  ensure (title ≠ []) .emptyDescription
  ensure (title.length ≤ maxTitleLen) .titleTooLong
  ensure (5 ≤ impactAnalysis.length) .emptyDescription
  ensure (impactAnalysis.length ≤ maxImpactAnalysisLen) .invalidInput
  openProposal env handles .standard proposer title target function args
    impactAnalysis

/-- The entry point an upgrade proposal calls. -/
def upgradeFunction : Symbol := ⟨['u', 'p', 'g', 'r', 'a', 'd', 'e']⟩

/-- The argument list of an upgrade proposal: the DAO and the new WASM. -/
def upgradeArgs (self : Address) (newWasmHash : Bytes) : List Val :=
  [.address self, .bytes newWasmHash]

def proposeUpgrade (env : Env) (handles : Handles) (proposer : Address)
    (title : Bytes) (target : Address) (newWasmHash : Bytes)
    (impactAnalysis : Bytes) : Call ℕ := do
  requireAuth env proposer
  ensure (impactAnalysis ≠ []) .invalidInput
  ensure (impactAnalysis.length ≤ maxImpactAnalysisLen) .invalidInput
  openProposal env handles .upgrade proposer title target upgradeFunction
    (upgradeArgs env.self newWasmHash) impactAnalysis

/-! ## Templates -/

def storeTemplate (name : Symbol) (template : ProposalTemplate) : Call Unit :=
  update fun s =>
    { s with template := Function.update s.template name (some template) }

def registerTemplate (env : Env) (admin : Address) (name : Symbol)
    (description : Bytes) (minTitleLen requiredArgCount : ℕ) : Call Unit := do
  requireAdmin env admin
  ensure (description ≠ []) .emptyDescription
  ensure (minTitleLen ≠ 0 ∧ minTitleLen ≤ 256 ∧ requiredArgCount ≤ 64)
    .invalidParameter
  let s ← load
  ensure (s.template name = none) .duplicateTemplateName
  storeTemplate name
    { name := name
      description := description
      minTitleLen := minTitleLen
      requiredArgCount := requiredArgCount
      active := true }
  whenever (name ∉ s.templateList) do
    update fun s => { s with templateList := s.templateList ++ [name] }

def deactivateTemplate (env : Env) (admin : Address) (name : Symbol) :
    Call Unit := do
  requireAdmin env admin
  let s ← load
  let template ← unwrap (s.template name) (.error .templateNotFound)
  storeTemplate name { template with active := false }

def createProposalFromTemplate (env : Env) (handles : Handles)
    (proposer : Address) (templateName : Symbol) (title : Bytes)
    (target : Address) (function : Symbol) (args : List Val)
    (impactAnalysis : Bytes) : Call ℕ := do
  let s ← load
  let template ← unwrap (s.template templateName) (.error .templateNotFound)
  ensure (template.active = true) .templateInactive
  ensure (template.minTitleLen ≤ title.length) .titleTooShort
  ensure (args.length = template.requiredArgCount) .argCountMismatch
  createProposal env handles proposer title target function args
    impactAnalysis

end Parashield.GovernanceDao
