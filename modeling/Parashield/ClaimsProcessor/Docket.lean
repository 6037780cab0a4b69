import Parashield.ClaimsProcessor.Calls
import Parashield.OracleVerifier.Calls
import Parashield.PolicyEngine.Book

/-!
# Claims processor: the docket

The claims with everything their fate depends on: the policies of the engine,
the readings of the oracle, the capital locks of the pool and the tokens.
`Move` lists everything a call of the processor can do to the docket, with
everything each move writes; every call performs a sequence of moves.
-/

namespace Parashield.ClaimsProcessor

open Support Support.Contract Invocation
open PolicyEngine (Policy)
open OracleVerifier (OracleReadingQuery)
open RiskPool (CapitalLock)

/-- The engine apart from its policies. -/
def engineRest (s : PolicyEngine.State) : PolicyEngine.State :=
  { s with
    policies := fun _ => none
    userPolicies := fun _ => []
    events := [] }

/-- The pool apart from its locks. -/
def poolRest (s : RiskPool.State) : RiskPool.State :=
  { s with
    lock := fun _ => none
    totalLocked := 0 }

/-- Claims, policies, readings and locks. -/
structure Docket where
  initialized : Bool
  policyEngine : Option Address
  claim : ℕ → Option Claim
  policyClaim : ℕ → Option ℕ
  nextClaimId : ℕ
  pending : List ℕ
  engine : PolicyEngine.Book
  engineRest : PolicyEngine.State
  oracle : OracleVerifier.State
  lock : ℕ → Option CapitalLock
  totalLocked : ℤ
  poolRest : RiskPool.State

/-- The docket kept by a network. -/
def docket (m : Machine Network) : Docket where
  initialized := m.store.claims.initialized
  policyEngine := m.store.claims.policyEngine
  claim := m.store.claims.claim
  policyClaim := m.store.claims.policyClaim
  nextClaimId := m.store.claims.nextClaimId
  pending := m.store.claims.pendingClaims
  engine := PolicyEngine.book ⟨m.store.engine, m.bank⟩
  engineRest := engineRest m.store.engine
  oracle := m.store.oracle
  lock := m.store.pool.lock
  totalLocked := m.store.pool.totalLocked
  poolRest := poolRest m.store.pool

/-- The claims agree but for installments and attestations. -/
structure Claim.SameTerms (c c' : Claim) : Prop where
  id : c'.id = c.id
  policyId : c'.policyId = c.policyId
  claimant : c'.claimant = c.claimant
  coverageAmount : c'.coverageAmount = c.coverageAmount
  status : c'.status = c.status
  submittedAt : c'.submittedAt = c.submittedAt
  processedAt : c'.processedAt = c.processedAt
  paidAmount : c'.paidAmount = c.paidAmount
  partialPayoutBps : c'.partialPayoutBps = c.partialPayoutBps
  payoutReadyAt : c'.payoutReadyAt = c.payoutReadyAt

/-- What the decision on a claim rests on: the policy's own condition, or
readings chosen by the caller. -/
inductive Basis where
  | own
  | readings (queries : List OracleReadingQuery) (requireAll : Bool)

namespace Docket

def setClaim (d : Docket) (id : ℕ) (c : Claim) : ℕ → Option Claim :=
  Function.update d.claim id (some c)

/-- The head of the queue a batch goes through, oldest claims first. -/
def window (d : Docket) (limit : ℕ) : List ℕ :=
  ((bubbleSort
    (d.pending.filterMap fun claimId =>
      (d.claim claimId).map fun c => (claimId, c.submittedAt))).map
    Prod.fst).take (min limit maxBatchSize)

/-- The docket with a new claim. -/
def record (d : Docket) (c : Claim) : Docket :=
  { d with
    claim := d.setClaim c.id c
    policyClaim := Function.update d.policyClaim c.policyId (some c.id)
    nextClaimId := d.nextClaimId + 1
    pending := d.pending ++ [c.id] }

/-- The docket with a claim taken off the queue as `c`. -/
def close (d : Docket) (id : ℕ) (c : Claim) : Docket :=
  { d with
    claim := d.setClaim id c
    pending := d.pending.erase id }

/-- The docket with the lock of a policy released. -/
def release (d : Docket) (policyId : ℕ) (l : CapitalLock) : Docket :=
  { d with
    lock := Function.update d.lock policyId (some { l with released := true })
    totalLocked := satI128 (d.totalLocked - l.amount) }

/-- The lock `l` of the policy is still held. -/
def Holds (d : Docket) (policyId : ℕ) (l : CapitalLock) : Prop :=
  d.lock policyId = some l ∧ l.released = false

/-- The claim of a policy, if it has been evaluated. -/
def evaluated (d : Docket) (policyId : ℕ) : Prop :=
  ∃ id c, d.policyClaim policyId = some id ∧ d.claim id = some c ∧
    c.status ≠ .pending

/-- One verification of the oracle at time `now`, with its answer. -/
def Asks (now : ℕ) (B : Bank) (q : OracleReadingQuery) (answer : Bool)
    (o o' : OracleVerifier.State) : Prop :=
  ∃ env : Env, env.now = now ∧
    OracleVerifier.verifyTriggerFresh env q.dataType q.key q.condition
      q.stalenessThreshold ⟨o, B⟩ = .ok (answer, ⟨o', B⟩)

/-- The query that asks for the policy's own condition. -/
def ownQuery (p : Policy) (staleness : ℕ) : OracleReadingQuery where
  dataType := p.oracleDataType
  key := p.oracleKey
  condition := triggerCondition p
  stalenessThreshold := staleness

/-- The answers to several queries, asked one after the other. -/
inductive AsksAll (now : ℕ) (B : Bank) :
    List OracleReadingQuery → List Bool → OracleVerifier.State →
      OracleVerifier.State → Prop
  | nil (o : OracleVerifier.State) : AsksAll now B [] [] o o
  | cons {q : OracleReadingQuery} {qs : List OracleReadingQuery} {b : Bool}
      {bs : List Bool} {o o₁ o₂ : OracleVerifier.State} :
      Asks now B q b o o₁ → AsksAll now B qs bs o₁ o₂ →
      AsksAll now B (q :: qs) (b :: bs) o o₂

/-- The oracle supports `verdict` on the claims of policy `p`. -/
inductive Judges (now : ℕ) (B : Bank) (p : Policy) :
    Basis → Bool → OracleVerifier.State → OracleVerifier.State → Prop
  | own {staleness : ℕ} {verdict : Bool} {o o' : OracleVerifier.State} :
      Asks now B (ownQuery p staleness) verdict o o' →
      Judges now B p .own verdict o o'
  | readings {queries : List OracleReadingQuery} {requireAll : Bool}
      {answers : List Bool} {o o' : OracleVerifier.State} :
      queries ≠ [] →
      AsksAll now B queries answers o o' →
      Judges now B p (.readings queries requireAll)
        (if requireAll then answers.all id else answers.any id) o o'

/-- The claim `c` may be decided now: it is pending and its claimant holds
the policy `p`. -/
structure Decides (d : Docket) (id : ℕ) (c : Claim) (p : Policy) : Prop where
  found : d.claim id = some c
  pending : c.status = .pending
  policy : d.engine.policies c.policyId = some p
  holder : c.claimant = p.policyholder

end Docket

/-- The claim with the verdict on it. -/
def Claim.judged (c : Claim) (now : ℕ) (verdict : Bool) : Claim :=
  { c with triggerMet := verdict, processedAt := some now }

/-- The kinds of moves, with the claim or policy each is about. -/
inductive Kind where
  | setUp
  | file (policyId : ℕ) (byKeeper : Bool)
  | refuse (id : ℕ) (basis : Basis)
  | hold (id : ℕ) (basis : Basis) (bps : ℕ)
  | settle (id : ℕ) (basis : Basis) (bps : ℕ)
  | payout (id : ℕ)
  | expire (policyId : ℕ)
  | dispute (id : ℕ)
  | resolve (id : ℕ)
  | reject (id : ℕ)
  | escalate (id : ℕ)
  | installment (id : ℕ)
  | annotate (id : ℕ)
  | consult
  | sort

/-- Moves of the docket at time `now`; the engine is deployed at `engine`. -/
inductive Move (now : ℕ) (engine : Address) : Kind → Docket → Docket → Prop
  | setUp {d : Docket} {address : Address} :
      d.initialized = false →
      Move now engine .setUp d
        { d with
          initialized := true
          policyEngine := some address
          nextClaimId := 1
          pending := [] }
  | file {d : Docket} {policyId : ℕ} {byKeeper : Bool} {p : Policy} :
      d.policyEngine.isSome →
      d.policyClaim policyId = none →
      d.engine.policies policyId = some p →
      p.status = .active →
      0 < p.coverageAmount →
      (byKeeper = false → p.startTime ≤ now) →
      (byKeeper = true → now ≤ p.endTime) →
      Move now engine (.file policyId byKeeper) d
        (d.record
          (.fresh d.nextClaimId policyId p.policyholder p.coverageAmount now))
  | refuse {d : Docket} {id : ℕ} {basis : Basis} {c : Claim} {p : Policy}
      {o : OracleVerifier.State} :
      d.Decides id c p →
      Docket.Judges now d.engine.bank p basis false d.oracle o →
      Move now engine (.refuse id basis) d
        { d.close id { c.judged now false with status := .rejected } with
          oracle := o }
  | hold {d : Docket} {id : ℕ} {basis : Basis} {bps ready : ℕ}
      {c c' : Claim} {p : Policy} {o : OracleVerifier.State} :
      d.Decides id c p →
      Docket.Judges now d.engine.bank p basis true d.oracle o →
      (c.judged now true).approve bps = .ok c' →
      Move now engine (.hold id basis bps) d
        { d.close id { c' with payoutReadyAt := some ready } with oracle := o }
  | settle {d : Docket} {id : ℕ} {basis : Basis} {bps : ℕ}
      {c c' : Claim} {p : Policy} {o : OracleVerifier.State} {e : Env}
      {b : PolicyEngine.Book} {l : CapitalLock} :
      d.Decides id c p →
      Docket.Judges now d.engine.bank p basis true d.oracle o →
      (c.judged now true).approve bps = .ok c' →
      e.self = engine →
      PolicyEngine.Book.Change e (.claim c.policyId) d.engine b →
      d.Holds c.policyId l →
      0 < l.amount →
      Move now engine (.settle id basis bps) d
        { (d.close id c').release c.policyId l with oracle := o, engine := b }
  | payout {d : Docket} {id ready : ℕ} {c : Claim} {paid : ℤ} {e : Env}
      {b : PolicyEngine.Book} {l : CapitalLock} :
      d.claim id = some c →
      c.payoutReadyAt = some ready →
      ready ≤ now →
      c.paidAmount = some paid →
      paid ≤ c.coverageAmount →
      e.self = engine →
      PolicyEngine.Book.Change e (.claim c.policyId) d.engine b →
      d.Holds c.policyId l →
      0 < l.amount →
      Move now engine (.payout id) d
        { d.release c.policyId l with
          claim := d.setClaim id { c with payoutReadyAt := none }
          engine := b }
  | expire {d : Docket} {policyId : ℕ} {p : Policy} {e : Env}
      {b : PolicyEngine.Book} {l : CapitalLock} :
      ¬ d.evaluated policyId →
      d.engine.policies policyId = some p →
      p.endTime < now →
      PolicyEngine.Book.Change e (.expire policyId) d.engine b →
      d.Holds policyId l →
      Move now engine (.expire policyId) d
        { d.release policyId l with engine := b }
  | dispute {d : Docket} {id : ℕ} {c : Claim} {reason : Symbol} :
      d.claim id = some c →
      (c.status = .pending ∨ c.status = .rejected ∨
        c.status = .partiallyPaid) →
      Move now engine (.dispute id) d
        (d.close id
          { c with status := .disputed, disputeReason := some reason })
  | resolve {d : Docket} {id : ℕ} {c : Claim} :
      d.claim id = some c →
      c.status = .disputed →
      Move now engine (.resolve id) d
        { d with
          claim :=
            d.setClaim id { c with status := .pending, disputeReason := none }
          pending := d.pending ++ [id] }
  | reject {d : Docket} {id : ℕ} {c : Claim} :
      d.claim id = some c →
      Move now engine (.reject id) d
        (d.close id { c with status := .rejected })
  | escalate {d : Docket} {id : ℕ} {c : Claim} :
      d.claim id = some c →
      c.status = .pending →
      Move now engine (.escalate id) d
        (d.close id { c with status := .escalated })
  | installment {d : Docket} {id : ℕ} {c c' : Claim} {l : CapitalLock} :
      d.claim id = some c →
      c.installments ≠ [] →
      c.SameTerms c' →
      d.Holds c.policyId l →
      0 < l.amount →
      Move now engine (.installment id) d
        { d.release c.policyId l with claim := d.setClaim id c' }
  | annotate {d : Docket} {id : ℕ} {c c' : Claim} :
      d.claim id = some c →
      c.SameTerms c' →
      (c.installments ≠ c'.installments →
        c.status = .paid ∨ c.status = .partiallyPaid) →
      Move now engine (.annotate id) d { d with claim := d.setClaim id c' }
  | consult {d : Docket} {queries : List OracleReadingQuery}
      {answers : List Bool} {o : OracleVerifier.State} :
      Docket.AsksAll now d.engine.bank queries answers d.oracle o →
      Move now engine .consult d { d with oracle := o }
  | sort {d : Docket} {queue : List ℕ} :
      queue.Perm (d.pending.filter fun id => (d.claim id).isSome) →
      Move now engine .sort d { d with pending := queue }

/-- Sequences of moves. -/
def moves (now : ℕ) (engine : Address) : TransitionSystem Docket Kind where
  Init _ := True
  Step d k d' := Move now engine k d d'

end Parashield.ClaimsProcessor
