import Parashield.OracleVerifier.Registry

/-!
# Oracle verifier: stakes

Stakes of oracles, their withdrawal after the challenge period, slashing by
the admin, and the penalty for repeatedly stale submissions.
-/

namespace Parashield.OracleVerifier

open Support Support.Contract Invocation

def storeStake (dataType : Symbol) (oracle : Address) (amount : ℤ) :
    Call Unit :=
  update fun s =>
    { s with
      oracleStakeAmt :=
        Function.update s.oracleStakeAmt (dataType, oracle) amount }

def storeWithdrawalRequest (dataType : Symbol) (oracle : Address)
    (req : Option StakeWithdrawalRequest) : Call Unit :=
  update fun s =>
    { s with
      stakeWithdrawalReq :=
        Function.update s.stakeWithdrawalReq (dataType, oracle) req }

def stake (env : Env) (oracle : Address) (dataType : Symbol) (amount : ℤ) :
    Call Unit := do
  requireAuth env oracle
  ensure (0 < amount) .invalidStakeAmount
  let s ← load
  let token ← unwrap s.stakeToken (.error .stakeTokenNotSet)
  transferToken env token oracle env.self amount
  let totalStake ← i128 (s.oracleStakeAmt (dataType, oracle) + amount)
    (.overflow none)
  storeStake dataType oracle totalStake

/-- An active oracle keeps its stake locked. -/
def ensureNotActive (dataType : Symbol) (oracle : Address) : Call Unit := do
  let s ← load
  ensure (∀ entry ∈ s.oracles (dataType, oracle), entry.active = false)
    .oracleStillActive

def requestStakeWithdrawal (env : Env) (oracle : Address)
    (dataType : Symbol) : Call Unit := do
  requireAuth env oracle
  ensureNotActive dataType oracle
  let s ← load
  let amount := s.oracleStakeAmt (dataType, oracle)
  ensure (0 < amount) .noStake
  ensure (s.stakeWithdrawalReq (dataType, oracle) = none)
    .withdrawalAlreadyRequested
  storeWithdrawalRequest dataType oracle
    (some
      { oracle := oracle
        dataType := dataType
        amount := amount
        requestedAt := env.now
        unlockAt := satAddU64 env.now s.challengePeriod })

def cancelStakeWithdrawal (env : Env) (oracle : Address)
    (dataType : Symbol) : Call Unit := do
  requireAuth env oracle
  let s ← load
  ensure ((s.stakeWithdrawalReq (dataType, oracle)).isSome = true)
    .noStakeWithdrawalRequest
  storeWithdrawalRequest dataType oracle none

def withdrawStake (env : Env) (oracle : Address) (dataType : Symbol) :
    Call Unit := do
  requireAuth env oracle
  ensureNotActive dataType oracle
  let s ← load
  let req ← unwrap (s.stakeWithdrawalReq (dataType, oracle))
    (.error .noStakeWithdrawalRequest)
  ensure (req.unlockAt ≤ env.now) .challengePeriodNotElapsed
  let current := s.oracleStakeAmt (dataType, oracle)
  ensure (0 < current) .noStake
  let toWithdraw := min current req.amount
  let remaining ← i128 (current - toWithdraw) (.overflow none)
  storeStake dataType oracle remaining
  storeWithdrawalRequest dataType oracle none
  let token ← unwrap s.stakeToken (.error .stakeTokenNotSet)
  transferToken env token env.self oracle toWithdraw

/-- Send slashed stake to the treasury, where both are configured. -/
def transferSlashed (env : Env) (amount : ℤ) : Call Unit := do
  let s ← load
  match s.stakeToken, s.slashTreasury with
  | some token, some treasury =>
      transferToken env token env.self treasury amount
  | _, _ => pure ()

def slashOracle (env : Env) (admin oracle : Address) (dataType : Symbol)
    (amount : ℤ) : Call Unit := do
  requireAdmin env admin
  ensure (0 < amount) .invalidStakeAmount
  let s ← load
  let current := s.oracleStakeAmt (dataType, oracle)
  ensure (0 < current) .noStake
  let slashed := min amount current
  let remaining := current - slashed
  storeStake dataType oracle remaining
  match s.stakeWithdrawalReq (dataType, oracle) with
  | none => pure ()
  | some req =>
      let left := satI128 (req.amount - slashed)
      storeWithdrawalRequest dataType oracle
        (if left ≤ 0 then none else some { req with amount := left })
  transferSlashed env slashed
  whenever (0 < s.minStake ∧ remaining < s.minStake) do
    match s.oracles (dataType, oracle) with
    | none => pure ()
    | some entry =>
        whenever (entry.active = true) do
          storeOracle dataType oracle { entry with active := false }
          pruneOracleList dataType oracle

/-! ## Stale submissions -/

def storeStaleCount (dataType : Symbol) (oracle : Address) (count : ℕ) :
    Call Unit :=
  update fun s =>
    { s with
      staleCount := Function.update s.staleCount (dataType, oracle) count }

/-- Count a stale submission, and apply the penalty once the threshold is
reached.  A threshold of zero switches the penalty off. -/
def handleStaleSubmission (env : Env) (oracle : Address)
    (dataType : Symbol) : Call Unit := do
  let s ← load
  let count := min (s.staleCount (dataType, oracle) + 1) (2 ^ 32 - 1)
  storeStaleCount dataType oracle count
  whenever (s.staleThreshold ≠ 0 ∧ s.staleThreshold ≤ count) do
    let current := s.oracleStakeAmt (dataType, oracle)
    whenever (0 < s.staleSlashAmount ∧ 0 < current) do
      let slashed := min s.staleSlashAmount current
      storeStake dataType oracle (current - slashed)
      transferSlashed env slashed
    whenever (0 < s.staleReputationPenalty) do
      let rep := s.getReputation oracle dataType
      storeReputation oracle dataType
        { rep with
          score := rep.score - s.staleReputationPenalty
          lastUpdated := env.now }
    storeStaleCount dataType oracle 0

def resetStaleCount (oracle : Address) (dataType : Symbol) : Call Unit :=
  storeStaleCount dataType oracle 0

end Parashield.OracleVerifier
