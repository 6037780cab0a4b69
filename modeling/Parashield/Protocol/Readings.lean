import Parashield.Protocol.Paths

/-!
# Readings verified at once and one by one

Several readings are verified in one call of the oracle, or in one call each.
Either way the oracle answers the same and is left the same.  A claim that is
processed with nothing but the reading of its own policy is processed as if no
reading had been named.
-/

namespace Parashield.Protocol

open Support Support.Contract Invocation
open PolicyEngine (Policy)
open OracleVerifier (OracleReadingQuery)
open ClaimsProcessor

/-- Verifying readings in a batch comes to the same value or failure, and to
the same state, as verifying each of them by itself. -/
theorem readings_batched (env : Context) {queries : List OracleReadingQuery}
    (hqueries : queries ≠ []) (m : Machine Network) :
    batchVerifyOracleReadings env queries m =
      verifyReadingsIndividual env queries m := by
  have hloop : ∀ oracle,
      (callOracle env oracle fun e =>
        OracleVerifier.batchVerifyFresh e queries) =
      collect queries fun q => callOracle env oracle fun e =>
        OracleVerifier.verifyTriggerFresh e q.dataType q.key q.condition
          q.stalenessThreshold := by
    intro oracle
    unfold callOracle OracleVerifier.batchVerifyFresh
    rw [zoom_collect]
    exact require_collect hqueries _
  unfold batchVerifyOracleReadings verifyReadingsIndividual
  simp only [hloop]

namespace Scenario

def filedClaim : Claim :=
  (filed.machine.store.claims.claim 1).get (by decide +kernel)

def filedPolicy : Policy :=
  (filed.machine.store.engine.policies filedClaim.policyId).get
    (by decide +kernel)

theorem readings_batched_filed :
    batchVerifyOracleReadings (sites.context filed.now [keeper])
        [Docket.ownQuery filedPolicy 0] filed.machine =
      verifyReadingsIndividual (sites.context filed.now [keeper])
        [Docket.ownQuery filedPolicy 0] filed.machine :=
  readings_batched _ (List.cons_ne_nil _ _) _

end Scenario

/-! ## The reading of the policy -/

section Own

variable {env : Context} {m m' : Machine Network} {c : Claim} {p : Policy}
  {bps : Option ℕ} {r : ClaimResult}

theorem batchVerify_singleton {q : OracleReadingQuery} {bs : List Bool} :
    batchVerifyOracleReadings env [q] m = .ok (bs, m') ↔
      ∃ oracle answer, m.store.claims.oracleVerifier = some oracle ∧
        bs = [answer] ∧
        (callOracle env oracle fun e =>
          OracleVerifier.verifyTriggerFresh e q.dataType q.key q.condition
            q.stalenessThreshold) m = .ok (answer, m') := by
  rw [readings_batched env (List.cons_ne_nil q [])]
  simp only [verifyReadingsIndividual, collect, bind_ok, loadClaims_ok,
    unwrap_ok, pure_ok]
  constructor
  · rintro ⟨_, _, ⟨rfl, rfl⟩, oracle, _, ⟨horacle, rfl⟩, answer, t, hasked, _,
      _, ⟨rfl, rfl⟩, rfl, rfl⟩
    exact ⟨oracle, answer, horacle, rfl, hasked⟩
  · rintro ⟨oracle, answer, horacle, rfl, hasked⟩
    exact ⟨_, m, ⟨rfl, rfl⟩, oracle, m, ⟨horacle, rfl⟩, answer, m', hasked, [],
      m', ⟨rfl, rfl⟩, rfl, rfl⟩

/-- A claim that can be settled is pending and belongs to the holder. -/
theorem settle_ok {verdict : Bool}
    (h : settleClaimWithTriggerResult env c p verdict bps m = .ok (r, m')) :
    c.status = .pending ∧ c.claimant = p.policyholder := by
  simp only [settleClaimWithTriggerResult, bind_ok, ensure_ok] at h
  obtain ⟨_, _, ⟨hpending, -⟩, _, _, ⟨hholder, -⟩, -⟩ := h
  exact ⟨hpending, hholder⟩

/-- Evaluating a claim is asking for its policy's reading and settling it. -/
theorem evaluate_iff :
    evaluateAndSettle env c p bps m = .ok (r, m') ↔
      ∃ verdict t,
        batchVerifyOracleReadings env
          [Docket.ownQuery p m.store.claims.stalenessThreshold] m =
            .ok ([verdict], t) ∧
        settleClaimWithTriggerResult env c p verdict bps t = .ok (r, m') := by
  simp only [evaluateAndSettle, bind_ok, ensure_ok, loadClaims_ok, unwrap_ok,
    batchVerify_singleton, Docket.ownQuery]
  constructor
  · rintro ⟨_, _, ⟨-, rfl⟩, _, _, ⟨-, rfl⟩, _, _, ⟨rfl, rfl⟩, oracle, _,
      ⟨horacle, rfl⟩, verdict, t, hasked, hsettle⟩
    exact ⟨verdict, t, ⟨oracle, verdict, horacle, rfl, hasked⟩, hsettle⟩
  · rintro ⟨verdict, t, ⟨oracle, answer, horacle, hanswer, hasked⟩, hsettle⟩
    obtain rfl : verdict = answer := List.singleton_injective hanswer
    obtain ⟨hpending, hholder⟩ := settle_ok hsettle
    exact ⟨(), m, ⟨hpending, rfl⟩, (), m, ⟨hholder, rfl⟩, _, m, ⟨rfl, rfl⟩,
      oracle, m, ⟨horacle, rfl⟩, verdict, t, hasked, hsettle⟩

/-- With a single answer it does not matter how many are required. -/
theorem batch_settle_iff (requireAll : Bool) :
    (∃ bs t,
      batchVerifyOracleReadings env
        [Docket.ownQuery p m.store.claims.stalenessThreshold] m =
          .ok (bs, t) ∧
      settleClaimWithTriggerResult env c p
        (if requireAll then bs.all id else bs.any id) bps t = .ok (r, m')) ↔
      evaluateAndSettle env c p bps m = .ok (r, m') := by
  have hone : ∀ answer : Bool,
      (if requireAll then [answer].all id else [answer].any id) = answer := by
    cases requireAll <;> decide
  rw [evaluate_iff]
  constructor
  · rintro ⟨bs, t, hbatch, hsettle⟩
    obtain ⟨-, answer, -, rfl, -⟩ := batchVerify_singleton.mp hbatch
    rw [hone] at hsettle
    exact ⟨answer, t, hbatch, hsettle⟩
  · rintro ⟨verdict, t, hbatch, hsettle⟩
    refine ⟨[verdict], t, hbatch, ?_⟩
    rwa [hone]

/-- A claim that is processed with the reading of its own policy, and no other,
is processed as it is without naming any, whether all readings are required or
one. -/
theorem own_reading_processed (env : Context) (keeper : Address) (id : ℕ)
    (requireAll : Bool) (bps : Option ℕ) {m : Machine Network} {c : Claim}
    {p : Policy} (hc : m.store.claims.claim id = some c)
    (hp : m.store.engine.policies c.policyId = some p) (r : ClaimResult)
    (m' : Machine Network) :
    processMultiReadingClaim env keeper id
        [Docket.ownQuery p m.store.claims.stalenessThreshold] requireAll bps
        m = .ok (r, m') ↔
      processClaim env keeper id bps m = .ok (r, m') := by
  by_cases hpending : c.status = .pending
  · simp [processMultiReadingClaim, processClaim, hc, hp, hpending,
      ← batch_settle_iff requireAll]
  · simp [processMultiReadingClaim, processClaim, hc, hpending]

end Own

namespace Scenario

/-- The claim is decided on the reading of its policy. -/
def deciding : Label Entry :=
  .call [keeper] (.claims (.processClaim keeper 1 none))

def decided : World Network :=
  (step sites filed deciding).get (by decide +kernel)

theorem decided_step : (system sites).Step filed deciding decided :=
  step_sound (Option.some_get _).symm

end Scenario

open Scenario in
/-- The claim that was filed, by the reading the caller names. -/
theorem own_reading_processed_filed :
    ∃ r, processMultiReadingClaim (sites.context filed.now [keeper]) keeper 1
      [Docket.ownQuery filedPolicy
        filed.machine.store.claims.stalenessThreshold] false none
      filed.machine = .ok (r, decided.machine) := by
  obtain ⟨-, -, hexec⟩ := call_exec decided_step
  obtain ⟨r, hprocess⟩ := perform_ok.mp hexec
  exact ⟨r, (own_reading_processed _ keeper 1 false none
    (Option.some_get _).symm (Option.some_get _).symm r
    decided.machine).mpr hprocess⟩

end Parashield.Protocol
