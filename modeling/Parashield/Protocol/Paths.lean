import Parashield.Protocol.Sweeps
import Parashield.Support.Frame

/-!
# Two ways to process a claim

A keeper processes a pending claim by itself or sweeps its policy.  The sweep
writes down when it was made, and then evaluates the claim in the same way,
as long as the policy runs.  After the end it does not evaluate the claim any
more.
-/

namespace Parashield.Protocol

open Support Support.Contract Invocation
open PolicyEngine (Policy)
open ClaimsProcessor

/-- What a call came to. -/
abbrev Outcome := Except (Fault Error) (ClaimResult × Machine Network)

/-- Both calls fail, or both give the same result and leave the same policies,
locks and tokens behind. -/
inductive SameOutcome : Outcome → Outcome → Prop
  | accepted {r : ClaimResult} {m m' : Machine Network} :
      m'.store.engine = m.store.engine → m'.store.pool = m.store.pool →
      m'.bank = m.bank → SameOutcome (.ok (r, m)) (.ok (r, m'))
  | failed {e e' : Fault Error} : SameOutcome (.error e) (.error e')

/-! ## The note of a sweep -/

section Note

variable {policyId now : ℕ} {env : Context} {α : Type}

/-- A call overlooks the note if it does so once it has read the storage, of
which it uses nothing the note changes. -/
theorem overlooks_loadClaims_bind {k : ClaimsProcessor.State → Call α}
    (hsame : ∀ m : Machine Network,
      k (noted m policyId now).store.claims = k m.store.claims)
    (hk : ∀ s, Overlooks (noted · policyId now) (k s)) :
    Overlooks (noted · policyId now) (loadClaims >>= k) :=
  overlooks_get_bind hsame fun m => hk m.store.claims

theorem overlooks_updateClaims {g : ClaimsProcessor.State → ClaimsProcessor.State}
    (h : ∀ m : Machine Network,
      g (noted m policyId now).store.claims =
        (noted { m with store := { m.store with claims := g m.store.claims } }
          policyId now).store.claims) :
    Overlooks (noted · policyId now) (updateClaims g) := by
  refine overlooks_modify fun m => ?_
  show ({ store := { (noted m policyId now).store with claims := _ },
          bank := m.bank } : Machine Network) = _
  rw [h m]
  rfl

theorem overlooks_policyEngine :
    Overlooks (noted · policyId now) policyEngine :=
  overlooks_loadClaims_bind (fun _ => rfl) fun _ => overlooks_unwrap _ _

theorem overlooks_callEngine {address : Address}
    {call : Env → PolicyEngine.Call α} :
    Overlooks (noted · policyId now) (callEngine env address call) :=
  overlooks_bind (overlooks_require _ _) fun _ =>
    overlooks_zoom (fun _ => rfl) fun _ _ => rfl

theorem overlooks_callPool {address : Address}
    {call : Env → RiskPool.Call α} :
    Overlooks (noted · policyId now) (callPool env address call) :=
  overlooks_bind (overlooks_require _ _) fun _ =>
    overlooks_zoom (fun _ => rfl) fun _ _ => rfl

theorem overlooks_callOracle {address : Address}
    {call : Env → OracleVerifier.Call α} :
    Overlooks (noted · policyId now) (callOracle env address call) :=
  overlooks_bind (overlooks_require _ _) fun _ =>
    overlooks_zoom (fun _ => rfl) fun _ _ => rfl

theorem overlooks_disburse {engine pool : Address} {c : Claim} :
    Overlooks (noted · policyId now) (disburse env engine pool c) := by
  refine overlooks_loadClaims_bind (fun _ => rfl) fun s => ?_
  refine overlooks_ite (overlooks_pure _) ?_
  refine overlooks_bind ?_ fun _ => overlooks_pure _
  exact overlooks_bind overlooks_callEngine fun _ => overlooks_callPool

theorem overlooks_store {claimId : ℕ} {c : Claim} {r : ClaimResult} :
    Overlooks (noted · policyId now) (do
      storeClaim claimId c
      removeFromPending claimId
      pure r) := by
  refine overlooks_bind (overlooks_updateClaims fun _ => rfl) fun _ => ?_
  refine overlooks_bind (overlooks_updateClaims fun _ => rfl) fun _ => ?_
  exact overlooks_pure r

theorem overlooks_settle {c : Claim} {p : Policy} {verdict : Bool}
    {bps : Option ℕ} :
    Overlooks (noted · policyId now)
      (settleClaimWithTriggerResult env c p verdict bps) := by
  refine overlooks_bind (overlooks_require _ _) fun _ => ?_
  refine overlooks_bind (overlooks_require _ _) fun _ => ?_
  refine overlooks_bind overlooks_policyEngine fun engine => ?_
  refine overlooks_loadClaims_bind (fun _ => rfl) fun s => ?_
  refine overlooks_bind (overlooks_unwrap _ _) fun pool => ?_
  refine overlooks_ite ?_ overlooks_store
  refine overlooks_bind (overlooks_check _) fun approved => ?_
  refine overlooks_bind overlooks_disburse fun settled => ?_
  exact overlooks_store

/-- The evaluation of a claim does not depend on when its policy was last
swept. -/
theorem overlooks_evaluate {c : Claim} {p : Policy} {bps : Option ℕ} :
    Overlooks (noted · policyId now) (evaluateAndSettle env c p bps) := by
  refine overlooks_bind (overlooks_require _ _) fun _ => ?_
  refine overlooks_bind (overlooks_require _ _) fun _ => ?_
  refine overlooks_loadClaims_bind (fun _ => rfl) fun s => ?_
  refine overlooks_bind (overlooks_unwrap _ _) fun oracle => ?_
  refine overlooks_bind overlooks_callOracle fun verdict => ?_
  exact overlooks_settle

end Note

/-! ## What each path comes to -/

/-- The results of an evaluation. -/
def Decision (r : ClaimResult) : Prop :=
  r = .paid ∨ r = .partiallyPaid ∨ r = .rejected

theorem sameOutcome_of_ok {o o' : Outcome}
    (h : ∀ r m, o = .ok (r, m) → ∃ m', o' = .ok (r, m') ∧
      m'.store.engine = m.store.engine ∧ m'.store.pool = m.store.pool ∧
      m'.bank = m.bank)
    (h' : ∀ r m', o' = .ok (r, m') → ∃ r m, o = .ok (r, m)) :
    SameOutcome o o' := by
  cases o with
  | ok result =>
      obtain ⟨m', rfl, hengine, hpool, hbank⟩ := h result.1 result.2 rfl
      exact .accepted hengine hpool hbank
  | error e =>
      cases o' with
      | ok result =>
          obtain ⟨r, m, hrun⟩ := h' result.1 result.2 rfl
          cases hrun
      | error e' => exact .failed

theorem SameOutcome.left {o o' : Outcome} {r : ClaimResult}
    {m : Machine Network} (h : SameOutcome o o') (ho : o = .ok (r, m)) :
    ∃ m', o' = .ok (r, m') ∧ m'.store.engine = m.store.engine ∧
      m'.store.pool = m.store.pool ∧ m'.bank = m.bank := by
  cases h with
  | accepted hengine hpool hbank =>
      cases ho
      exact ⟨_, rfl, hengine, hpool, hbank⟩
  | failed => cases ho

theorem SameOutcome.right {o o' : Outcome} {r : ClaimResult}
    {m' : Machine Network} (h : SameOutcome o o') (ho : o' = .ok (r, m')) :
    ∃ m, o = .ok (r, m) := by
  cases h with
  | accepted =>
      cases ho
      exact ⟨_, rfl⟩
  | failed => cases ho

theorem not_sameOutcome {o o' : Outcome} {r r' : ClaimResult}
    (h : o.toOption.map Prod.fst = some r)
    (h' : o'.toOption.map Prod.fst = some r') (hne : r ≠ r') :
    ¬ SameOutcome o o' := by
  rintro (_ | _)
  · exact hne (Option.some.inj (h.symm.trans h'))
  · cases h

/-- Only what the calls accept counts. -/
theorem SameOutcome.of_ok_iff {o o₁ o' o₁' : Outcome}
    (hsame : SameOutcome o o') (h : ∀ r m, o₁ = .ok (r, m) ↔ o = .ok (r, m))
    (h' : ∀ r m, o₁' = .ok (r, m) ↔ o' = .ok (r, m)) :
    SameOutcome o₁ o₁' := by
  refine sameOutcome_of_ok ?_ ?_
  · intro r m hrun
    obtain ⟨m', ho', hleft⟩ := hsame.left ((h r m).mp hrun)
    exact ⟨m', (h' r m').mpr ho', hleft⟩
  · intro r m' hrun
    obtain ⟨m, ho⟩ := hsame.right ((h' r m').mp hrun)
    exact ⟨r, m, (h r m).mpr ho⟩

/-- The claim can be decided: its claimant holds the policy, the oracle
answers, and what its verdict asks for can be done. -/
structure CanJudge (env : Context) (m : Machine Network) (c : Claim)
    (p : Policy) (bps : Option ℕ) : Prop where
  holder : c.claimant = p.policyholder
  oracle : m.store.claims.oracleVerifier = some env.oracle
  pool : m.store.claims.riskPool.isSome
  verdict : ∃ verdict t, OracleVerifier.verifyTriggerFresh
      (env.enter env.oracle) p.oracleDataType p.oracleKey (triggerCondition p)
      m.store.claims.stalenessThreshold ⟨m.store.oracle, m.bank⟩ =
        .ok (verdict, t) ∧
    (verdict = true → Settles env m c.policyId p bps)

/-- The policy can be closed: the contracts know each other and its capital is
still locked. -/
structure CanExpire (env : Context) (m : Machine Network) (policyId : ℕ) :
    Prop where
  pool : m.store.claims.riskPool = some env.pool
  processor : m.store.engine.claimsProcessor = some env.self
  party : m.store.pool.IsProtocolCaller env.self
  locked : ∃ l, m.store.pool.lock policyId = some l ∧ l.released = false

section Outcomes

variable {env : Context} {m m' : Machine Network} {c : Claim} {p : Policy}
  {bps : Option ℕ} {r : ClaimResult} {policyId : ℕ}

theorem settle_rejects (hpending : c.status = .pending)
    (hengine : m.store.claims.policyEngine = some env.engine) :
    (∃ r m', settleClaimWithTriggerResult env c p false bps m = .ok (r, m')) ↔
      c.claimant = p.policyholder ∧ m.store.claims.riskPool.isSome := by
  simp [settleClaimWithTriggerResult, hpending, hengine, storeClaim,
    removeFromPending, Option.isSome_iff_exists]

theorem settle_result {verdict : Bool}
    (h : settleClaimWithTriggerResult env c p verdict bps m = .ok (r, m')) :
    Decision r := by
  simp only [settleClaimWithTriggerResult, bind_ok, ite_ok, pure_ok] at h
  obtain ⟨_, _, -, _, _, -, _, _, -, _, _, -, _, _, -, h⟩ := h
  rcases h with ⟨-, approved, _, -, _, _, -, _, _, -, _, _, -, rfl, -⟩ |
    ⟨-, _, _, -, _, _, -, rfl, -⟩
  · split
    · exact .inl rfl
    · exact .inr (.inl rfl)
  · exact .inr (.inr rfl)

theorem evaluate_result (h : evaluateAndSettle env c p bps m = .ok (r, m')) :
    Decision r := by
  simp only [evaluateAndSettle, bind_ok] at h
  obtain ⟨_, _, -, _, _, -, _, _, -, _, _, -, _, _, -, h⟩ := h
  exact settle_result h

theorem evaluate_succeeds_iff (hpending : c.status = .pending)
    (hp : m.store.engine.policies c.policyId = some p)
    (hactive : p.status = .active) (hpos : 0 < p.coverageAmount)
    (hcoverage : c.coverageAmount = p.coverageAmount)
    (hengine : m.store.claims.policyEngine = some env.engine) :
    (∃ r m', evaluateAndSettle env c p bps m = .ok (r, m')) ↔
      CanJudge env m c p bps := by
  have hmet : TriggerMet env m p →
      ((∃ r m', evaluateAndSettle env c p bps m = .ok (r, m')) ↔ _) := fun h =>
    evaluate_succeeds hpending h hp hactive hpos hcoverage hengine
  constructor
  · rintro ⟨r, m', hrun⟩
    have hsteps := hrun
    simp only [evaluateAndSettle, bind_ok, ensure_ok, loadClaims_ok, unwrap_ok,
      callOracle_ok] at hsteps
    obtain ⟨_, _, ⟨-, rfl⟩, _, _, ⟨hholder, rfl⟩, s, _, ⟨rfl, rfl⟩, oracle, t,
      ⟨horacle, rfl⟩, verdict, _, ⟨rfl, o, B, hverify, rfl⟩, hsettle⟩ := hsteps
    cases verdict with
    | true =>
        obtain ⟨-, -, hsettles⟩ := (hmet ⟨_, hverify⟩).mp ⟨r, m', hrun⟩
        obtain ⟨pool, hpool, -⟩ := hsettles.payout
        exact ⟨hholder, horacle, by simp [hpool], true, _, hverify,
          fun _ => hsettles⟩
    | false =>
        let asked : Machine Network :=
          { store := { t.store with oracle := o }, bank := B }
        have hrejects : (∃ r m', settleClaimWithTriggerResult env c p false
            bps asked = .ok (r, m')) ↔ _ := settle_rejects hpending hengine
        obtain ⟨-, hpool⟩ := hrejects.mp ⟨r, m', hsettle⟩
        exact ⟨hholder, horacle, hpool, false, _, hverify, by rintro ⟨⟩⟩
  · rintro ⟨hholder, horacle, hpool, verdict, ⟨o, B⟩, hverify, hsettles⟩
    cases verdict with
    | true =>
        exact (hmet ⟨_, hverify⟩).mpr ⟨hholder, horacle, hsettles rfl⟩
    | false =>
        let asked : Machine Network :=
          { store := { m.store with oracle := o }, bank := B }
        have hrejects : (∃ r m', settleClaimWithTriggerResult env c p false
            bps asked = .ok (r, m')) ↔ _ := settle_rejects hpending hengine
        obtain ⟨r, m', hsettle⟩ := hrejects.mpr ⟨hholder, hpool⟩
        simp only [evaluateAndSettle, bind_ok, ensure_ok, loadClaims_ok,
          unwrap_ok, callOracle_ok]
        exact ⟨r, m', (), m, ⟨hpending, rfl⟩, (), m, ⟨hholder, rfl⟩, _, m,
          ⟨rfl, rfl⟩, _, m, ⟨horacle, rfl⟩, false, _, ⟨rfl, o, B, hverify, rfl⟩,
          hsettle⟩

theorem closeExpired_succeeds_iff
    (hp : m.store.engine.policies policyId = some p)
    (hactive : p.status = .active) :
    (∃ r m', closeExpired env env.engine policyId m = .ok (r, m')) ↔
      CanExpire env m policyId := by
  simp [closeExpired, PolicyEngine.expirePolicy,
    PolicyEngine.IsClaimsProcessor, RiskPool.releaseForExpiry,
    RiskPool.releaseLock, hp, hactive]
  constructor
  · rintro ⟨hpool, hprocessor, hparty, l, hl, hheld⟩
    exact ⟨hpool, hprocessor, hparty, l, hl, hheld⟩
  · rintro ⟨hpool, hprocessor, hparty, l, hl, hheld⟩
    exact ⟨hpool, hprocessor, hparty, l, hl, hheld⟩

theorem closeExpired_result {engine : Address}
    (h : closeExpired env engine policyId m = .ok (r, m')) : r = .expired := by
  simp only [closeExpired, bind_ok, pure_ok] at h
  obtain ⟨_, _, -, _, _, -, _, _, -, _, _, -, rfl, -⟩ := h
  rfl

theorem processClaim_iff {keeper : Address} {id : ℕ}
    (hkeeper : m.store.claims.keeper keeper = true ∧ keeper ∈ env.signers)
    (hrunning : m.store.claims.paused = false)
    (hc : m.store.claims.claim id = some c) (hpending : c.status = .pending)
    (hp : m.store.engine.policies c.policyId = some p)
    (hcoverage : c.coverageAmount = p.coverageAmount) :
    processClaim env keeper id bps m = .ok (r, m') ↔
      m.store.claims.policyEngine = some env.engine ∧
        evaluateAndSettle env c p bps m = .ok (r, m') := by
  simp [processClaim, hkeeper, hrunning, hc, hpending, hp, hcoverage]

/-- A sweep goes no further than the engine's address if that is wrong. -/
theorem processPolicy_engine
    (hevaluated : m.store.claims.evaluated policyId = false)
    (h : processPolicy env policyId bps m = .ok (r, m')) :
    m.store.claims.policyEngine = some env.engine := by
  simp only [processPolicy, bind_ok, loadClaims_ok] at h
  obtain ⟨s, _, ⟨rfl, rfl⟩, h⟩ := h
  rw [hevaluated] at h
  simp only [Bool.false_eq_true, if_false, bind_ok, policyEngine_ok,
    getPolicy_ok] at h
  obtain ⟨_, _, ⟨hengine, rfl⟩, _, _, ⟨rfl, -⟩, -⟩ := h
  exact hengine

theorem processPolicy_inactive
    (hevaluated : m.store.claims.evaluated policyId = false)
    (hengine : m.store.claims.policyEngine = some env.engine)
    (hp : m.store.engine.policies policyId = some p)
    (hpos : 0 < p.coverageAmount) (hinactive : p.status ≠ .active) :
    ∃ r, processPolicy env policyId bps m = .ok (r, m) ∧ ¬ Decision r := by
  cases hstatus : p.status with
  | active => exact (hinactive hstatus).elim
  | claimed =>
      refine ⟨.alreadyClaimed, ?_, by simp [Decision]⟩
      simp [processPolicy, hevaluated, hengine, hp, hpos, hstatus]
  | expired =>
      refine ⟨.expired, ?_, by simp [Decision]⟩
      simp [processPolicy, hevaluated, hengine, hp, hpos, hstatus]
  | cancelled =>
      refine ⟨.policyNotActive, ?_, by simp [Decision]⟩
      simp [processPolicy, hevaluated, hengine, hp, hpos, hstatus]

end Outcomes

/-! ## When the paths meet -/

/-- The claims processor does not reach the engine, or the policy is active
and either has not run out or admits neither a decision nor its closing. -/
def PathsMeet (env : Context) (m : Machine Network) (c : Claim) (p : Policy)
    (bps : Option ℕ) : Prop :=
  m.store.claims.policyEngine ≠ some env.engine ∨
    p.status = .active ∧
      (env.now ≤ p.endTime ∨
        ¬ CanJudge env m c p bps ∧ ¬ CanExpire env m c.policyId)

theorem pathsMeet_of_running {D : Sites} {w : World Network}
    {signers : List Address} {c : Claim} {p : Policy} {bps : Option ℕ}
    (hactive : p.status = .active) (hend : w.now ≤ p.endTime) :
    PathsMeet (D.context w.now signers) w.machine c p bps :=
  .inr ⟨hactive, .inl hend⟩

section Meeting

variable {env : Context} {m : Machine Network} {id : ℕ} {bps : Option ℕ}
  {c : Claim} {p : Policy}

theorem noted_unevaluated (hawaits : Awaits m c.policyId p id c) {now : ℕ} :
    (noted m c.policyId now).store.claims.evaluated c.policyId = false := by
  simp [noted, ClaimsProcessor.State.evaluated, hawaits.linked, hawaits.found,
    hawaits.pending]

/-- While the policy runs, the sweep evaluates the claim that awaits it. -/
theorem sweep_evaluates (hawaits : Awaits m c.policyId p id c)
    (hp : m.store.engine.policies c.policyId = some p)
    (hactive : p.status = .active) (hpos : 0 < p.coverageAmount)
    (hend : env.now ≤ p.endTime)
    (hengine : m.store.claims.policyEngine = some env.engine)
    {r : ClaimResult} {m' : Machine Network} :
    processPolicy env c.policyId bps (noted m c.policyId env.now) =
        .ok (r, m') ↔
      evaluateAndSettle env c p bps (noted m c.policyId env.now) =
        .ok (r, m') := by
  have hclaim : ∀ i t, claimOfPolicy env p c.policyId
      (noted m c.policyId env.now) = .ok (i, t) ↔
        i = id ∧ t = noted m c.policyId env.now := by
    intro i t
    simp [claimOfPolicy, noted, hawaits.linked]
  rw [processPolicy_running (noted_unevaluated hawaits) hp hactive hpos hend]
  constructor
  · rintro ⟨-, i, t, c', hclaim', hc', hrun⟩
    obtain ⟨rfl, rfl⟩ := (hclaim i t).mp hclaim'
    obtain rfl := Option.some.inj (hc'.symm.trans hawaits.found)
    rcases hrun with ⟨-, hrun⟩ | ⟨hstatus, -⟩
    · exact hrun
    · exact (hstatus hawaits.pending).elim
  · intro hrun
    exact ⟨hengine, id, _, c, (hclaim _ _).mpr ⟨rfl, rfl⟩, hawaits.found,
      .inl ⟨hawaits.pending, hrun⟩⟩

theorem evaluate_sameOutcome {policyId now : ℕ} :
    SameOutcome (evaluateAndSettle env c p bps m)
      (evaluateAndSettle env c p bps (noted m policyId now)) := by
  have hsame : evaluateAndSettle env c p bps (noted m policyId now) = _ :=
    overlooks_evaluate m
  rw [hsame]
  cases evaluateAndSettle env c p bps m with
  | error e => exact .failed
  | ok result => exact .accepted rfl rfl rfl

/-- After the end the sweep closes the policy, so it comes to the same as a
decision only if neither can be done. -/
theorem expired_sameOutcome_iff (hawaits : Awaits m c.policyId p id c)
    (hp : m.store.engine.policies c.policyId = some p)
    (hactive : p.status = .active) (hpos : 0 < p.coverageAmount)
    (hend : p.endTime < env.now)
    (hengine : m.store.claims.policyEngine = some env.engine) :
    SameOutcome (evaluateAndSettle env c p bps m)
        (processPolicy env c.policyId bps (noted m c.policyId env.now)) ↔
      ¬ CanJudge env m c p bps ∧ ¬ CanExpire env m c.policyId := by
  have hjudge : (∃ r m', evaluateAndSettle env c p bps m = .ok (r, m')) ↔ _ :=
    evaluate_succeeds_iff hawaits.pending hp hactive hpos hawaits.coverage
      hengine
  have hp' : (noted m c.policyId env.now).store.engine.policies c.policyId =
      some p := hp
  have hclose : (∃ r m', closeExpired env env.engine c.policyId
      (noted m c.policyId env.now) = .ok (r, m')) ↔
      CanExpire env (noted m c.policyId env.now) c.policyId :=
    closeExpired_succeeds_iff hp' hactive
  have hexpire : CanExpire env (noted m c.policyId env.now) c.policyId ↔
      CanExpire env m c.policyId :=
    ⟨fun h => ⟨h.pool, h.processor, h.party, h.locked⟩,
      fun h => ⟨h.pool, h.processor, h.party, h.locked⟩⟩
  have hsweep : ∀ r m', processPolicy env c.policyId bps
      (noted m c.policyId env.now) = .ok (r, m') ↔ _ := fun r m' =>
    processPolicy_expired (noted_unevaluated hawaits) hp' hactive hpos hend
  rw [← hexpire, ← hclose, ← hjudge]
  constructor
  · intro h
    constructor
    · rintro ⟨r, m', hrun⟩
      obtain ⟨t, hswept, -⟩ := h.left hrun
      obtain rfl := closeExpired_result ((hsweep r t).mp hswept).2
      simpa [Decision] using evaluate_result hrun
    · rintro ⟨r, m', hrun⟩
      obtain ⟨t, hdecided⟩ := h.right ((hsweep r m').mpr ⟨hengine, hrun⟩)
      obtain rfl := closeExpired_result hrun
      simpa [Decision] using evaluate_result hdecided
  · rintro ⟨hundecided, hunclosed⟩
    refine sameOutcome_of_ok ?_ ?_
    · intro r m' hrun
      exact (hundecided ⟨r, m', hrun⟩).elim
    · intro r m' hrun
      exact (hunclosed ⟨r, m', ((hsweep r m').mp hrun).2⟩).elim

/-- The two paths, once the keeper is let through. -/
theorem decision_sweep_iff (hawaits : Awaits m c.policyId p id c)
    (hp : m.store.engine.policies c.policyId = some p)
    (hpos : 0 < p.coverageAmount)
    (hengine : m.store.claims.policyEngine = some env.engine) :
    SameOutcome (evaluateAndSettle env c p bps m)
        (processPolicy env c.policyId bps (noted m c.policyId env.now)) ↔
      PathsMeet env m c p bps := by
  by_cases hactive : p.status = .active
  · by_cases hend : env.now ≤ p.endTime
    · refine iff_of_true ?_ (.inr ⟨hactive, .inl hend⟩)
      exact evaluate_sameOutcome.of_ok_iff (fun _ _ => .rfl) fun _ _ =>
        sweep_evaluates hawaits hp hactive hpos hend hengine
    · have hiff : SameOutcome (evaluateAndSettle env c p bps m) _ ↔ _ :=
        expired_sameOutcome_iff hawaits hp hactive hpos (not_le.mp hend) hengine
      rw [hiff]
      simp [PathsMeet, hengine, hactive, hend]
  · obtain ⟨r, hrun, hresult⟩ :
        ∃ r, processPolicy env c.policyId bps (noted m c.policyId env.now) =
            .ok (r, noted m c.policyId env.now) ∧ ¬ Decision r :=
      processPolicy_inactive (noted_unevaluated hawaits) hengine hp hpos
        hactive
    refine iff_of_false (fun h => ?_) (by simp [PathsMeet, hengine, hactive])
    obtain ⟨m', hdecided⟩ := h.right hrun
    exact hresult (evaluate_result hdecided)

/-- The two paths come to the same for a pending claim exactly if the contracts
are not connected, or its policy is active and either runs still or can be
neither decided nor closed. -/
theorem paths_agree_iff {D : Sites} {w : World Network}
    {signers : List Address} {keeper : Address} (hw : (system D).Reachable w)
    (hsweep : MaySweep D w signers keeper c.policyId)
    (hc : w.machine.store.claims.claim id = some c)
    (hpending : c.status = .pending)
    (hp : w.machine.store.engine.policies c.policyId = some p) :
    SameOutcome
        (processClaim (D.context w.now signers) keeper id bps w.machine)
        (autoProcess (D.context w.now signers) keeper c.policyId bps
          w.machine) ↔
      PathsMeet (D.context w.now signers) w.machine c p bps := by
  have hsound := reachable_sound hw
  have hpos : 0 < p.coverageAmount := hsound.book.coverage_pos c.policyId p hp
  have hcoverage : c.coverageAmount = p.coverageAmount := by
    obtain ⟨q, hq, hcovers⟩ := hsound.covered id c hc
    obtain rfl := Option.some.inj (hq.symm.trans hp)
    exact hcovers.symm
  have hawaits : Awaits w.machine c.policyId p id c :=
    ⟨hsound.orderly.recorded id c hc, hc, hsound.orderly.keyed id c hc, rfl,
      hpending, hcoverage⟩
  have hprocess : ∀ r m', processClaim (D.context w.now signers) keeper id bps
      w.machine = .ok (r, m') ↔ _ := fun r m' =>
    processClaim_iff ⟨hsweep.listed, hsweep.signed⟩ hsweep.running hc hpending
      hp hcoverage
  have hauto : ∀ r m', autoProcess (D.context w.now signers) keeper c.policyId
      bps w.machine = .ok (r, m') ↔
        processPolicy (D.context w.now signers) c.policyId bps
          (noted w.machine c.policyId w.now) = .ok (r, m') := by
    intro r m'
    rw [ClaimsProcessor.autoProcess_ok]
    exact ⟨fun h => h.2.2.2, fun h => ⟨⟨hsweep.listed, hsweep.signed⟩,
      hsweep.running, hsweep.cooled, h⟩⟩
  by_cases hengine : w.machine.store.claims.policyEngine = some D.engine
  · have hprocess' : ∀ r m', processClaim (D.context w.now signers) keeper id
        bps w.machine = .ok (r, m') ↔
          evaluateAndSettle (D.context w.now signers) c p bps w.machine =
            .ok (r, m') := fun r m' =>
      (hprocess r m').trans (and_iff_right hengine)
    rw [← decision_sweep_iff hawaits hp hpos hengine]
    constructor
    · intro h
      exact h.of_ok_iff (fun r m' => (hprocess' r m').symm)
        fun r m' => (hauto r m').symm
    · intro h
      exact h.of_ok_iff hprocess' hauto
  · -- without the engine neither path gets as far as the policy
    refine iff_of_true (sameOutcome_of_ok ?_ ?_) (.inl hengine)
    · intro r m' h
      exact (hengine ((hprocess r m').mp h).1).elim
    · intro r m' h
      exact (hengine (processPolicy_engine (noted_unevaluated hawaits)
        ((hauto r m').mp h))).elim

end Meeting

namespace Scenario

/-- The loss is read again after the end of the cover. -/
def late : List (Label Entry) := [lapsing, reading 32536001]

def filedLate : World Network :=
  (TransitionSystem.execute (step sites) late filed).get (by decide +kernel)

theorem filed_reached : (system sites).Reachable filed :=
  (filed_reachable (G := fun _ _ => True) (fun _ _ _ => trivial)
    fun _ _ _ => trivial).of_restrict

theorem filedLate_reached : (system sites).Reachable filedLate :=
  filed_reached.run
    (TransitionSystem.run_of_execute (fun _ _ _ => step_sound)
      (Option.some_get _).symm)

end Scenario

open Scenario in
theorem paths_agree_iff_filed : ∃ c : Claim, SameOutcome
    (processClaim (sites.context filed.now [keeper]) keeper 1 none
      filed.machine)
    (autoProcess (sites.context filed.now [keeper]) keeper c.policyId none
      filed.machine) := by
  have hsome : (filed.machine.store.claims.claim 1).isSome = true := by
    decide +kernel
  have hstands : ∀ c, filed.machine.store.claims.claim 1 = some c →
      c.status = .pending ∧
        filed.machine.store.claims.CooledDown c.policyId filed.now ∧
        (filed.machine.store.engine.policies c.policyId).isSome = true := by
    decide +kernel
  have hruns : ∀ c, filed.machine.store.claims.claim 1 = some c →
      ∀ p, filed.machine.store.engine.policies c.policyId = some p →
        p.status = .active ∧ filed.now ≤ p.endTime := by
    decide +kernel
  obtain ⟨c, hc⟩ := Option.isSome_iff_exists.mp hsome
  obtain ⟨hpending, hcooled, hsome'⟩ := hstands c hc
  obtain ⟨p, hp⟩ := Option.isSome_iff_exists.mp hsome'
  obtain ⟨hactive, hend⟩ := hruns c hc p hp
  have hsweep : MaySweep sites filed [keeper] keeper c.policyId :=
    ⟨by decide, by decide +kernel, by decide, by decide +kernel, hcooled⟩
  exact ⟨c, (paths_agree_iff filed_reached hsweep hc hpending hp).mpr
    (pathsMeet_of_running hactive hend)⟩

open Scenario in
/-- A claim filed by the holder while the policy ran is paid on one path and
has its policy closed unpaid on the other, once the end has passed. -/
theorem paths_part_after_end :
    (system sites).Reachable filedLate ∧
      MaySweep sites filedLate [keeper] keeper 1 ∧
      (filedLate.machine.store.claims.claim 1).isSome = true ∧
      (∀ c, filedLate.machine.store.claims.claim 1 = some c →
        c.policyId = 1 ∧ c.status = .pending ∧ c.claimant = holder) ∧
      (∀ c p, filedLate.machine.store.claims.claim 1 = some c →
        filedLate.machine.store.engine.policies 1 = some p →
        p.policyholder = holder ∧ p.startTime ≤ c.submittedAt ∧
          c.submittedAt ≤ p.endTime) ∧
      ¬ SameOutcome
        (processClaim (sites.context filedLate.now [keeper]) keeper 1 none
          filedLate.machine)
        (autoProcess (sites.context filedLate.now [keeper]) keeper 1 none
          filedLate.machine) := by
  have hpaid : (processClaim (sites.context filedLate.now [keeper]) keeper 1
      none filedLate.machine).toOption.map Prod.fst = some .paid := by
    decide +kernel
  have hexpired : (autoProcess (sites.context filedLate.now [keeper]) keeper 1
      none filedLate.machine).toOption.map Prod.fst = some .expired := by
    decide +kernel
  have hsubmitted : ∀ c, filedLate.machine.store.claims.claim 1 = some c →
      c.submittedAt = 1000000 := by
    decide +kernel
  have hterm : ∀ p, filedLate.machine.store.engine.policies 1 = some p →
      p.policyholder = holder ∧ p.startTime ≤ 1000000 ∧
        1000000 ≤ p.endTime := by
    decide +kernel
  refine ⟨filedLate_reached, ⟨by decide, by decide +kernel, by decide,
    by decide +kernel, by decide +kernel⟩, by decide +kernel,
    by decide +kernel, ?_, not_sameOutcome hpaid hexpired (by decide)⟩
  intro c p hc hp
  obtain ⟨hholder, hstart, hend⟩ := hterm p hp
  exact ⟨hholder, by rw [hsubmitted c hc]; exact ⟨hstart, hend⟩⟩

end Parashield.Protocol
