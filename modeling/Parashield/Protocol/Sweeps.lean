import Parashield.Protocol.Approvals

/-!
# What a keeper's sweep achieves

`auto_process` on an active policy either evaluates it, while it runs, or
closes it, once it has run out.  Both stop at a claim that has left `Pending`:
so a claim refused once stands in the way of a later loss and of the expiry.
-/

namespace Parashield.Protocol

open Support Support.Contract Invocation
open PolicyEngine (Policy)
open ClaimsProcessor

/-! ## The call -/

/-- The keeper may process the policy now: nothing is paused and its last
call is past the cooldown. -/
structure MaySweep (D : Sites) (w : World Network) (signers : List Address)
    (keeper : Address) (policyId : ℕ) : Prop where
  foreign : ∀ a ∈ D.members, a ∉ signers
  listed : w.machine.store.claims.keeper keeper = true
  signed : keeper ∈ signers
  running : w.machine.store.claims.paused = false
  cooled : w.machine.store.claims.CooledDown policyId w.now

instance (s : ClaimsProcessor.State) (policyId now : ℕ) :
    Decidable (s.CooledDown policyId now) :=
  inferInstanceAs (Decidable (∀ last, _ = some last → _ ≤ now))

section Call

variable {D : Sites} {w w' : World Network} {signers : List Address}
  {keeper : Address} {policyId : ℕ} {bps : Option ℕ}

theorem sweep_iff (h : MaySweep D w signers keeper policyId) :
    (system D).Step w
        (.call signers (.claims (.autoProcess keeper policyId bps))) w' ↔
      ∃ r m', processPolicy (D.context w.now signers) policyId bps
        (noted w.machine policyId w.now) = .ok (r, m') ∧
        w' = { w with machine := m' } := by
  constructor
  · rintro ⟨-, hstep⟩
    cases hstep with
    | call _ hexec =>
        obtain ⟨r, hrun⟩ := perform_ok.mp hexec
        obtain ⟨-, -, -, hrun⟩ := ClaimsProcessor.autoProcess_ok.mp hrun
        exact ⟨r, _, hrun, rfl⟩
  · rintro ⟨r, m', hrun, rfl⟩
    refine ⟨h.foreign, .call (h.foreign _ (by simp [Sites.members])) ?_⟩
    refine perform_ok.mpr ⟨r, ClaimsProcessor.autoProcess_ok.mpr ?_⟩
    exact ⟨⟨h.listed, h.signed⟩, h.running, h.cooled, hrun⟩

end Call

/-! ## Closing an expired policy -/

/-- Nothing but time stands in the way of closing the policy. -/
structure Closable (D : Sites) (m : Machine Network) (policyId : ℕ) :
    Prop where
  unclaimed : m.store.claims.policyClaim policyId = none
  engine : m.store.claims.policyEngine = some D.engine
  pool : m.store.claims.riskPool = some D.pool
  processor : m.store.engine.claimsProcessor = some D.claims
  party : m.store.pool.IsProtocolCaller D.claims
  locked : ∃ l, m.store.pool.lock policyId = some l ∧ l.released = false

/-- The policy has expired and its capital is free. -/
def Closed (m : Machine Network) (policyId : ℕ) : Prop :=
  (∃ p, m.store.engine.policies policyId = some p ∧ p.status = .expired) ∧
    ∃ l, m.store.pool.lock policyId = some l ∧ l.released = true

/-- The claim waits for a decision, or for its payout. -/
def Open (c : Claim) : Prop :=
  c.status = .pending ∨ c.status = .disputed ∨
    (Approved c ∧ c.payoutReadyAt.isSome)

section Closing

variable {D : Sites} {w : World Network} {signers : List Address}
  {keeper : Address} {policyId : ℕ} {bps : Option ℕ} {p : Policy}
  {env : ClaimsProcessor.Context} {m m' : Machine Network} {r : ClaimResult}

theorem processPolicy_evaluated
    (h : m.store.claims.evaluated policyId = true) :
    processPolicy env policyId bps m = .ok (r, m') ↔
      r = .alreadyProcessed ∧ m' = m := by
  simp [processPolicy, h]

theorem processPolicy_expired
    (hevaluated : m.store.claims.evaluated policyId = false)
    (hp : m.store.engine.policies policyId = some p)
    (hactive : p.status = .active) (hpos : 0 < p.coverageAmount)
    (hend : p.endTime < env.now) :
    processPolicy env policyId bps m = .ok (r, m') ↔
      m.store.claims.policyEngine = some env.engine ∧
        closeExpired env env.engine policyId m = .ok (r, m') := by
  simp [processPolicy, hevaluated, hp, hactive, hpos, hend]

theorem closeExpired_iff
    (hp : m.store.engine.policies policyId = some p)
    (hactive : p.status = .active) :
    (∃ r m', closeExpired env env.engine policyId m = .ok (r, m') ∧
        Closed m' policyId) ↔
      m.store.claims.riskPool = some env.pool ∧
        m.store.engine.claimsProcessor = some env.self ∧
        m.store.pool.IsProtocolCaller env.self ∧
        ∃ l, m.store.pool.lock policyId = some l ∧ l.released = false := by
  simp [closeExpired, PolicyEngine.expirePolicy,
    PolicyEngine.IsClaimsProcessor, RiskPool.releaseForExpiry,
    RiskPool.releaseLock, hp, hactive, Closed]

/-- Once a policy has run out and its claim is neither undecided nor awaiting
its payout, a sweep closes it exactly if no claim was ever recorded for it,
the contracts know each other, and its capital is still locked. -/
theorem sweep_closes_iff (hw : (system D).Reachable w)
    (hsweep : MaySweep D w signers keeper policyId)
    (hp : w.machine.store.engine.policies policyId = some p)
    (hactive : p.status = .active) (hend : p.endTime < w.now)
    (hsettled : ∀ id c, w.machine.store.claims.claim id = some c →
      c.policyId = policyId → ¬ Open c) :
    (∃ w', (system D).Step w
        (.call signers (.claims (.autoProcess keeper policyId bps))) w' ∧
        Closed w'.machine policyId) ↔
      Closable D w.machine policyId := by
  have hsound := reachable_sound hw
  simp only [sweep_iff hsweep]
  cases hclaim : w.machine.store.claims.policyClaim policyId with
  | some id =>
      obtain ⟨c, hc, hpolicy⟩ := hsound.orderly.linked policyId id hclaim
      have hstatus : c.status ≠ .pending := fun h =>
        hsettled id c hc hpolicy (.inl h)
      have hevaluated : (noted w.machine policyId w.now).store.claims.evaluated
          policyId = true := by
        have hc' : w.machine.store.claims.claim id = some c := hc
        simp [ClaimsProcessor.State.evaluated, noted, hclaim, hc', hstatus]
      constructor
      · rintro ⟨_, ⟨r, m', hrun, rfl⟩, ⟨q, hq, hexpired⟩, -⟩
        obtain ⟨-, rfl⟩ := (processPolicy_evaluated hevaluated).mp hrun
        obtain rfl := Option.some.inj (hp.symm.trans hq)
        rw [hactive] at hexpired
        cases hexpired
      · intro h
        rw [h.unclaimed] at hclaim
        cases hclaim
  | none =>
      have hevaluated : (noted w.machine policyId w.now).store.claims.evaluated
          policyId = false := by
        simp [ClaimsProcessor.State.evaluated, noted, hclaim]
      have hpos := hsound.book.coverage_pos policyId p hp
      have hp' : (noted w.machine policyId w.now).store.engine.policies
          policyId = some p := hp
      have hrun : ∀ r m', processPolicy (D.context w.now signers) policyId bps
          (noted w.machine policyId w.now) = .ok (r, m') ↔ _ := fun r m' =>
        processPolicy_expired hevaluated hp' hactive hpos hend
      have hclose : (∃ r m', closeExpired (D.context w.now signers) D.engine
          policyId (noted w.machine policyId w.now) = .ok (r, m') ∧ _) ↔ _ :=
        closeExpired_iff hp' hactive
      constructor
      · rintro ⟨_, ⟨r, m', hrun', rfl⟩, hclosed⟩
        obtain ⟨hengine, hrun'⟩ := (hrun r m').mp hrun'
        obtain ⟨hpool, hprocessor, hparty, hlocked⟩ :=
          hclose.mp ⟨r, m', hrun', hclosed⟩
        exact ⟨hclaim, hengine, hpool, hprocessor, hparty, hlocked⟩
      · intro h
        obtain ⟨r, m', hrun', hclosed⟩ :=
          hclose.mpr ⟨h.pool, h.processor, h.party, h.locked⟩
        exact ⟨_, ⟨r, m', (hrun r m').mpr ⟨h.engine, hrun'⟩, rfl⟩, hclosed⟩

end Closing

namespace Scenario

/-- The keeper evaluates the policy while there is no loss. -/
def calm : List (Label Entry) :=
  [.call [feed] (.oracle
      (.submitData feed Symbols.weather rain 700 90 1000000)),
    sweeping]

def refused : World Network :=
  (TransitionSystem.execute (step sites) calm insured).get (by decide +kernel)

/-- The policy runs out. -/
def lapsing : Label Entry := .tick 31536001

def lapsed : World Network :=
  (step sites insured lapsing).get (by decide +kernel)

def refusedLapsed : World Network :=
  (step sites refused lapsing).get (by decide +kernel)

def swept : World Network :=
  (step sites refusedLapsed sweeping).get (by decide +kernel)

/-- The capital locked for the policy. -/
def held : RiskPool.CapitalLock where
  policyId := 1
  amount := 1000000
  lockedAt := 1000000
  released := false

theorem insured_reached : (system sites).Reachable insured :=
  (insured_reachable (G := fun _ _ => True) fun _ _ _ => trivial).of_restrict

theorem refused_reached : (system sites).Reachable refused :=
  insured_reached.run
    (TransitionSystem.run_of_execute (fun _ _ _ => step_sound)
      (Option.some_get _).symm)

end Scenario

open Scenario in
theorem sweep_closes_iff_lapsed :
    ∃ w', (system sites).Step lapsed sweeping w' ∧ Closed w'.machine 1 := by
  have hlapsed : (system sites).Reachable lapsed :=
    .step insured_reached (step_sound (Option.some_get _).symm)
  have hsweep : MaySweep sites lapsed [keeper] keeper 1 :=
    ⟨by decide, by decide +kernel, by decide, by decide +kernel,
      by decide +kernel⟩
  have hclosable : Closable sites lapsed.machine 1 :=
    ⟨by decide +kernel, by decide +kernel, by decide +kernel,
      by decide +kernel,
      ⟨admin, sites.engine, sites.claims, by decide +kernel,
        by decide +kernel, by decide +kernel, .inr (.inr rfl)⟩,
      held, by decide +kernel, rfl⟩
  have hsome : (lapsed.machine.store.engine.policies 1).isSome = true := by
    decide +kernel
  have hstands : ∀ p, lapsed.machine.store.engine.policies 1 = some p →
      p.status = .active ∧ p.endTime < lapsed.now := by
    decide +kernel
  obtain ⟨p, hp⟩ := Option.isSome_iff_exists.mp hsome
  obtain ⟨hactive, hend⟩ := hstands p hp
  refine (sweep_closes_iff hlapsed hsweep hp hactive hend ?_).mpr hclosable
  have hnone : ∀ id, lapsed.machine.store.claims.claim id = none := by
    with_unfolding_all exact fun _ => rfl
  intro id c hc
  rw [hnone id] at hc
  cases hc

open Scenario in
/-- A claim refused before the end stays in the way: a sweep after the end
leaves the policy active and its capital locked. -/
theorem refused_policy_not_closed :
    (system sites).Reachable refusedLapsed ∧
      MaySweep sites refusedLapsed [keeper] keeper 1 ∧
      (∀ p, refusedLapsed.machine.store.engine.policies 1 = some p →
        p.status = .active ∧ p.endTime < refusedLapsed.now) ∧
      (refusedLapsed.machine.store.claims.claim 1).map Claim.status =
        some .rejected ∧
      (system sites).Step refusedLapsed sweeping swept ∧
      (swept.machine.store.engine.policies 1).map Policy.status =
        some .active ∧
      swept.machine.store.pool.lock 1 = some held :=
  ⟨.step refused_reached (step_sound (Option.some_get _).symm),
    ⟨by decide, by decide +kernel, by decide, by decide +kernel,
      by decide +kernel⟩,
    by decide +kernel, by decide +kernel,
    step_sound (Option.some_get _).symm, by decide +kernel, by decide +kernel⟩

/-! ## Paying a met trigger -/

/-- The engine has the tokens to pay the policy, and the pool lets its capital
go. -/
structure CanPay (env : Context) (m : Machine Network) (pool : Address)
    (policyId : ℕ) (p : Policy) : Prop where
  processor : m.store.engine.claimsProcessor = some env.self
  funded : ∃ usdc, m.store.engine.usdcToken = some usdc ∧
    p.coverageAmount ≤ m.bank.balance usdc env.engine
  pool : pool = env.pool
  party : m.store.pool.IsProtocolCaller env.self
  locked : ∃ l, m.store.pool.lock policyId = some l ∧ 0 < l.amount ∧
    l.released = false

/-- The amount the ratio asks for can be computed. -/
def Computable (coverage : ℤ) (bps : Option ℕ) : Prop :=
  10000 ≤ bps.getD 10000 ∨ InI128 (coverage * (bps.getD 10000 : ℕ))

section Paying

variable {env : Context} {m m' : Machine Network} {pool : Address}
  {policyId : ℕ} {bps : Option ℕ} {p : Policy} {c c' : Claim} {r : ClaimResult}

theorem releasePayout_succeeds
    (hp : m.store.engine.policies policyId = some p)
    (hactive : p.status = .active) (hpos : 0 < p.coverageAmount) :
    (∃ u m', releasePayout env env.engine pool policyId m = .ok (u, m')) ↔
      CanPay env m pool policyId p := by
  have htransfer : ∀ usdc, (∃ B, m.bank.transfer usdc env.engine
      p.policyholder p.coverageAmount = some B) ↔
      p.coverageAmount ≤ m.bank.balance usdc env.engine :=
    fun _ => Bank.exists_transfer_iff hpos
  simp [releasePayout, PolicyEngine.payClaim, PolicyEngine.IsClaimsProcessor,
    RiskPool.releaseForClaim, RiskPool.releaseLock, hp, hactive]
  constructor
  · rintro ⟨⟨hprocessor, B, usdc, husdc, hB⟩, hpool, hparty, l, hlock, hl,
      hheld⟩
    exact ⟨hprocessor, ⟨usdc, husdc, (htransfer usdc).mp ⟨B, hB⟩⟩, hpool,
      hparty, l, hlock, hl, hheld⟩
  · rintro ⟨hprocessor, ⟨usdc, husdc, hfunds⟩, hpool, hparty, l, hlock, hl,
      hheld⟩
    obtain ⟨B, hB⟩ := (htransfer usdc).mpr hfunds
    exact ⟨⟨hprocessor, B, usdc, husdc, hB⟩, hpool, hparty, l, hlock, hl,
      hheld⟩

theorem releasePayout_claims {u : Unit}
    (h : releasePayout env env.engine pool policyId m = .ok (u, m')) :
    m'.store.claims = m.store.claims := by
  simp only [releasePayout, bind_ok, callEngine_ok, callPool_ok] at h
  obtain ⟨_, _, ⟨-, s, B, -, rfl⟩, -, s', B', -, rfl⟩ := h
  rfl

theorem disburse_succeeds
    (hp : m.store.engine.policies c.policyId = some p)
    (hactive : p.status = .active) (hpos : 0 < p.coverageAmount) :
    (∃ c' m', disburse env env.engine pool c m = .ok (c', m')) ↔
      0 < m.store.claims.payoutDelay ∨ CanPay env m pool c.policyId p := by
  rw [← releasePayout_succeeds hp hactive hpos]
  by_cases hdelay : 0 < m.store.claims.payoutDelay
  · simp [disburse, hdelay]
  · simp [disburse, hdelay]
    exact exists_comm

theorem disburse_claims (h : disburse env env.engine pool c m = .ok (c', m')) :
    c'.status = c.status ∧ m'.store.claims = m.store.claims := by
  simp only [disburse, bind_ok, loadClaims_ok, ite_ok, pure_ok] at h
  obtain ⟨s, _, ⟨rfl, rfl⟩, ⟨-, rfl, rfl⟩ | ⟨-, _, _, hrelease, rfl, rfl⟩⟩ := h
  · exact ⟨rfl, rfl⟩
  · exact ⟨rfl, releasePayout_claims hrelease⟩

theorem approve_succeeds (hpos : 0 < c.coverageAmount) :
    (∃ c', c.approve (effectiveBps bps) = .ok c') ↔
      Computable c.coverageAmount bps := by
  unfold Computable effectiveBps
  by_cases hfull : 10000 ≤ bps.getD 10000
  · simp [Claim.approve, hfull]
  · have hmin : min (bps.getD 10000) 10000 = bps.getD 10000 := by omega
    rw [hmin]
    simp only [Claim.approve, hfull, if_false, Check.bind_ok, Check.i128_ok,
      Check.require_ok, Check.pure_ok, false_or]
    constructor
    · rintro ⟨_, _, ⟨hamount, -⟩, -⟩
      exact hamount
    · intro hamount
      refine ⟨_, _, ⟨hamount, rfl⟩, (), ?_, rfl⟩
      have hle : c.coverageAmount * (bps.getD 10000 : ℕ) ≤
          c.coverageAmount * 10000 :=
        Int.mul_le_mul_of_nonneg_left (by omega) hpos.le
      rw [Int.tdiv_eq_ediv_of_nonneg (by positivity)]
      omega

/-- What it takes to settle a pending claim whose trigger is met. -/
structure Settles (env : Context) (m : Machine Network) (policyId : ℕ)
    (p : Policy) (bps : Option ℕ) : Prop where
  amount : Computable p.coverageAmount bps
  payout : ∃ pool, m.store.claims.riskPool = some pool ∧
    (0 < m.store.claims.payoutDelay ∨ CanPay env m pool policyId p)

/-- The machines agree on everything a payment depends on. -/
structure SameFunds (m m' : Machine Network) : Prop where
  engine : m'.store.engine = m.store.engine
  pool : m'.store.pool = m.store.pool
  bank : m'.bank = m.bank
  riskPool : m'.store.claims.riskPool = m.store.claims.riskPool
  payoutDelay : m'.store.claims.payoutDelay = m.store.claims.payoutDelay

theorem CanPay.same (h : CanPay env m pool policyId p)
    (hsame : SameFunds m m') : CanPay env m' pool policyId p where
  processor := by
    rw [hsame.engine]
    exact h.processor
  funded := by
    rw [hsame.engine, hsame.bank]
    exact h.funded
  pool := h.pool
  party := by
    rw [hsame.pool]
    exact h.party
  locked := by
    rw [hsame.pool]
    exact h.locked

theorem Settles.same (h : Settles env m policyId p bps)
    (hsame : SameFunds m m') : Settles env m' policyId p bps where
  amount := h.amount
  payout := by
    obtain ⟨pool, hpool, hpay⟩ := h.payout
    rw [hsame.riskPool, hsame.payoutDelay]
    exact ⟨pool, hpool, hpay.imp id fun hpay => hpay.same hsame⟩

theorem SameFunds.symm (h : SameFunds m m') : SameFunds m' m :=
  ⟨h.engine.symm, h.pool.symm, h.bank.symm, h.riskPool.symm,
    h.payoutDelay.symm⟩

theorem settles_iff (hsame : SameFunds m m') :
    Settles env m' policyId p bps ↔ Settles env m policyId p bps :=
  ⟨fun h => h.same hsame.symm, fun h => h.same hsame⟩

theorem settle_succeeds (hpending : c.status = .pending)
    (hp : m.store.engine.policies c.policyId = some p)
    (hactive : p.status = .active) (hpos : 0 < p.coverageAmount)
    (hcoverage : c.coverageAmount = p.coverageAmount)
    (hengine : m.store.claims.policyEngine = some env.engine) :
    (∃ r m', settleClaimWithTriggerResult env c p true bps m = .ok (r, m')) ↔
      c.claimant = p.policyholder ∧ Settles env m c.policyId p bps := by
  have happrove : (∃ c', (c.judged env.now true).approve (effectiveBps bps) =
      .ok c') ↔ Computable p.coverageAmount bps := by
    rw [← hcoverage]
    exact approve_succeeds (c := c.judged env.now true) (hcoverage ▸ hpos)
  have hdisburse : ∀ {c' : Claim} {pool},
      (c.judged env.now true).approve (effectiveBps bps) = .ok c' →
      ((∃ c'' m', disburse env env.engine pool c' m = .ok (c'', m')) ↔
        0 < m.store.claims.payoutDelay ∨ CanPay env m pool c.policyId p) := by
    intro c' pool h
    have hpolicy : c'.policyId = c.policyId := (Claim.approve_terms h).2.1
    rw [← hpolicy]
    exact disburse_succeeds (hpolicy ▸ hp) hactive hpos
  simp only [settleClaimWithTriggerResult, bind_ok, ensure_ok, policyEngine_ok,
    loadClaims_ok, unwrap_ok, check_ok, storeClaim_ok, removeFromPending,
    updateClaims_ok, pure_ok, if_true]
  constructor
  · rintro ⟨r, m', _, _, ⟨-, rfl⟩, _, _, ⟨hholder, rfl⟩, address, _,
      ⟨haddress, rfl⟩, s, _, ⟨rfl, rfl⟩, pool, _, ⟨hpool, rfl⟩, c', t,
      ⟨h, rfl⟩, c'', m'', hrun, -⟩
    obtain rfl := Option.some.inj (hengine.symm.trans haddress)
    exact ⟨hholder, happrove.mp ⟨c', h⟩, pool, hpool,
      (hdisburse h).mp ⟨c'', m'', hrun⟩⟩
  · rintro ⟨hholder, hamount, pool, hpool, hpay⟩
    obtain ⟨c', h⟩ := happrove.mpr hamount
    obtain ⟨c'', m'', hrun⟩ := (hdisburse h).mpr hpay
    exact ⟨_, _, (), m, ⟨hpending, rfl⟩, (), m, ⟨hholder, rfl⟩, _, m,
      ⟨hengine, rfl⟩, _, m, ⟨rfl, rfl⟩, pool, m, ⟨hpool, rfl⟩, c', m,
      ⟨h, rfl⟩, c'', m'', hrun, (), _, rfl, (), _, rfl, rfl, rfl⟩

theorem settle_approves
    (hengine : m.store.claims.policyEngine = some env.engine)
    (h : settleClaimWithTriggerResult env c p true bps m = .ok (r, m')) :
    (∃ c', m'.store.claims.claim c.id = some c' ∧ Approved c') ∧
      m'.store.claims.policyClaim = m.store.claims.policyClaim := by
  simp only [settleClaimWithTriggerResult, bind_ok, ensure_ok, policyEngine_ok,
    loadClaims_ok, unwrap_ok, check_ok, storeClaim_ok, removeFromPending,
    updateClaims_ok, pure_ok, if_true] at h
  obtain ⟨_, _, ⟨-, rfl⟩, _, _, ⟨-, rfl⟩, address, _, ⟨haddress, rfl⟩, s, _,
    ⟨rfl, rfl⟩, pool, _, ⟨-, rfl⟩, c', t, ⟨happrove, rfl⟩, c'', m'', hrun, _, _,
    rfl, _, _, rfl, -, rfl⟩ := h
  obtain rfl := Option.some.inj (hengine.symm.trans haddress)
  obtain ⟨hstatus, hclaims⟩ := disburse_claims hrun
  refine ⟨⟨c'', by simp, ?_⟩, ?_⟩
  · rw [Approved, hstatus]
    exact (approve_amount happrove).1
  · simp [hclaims]

/-- The oracle confirms the policy's own condition, from fresh readings. -/
def TriggerMet (env : Context) (m : Machine Network) (p : Policy) : Prop :=
  ∃ t, OracleVerifier.verifyTriggerFresh (env.enter env.oracle)
    p.oracleDataType p.oracleKey (triggerCondition p)
    m.store.claims.stalenessThreshold ⟨m.store.oracle, m.bank⟩ = .ok (true, t)

theorem evaluate_succeeds (hpending : c.status = .pending)
    (hmet : TriggerMet env m p)
    (hp : m.store.engine.policies c.policyId = some p)
    (hactive : p.status = .active) (hpos : 0 < p.coverageAmount)
    (hcoverage : c.coverageAmount = p.coverageAmount)
    (hengine : m.store.claims.policyEngine = some env.engine) :
    (∃ r m', evaluateAndSettle env c p bps m = .ok (r, m')) ↔
      c.claimant = p.policyholder ∧
        m.store.claims.oracleVerifier = some env.oracle ∧
        Settles env m c.policyId p bps := by
  obtain ⟨⟨o, B⟩, hmet⟩ := hmet
  obtain ⟨v, -, -, hscored⟩ := OracleVerifier.verifyTriggerFresh_spec hmet
  obtain rfl : B = m.bank := hscored.bank
  let asked : Machine Network :=
    { m with store := { m.store with oracle := o } }
  have hsame : SameFunds m asked := ⟨rfl, rfl, rfl, rfl, rfl⟩
  have hsettle : (∃ r m', settleClaimWithTriggerResult env c p true bps asked =
      .ok (r, m')) ↔
      c.claimant = p.policyholder ∧ Settles env asked c.policyId p bps :=
    settle_succeeds hpending hp hactive hpos hcoverage hengine
  rw [settles_iff hsame] at hsettle
  simp only [evaluateAndSettle, bind_ok, ensure_ok, loadClaims_ok, unwrap_ok,
    callOracle_ok]
  constructor
  · rintro ⟨r, m', _, _, ⟨-, rfl⟩, _, _, ⟨hholder, rfl⟩, s, _, ⟨rfl, rfl⟩,
      oracle, _, ⟨horacle, rfl⟩, verdict, t, ⟨rfl, o', B', hverify, rfl⟩, hrun⟩
    obtain ⟨rfl, ⟨⟩⟩ := Prod.mk.inj (Except.ok.inj (hverify.symm.trans hmet))
    exact ⟨hholder, horacle, (hsettle.mp ⟨r, m', hrun⟩).2⟩
  · rintro ⟨hholder, horacle, hsettles⟩
    obtain ⟨r, m', hrun⟩ := hsettle.mpr ⟨hholder, hsettles⟩
    exact ⟨r, m', (), m, ⟨hpending, rfl⟩, (), m, ⟨hholder, rfl⟩, _, m,
      ⟨rfl, rfl⟩, _, m, ⟨horacle, rfl⟩, true, _, ⟨rfl, o, m.bank, hmet, rfl⟩,
      hrun⟩

theorem evaluate_approves (hmet : TriggerMet env m p)
    (hengine : m.store.claims.policyEngine = some env.engine)
    (h : evaluateAndSettle env c p bps m = .ok (r, m')) :
    (∃ c', m'.store.claims.claim c.id = some c' ∧ Approved c') ∧
      m'.store.claims.policyClaim = m.store.claims.policyClaim := by
  obtain ⟨⟨o, B⟩, hmet⟩ := hmet
  simp only [evaluateAndSettle, bind_ok, ensure_ok, loadClaims_ok, unwrap_ok,
    callOracle_ok] at h
  obtain ⟨_, _, ⟨-, rfl⟩, _, _, ⟨-, rfl⟩, s, _, ⟨rfl, rfl⟩, oracle, t,
    ⟨-, rfl⟩, verdict, _, ⟨rfl, o', B', hverify, rfl⟩, hrun⟩ := h
  obtain ⟨rfl, ⟨⟩⟩ := Prod.mk.inj (Except.ok.inj (hverify.symm.trans hmet))
  let asked : Machine Network :=
    { store := { t.store with oracle := o }, bank := B }
  exact settle_approves (m := asked) hengine hrun

/-- A running policy is evaluated on its claim, which a sweep files if there
is none. -/
theorem processPolicy_running
    (hevaluated : m.store.claims.evaluated policyId = false)
    (hp : m.store.engine.policies policyId = some p)
    (hactive : p.status = .active) (hpos : 0 < p.coverageAmount)
    (hend : env.now ≤ p.endTime) :
    processPolicy env policyId bps m = .ok (r, m') ↔
      m.store.claims.policyEngine = some env.engine ∧
        ∃ id t c, claimOfPolicy env p policyId m = .ok (id, t) ∧
          t.store.claims.claim id = some c ∧
          ((c.status = .pending ∧
              evaluateAndSettle env c p bps t = .ok (r, m')) ∨
            (c.status ≠ .pending ∧ r = .alreadyProcessed ∧ m' = t)) := by
  simp [processPolicy, hevaluated, hp, hactive, hpos, hend.not_gt, ite_ok]

/-- The machines agree on everything an evaluation depends on. -/
structure SameCase (m m' : Machine Network) : Prop extends SameFunds m m' where
  policyEngine :
    m'.store.claims.policyEngine = m.store.claims.policyEngine
  oracleVerifier :
    m'.store.claims.oracleVerifier = m.store.claims.oracleVerifier
  staleness :
    m'.store.claims.stalenessThreshold = m.store.claims.stalenessThreshold
  oracle : m'.store.oracle = m.store.oracle

theorem TriggerMet.same (h : TriggerMet env m p) (hcase : SameCase m m') :
    TriggerMet env m' p := by
  rw [TriggerMet, hcase.staleness, hcase.oracle, hcase.bank]
  exact h

/-- The claim `c` on file under `id` awaits the evaluation of policy `p`. -/
structure Awaits (m : Machine Network) (policyId : ℕ) (p : Policy) (id : ℕ)
    (c : Claim) : Prop where
  linked : m.store.claims.policyClaim policyId = some id
  found : m.store.claims.claim id = some c
  id : c.id = id
  policyId : c.policyId = policyId
  pending : c.status = .pending
  coverage : c.coverageAmount = p.coverageAmount

theorem awaits_of_unevaluated (hsound : Sound (docket m)) {id : ℕ}
    (hevaluated : m.store.claims.evaluated policyId = false)
    (hp : m.store.engine.policies policyId = some p)
    (hlinked : m.store.claims.policyClaim policyId = some id) :
    ∃ c, Awaits m policyId p id c := by
  obtain ⟨c, hc, hpolicy⟩ := hsound.orderly.linked policyId id hlinked
  have hfound : m.store.claims.claim id = some c := hc
  obtain ⟨q, hq, hcoverage⟩ := hsound.covered id c hc
  rw [hpolicy] at hq
  obtain rfl := Option.some.inj (hq.symm.trans hp)
  refine ⟨c, hlinked, hc, hsound.orderly.keyed id c hc, hpolicy, ?_,
    hcoverage.symm⟩
  simpa [ClaimsProcessor.State.evaluated, hlinked, hfound] using hevaluated

/-- The claim a sweep goes on with. -/
theorem claimOfPolicy_awaits (hsound : Sound (docket m))
    (hevaluated : m.store.claims.evaluated policyId = false)
    (hp : m.store.engine.policies policyId = some p) {id : ℕ}
    (h : claimOfPolicy env p policyId m = .ok (id, m')) :
    SameCase m m' ∧ ∃ c, Awaits m' policyId p id c ∧
      (c.claimant = p.policyholder ↔
        ∀ i c₀, m.store.claims.policyClaim policyId = some i →
          m.store.claims.claim i = some c₀ →
          c₀.claimant = p.policyholder) := by
  cases hlinked : m.store.claims.policyClaim policyId with
  | some i =>
      simp only [claimOfPolicy, bind_ok, loadClaims_ok] at h
      obtain ⟨s, t, ⟨rfl, rfl⟩, h⟩ := h
      rw [hlinked] at h
      obtain ⟨rfl, rfl⟩ := pure_ok.mp h
      obtain ⟨c, hc⟩ := awaits_of_unevaluated hsound hevaluated hp hlinked
      refine ⟨⟨⟨rfl, rfl, rfl, rfl, rfl⟩, rfl, rfl, rfl, rfl⟩, c, hc, ?_⟩
      constructor
      · rintro hholder i c₀ ⟨⟩ hc₀
        obtain rfl := Option.some.inj (hc.found.symm.trans hc₀)
        exact hholder
      · intro hall
        exact hall _ c rfl hc.found
  | none =>
      simp [claimOfPolicy, hlinked, ClaimsProcessor.nextClaimId] at h
      obtain ⟨-, rfl, rfl⟩ := h
      refine ⟨⟨⟨rfl, rfl, rfl, rfl, rfl⟩, rfl, rfl, rfl, rfl⟩, _,
        ⟨?_, Function.update_self .., rfl, rfl, rfl, rfl⟩, ?_⟩
      · exact Function.update_self ..
      · simp [Claim.fresh]

theorem claimOfPolicy_succeeds :
    (∃ id m', claimOfPolicy env p policyId m = .ok (id, m')) ↔
      (m.store.claims.policyClaim policyId = none →
        m.store.claims.nextClaimId + 1 < 2 ^ 128) := by
  cases hlinked : m.store.claims.policyClaim policyId with
  | some i => simp [claimOfPolicy, hlinked]
  | none => simp [claimOfPolicy, hlinked, ClaimsProcessor.nextClaimId]

/-- The claim of the policy stands approved. -/
def PolicyApproved (s : ClaimsProcessor.State) (policyId : ℕ) : Prop :=
  ∃ id c, s.policyClaim policyId = some id ∧ s.claim id = some c ∧ Approved c

theorem evaluated_of_approved {s : ClaimsProcessor.State}
    (h : PolicyApproved s policyId) : s.evaluated policyId = true := by
  obtain ⟨id, c, hlinked, hc, happroved⟩ := h
  have hstatus : c.status ≠ .pending := by
    rcases happroved with h | h <;> simp [h]
  simp [ClaimsProcessor.State.evaluated, hlinked, hc, hstatus]

/-- Nothing but the verdict of the oracle is missing to approve a claim on the
policy. -/
structure Payable (env : Context) (m : Machine Network) (policyId : ℕ)
    (p : Policy) (bps : Option ℕ) : Prop where
  unevaluated : m.store.claims.evaluated policyId = false
  engine : m.store.claims.policyEngine = some env.engine
  oracle : m.store.claims.oracleVerifier = some env.oracle
  claimant : ∀ id c, m.store.claims.policyClaim policyId = some id →
    m.store.claims.claim id = some c → c.claimant = p.policyholder
  room : m.store.claims.policyClaim policyId = none →
    m.store.claims.nextClaimId + 1 < 2 ^ 128
  settles : Settles env m policyId p bps

theorem processPolicy_approves_iff (hsound : Sound (docket m))
    (hevaluated : m.store.claims.evaluated policyId = false)
    (hp : m.store.engine.policies policyId = some p)
    (hactive : p.status = .active) (hend : env.now ≤ p.endTime)
    (hmet : TriggerMet env m p) :
    (∃ r m', processPolicy env policyId bps m = .ok (r, m') ∧
        PolicyApproved m'.store.claims policyId) ↔
      Payable env m policyId p bps := by
  have hpos : 0 < p.coverageAmount := hsound.book.coverage_pos policyId p hp
  -- what the evaluation of the claim that is found or filed comes to
  have hevaluate : ∀ {id t c}, SameCase m t → Awaits t policyId p id c →
      m.store.claims.policyEngine = some env.engine →
      ((∃ r m', evaluateAndSettle env c p bps t = .ok (r, m')) ↔
        c.claimant = p.policyholder ∧
          m.store.claims.oracleVerifier = some env.oracle ∧
          Settles env m policyId p bps) := by
    intro id t c hcase hc hengine
    have hp' : t.store.engine.policies c.policyId = some p := by
      rw [hcase.engine, hc.policyId, hp]
    rw [evaluate_succeeds hc.pending (hmet.same hcase) hp' hactive hpos
      hc.coverage (hcase.policyEngine.trans hengine), hc.policyId,
      hcase.oracleVerifier, settles_iff hcase.toSameFunds]
  simp only [processPolicy_running hevaluated hp hactive hpos hend]
  constructor
  · rintro ⟨r, m', ⟨hengine, id, t, c, hclaim, hc, hrun⟩, -⟩
    obtain ⟨hcase, c', hawaits, hclaimant⟩ :=
      claimOfPolicy_awaits hsound hevaluated hp hclaim
    obtain rfl := Option.some.inj (hc.symm.trans hawaits.found)
    rcases hrun with ⟨-, hrun⟩ | ⟨hstatus, -⟩
    · obtain ⟨hholder, horacle, hsettles⟩ :=
        (hevaluate hcase hawaits hengine).mp ⟨r, m', hrun⟩
      exact ⟨hevaluated, hengine, horacle, hclaimant.mp hholder,
        claimOfPolicy_succeeds.mp ⟨id, t, hclaim⟩, hsettles⟩
    · exact (hstatus hawaits.pending).elim
  · intro h
    obtain ⟨id, t, hclaim⟩ := claimOfPolicy_succeeds.mpr h.room
    obtain ⟨hcase, c, hawaits, hclaimant⟩ :=
      claimOfPolicy_awaits hsound hevaluated hp hclaim
    obtain ⟨r, m', hrun⟩ := (hevaluate hcase hawaits h.engine).mpr
      ⟨hclaimant.mpr h.claimant, h.oracle, h.settles⟩
    refine ⟨r, m', ⟨h.engine, id, t, c, hclaim, hawaits.found,
      .inl ⟨hawaits.pending, hrun⟩⟩, ?_⟩
    obtain ⟨⟨c', hc', happroved⟩, hlinked⟩ := evaluate_approves
      (hmet.same hcase) (hcase.policyEngine.trans h.engine) hrun
    rw [hawaits.id] at hc'
    exact ⟨id, c', by rw [hlinked, hawaits.linked], hc', happroved⟩

/-- Before the end of the cover, while the oracle confirms the policy's own
condition, a sweep ends with the claim of the policy approved exactly if it
was approved already, or has not been evaluated before and nothing else stands
in its way. -/
theorem sweep_pays_iff {D : Sites} {w : World Network} {signers : List Address}
    {keeper : Address} (hw : (system D).Reachable w)
    (hsweep : MaySweep D w signers keeper policyId)
    (hp : w.machine.store.engine.policies policyId = some p)
    (hactive : p.status = .active) (hend : w.now ≤ p.endTime)
    (hmet : TriggerMet (D.context w.now signers) w.machine p) :
    (∃ w', (system D).Step w
        (.call signers (.claims (.autoProcess keeper policyId bps))) w' ∧
        PolicyApproved w'.machine.store.claims policyId) ↔
      PolicyApproved w.machine.store.claims policyId ∨
        Payable (D.context w.now signers) w.machine policyId p bps := by
  have hcase : SameCase w.machine (noted w.machine policyId w.now) :=
    ⟨⟨rfl, rfl, rfl, rfl, rfl⟩, rfl, rfl, rfl, rfl⟩
  simp only [sweep_iff hsweep]
  cases hevaluated : w.machine.store.claims.evaluated policyId with
  | true =>
      have hrun : ∀ r m', processPolicy (D.context w.now signers) policyId bps
          (noted w.machine policyId w.now) = .ok (r, m') ↔ _ :=
        fun r m' => processPolicy_evaluated hevaluated
      constructor
      · rintro ⟨_, ⟨r, m', hsweeps, rfl⟩, happroved⟩
        obtain ⟨-, rfl⟩ := (hrun r m').mp hsweeps
        exact .inl happroved
      · rintro (happroved | hpayable)
        · exact ⟨_, ⟨_, _, (hrun _ _).mpr ⟨rfl, rfl⟩, rfl⟩, happroved⟩
        · rw [hpayable.unevaluated] at hevaluated
          cases hevaluated
  | false =>
      have hsound : Sound (docket (noted w.machine policyId w.now)) :=
        reachable_sound hw
      have hiff : (∃ r m', processPolicy (D.context w.now signers) policyId bps
          (noted w.machine policyId w.now) = .ok (r, m') ∧ _) ↔ _ :=
        processPolicy_approves_iff hsound hevaluated hp hactive hend
          (hmet.same hcase)
      constructor
      · rintro ⟨_, ⟨r, m', hrun, rfl⟩, happroved⟩
        have h := hiff.mp ⟨r, m', hrun, happroved⟩
        exact .inr ⟨h.unevaluated, h.engine, h.oracle, h.claimant, h.room,
          h.settles.same hcase.toSameFunds.symm⟩
      · rintro (happroved | h)
        · rw [evaluated_of_approved happroved] at hevaluated
          cases hevaluated
        · obtain ⟨r, m', hrun, happroved⟩ := hiff.mpr
            ⟨h.unevaluated, h.engine, h.oracle, h.claimant, h.room,
              h.settles.same hcase.toSameFunds⟩
          exact ⟨_, ⟨r, m', hrun, rfl⟩, happroved⟩

end Paying

/-- What the oracle answers decides whether the trigger is met. -/
theorem triggerMet_of_answer {env : Context} {m : Machine Network}
    {p : Policy}
    (h : ((OracleVerifier.verifyTriggerFresh (env.enter env.oracle)
      p.oracleDataType p.oracleKey (triggerCondition p)
      m.store.claims.stalenessThreshold ⟨m.store.oracle, m.bank⟩).map
        Prod.fst).toOption = some true) :
    TriggerMet env m p := by
  unfold TriggerMet
  generalize OracleVerifier.verifyTriggerFresh (env.enter env.oracle)
    p.oracleDataType p.oracleKey (triggerCondition p)
    m.store.claims.stalenessThreshold ⟨m.store.oracle, m.bank⟩ = outcome at h ⊢
  cases outcome with
  | error e => cases h
  | ok answer =>
      obtain ⟨verdict, t⟩ := answer
      obtain rfl : verdict = true := Option.some.inj h
      exact ⟨t, rfl⟩

namespace Scenario

/-- A reading that meets the condition of the policy. -/
def reading (time : ℕ) : Label Entry :=
  .call [feed] (.oracle
    (.submitData feed Symbols.weather rain 300 90 time))

def dry : World Network :=
  (step sites insured (reading 1000000)).get (by decide +kernel)

/-- The loss comes after the policy was evaluated once. -/
def drying : List (Label Entry) := [.tick 300, reading 1000300]

def refusedDry : World Network :=
  (TransitionSystem.execute (step sites) drying refused).get
    (by decide +kernel)

def forfeited : World Network :=
  (step sites refusedDry sweeping).get (by decide +kernel)

end Scenario

open Scenario in
theorem sweep_pays_iff_dry :
    ∃ w', (system sites).Step dry sweeping w' ∧
      PolicyApproved w'.machine.store.claims 1 := by
  have hdry : (system sites).Reachable dry :=
    .step insured_reached (step_sound (Option.some_get _).symm)
  have hsweep : MaySweep sites dry [keeper] keeper 1 :=
    ⟨by decide, by decide +kernel, by decide, by decide +kernel,
      by decide +kernel⟩
  have hsome : (dry.machine.store.engine.policies 1).isSome = true := by
    decide +kernel
  have hstands : ∀ p, dry.machine.store.engine.policies 1 = some p →
      p.status = .active ∧ dry.now ≤ p.endTime ∧
        p.coverageAmount = 1000000 := by
    decide +kernel
  have hanswer : ∀ p, dry.machine.store.engine.policies 1 = some p →
      ((OracleVerifier.verifyTriggerFresh
        ((sites.context dry.now [keeper]).enter sites.oracle)
        p.oracleDataType p.oracleKey (triggerCondition p)
        dry.machine.store.claims.stalenessThreshold
        ⟨dry.machine.store.oracle, dry.machine.bank⟩).map
          Prod.fst).toOption = some true := by
    decide +kernel
  obtain ⟨p, hp⟩ := Option.isSome_iff_exists.mp hsome
  obtain ⟨hactive, hend, hcoverage⟩ := hstands p hp
  have hmet : TriggerMet (sites.context dry.now [keeper]) dry.machine p :=
    triggerMet_of_answer (hanswer p hp)
  have hnone : ∀ id, dry.machine.store.claims.policyClaim id = none := by
    with_unfolding_all exact fun _ => rfl
  have hfunds : (1000000 : ℤ) ≤ dry.machine.bank.balance usdc sites.engine := by
    decide +kernel
  have hpay : CanPay (sites.context dry.now [keeper]) dry.machine sites.pool 1
      p :=
    ⟨by decide +kernel, ⟨usdc, by decide +kernel, hcoverage ▸ hfunds⟩, rfl,
      ⟨admin, sites.engine, sites.claims, by decide +kernel,
        by decide +kernel, by decide +kernel, .inr (.inr rfl)⟩,
      held, by decide +kernel, by decide, rfl⟩
  refine (sweep_pays_iff hdry hsweep hp hactive hend hmet).mpr (.inr ?_)
  refine ⟨by decide +kernel, by decide +kernel, by decide +kernel, ?_,
    by decide +kernel, .inl (by decide), sites.pool, by decide +kernel,
    .inr hpay⟩
  intro id c hid
  rw [hnone 1] at hid
  cases hid

open Scenario in
/-- After a loss the keeper's sweep pays nothing, because it was evaluated once
before the loss. -/
theorem early_evaluation_forfeits :
    (system sites).Reachable refusedDry ∧
      MaySweep sites refusedDry [keeper] keeper 1 ∧
      (∀ p, refusedDry.machine.store.engine.policies 1 = some p →
        p.status = .active ∧ refusedDry.now ≤ p.endTime ∧
          TriggerMet (sites.context refusedDry.now [keeper])
            refusedDry.machine p) ∧
      (system sites).Step refusedDry sweeping forfeited ∧
      (forfeited.machine.store.claims.claim 1).map Claim.status =
        some .rejected ∧
      forfeited.machine.bank.history = refused.machine.bank.history := by
  have hreached : (system sites).Reachable refusedDry :=
    refused_reached.run
      (TransitionSystem.run_of_execute (fun _ _ _ => step_sound)
        (Option.some_get _).symm)
  have hstands : ∀ p, refusedDry.machine.store.engine.policies 1 = some p →
      p.status = .active ∧ refusedDry.now ≤ p.endTime := by
    decide +kernel
  have hanswer : ∀ p, refusedDry.machine.store.engine.policies 1 = some p →
      ((OracleVerifier.verifyTriggerFresh
        ((sites.context refusedDry.now [keeper]).enter sites.oracle)
        p.oracleDataType p.oracleKey (triggerCondition p)
        refusedDry.machine.store.claims.stalenessThreshold
        ⟨refusedDry.machine.store.oracle, refusedDry.machine.bank⟩).map
          Prod.fst).toOption = some true := by
    decide +kernel
  exact ⟨hreached,
    ⟨by decide, by decide +kernel, by decide, by decide +kernel,
      by decide +kernel⟩,
    fun p hp => ⟨(hstands p hp).1, (hstands p hp).2,
      triggerMet_of_answer (hanswer p hp)⟩,
    step_sound (Option.some_get _).symm, by decide +kernel, by decide +kernel⟩

end Parashield.Protocol
