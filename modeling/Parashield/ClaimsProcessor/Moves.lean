import Parashield.ClaimsProcessor.Docket

/-!
# Claims processor: every call is a sequence of moves

Each function of the processor, run from a machine, moves the docket of that
machine as listed in `Move`.  `Entry.admits` says which moves a call can
contain.
-/

namespace Parashield.ClaimsProcessor

open Support Support.Contract Invocation
open PolicyEngine (Policy)
open OracleVerifier (OracleReadingQuery)
open RiskPool (CapitalLock)

/-- How claims, policies and the counter go together. -/
structure Docket.Orderly (d : Docket) : Prop where
  keyed : ∀ id c, d.claim id = some c → c.id = id
  recorded : ∀ id c, d.claim id = some c → d.policyClaim c.policyId = some id
  linked : ∀ policyId id, d.policyClaim policyId = some id →
    ∃ c, d.claim id = some c ∧ c.policyId = policyId
  fresh : ∀ id c, d.claim id = some c → id < d.nextClaimId
  idle : d.initialized = false → ∀ id, d.claim id = none
  setUp : d.policyEngine.isSome → d.initialized = true

/-- From `m` to `m'` the docket moved, by moves that `G` admits. -/
def Moved (env : Context) (G : Docket → Kind → Prop)
    (m m' : Machine Network) : Prop :=
  ∃ ks, ((moves env.now env.engine).restrict G).Run (docket m) ks (docket m')

section Moved

variable {env : Context} {G : Docket → Kind → Prop}
  {m m₁ m₂ : Machine Network}

theorem Moved.of_eq (h : docket m₁ = docket m) : Moved env G m m₁ :=
  ⟨[], by rw [h]; exact .nil _⟩

theorem Moved.single {k : Kind}
    (h : Move env.now env.engine k (docket m) (docket m₁))
    (hG : G (docket m) k) : Moved env G m m₁ :=
  ⟨[k], .cons ⟨hG, h⟩ (.nil _)⟩

theorem Moved.trans (h : Moved env G m m₁) (h' : Moved env G m₁ m₂) :
    Moved env G m m₂ := by
  obtain ⟨ks, h⟩ := h
  obtain ⟨ks', h'⟩ := h'
  exact ⟨ks ++ ks', h.append h'⟩

end Moved

/-! ## The docket stays orderly -/

section Orderly

variable {d d' : Docket} {now : ℕ} {engine : Address} {k : Kind}

/-- The two dockets agree on which claims there are. -/
structure Docket.SameFiling (d d' : Docket) : Prop where
  policyClaim : d'.policyClaim = d.policyClaim
  nextClaimId : d'.nextClaimId = d.nextClaimId
  initialized : d'.initialized = d.initialized
  policyEngine : d'.policyEngine = d.policyEngine

theorem Docket.Orderly.same (h : d.Orderly) (hclaim : d'.claim = d.claim)
    (hsame : d.SameFiling d') : d'.Orderly where
  keyed := by
    rw [hclaim]
    exact h.keyed
  recorded := by
    rw [hclaim, hsame.policyClaim]
    exact h.recorded
  linked := by
    rw [hclaim, hsame.policyClaim]
    exact h.linked
  fresh := by
    rw [hclaim, hsame.nextClaimId]
    exact h.fresh
  idle := by
    rw [hsame.initialized, hclaim]
    exact h.idle
  setUp := by
    rw [hsame.policyEngine, hsame.initialized]
    exact h.setUp

/-- Rewriting a claim under its own id. -/
theorem Docket.Orderly.write {id : ℕ} {c c' : Claim} (h : d.Orderly)
    (hclaim : d'.claim = d.setClaim id c') (hfound : d.claim id = some c)
    (hid : c'.id = c.id) (hpolicy : c'.policyId = c.policyId)
    (hsame : d.SameFiling d') : d'.Orderly := by
  suffices hwritten : ({ d with claim := d.setClaim id c' } : Docket).Orderly
    from hwritten.same hclaim ⟨hsame.policyClaim, hsame.nextClaimId,
      hsame.initialized, hsame.policyEngine⟩
  have hcases : ∀ {i x}, d.setClaim id c' i = some x →
      (i = id ∧ x = c') ∨ (i ≠ id ∧ d.claim i = some x) := by
    intro i x hx
    by_cases hi : i = id
    · subst hi
      rw [setClaim, Function.update_self, Option.some.injEq] at hx
      exact .inl ⟨rfl, hx.symm⟩
    · rw [setClaim, Function.update_of_ne hi] at hx
      exact .inr ⟨hi, hx⟩
  refine ⟨?_, ?_, ?_, ?_, ?_, h.setUp⟩
  · intro i x hx
    rcases hcases hx with ⟨rfl, rfl⟩ | ⟨-, hx⟩
    · exact hid.trans (h.keyed i c hfound)
    · exact h.keyed i x hx
  · intro i x hx
    rcases hcases hx with ⟨rfl, rfl⟩ | ⟨-, hx⟩
    · rw [hpolicy]
      exact h.recorded i c hfound
    · exact h.recorded i x hx
  · intro policyId i hi
    obtain ⟨x, hx, hpol⟩ := h.linked policyId i hi
    by_cases hne : i = id
    · subst hne
      obtain rfl := Option.some.inj (hfound.symm.trans hx)
      exact ⟨c', by simp [setClaim], hpolicy.trans hpol⟩
    · exact ⟨x, by simpa [setClaim, Function.update_of_ne hne] using hx, hpol⟩
  · intro i x hx
    rcases hcases hx with ⟨rfl, rfl⟩ | ⟨-, hx⟩
    · exact h.fresh i c hfound
    · exact h.fresh i x hx
  · intro hidle
    have hnone := h.idle hidle id
    rw [hfound] at hnone
    cases hnone

/-- Recording a claim for a policy that has none. -/
theorem Docket.Orderly.record {c : Claim} (h : d.Orderly)
    (hset : d.policyEngine.isSome) (hnone : d.policyClaim c.policyId = none)
    (hid : c.id = d.nextClaimId) : (d.record c).Orderly := by
  have hold : ∀ {i x}, d.claim i = some x → i ≠ c.id := by
    rintro i x hx rfl
    have hlt := h.fresh _ x hx
    omega
  have hcases : ∀ {i x}, d.setClaim c.id c i = some x →
      (i = c.id ∧ x = c) ∨ (i ≠ c.id ∧ d.claim i = some x) := by
    intro i x hx
    by_cases hi : i = c.id
    · subst hi
      rw [setClaim, Function.update_self, Option.some.injEq] at hx
      exact .inl ⟨rfl, hx.symm⟩
    · rw [setClaim, Function.update_of_ne hi] at hx
      exact .inr ⟨hi, hx⟩
  refine ⟨?_, ?_, ?_, ?_, ?_, h.setUp⟩
  · intro i x hx
    rcases hcases hx with ⟨rfl, rfl⟩ | ⟨-, hx⟩
    · rfl
    · exact h.keyed i x hx
  · intro i x hx
    rcases hcases hx with ⟨rfl, rfl⟩ | ⟨-, hx⟩
    · simp [Docket.record]
    · have hrecorded := h.recorded i x hx
      have hne : x.policyId ≠ c.policyId := by
        intro heq
        rw [heq, hnone] at hrecorded
        cases hrecorded
      simpa [Docket.record, Function.update_of_ne hne] using hrecorded
  · intro policyId i hi
    by_cases hpolicy : policyId = c.policyId
    · subst hpolicy
      simp only [Docket.record, Function.update_self, Option.some.injEq] at hi
      exact ⟨c, by simp [Docket.record, setClaim, hi], rfl⟩
    · simp only [Docket.record, Function.update_of_ne hpolicy] at hi
      obtain ⟨x, hx, hpol⟩ := h.linked policyId i hi
      refine ⟨x, ?_, hpol⟩
      simpa [Docket.record, setClaim, Function.update_of_ne (hold hx)] using hx
  · intro i x hx
    rcases hcases hx with ⟨rfl, rfl⟩ | ⟨-, hx⟩
    · simp [Docket.record, hid]
    · have hlt := h.fresh i x hx
      simp only [Docket.record]
      omega
  · intro hidle
    have hinit : d.initialized = true := h.setUp hset
    rw [show (d.record c).initialized = d.initialized from rfl, hinit] at hidle
    cases hidle

theorem Claim.approve_terms {c c' : Claim} {bps : ℕ}
    (h : c.approve bps = .ok c') :
    c'.id = c.id ∧ c'.policyId = c.policyId ∧ c'.claimant = c.claimant ∧
      c'.coverageAmount = c.coverageAmount ∧
      c'.payoutReadyAt = c.payoutReadyAt ∧
      c'.submittedAt = c.submittedAt := by
  unfold approve at h
  split at h
  · obtain rfl := Check.pure_ok.mp h
    simp
  · simp at h
    obtain ⟨-, -, rfl⟩ := h
    simp

theorem Move.orderly (hmove : Move now engine k d d') (h : d.Orderly) :
    d'.Orderly := by
  cases hmove with
  | setUp hfresh =>
      have hnone := h.idle hfresh
      refine ⟨h.keyed, h.recorded, h.linked, ?_, ?_, fun _ => rfl⟩
      · intro id c hc
        rw [hnone id] at hc
        cases hc
      · intro hidle
        cases hidle
  | file hset hnone => exact h.record hset hnone rfl
  | refuse hc => exact h.write rfl hc.found rfl rfl ⟨rfl, rfl, rfl, rfl⟩
  | hold hc _ happrove =>
      obtain ⟨hid, hpolicy, -⟩ := Claim.approve_terms happrove
      exact h.write rfl hc.found hid hpolicy ⟨rfl, rfl, rfl, rfl⟩
  | settle hc _ happrove =>
      obtain ⟨hid, hpolicy, -⟩ := Claim.approve_terms happrove
      exact h.write rfl hc.found hid hpolicy ⟨rfl, rfl, rfl, rfl⟩
  | payout hc => exact h.write rfl hc rfl rfl ⟨rfl, rfl, rfl, rfl⟩
  | expire => exact h.same rfl ⟨rfl, rfl, rfl, rfl⟩
  | dispute hc => exact h.write rfl hc rfl rfl ⟨rfl, rfl, rfl, rfl⟩
  | resolve hc => exact h.write rfl hc rfl rfl ⟨rfl, rfl, rfl, rfl⟩
  | reject hc => exact h.write rfl hc rfl rfl ⟨rfl, rfl, rfl, rfl⟩
  | escalate hc => exact h.write rfl hc rfl rfl ⟨rfl, rfl, rfl, rfl⟩
  | installment hc _ hterms =>
      exact h.write rfl hc hterms.id hterms.policyId ⟨rfl, rfl, rfl, rfl⟩
  | annotate hc hterms =>
      exact h.write rfl hc hterms.id hterms.policyId ⟨rfl, rfl, rfl, rfl⟩
  | consult => exact h.same rfl ⟨rfl, rfl, rfl, rfl⟩
  | sort => exact h.same rfl ⟨rfl, rfl, rfl, rfl⟩

theorem Moved.orderly {env : Context} {G : Docket → Kind → Prop}
    {m m' : Machine Network} (hmoved : Moved env G m m')
    (h : (docket m).Orderly) : (docket m').Orderly := by
  obtain ⟨ks, hrun⟩ := hmoved
  exact hrun.preserves (fun _ _ _ hd (hstep : _ ∧ _) => hstep.2.orderly hd) h

end Orderly

/-! ## Loops -/

section Loops

variable {env : Context} {G : Docket → Kind → Prop} {m m' : Machine Network}

/-- A loop whose body moves the docket moves the docket. -/
theorem collect_moved {α β : Type} {f : α → Call β} {xs : List α}
    {bs : List β}
    (hf : ∀ x ∈ xs, ∀ (t t' : Machine Network) b, (docket t).Orderly →
      f x t = .ok (b, t') → Moved env G t t')
    (horderly : (docket m).Orderly) (h : collect xs f m = .ok (bs, m')) :
    Moved env G m m' := by
  have hkeeps : Keeps (Moved env G m) (collect xs f) := by
    apply keeps_collect
    intro x hx t b t' ht hrun
    exact ht.trans (hf x hx t t' b (ht.orderly horderly) hrun)
  exact hkeeps m bs m' (.of_eq rfl) h

end Loops

/-! ## Filing -/

section Filing

variable {env : Context} {m m' : Machine Network}

theorem nextClaimId_ok {id : ℕ} (h : nextClaimId m = .ok (id, m')) :
    id + 1 < 2 ^ 128 ∧ id = m.store.claims.nextClaimId ∧
      m' =
        { m with store :=
          { m.store with claims :=
            { m.store.claims with
              nextClaimId := m.store.claims.nextClaimId + 1 } } } := by
  simp [nextClaimId] at h
  obtain ⟨hbound, rfl, rfl⟩ := h
  exact ⟨hbound, rfl, rfl⟩

theorem evaluateFraud_ok {claimId : ℕ} {claimant : Address}
    {coverageAmount : ℤ} {u : Unit}
    (h : evaluateFraud env claimId claimant coverageAmount m = .ok (u, m')) :
    ∃ f,
      m' =
        { m with store :=
          { m.store with claims :=
            { m.store.claims with fraudRecord := f } } } := by
  unfold evaluateFraud at h
  simp only [bind_ok, loadClaims_ok] at h
  obtain ⟨s, t, ⟨rfl, rfl⟩, h⟩ := h
  cases hcfg : t.store.claims.fraudConfig with
  | none =>
      rw [hcfg] at h
      obtain ⟨-, rfl⟩ := pure_ok.mp h
      exact ⟨_, rfl⟩
  | some cfg =>
      rw [hcfg] at h
      simp at h
      rcases h with ⟨-, -, rfl⟩ | ⟨-, rfl⟩
      · exact ⟨_, rfl⟩
      · exact ⟨_, rfl⟩

/-- Everything a filing checks on the policy and the product behind it. -/
structure Eligible (env : Context) (claimant : Address) (policyId : ℕ)
    (p : Policy) (m : Machine Network) : Prop where
  vacant : m.store.claims.policyClaim policyId = none
  engine : m.store.claims.policyEngine = some env.engine
  policy : m.store.engine.policies policyId = some p
  product : ∃ product, m.store.engine.products p.productId = some product ∧
    product.category.chars ≠ []
  coverage : 0 < p.coverageAmount
  holder : p.policyholder = claimant
  active : p.status = .active
  started : p.startTime ≤ env.now
  taken : env.now ≤ p.endTime ∨
    env.now ≤ satAddU64 p.endTime m.store.claims.claimDeadline
  near : p.startTime ≤ satAddU64 env.now maxFutureSubmissionWindow
  inTime : 0 < p.endTime →
    env.now ≤ satAddU64 p.endTime m.store.claims.claimDeadline
  endless : p.endTime = 0 → env.now ≤ p.endTime

/-- The claimant's last filing is long enough ago. -/
def Rested (env : Context) (claimant : Address) (m : Machine Network) : Prop :=
  ∀ last ∈ m.store.claims.userLastClaim claimant,
    satAddU64 last userClaimCooldownSeconds ≤ env.now

theorem fileClaim_ok {claimant : Address} {policyId id : ℕ}
    (h : fileClaim env claimant policyId m = .ok (id, m')) :
    ∃ p fraud history, Eligible env claimant policyId p m ∧
      Rested env claimant m ∧ id + 1 < 2 ^ 128 ∧
      id = m.store.claims.nextClaimId ∧
      m' =
        { m with store :=
          { m.store with claims :=
            { m.store.claims with
              userLastClaim :=
                Function.update m.store.claims.userLastClaim claimant
                  (some env.now)
              nextClaimId := id + 1
              fraudRecord := fraud
              claim := Function.update m.store.claims.claim id
                (some (.fresh id policyId claimant p.coverageAmount env.now))
              policyClaim := Function.update m.store.claims.policyClaim policyId
                (some id)
              pendingClaims := m.store.claims.pendingClaims ++ [id]
              claimantHistory := history } } } := by
  simp [fileClaim, updateClaimantHistory] at h
  obtain ⟨hvacant, hengine, p, hp, product, hproduct, hcategory, hcoverage,
    hholder, -, hactive, hstart, htaken, hnear, hin, hendless, hrested, t, hid,
    _, t', hfraud, rfl⟩ := h
  obtain ⟨hbound, rfl, rfl⟩ := nextClaimId_ok hid
  obtain ⟨fraud, rfl⟩ := evaluateFraud_ok hfraud
  exact ⟨p, fraud, _, ⟨hvacant, hengine, hp, ⟨product, hproduct, hcategory⟩,
    hcoverage, hholder, hactive, hstart, htaken, hnear, hin, hendless⟩,
    hrested, hbound, rfl, rfl⟩

theorem fileClaim_move {claimant : Address} {policyId id : ℕ}
    (h : fileClaim env claimant policyId m = .ok (id, m')) :
    Move env.now env.engine (.file policyId false) (docket m) (docket m') := by
  obtain ⟨p, fraud, history, heligible, -, -, rfl, rfl⟩ := fileClaim_ok h
  obtain rfl := heligible.holder
  exact Move.file (d := docket m) (by simp [docket, heligible.engine])
    heligible.vacant heligible.policy heligible.active heligible.coverage
    (fun _ => heligible.started) (fun h => by cases h)

end Filing

/-! ## Calls into the other contracts -/

section Calls

variable {env : Context} {address : Address} {m m' : Machine Network}

theorem payClaim_change {e : Env} {caller : Address} {policyId : ℕ} {u : Unit}
    {t t' : Machine PolicyEngine.State}
    (h : PolicyEngine.payClaim e caller policyId t = .ok (u, t')) :
    PolicyEngine.Book.Change e (.claim policyId) (PolicyEngine.book t)
        (PolicyEngine.book t') ∧
      engineRest t'.store = engineRest t.store := by
  simp [PolicyEngine.payClaim] at h
  obtain ⟨-, p, hp, hactive, usdc, husdc, B, hB, rfl⟩ := h
  exact ⟨.claim hp hactive husdc hB, rfl⟩

theorem expirePolicy_change {e : Env} {caller : Address} {policyId : ℕ}
    {u : Unit} {t t' : Machine PolicyEngine.State}
    (h : PolicyEngine.expirePolicy e caller policyId t = .ok (u, t')) :
    PolicyEngine.Book.Change e (.expire policyId) (PolicyEngine.book t)
        (PolicyEngine.book t') ∧
      engineRest t'.store = engineRest t.store := by
  simp [PolicyEngine.expirePolicy] at h
  obtain ⟨-, p, hp, hactive, rfl⟩ := h
  exact ⟨.expire hp hactive, rfl⟩

/-- A payment settles the policy in the engine and frees its lock. -/
theorem releasePayout_ok {pool : Address} {policyId : ℕ} {u : Unit}
    (h : releasePayout env address pool policyId m = .ok (u, m')) :
    ∃ (e : Env) (b : PolicyEngine.Book) (l : CapitalLock),
      e.self = env.engine ∧
      PolicyEngine.Book.Change e (.claim policyId) (docket m).engine b ∧
      (docket m).Holds policyId l ∧ 0 < l.amount ∧
      docket m' = { (docket m).release policyId l with engine := b } := by
  simp only [releasePayout, bind_ok, callEngine_ok, callPool_ok] at h
  obtain ⟨_, _, ⟨-, s, B, hpay, rfl⟩, -, s', B', hrelease, rfl⟩ := h
  simp [RiskPool.releaseForClaim, RiskPool.releaseLock] at hrelease
  obtain ⟨-, l, hlock, hpos, hheld, rfl, rfl⟩ := hrelease
  obtain ⟨hchange, hrest⟩ := payClaim_change hpay
  refine ⟨_, _, l, rfl, hchange, ⟨hlock, hheld⟩, hpos, ?_⟩
  have hsame : (docket m).engineRest = engineRest s := hrest.symm
  change _ = Docket.mk _ _ _ _ _ _ _ (docket m).engineRest _ _ _ _
  rw [hsame]
  rfl

/-- One verification moves nothing but the oracle. -/
theorem callOracle_asks {q : OracleReadingQuery} {b : Bool}
    (h : (callOracle env address fun e =>
      OracleVerifier.verifyTriggerFresh e q.dataType q.key q.condition
        q.stalenessThreshold) m = .ok (b, m')) :
    ∃ o, Docket.Asks env.now m.bank q b m.store.oracle o ∧
      m' = { m with store := { m.store with oracle := o } } := by
  simp only [callOracle_ok] at h
  obtain ⟨-, o, B, hverify, rfl⟩ := h
  obtain ⟨v, -, -, hscored⟩ := OracleVerifier.verifyTriggerFresh_spec hverify
  obtain rfl : B = m.bank := hscored.bank
  exact ⟨o, ⟨env.enter env.oracle, rfl, hverify⟩, rfl⟩

theorem batchVerifyFresh_asks {e : Env} {queries : List OracleReadingQuery}
    {bs : List Bool} {o : OracleVerifier.State} {B : Bank}
    {t : Machine OracleVerifier.State}
    (h : OracleVerifier.batchVerifyFresh e queries ⟨o, B⟩ = .ok (bs, t)) :
    t.bank = B ∧ Docket.AsksAll e.now B queries bs o t.store := by
  unfold OracleVerifier.batchVerifyFresh at h
  induction queries generalizing o bs with
  | nil =>
      obtain ⟨rfl, rfl⟩ := pure_ok.mp h
      exact ⟨rfl, .nil o⟩
  | cons q queries ih =>
      simp only [collect, bind_ok, pure_ok] at h
      obtain ⟨b, t₁, hverify, bs', t₂, hrest, rfl, rfl⟩ := h
      obtain ⟨v, -, -, hscored⟩ := OracleVerifier.verifyTriggerFresh_spec hverify
      obtain ⟨o₁, B₁⟩ := t₁
      obtain rfl : B₁ = B := hscored.bank
      obtain ⟨hbank, hasks⟩ := ih hrest
      exact ⟨hbank, .cons ⟨e, rfl, hverify⟩ hasks⟩

end Calls

/-! ## Settlement -/

section Settlement

variable {env : Context} {m m' : Machine Network} {id : ℕ} {c : Claim}
  {p : Policy} {basis : Basis} {bps : Option ℕ} {r : ClaimResult}

/-- The payout ratio, capped. -/
def effectiveBps (partialPayoutBps : Option ℕ) : ℕ :=
  min (partialPayoutBps.getD 10000) 10000

/-- The move decides the claim on this basis, at this ratio. -/
def Kind.Decision (id : ℕ) (basis : Basis) (bps : ℕ) (k : Kind) : Prop :=
  k = .refuse id basis ∨ k = .hold id basis bps ∨ k = .settle id basis bps

/-- Settling on what the oracle just said is one move from before it was
asked. -/
theorem settle_move {verdict : Bool} {o : OracleVerifier.State}
    (horderly : (docket m).Orderly) (hfound : m.store.claims.claim id = some c)
    (hpolicy : m.store.engine.policies c.policyId = some p)
    (hjudges : Docket.Judges env.now m.bank p basis verdict m.store.oracle o)
    (h : settleClaimWithTriggerResult env c p verdict bps
      { m with store := { m.store with oracle := o } } = .ok (r, m')) :
    ∃ k, k.Decision id basis (effectiveBps bps) ∧
      Move env.now env.engine k (docket m) (docket m') := by
  obtain rfl : c.id = id := horderly.keyed id c hfound
  simp only [settleClaimWithTriggerResult, bind_ok, ensure_ok, policyEngine_ok,
    loadClaims_ok, unwrap_ok, ite_ok] at h
  obtain ⟨_, _, ⟨hpending, rfl⟩, _, _, ⟨hholder, rfl⟩, address, _,
    ⟨-, rfl⟩, s, _, ⟨rfl, rfl⟩, pool, _, ⟨-, rfl⟩, h⟩ := h
  have hdecides : (docket m).Decides c.id c p :=
    ⟨hfound, hpending, hpolicy, hholder⟩
  rcases h with ⟨hmet, h⟩ | ⟨hmet, h⟩
  · rw [hmet] at hjudges h
    simp only [check_ok, storeClaim_ok, removeFromPending,
      updateClaims_ok] at h
    obtain ⟨c₁, _, ⟨happrove, rfl⟩, c₂, t, hdisburse, _, _, rfl, _, _, rfl,
      h⟩ := h
    obtain ⟨-, rfl⟩ := pure_ok.mp h
    simp only [disburse, bind_ok, loadClaims_ok, ite_ok, pure_ok] at hdisburse
    obtain ⟨_, _, ⟨rfl, rfl⟩, ⟨-, rfl, rfl⟩ | ⟨-, _, t, hrelease, rfl, rfl⟩⟩ :=
      hdisburse
    · exact ⟨_, .inr (.inl rfl), .hold hdecides hjudges happrove⟩
    · obtain ⟨e, b, l, hself, hchange, hheld, hpos, hdocket⟩ :=
        releasePayout_ok hrelease
      have hpolicyId : c₂.policyId = c.policyId :=
        (Claim.approve_terms happrove).2.1
      rw [hpolicyId] at hchange hheld hdocket
      refine ⟨_, .inr (.inr rfl), ?_⟩
      change Move _ _ _ _ ((docket t).close c.id c₂)
      rw [hdocket]
      exact .settle hdecides hjudges happrove hself hchange hheld hpos
  · have hfalse : verdict = false := by simpa using hmet
    rw [hfalse] at hjudges h
    simp only [storeClaim_ok, removeFromPending, updateClaims_ok, pure_ok] at h
    obtain ⟨_, _, rfl, _, _, rfl, -, rfl⟩ := h
    exact ⟨_, .inl rfl, .refuse hdecides hjudges⟩

theorem evaluateAndSettle_move (horderly : (docket m).Orderly)
    (hfound : m.store.claims.claim id = some c)
    (hpolicy : m.store.engine.policies c.policyId = some p)
    (h : evaluateAndSettle env c p bps m = .ok (r, m')) :
    ∃ k, k.Decision id .own (effectiveBps bps) ∧
      Move env.now env.engine k (docket m) (docket m') := by
  simp only [evaluateAndSettle, bind_ok, ensure_ok, loadClaims_ok,
    unwrap_ok] at h
  obtain ⟨_, _, ⟨-, rfl⟩, _, _, ⟨-, rfl⟩, s, _, ⟨rfl, rfl⟩, oracle, _,
    ⟨-, rfl⟩, verdict, t, hverify, h⟩ := h
  obtain ⟨o, hasks, rfl⟩ := callOracle_asks
    (q := Docket.ownQuery p _) hverify
  exact settle_move horderly hfound hpolicy (.own hasks) h

/-! ## Processing -/

/-- `G` admits every decision of claim `id` on this basis, at this ratio. -/
def AdmitsDecisions (G : Docket → Kind → Prop) (d : Docket) (id : ℕ)
    (basis : Basis) (bps : ℕ) : Prop :=
  ∀ k, Kind.Decision id basis bps k → G d k

variable {G : Docket → Kind → Prop} {keeper : Address}

theorem processClaim_moved (horderly : (docket m).Orderly)
    (hG : AdmitsDecisions G (docket m) id .own (effectiveBps bps))
    (h : processClaim env keeper id bps m = .ok (r, m')) :
    Moved env G m m' := by
  simp only [processClaim, bind_ok, requireKeeper_ok, requireNotPaused_ok,
    loadClaim_ok, ite_ok, policyEngine_ok, getPolicy_ok, ensure_ok] at h
  obtain ⟨_, _, ⟨-, rfl⟩, _, _, ⟨-, rfl⟩, c, _, ⟨hc, rfl⟩, h⟩ := h
  rcases h with ⟨-, h⟩ | ⟨-, address, _, ⟨-, rfl⟩, p, _, ⟨-, hp, rfl⟩, _, _,
    ⟨-, rfl⟩, h⟩
  · obtain ⟨-, rfl⟩ := pure_ok.mp h
    exact .of_eq rfl
  · obtain ⟨k, hk, hmove⟩ := evaluateAndSettle_move horderly hc hp h
    exact .single hmove (hG _ hk)

theorem batchProcessClaims_moved {ids : List ℕ}
    {rs : List (ℕ × ClaimResult)} (horderly : (docket m).Orderly)
    (hG : ∀ d, ∀ id ∈ ids.take maxBatchSize,
      AdmitsDecisions G d id .own (effectiveBps bps))
    (h : batchProcessClaims env keeper ids bps m = .ok (rs, m')) :
    Moved env G m m' := by
  simp only [batchProcessClaims, bind_ok, requireKeeper_ok,
    requireNotPaused_ok] at h
  obtain ⟨_, _, ⟨-, rfl⟩, _, _, ⟨-, rfl⟩, h⟩ := h
  refine collect_moved (fun x hx t t' b ht hrun => ?_) horderly h
  obtain ⟨r, _, hprocess, hpure⟩ := bind_ok.mp hrun
  obtain ⟨-, rfl⟩ := pure_ok.mp hpure
  have hmoved := processClaim_moved ht (hG _ x hx) hprocess
  have hnow : (env.authorized keeper).now = env.now := by
    unfold Context.authorized
    split <;> rfl
  have hengine : (env.authorized keeper).engine = env.engine := by
    unfold Context.authorized
    split <;> rfl
  unfold Moved at hmoved
  rwa [hnow, hengine] at hmoved

theorem batchVerifyOracleReadings_asks {queries : List OracleReadingQuery}
    {bs : List Bool}
    (h : batchVerifyOracleReadings env queries m = .ok (bs, m')) :
    ∃ o, Docket.AsksAll env.now m.bank queries bs m.store.oracle o ∧
      m' = { m with store := { m.store with oracle := o } } := by
  simp only [batchVerifyOracleReadings, bind_ok, loadClaims_ok, unwrap_ok,
    callOracle_ok] at h
  obtain ⟨s, _, ⟨rfl, rfl⟩, oracle, _, ⟨-, rfl⟩, -, o, B, hverify, rfl⟩ := h
  obtain ⟨hbank, hasks⟩ := batchVerifyFresh_asks hverify
  obtain rfl : B = _ := hbank
  exact ⟨o, hasks, rfl⟩

theorem verifyReadingsIndividual_moved {queries : List OracleReadingQuery}
    {bs : List Bool} (horderly : (docket m).Orderly)
    (hG : ∀ d, G d .consult)
    (h : verifyReadingsIndividual env queries m = .ok (bs, m')) :
    Moved env G m m' := by
  simp only [verifyReadingsIndividual, bind_ok, loadClaims_ok,
    unwrap_ok] at h
  obtain ⟨s, _, ⟨rfl, rfl⟩, oracle, _, ⟨-, rfl⟩, h⟩ := h
  refine collect_moved (fun q _ t t' b _ hrun => ?_) horderly h
  obtain ⟨o, hasks, rfl⟩ := callOracle_asks hrun
  exact .single (.consult (.cons hasks (.nil o))) (hG _)

theorem processMultiReadingClaim_moved {queries : List OracleReadingQuery}
    {requireAll : Bool} (horderly : (docket m).Orderly)
    (hG : AdmitsDecisions G (docket m) id (.readings queries requireAll)
      (effectiveBps bps))
    (h : processMultiReadingClaim env keeper id queries requireAll bps m =
      .ok (r, m')) :
    Moved env G m m' := by
  simp only [processMultiReadingClaim, bind_ok, requireKeeper_ok,
    requireNotPaused_ok, ensure_ok, loadClaim_ok, ite_ok, policyEngine_ok,
    getPolicy_ok] at h
  obtain ⟨_, _, ⟨-, rfl⟩, _, _, ⟨-, rfl⟩, _, _, ⟨hne, rfl⟩, c, _, ⟨hc, rfl⟩,
    h⟩ := h
  rcases h with ⟨-, h⟩ | ⟨-, address, _, ⟨-, rfl⟩, p, _, ⟨-, hp, rfl⟩, _, _,
    ⟨-, rfl⟩, answers, _, hverify, h⟩
  · obtain ⟨-, rfl⟩ := pure_ok.mp h
    exact .of_eq rfl
  · obtain ⟨o, hasks, rfl⟩ := batchVerifyOracleReadings_asks hverify
    obtain ⟨k, hk, hmove⟩ :=
      settle_move horderly hc hp (.readings hne hasks) h
    exact .single hmove (hG _ hk)

/-! ## Processing by policy -/

variable {policyId : ℕ}

theorem evaluated_iff :
    m.store.claims.evaluated policyId = true ↔
      (docket m).evaluated policyId := by
  cases hid : m.store.claims.policyClaim policyId with
  | none => simp [State.evaluated, Docket.evaluated, docket, hid]
  | some claimId =>
      cases hc : m.store.claims.claim claimId with
      | none => simp [State.evaluated, Docket.evaluated, docket, hid, hc]
      | some c => simp [State.evaluated, Docket.evaluated, docket, hid, hc]

theorem closeExpired_move (hevaluated : ¬ (docket m).evaluated policyId)
    (hpolicy : m.store.engine.policies policyId = some p)
    (hend : p.endTime < env.now) {address : Address}
    (h : closeExpired env address policyId m = .ok (r, m')) :
    r = .expired ∧
      Move env.now env.engine (.expire policyId) (docket m) (docket m') := by
  simp only [closeExpired, bind_ok, loadClaims_ok, unwrap_ok, callEngine_ok,
    callPool_ok, pure_ok] at h
  obtain ⟨s, _, ⟨rfl, rfl⟩, pool, t, ⟨-, rfl⟩, _, _, ⟨-, s', B, hexpire, rfl⟩,
    _, _, ⟨-, s'', B', hrelease, rfl⟩, rfl, rfl⟩ := h
  simp [RiskPool.releaseForExpiry, RiskPool.releaseLock] at hrelease
  obtain ⟨-, l, hlock, hheld, rfl, rfl⟩ := hrelease
  obtain ⟨hchange, hrest⟩ := expirePolicy_change hexpire
  have hsame : (docket t).engineRest = engineRest s' := hrest.symm
  have hdocket : Move env.now env.engine (.expire policyId) (docket t) _ :=
    .expire hevaluated hpolicy hend hchange ⟨hlock, hheld⟩
  change Move _ _ _ _
    (Docket.mk _ _ _ _ _ _ _ (docket t).engineRest _ _ _ _) at hdocket
  rw [hsame] at hdocket
  exact ⟨rfl, hdocket⟩

/-- The claim of a policy is found, or filed by one move. -/
theorem claimOfPolicy_moved
    (hset : m.store.claims.policyEngine.isSome)
    (hG : m.store.claims.policyClaim policyId = none →
      G (docket m) (.file policyId true))
    (hpolicy : m.store.engine.policies policyId = some p)
    (hactive : p.status = .active) (hpos : 0 < p.coverageAmount)
    (hend : env.now ≤ p.endTime)
    (h : claimOfPolicy env p policyId m = .ok (id, m')) :
    Moved env G m m' ∧ m'.store.engine = m.store.engine ∧
      ((m' = m ∧ m.store.claims.policyClaim policyId = some id) ∨
        (m.store.claims.policyClaim policyId = none ∧
          m'.store.claims.policyClaim policyId = some id ∧
          m'.store.claims.claim id =
            some (.fresh id policyId p.policyholder p.coverageAmount
              env.now))) := by
  simp only [claimOfPolicy, bind_ok, loadClaims_ok] at h
  obtain ⟨s, t, ⟨rfl, rfl⟩, h⟩ := h
  cases hfound : t.store.claims.policyClaim policyId with
  | some claimId =>
      rw [hfound] at h
      obtain ⟨rfl, rfl⟩ := pure_ok.mp h
      exact ⟨.of_eq rfl, rfl, .inl ⟨rfl, rfl⟩⟩
  | none =>
      rw [hfound] at h
      simp only [bind_ok, recordClaim_ok, pure_ok] at h
      obtain ⟨claimId, _, hid, _, _, rfl, rfl, rfl⟩ := h
      obtain ⟨-, rfl, rfl⟩ := nextClaimId_ok hid
      refine ⟨?_, rfl, .inr ⟨rfl, ?_, ?_⟩⟩
      · exact .single (.file hset hfound hpolicy hactive hpos
          (fun h => by cases h) fun _ => hend) (hG hfound)
      · simp [Claim.fresh]
      · simp [Claim.fresh]

/-- What a call for one policy needs to be admitted: it decides the claim of
the policy, which it files first if there is none. -/
structure AdmitsPolicy (G : Docket → Kind → Prop) (d : Docket) (policyId : ℕ)
    (bps : ℕ) : Prop where
  expire : G d (.expire policyId)
  decide : ∀ id, d.policyClaim policyId = some id →
    AdmitsDecisions G d id .own bps
  file : d.policyClaim policyId = none → G d (.file policyId true)
  decideFiled : d.policyClaim policyId = none → ∀ d' id,
    d'.policyClaim policyId = some id → AdmitsDecisions G d' id .own bps

theorem processPolicy_moved (horderly : (docket m).Orderly)
    (hG : AdmitsPolicy G (docket m) policyId (effectiveBps bps))
    (h : processPolicy env policyId bps m = .ok (r, m')) :
    Moved env G m m' := by
  simp only [processPolicy, bind_ok, loadClaims_ok] at h
  obtain ⟨s, _, ⟨hs, ht⟩, h⟩ := h
  rw [hs, ht] at h
  simp only [ite_ok, bind_ok, policyEngine_ok, getPolicy_ok, ensure_ok] at h
  rcases h with ⟨-, h⟩ | ⟨hevaluated, address, _, ⟨haddress, ht⟩, p, _,
    ⟨-, hp, ht'⟩, _, _, ⟨hpos, ht''⟩, h⟩
  · obtain ⟨-, rfl⟩ := pure_ok.mp h
    exact .of_eq rfl
  rw [ht'', ht', ht] at h
  rw [ht] at hp
  cases hstatus : p.status with
  | active =>
      simp only [hstatus, ite_ok, bind_ok, loadClaims_ok, unwrap_ok] at h
      rcases h with ⟨hend, h⟩ | ⟨hend, id, _, hclaim, s, _, ⟨rfl, rfl⟩, c, t,
        ⟨hc, rfl⟩, h⟩
      · rw [evaluated_iff] at hevaluated
        exact .single (closeExpired_move hevaluated hp hend h).2 hG.expire
      · obtain ⟨hmoved, hengine, hfresh⟩ := claimOfPolicy_moved
          (by simp [haddress]) hG.file hp hstatus hpos (by omega) hclaim
        rcases h with ⟨-, h⟩ | ⟨-, h⟩
        · obtain ⟨-, rfl⟩ := pure_ok.mp h
          exact hmoved
        · have hpolicy : t.store.engine.policies c.policyId = some p := by
            rw [hengine]
            rcases hfresh with ⟨rfl, hfound⟩ | ⟨-, -, hfound⟩
            · obtain ⟨c', hc', hid⟩ := horderly.linked policyId id hfound
              obtain rfl := Option.some.inj (hc.symm.trans hc')
              rw [hid]
              exact hp
            · obtain rfl := Option.some.inj (hc.symm.trans hfound)
              exact hp
          obtain ⟨k, hk, hmove⟩ := evaluateAndSettle_move
            (hmoved.orderly horderly) hc hpolicy h
          have hadmits : AdmitsDecisions G (docket t) id .own
              (effectiveBps bps) := by
            rcases hfresh with ⟨rfl, hfound⟩ | ⟨hnone, hfound, -⟩
            · exact hG.decide id hfound
            · exact hG.decideFiled hnone _ id hfound
          exact hmoved.trans (.single hmove (hadmits _ hk))
  | _ =>
      simp only [hstatus] at h
      obtain ⟨-, rfl⟩ := pure_ok.mp h
      exact .of_eq rfl

/-- The machine once the time of a call for the policy is noted. -/
def noted (m : Machine Network) (policyId now : ℕ) : Machine Network :=
  { m with store :=
    { m.store with claims :=
      { m.store.claims with
        autoProcessLastTime :=
          Function.update m.store.claims.autoProcessLastTime policyId
            (some now) } } }

/-- The last call for the policy is past the cooldown. -/
def State.CooledDown (s : State) (policyId now : ℕ) : Prop :=
  ∀ last, s.autoProcessLastTime policyId = some last →
    satAddU64 last s.autoProcessCooldown ≤ now

theorem autoProcess_ok :
    autoProcess env keeper policyId bps m = .ok (r, m') ↔
      (m.store.claims.keeper keeper = true ∧ keeper ∈ env.signers) ∧
        m.store.claims.paused = false ∧
        m.store.claims.CooledDown policyId env.now ∧
        processPolicy env policyId bps (noted m policyId env.now) =
          .ok (r, m') := by
  simp [autoProcess, State.CooledDown, noted]

theorem autoProcess_moved (horderly : (docket m).Orderly)
    (hG : AdmitsPolicy G (docket m) policyId (effectiveBps bps))
    (h : autoProcess env keeper policyId bps m = .ok (r, m')) :
    Moved env G m m' := by
  obtain ⟨-, -, -, h⟩ := autoProcess_ok.mp h
  have hmoved : Moved env G (noted m policyId env.now) m' :=
    processPolicy_moved horderly hG h
  exact hmoved

/-- One claim of a batch: nothing happens, or its policy is processed. -/
theorem autoProcessPending_moved {result : Option (ℕ × ClaimResult)}
    (horderly : (docket m).Orderly)
    (hG : ∀ c, m.store.claims.claim id = some c →
      G (docket m) (.expire c.policyId) ∧
        AdmitsDecisions G (docket m) id .own (effectiveBps none))
    (h : autoProcessPending env keeper id m = .ok (result, m')) :
    Moved env G m m' := by
  simp only [autoProcessPending, bind_ok, loadClaims_ok] at h
  obtain ⟨s, _, ⟨hs, ht⟩, h⟩ := h
  rw [hs, ht] at h
  cases hc : m.store.claims.claim id with
  | none =>
      rw [hc] at h
      obtain ⟨-, rfl⟩ := pure_ok.mp h
      exact .of_eq rfl
  | some c =>
      rw [hc] at h
      simp only [ite_ok, bind_ok] at h
      rcases h with ⟨-, h⟩ | ⟨-, outcome, t, hattempt, h⟩
      · obtain ⟨-, rfl⟩ := pure_ok.mp h
        exact .of_eq rfl
      · obtain rfl : m' = t := by
          cases outcome with
          | ok result => exact (pure_ok.mp h).2
          | error e => exact (pure_ok.mp h).2
        rcases attempt_ok.mp hattempt with ⟨r, -, hrun⟩ | ⟨e, -, -, rfl⟩
        · have hrecorded := horderly.recorded id c hc
          have hadmits : AdmitsPolicy G (docket m) c.policyId
              (effectiveBps none) := by
            refine ⟨(hG c hc).1, fun i hi => ?_, fun hnone => ?_,
              fun hnone => ?_⟩
            · obtain rfl := Option.some.inj (hrecorded.symm.trans hi)
              exact (hG c hc).2
            · cases hrecorded.symm.trans hnone
            · cases hrecorded.symm.trans hnone
          have hmoved : Moved env.enterSelf G m m' :=
            autoProcess_moved horderly hadmits hrun
          exact hmoved
        · exact .of_eq rfl

/-- Sorting the queue only reorders it. -/
theorem bubble_perm {n : ℕ} {xs : List (ℕ × ℕ)} :
    (bubble n xs).Perm xs := by
  fun_induction bubble n xs with
  | case1 => rfl
  | case2 => rfl
  | case3 => rfl
  | case4 k x y xs hlt ih => exact (ih.cons y).trans (.swap x y xs)
  | case5 k x y xs hlt ih => exact ih.cons x

theorem bubbleSort_perm {xs : List (ℕ × ℕ)} : (bubbleSort xs).Perm xs := by
  unfold bubbleSort
  generalize List.range xs.length = passes
  suffices h : ∀ ys : List (ℕ × ℕ),
      (passes.foldl (fun ys i => bubble (xs.length - i - 1) ys) ys).Perm ys
    from h xs
  intro ys
  induction passes generalizing ys with
  | nil => rfl
  | cons i passes ih => exact (ih _).trans bubble_perm

/-- The sorted queue holds the stored claims of the queue. -/
theorem sorted_perm {s : State} :
    ((bubbleSort s.claimTimestamps).map Prod.fst).Perm
      (s.pendingClaims.filter fun id => (s.claim id).isSome) := by
  have hstored : s.claimTimestamps.map Prod.fst =
      s.pendingClaims.filter fun id => (s.claim id).isSome := by
    rw [State.claimTimestamps, List.map_filterMap, ← List.filterMap_eq_filter]
    congr 1
    funext id
    cases hc : s.claim id with
    | none => simp [Option.guard, hc]
    | some c => simp [Option.guard, hc]
  rw [← hstored]
  exact bubbleSort_perm.map Prod.fst

theorem batchAutoProcess_moved {limit : ℕ} {rs : List (ℕ × ClaimResult)}
    (horderly : (docket m).Orderly) (hsort : ∀ d, G d .sort)
    (hG : ∀ d, ∀ id ∈ (docket m).window limit, ∀ c, d.claim id = some c →
      G d (.expire c.policyId) ∧
        AdmitsDecisions G d id .own (effectiveBps none))
    (h : batchAutoProcess env keeper limit m = .ok (rs, m')) :
    Moved env G m m' := by
  simp only [batchAutoProcess, bind_ok, requireKeeper_ok, requireNotPaused_ok,
    ensure_ok, loadClaims_ok, updateClaims_ok, pure_ok] at h
  obtain ⟨_, _, ⟨-, rfl⟩, _, _, ⟨-, rfl⟩, _, _, ⟨-, rfl⟩, s, t, ⟨rfl, rfl⟩,
    _, _, rfl, results, _, hrun, -, rfl⟩ := h
  have hsorted : Moved env G t
      { t with store :=
        { t.store with claims :=
          { t.store.claims with
            pendingClaims :=
              (bubbleSort t.store.claims.claimTimestamps).map
                Prod.fst } } } :=
    .single (.sort sorted_perm) (hsort _)
  refine hsorted.trans (collect_moved (fun id hid t t' r ht h => ?_)
    (hsorted.orderly horderly) hrun)
  exact autoProcessPending_moved ht (fun c hc => hG _ id hid c hc) h

end Settlement

/-! ## After the evaluation -/

section Resolution

variable {env : Context} {m m' : Machine Network} {id : ℕ} {u : Unit}

theorem claimPayout_move {paid : ℤ}
    (h : claimPayout env id m = .ok (paid, m')) :
    Move env.now env.engine (.payout id) (docket m) (docket m') := by
  simp only [claimPayout, bind_ok, requireNotPaused_ok, loadClaim_ok,
    unwrap_ok, ensure_ok, storeClaim_ok, policyEngine_ok, loadClaims_ok,
    pure_ok] at h
  obtain ⟨_, _, ⟨-, rfl⟩, c, _, ⟨hc, rfl⟩, ready, _, ⟨hready, rfl⟩, _, _,
    ⟨hdue, rfl⟩, amount, _, ⟨hpaid, rfl⟩, _, t, ⟨hle, rfl⟩, _, _, rfl,
    address, _, ⟨-, rfl⟩, s, _, ⟨rfl, rfl⟩, pool, _, ⟨-, rfl⟩, _, _, hrelease,
    rfl, rfl⟩ := h
  obtain ⟨e, b, l, hself, hchange, hheld, hpos, hdocket⟩ :=
    releasePayout_ok hrelease
  rw [hdocket]
  exact Move.payout (d := docket t) hc hready hdue hpaid hle hself hchange
    hheld hpos

theorem claimPayoutTo_move {recipient : Address} {paid : ℤ}
    (h : claimPayoutTo env id recipient m = .ok (paid, m')) :
    Move env.now env.engine (.payout id) (docket m) (docket m') := by
  simp only [claimPayoutTo, bind_ok, loadClaim_ok, ensure_ok] at h
  obtain ⟨c, _, ⟨-, rfl⟩, _, _, ⟨-, rfl⟩, h⟩ := h
  exact claimPayout_move h

theorem claimPayoutWithToken_move {token : Address} {paid : ℤ}
    (h : claimPayoutWithToken env id token m = .ok (paid, m')) :
    Move env.now env.engine (.payout id) (docket m) (docket m') := by
  simp only [claimPayoutWithToken, bind_ok, requireNotPaused_ok, loadClaim_ok,
    policyEngine_ok, getPolicy_ok, getProduct_ok, ensure_ok] at h
  obtain ⟨_, _, ⟨-, rfl⟩, c, _, ⟨-, rfl⟩, address, _, ⟨-, rfl⟩, p, _,
    ⟨-, -, rfl⟩, product, _, ⟨-, -, rfl⟩, _, _, ⟨-, rfl⟩, h⟩ := h
  exact claimPayout_move h

theorem disputeClaim_move {caller : Address} {reason : Symbol}
    (h : disputeClaim env caller id reason m = .ok (u, m')) :
    Move env.now env.engine (.dispute id) (docket m) (docket m') := by
  simp [disputeClaim, removeFromPending] at h
  obtain ⟨-, c, hc, -, p, -, -, hstatus, -, -, -, rfl⟩ := h
  exact .dispute hc hstatus

theorem resolveDispute_move {admin : Address}
    (h : resolveDispute env admin id m = .ok (u, m')) :
    Move env.now env.engine (.resolve id) (docket m) (docket m') := by
  simp [resolveDispute, pushPending] at h
  obtain ⟨-, c, hc, hstatus, rfl⟩ := h
  exact .resolve hc hstatus

theorem rejectClaim_move {admin : Address}
    (h : rejectClaim env admin id m = .ok (u, m')) :
    Move env.now env.engine (.reject id) (docket m) (docket m') := by
  simp [rejectClaim, removeFromPending] at h
  obtain ⟨-, c, hc, rfl⟩ := h
  exact .reject hc

theorem escalateClaim_move {caller : Address}
    (h : escalateClaim env caller id m = .ok (u, m')) :
    Move env.now env.engine (.escalate id) (docket m) (docket m') := by
  simp [escalateClaim, removeFromPending] at h
  obtain ⟨-, -, c, hc, hstatus, -, p, -, product, -, -, -, rfl⟩ := h
  exact .escalate hc hstatus

theorem scheduleInstallments_move {caller : Address} {amount : ℤ}
    {num interval : ℕ}
    (h : scheduleInstallments env caller id amount num interval m =
      .ok (u, m')) :
    Move env.now env.engine (.annotate id) (docket m) (docket m') := by
  simp [scheduleInstallments] at h
  obtain ⟨-, -, -, -, c, hc, hstatus, -, rfl⟩ := h
  exact .annotate hc ⟨rfl, rfl, rfl, rfl, rfl, rfl, rfl, rfl, rfl, rfl⟩
    fun _ => hstatus

theorem claimInstallment_move {claimant : Address} {amount : ℤ}
    (h : claimInstallment env claimant id m = .ok (amount, m')) :
    Move env.now env.engine (.installment id) (docket m) (docket m') := by
  simp [claimInstallment, RiskPool.releaseForClaim, RiskPool.releaseLock] at h
  obtain ⟨-, -, c, hc, -, schedule, hschedule, -, due, -, -, -, l,
    ⟨-, hlock, hpos, hheld⟩, rfl, -⟩ := h
  refine .installment hc ?_ ⟨rfl, rfl, rfl, rfl, rfl, rfl, rfl, rfl, rfl, rfl⟩
    ⟨hlock, hheld⟩ hpos
  rintro hnil
  simp [hnil] at hschedule

theorem verifyClaimantIdentity_move {attester : Address} {idType : Symbol}
    (h : verifyClaimantIdentity env attester id idType m = .ok (u, m')) :
    Move env.now env.engine (.annotate id) (docket m) (docket m') := by
  simp [verifyClaimantIdentity, requireAdminOrAttester] at h
  obtain ⟨-, admin, -, -, c, hc, rfl⟩ := h
  exact .annotate hc ⟨rfl, rfl, rfl, rfl, rfl, rfl, rfl, rfl, rfl, rfl⟩
    fun hne => (hne rfl).elim

end Resolution

/-! ## Every call -/

namespace Entry

/-- The ratio the caller asks for. -/
def partialPayoutBps : Entry → Option ℕ
  | .processClaim _ _ bps | .batchProcessClaims _ _ bps
  | .processMultiReadingClaim _ _ _ _ bps | .autoProcess _ _ bps => bps
  | _ => none

/-- The call may decide claim `id` on this basis; `d₀` is the docket the call
starts from. -/
def judges (d₀ d : Docket) (id : ℕ) (basis : Basis) : Entry → Prop
  | .processClaim _ claimId _ => d = d₀ ∧ id = claimId ∧ basis = .own
  | .processMultiReadingClaim _ claimId queries requireAll _ =>
      d = d₀ ∧ id = claimId ∧ basis = .readings queries requireAll
  | .batchProcessClaims _ ids _ => id ∈ ids.take maxBatchSize ∧ basis = .own
  | .autoProcess _ policyId _ => d.policyClaim policyId = some id ∧ basis = .own
  | .batchAutoProcess _ limit => id ∈ d₀.window limit ∧ basis = .own
  | _ => False

/-- The call writes installments or an attestation into claim `id`. -/
def annotates (id : ℕ) : Entry → Prop
  | .scheduleInstallments _ claimId .. | .verifyClaimantIdentity _ claimId _ =>
      claimId = id
  | _ => False

/-- The call processes policy `policyId` without being told a claim; a batch
takes the policies of the claims on the docket. -/
def sweeps (d₀ d : Docket) (policyId : ℕ) : Entry → Prop
  | .autoProcess _ id _ => d = d₀ ∧ id = policyId
  | .batchAutoProcess .. => ∃ id c, d.claim id = some c ∧ c.policyId = policyId
  | _ => False

/-- The call collects a delayed payout of claim `id`. -/
def collects (id : ℕ) : Entry → Prop
  | .claimPayout claimId | .claimPayoutTo claimId _
  | .claimPayoutWithToken claimId _ => claimId = id
  | _ => False

/-- The moves a call that starts from `d₀` can contain. -/
def admits (e : Entry) (d₀ d : Docket) : Kind → Prop
  | .file _ false => e.files = true
  | .file policyId true => e.sweeps d₀ d policyId
  | .refuse id basis => e.judges d₀ d id basis
  | .hold id basis bps | .settle id basis bps =>
      e.judges d₀ d id basis ∧ bps = effectiveBps e.partialPayoutBps
  | .payout id => d = d₀ ∧ e.collects id
  | .expire policyId => e.sweeps d₀ d policyId
  | .dispute id => d = d₀ ∧ ∃ caller reason, e = .disputeClaim caller id reason
  | .resolve id => d = d₀ ∧ ∃ admin, e = .resolveDispute admin id
  | .reject id => d = d₀ ∧ ∃ admin, e = .rejectClaim admin id
  | .escalate id => d = d₀ ∧ ∃ caller, e = .escalateClaim caller id
  | .installment id => d = d₀ ∧ ∃ claimant, e = .claimInstallment claimant id
  | .annotate id => d = d₀ ∧ e.annotates id
  | _ => True

theorem admits_decisions {e : Entry} {d₀ d : Docket} {id : ℕ} {basis : Basis}
    (h : e.judges d₀ d id basis) :
    AdmitsDecisions (e.admits d₀) d id basis
      (effectiveBps e.partialPayoutBps) := by
  rintro k (rfl | rfl | rfl)
  · exact h
  · exact ⟨h, rfl⟩
  · exact ⟨h, rfl⟩

end Entry

section Exec

variable {env : Context} {m m' : Machine Network}

/-- Entry points that leave the docket alone. -/
def Entry.isSetting : Entry → Bool
  | .addKeeper .. | .removeKeeper .. | .registerClaimType ..
  | .setDisputeWindow .. | .setDisputeDeadline .. | .pause .. | .resume ..
  | .setGuardians .. | .setGuardianThreshold .. | .proposeNewAdmin ..
  | .approveAdminChange .. | .acceptAdmin .. | .setEscalationThreshold ..
  | .setCategoryEscalation .. | .setClaimDeadline ..
  | .submitClaimEvidence .. | .setPayoutDelay .. | .setFraudConfig ..
  | .requireIdentityForCategory .. | .removeIdentityRequirement ..
  | .addAuthorizedAttester .. | .removeAuthorizedAttester .. => true
  | _ => false

theorem exec_setting {e : Entry} {u : Unit} (he : e.isSetting = true)
    (h : exec env e m = .ok (u, m')) : docket m' = docket m := by
  cases e with
  | addKeeper =>
      simp [exec, addKeeper] at h
      obtain ⟨-, rfl⟩ := h
      rfl
  | removeKeeper =>
      simp [exec, removeKeeper] at h
      obtain ⟨-, rfl⟩ := h
      rfl
  | registerClaimType =>
      simp [exec, registerClaimType] at h
      obtain ⟨-, -, -, rfl⟩ := h
      rfl
  | setDisputeWindow =>
      simp [exec, setDisputeWindow] at h
      obtain ⟨-, -, rfl⟩ := h
      rfl
  | setDisputeDeadline =>
      simp [exec, setDisputeDeadline] at h
      obtain ⟨-, -, c, -, rfl⟩ := h
      rfl
  | pause =>
      simp [exec, pause] at h
      obtain ⟨-, rfl⟩ := h
      rfl
  | resume =>
      simp [exec, resume] at h
      obtain ⟨-, rfl⟩ := h
      rfl
  | setGuardians =>
      simp [exec, setGuardians] at h
      obtain ⟨-, -, rfl⟩ := h
      rfl
  | setGuardianThreshold =>
      simp [exec, setGuardianThreshold] at h
      obtain ⟨-, -, -, rfl⟩ := h
      rfl
  | proposeNewAdmin =>
      simp [exec, proposeNewAdmin, ite_ok] at h
      obtain ⟨-, -, ⟨-, rfl⟩ | ⟨-, rfl⟩⟩ := h
      · rfl
      · rfl
  | approveAdminChange =>
      simp [exec, approveAdminChange, ite_ok] at h
      obtain ⟨-, -, pending, -, -, -, ⟨-, rfl⟩ | ⟨-, rfl⟩⟩ := h
      · rfl
      · rfl
  | acceptAdmin =>
      simp [exec, acceptAdmin] at h
      obtain ⟨-, -, -, rfl⟩ := h
      rfl
  | setEscalationThreshold =>
      simp [exec, setEscalationThreshold] at h
      obtain ⟨-, -, rfl⟩ := h
      rfl
  | setCategoryEscalation =>
      simp [exec, setCategoryEscalation] at h
      obtain ⟨-, -, rfl⟩ := h
      rfl
  | setClaimDeadline =>
      simp [exec, setClaimDeadline] at h
      obtain ⟨-, -, rfl⟩ := h
      rfl
  | submitClaimEvidence =>
      simp [exec, submitClaimEvidence] at h
      obtain ⟨-, -, c, -, -, -, -, rfl⟩ := h
      rfl
  | setPayoutDelay =>
      simp [exec, setPayoutDelay] at h
      obtain ⟨-, -, -, rfl⟩ := h
      rfl
  | setFraudConfig =>
      simp [exec, setFraudConfig] at h
      obtain ⟨-, -, rfl⟩ := h
      rfl
  | requireIdentityForCategory =>
      simp [exec, requireIdentityForCategory] at h
      obtain ⟨-, rfl⟩ := h
      rfl
  | removeIdentityRequirement =>
      simp [exec, removeIdentityRequirement] at h
      obtain ⟨-, rfl⟩ := h
      rfl
  | addAuthorizedAttester =>
      simp [exec, addAuthorizedAttester] at h
      obtain ⟨-, rfl⟩ := h
      rfl
  | removeAuthorizedAttester =>
      simp [exec, removeAuthorizedAttester] at h
      obtain ⟨-, rfl⟩ := h
      rfl
  | _ => cases he

theorem exec_moved {e : Entry} {u : Unit} (horderly : (docket m).Orderly)
    (h : exec env e m = .ok (u, m')) :
    Moved env (e.admits (docket m)) m m' := by
  cases e with
  | initializeProcessor =>
      simp [exec, initializeProcessor] at h
      obtain ⟨hfresh, -, rfl⟩ := h
      exact .single (.setUp hfresh) trivial
  | submitClaim =>
      simp [exec, submitClaim] at h
      obtain ⟨-, id, hfile⟩ := h
      exact .single (fileClaim_move hfile) rfl
  | submitClaimWithRef =>
      simp [exec, submitClaimWithRef] at h
      obtain ⟨-, -, -, id, t, hfile, rfl⟩ := h
      exact .trans (.single (fileClaim_move hfile) rfl) (.of_eq rfl)
  | submitClaimWithType =>
      simp [exec, submitClaimWithType] at h
      obtain ⟨-, -, id, hfile⟩ := h
      exact .single (fileClaim_move hfile) rfl
  | batchSubmitClaims =>
      simp [exec, batchSubmitClaims] at h
      obtain ⟨-, ids, h⟩ := h
      exact collect_moved (fun _ _ _ _ _ _ hfile =>
        .single (fileClaim_move hfile) rfl) horderly h
  | processClaim =>
      obtain ⟨r, h⟩ := perform_ok.mp h
      exact processClaim_moved horderly (Entry.admits_decisions ⟨rfl, rfl, rfl⟩) h
  | batchProcessClaims =>
      obtain ⟨rs, h⟩ := perform_ok.mp h
      exact batchProcessClaims_moved horderly
        (fun _ _ hid => Entry.admits_decisions ⟨hid, rfl⟩) h
  | batchVerifyOracleReadings =>
      obtain ⟨bs, h⟩ := perform_ok.mp h
      obtain ⟨o, hasks, rfl⟩ := batchVerifyOracleReadings_asks h
      exact .single (.consult hasks) trivial
  | verifyReadingsIndividual =>
      obtain ⟨bs, h⟩ := perform_ok.mp h
      exact verifyReadingsIndividual_moved horderly (fun _ => trivial) h
  | processMultiReadingClaim =>
      obtain ⟨r, h⟩ := perform_ok.mp h
      exact processMultiReadingClaim_moved horderly
        (Entry.admits_decisions ⟨rfl, rfl, rfl⟩) h
  | autoProcess =>
      obtain ⟨r, h⟩ := perform_ok.mp h
      exact autoProcess_moved horderly
        ⟨⟨rfl, rfl⟩, fun _ hid => Entry.admits_decisions ⟨hid, rfl⟩,
          fun _ => ⟨rfl, rfl⟩,
          fun _ _ _ hid => Entry.admits_decisions ⟨hid, rfl⟩⟩ h
  | batchAutoProcess =>
      obtain ⟨rs, h⟩ := perform_ok.mp h
      exact batchAutoProcess_moved horderly (fun _ => trivial)
        (fun d id hid c hc => ⟨⟨id, c, hc, rfl⟩,
          Entry.admits_decisions ⟨hid, rfl⟩⟩) h
  | disputeClaim => exact .single (disputeClaim_move h) ⟨rfl, _, _, rfl⟩
  | resolveDispute => exact .single (resolveDispute_move h) ⟨rfl, _, rfl⟩
  | rejectClaim => exact .single (rejectClaim_move h) ⟨rfl, _, rfl⟩
  | scheduleInstallments =>
      exact .single (scheduleInstallments_move h) ⟨rfl, rfl⟩
  | claimInstallment =>
      obtain ⟨amount, h⟩ := perform_ok.mp h
      exact .single (claimInstallment_move h) ⟨rfl, _, rfl⟩
  | claimPayoutWithToken =>
      obtain ⟨paid, h⟩ := perform_ok.mp h
      exact .single (claimPayoutWithToken_move h) ⟨rfl, rfl⟩
  | claimPayoutTo =>
      obtain ⟨paid, h⟩ := perform_ok.mp h
      exact .single (claimPayoutTo_move h) ⟨rfl, rfl⟩
  | claimPayout =>
      obtain ⟨paid, h⟩ := perform_ok.mp h
      exact .single (claimPayout_move h) ⟨rfl, rfl⟩
  | escalateClaim => exact .single (escalateClaim_move h) ⟨rfl, _, rfl⟩
  | verifyClaimantIdentity =>
      exact .single (verifyClaimantIdentity_move h) ⟨rfl, rfl⟩
  | _ => exact .of_eq (exec_setting rfl h)

end Exec

end Parashield.ClaimsProcessor
