import Parashield.PolicyEngine.Refunds
import Parashield.Protocol.Filings
import Parashield.Protocol.Paths
import Parashield.Protocol.Queue
import Parashield.Support.Failure

/-!
# Overdue claims, as reported and as escalated

Three entry points say whether a claim can be escalated.  All of them ask that
it is pending and past the threshold of its category; the call that escalates
it also asks that the time for claims on its policy is not over yet.  So they
agree as long as that time lasts.
-/

namespace Parashield.Protocol

open Support Support.Contract Invocation
open PolicyEngine (InsuranceProduct Policy Stocked Wired)
open ClaimsProcessor

/-! ## Every claim can be looked up -/

section Moves

variable {now : ℕ} {engine : Address} {k : Kind} {d d' : Docket}

/-- All claims have been submitted by now. -/
def Dated (now : ℕ) (d : Docket) : Prop :=
  ∀ id c, d.claim id = some c → c.submittedAt ≤ now

theorem Dated.move (h : Dated now d) (hmove : Move now engine k d d') :
    Dated now d' := by
  have hwrite : ∀ {i j : ℕ} {c c' : Claim}, d.claim i = some c →
      c'.submittedAt = c.submittedAt →
      ∀ id x, d.setClaim j c' id = some x → x.submittedAt ≤ now :=
    fun hc hsame => forall_setClaim h (hsame.trans_le (h _ _ hc))
  cases hmove with
  | file => exact forall_setClaim h le_rfl
  | refuse hc => exact hwrite hc.found rfl
  | hold hc _ happrove =>
      obtain ⟨-, -, -, -, -, hsubmitted⟩ := Claim.approve_terms happrove
      exact hwrite hc.found hsubmitted
  | settle hc _ happrove =>
      obtain ⟨-, -, -, -, -, hsubmitted⟩ := Claim.approve_terms happrove
      exact hwrite hc.found hsubmitted
  | payout hc => exact hwrite hc rfl
  | dispute hc => exact hwrite hc rfl
  | resolve hc => exact hwrite hc rfl
  | reject hc => exact hwrite hc rfl
  | escalate hc => exact hwrite hc rfl
  | installment hc _ hterms => exact hwrite hc hterms.submittedAt
  | annotate hc hterms => exact hwrite hc hterms.submittedAt
  | _ => exact h

theorem dated_stable {D : Sites} : Stable D (fun _ _ => True) Dated where
  deployed _ _ := by
    simp [Dated, docket, Network.deployed, ClaimsProcessor.State.deployed]
  tick hle h id c hc := (h id c hc).trans hle
  move _ _ hmove _ _ h := h.move hmove
  change _ _ _ _ _ h := h
  rest := by
    rintro now d _ ⟨bank, engineRest, oracle, lock, totalLocked, poolRest, -,
      rfl⟩ h
    exact h

/-- Every policy of the docket has its product. -/
def Supplied (d : Docket) : Prop :=
  ∀ id p, d.engine.policies id = some p →
    ∃ product, d.engineRest.products p.productId = some product

theorem Supplied.move (hbook : d.engine.Sound) (h : Supplied d)
    (hmove : Move now engine k d d') : Supplied d' := by
  intro id p hp
  rw [move_engineRest hmove]
  rcases move_book hmove with heq | ⟨env, bk, policyId, hchange, hbk⟩
  · rw [heq] at hp
    exact h id p hp
  · rcases hbook.arises hchange hp with ⟨q, hq, hcontinues⟩ | ⟨-, rfl, -⟩
    · rw [hcontinues.terms.product]
      exact h id q hq
    · rcases hbk with hbk | hbk <;> cases hbk

/-- Only filing brings the first claim. -/
theorem move_vacant (h : Move now engine k d d')
    (hk : ∀ policyId byKeeper, k ≠ .file policyId byKeeper)
    (hnone : ∀ id, d.claim id = none) : ∀ id, d'.claim id = none := by
  intro id
  by_contra hfound
  obtain ⟨c, hc⟩ := Option.ne_none_iff_exists'.mp hfound
  rcases move_arises h id c hc with ⟨c₀, hc₀, -⟩ | hfiled
  · rw [hnone id] at hc₀
    cases hc₀
  · cases hfiled with
    | file => exact hk _ _ rfl

/-- The address of the engine is set once. -/
theorem move_address (horderly : d.Orderly) (h : Move now engine k d d')
    {address : Address} (hset : d.policyEngine = some address) :
    d'.policyEngine = some address := by
  cases h with
  | setUp hfresh =>
      have hinit := horderly.setUp (by rw [hset]; rfl)
      rw [hfresh] at hinit
      cases hinit
  | _ => exact hset

end Moves

section Calls

variable {env : Context} {m m' : Machine Network} {e : ClaimsProcessor.Entry}
  {u : Unit}

/-- Claims are filed with the engine at hand. -/
def Sited (engine : Address) (s : ClaimsProcessor.State) : Prop :=
  ∀ id c, s.claim id = some c → s.policyEngine = some engine

theorem processPolicy_address {policyId : ℕ} {bps : Option ℕ} {r : ClaimResult}
    (hnone : m.store.claims.evaluated policyId = false)
    (h : processPolicy env policyId bps m = .ok (r, m')) :
    m.store.claims.policyEngine = some env.engine := by
  simp only [processPolicy, bind_ok, loadClaims_ok] at h
  obtain ⟨_, _, ⟨rfl, rfl⟩, h⟩ := h
  simp only [hnone, Bool.false_eq_true, if_false, bind_ok, policyEngine_ok,
    getPolicy_ok] at h
  obtain ⟨_, _, ⟨haddress, rfl⟩, p, _, ⟨rfl, -, -⟩, -⟩ := h
  exact haddress

/-- With another engine nothing is filed. -/
theorem exec_vacant (horderly : (docket m).Orderly)
    (hother : m.store.claims.policyEngine ≠ some env.engine)
    (hnone : ∀ id, m.store.claims.claim id = none)
    (h : ClaimsProcessor.exec env e m = .ok (u, m')) :
    ∀ id, m'.store.claims.claim id = none := by
  have hfile : ∀ {claimant policyId id t},
      fileClaim env claimant policyId m ≠ .ok (id, t) := by
    intro claimant policyId id t hrun
    obtain ⟨p, -, -, heligible, -⟩ := fileClaim_ok hrun
    exact hother heligible.engine
  have hmoves : (∀ d policyId byKeeper, (∀ id, d.claim id = none) →
      ¬ e.admits (docket m) d (.file policyId byKeeper)) →
      ∀ id, m'.store.claims.claim id = none := by
    intro hadmits
    obtain ⟨ks, hrun⟩ := exec_moved horderly h
    refine hrun.preserves (Q := fun d => ∀ id, d.claim id = none) ?_ hnone
    rintro d k d' hd ⟨hk, hmove⟩
    refine move_vacant hmove ?_ hd
    rintro policyId byKeeper rfl
    exact hadmits d policyId byKeeper hd hk
  cases e with
  | submitClaim =>
      simp [ClaimsProcessor.exec, submitClaim] at h
      obtain ⟨-, id, hrun⟩ := h
      exact absurd hrun hfile
  | submitClaimWithRef =>
      simp [ClaimsProcessor.exec, submitClaimWithRef] at h
      obtain ⟨-, -, -, id, t, hrun, -⟩ := h
      exact absurd hrun hfile
  | submitClaimWithType =>
      simp [ClaimsProcessor.exec, submitClaimWithType] at h
      obtain ⟨-, -, id, hrun⟩ := h
      exact absurd hrun hfile
  | batchSubmitClaims claimant policyIds =>
      simp [ClaimsProcessor.exec, batchSubmitClaims] at h
      obtain ⟨-, ids, hrun⟩ := h
      cases policyIds with
      | nil =>
          obtain ⟨-, rfl⟩ := pure_ok.mp hrun
          exact hnone
      | cons policyId policyIds =>
          obtain ⟨id, t, hfirst, -⟩ := bind_ok.mp hrun
          exact absurd hfirst hfile
  | autoProcess keeper policyId bps =>
      obtain ⟨r, h⟩ := perform_ok.mp h
      obtain ⟨-, -, -, h⟩ := autoProcess_ok.mp h
      have hunevaluated :
          (noted m policyId env.now).store.claims.evaluated policyId = false := by
        rw [Bool.eq_false_iff]
        intro hevaluated
        obtain ⟨id, c, -, hc, -⟩ := evaluated_iff.mp hevaluated
        cases hc.symm.trans (hnone id)
      exact absurd (processPolicy_address hunevaluated h) hother
  | batchAutoProcess =>
      refine hmoves fun d policyId byKeeper hd hadmits => ?_
      cases byKeeper with
      | false => cases hadmits
      | true =>
          obtain ⟨id, c, hc, -⟩ := hadmits
          cases hc.symm.trans (hd id)
  | _ =>
      refine hmoves fun d policyId byKeeper hd hadmits => ?_
      cases byKeeper with
      | false => cases hadmits
      | true => exact hadmits.elim

theorem exec_sited (horderly : (docket m).Orderly)
    (hsited : Sited env.engine m.store.claims)
    (h : ClaimsProcessor.exec env e m = .ok (u, m')) :
    Sited env.engine m'.store.claims := by
  by_cases hset : m.store.claims.policyEngine = some env.engine
  · obtain ⟨ks, hrun⟩ := exec_moved horderly h
    have hkept := hrun.preserves
      (Q := fun d => d.Orderly ∧ d.policyEngine = some env.engine)
      (by
        rintro d k d' ⟨hd, haddress⟩ ⟨-, hmove⟩
        exact ⟨hmove.orderly hd, move_address hd hmove haddress⟩)
      ⟨horderly, hset⟩
    exact fun _ _ _ => hkept.2
  · have hnone : ∀ id, m.store.claims.claim id = none := by
      intro id
      by_contra hfound
      obtain ⟨c, hc⟩ := Option.ne_none_iff_exists'.mp hfound
      exact hset (hsited id c hc)
    intro id c hc
    rw [exec_vacant horderly hset hnone h id] at hc
    cases hc

end Calls

section Runs

variable {D : Sites} {w w' : World Network} {l : Label Entry}

theorem reachable_sited (hw : (system D).Reachable w) :
    Sited D.engine w.machine.store.claims := by
  induction hw with
  | @init w hinit =>
      obtain ⟨now, ⟨store, B⟩⟩ := w
      obtain rfl : store = Network.deployed := hinit.1
      simp [Sited, Network.deployed, ClaimsProcessor.State.deployed]
  | step hw hstep ih =>
      rcases step_claims hstep with ⟨signers, e, rfl⟩ | hsame
      · obtain ⟨-, -, hexec⟩ := call_exec hstep
        exact exec_sited (reachable_sound hw).orderly ih hexec
      · rw [hsame]
        exact ih

theorem reachable_supplied (hw : (system D).Reachable w) :
    Supplied (docket w.machine) := by
  induction hw with
  | @init w hinit =>
      obtain ⟨now, ⟨store, B⟩⟩ := w
      obtain rfl : store = Network.deployed := hinit.1
      simp [Supplied, docket, PolicyEngine.book, Network.deployed,
        PolicyEngine.State.deployed]
  | @step w w' l hw hstep ih =>
      have hsound := reachable_sound hw
      have hrest : w'.machine.store.engine = w.machine.store.engine →
          Supplied (docket w'.machine) := by
        intro hsame id p hp
        have hp' : w'.machine.store.engine.policies id = some p := hp
        rw [hsame] at hp'
        show ∃ product, w'.machine.store.engine.products _ = some product
        rw [hsame]
        exact ih id p hp'
      cases l with
      | call signers e =>
          obtain ⟨-, hforeign, hexec⟩ := call_exec hstep
          cases e with
          | claims e =>
              obtain ⟨ks, hrun⟩ := exec_moved hsound.orderly hexec
              have hkept := hrun.preserves
                (Q := fun d => Sound d ∧ Supplied d)
                (by
                  rintro d k d' ⟨hd, hsupplied⟩ ⟨-, hmove⟩
                  exact ⟨hd.move hmove, hsupplied.move hd.book hmove⟩)
                ⟨hsound, ih⟩
              exact hkept.2
          | engine e =>
              obtain ⟨s, B, hengine, hm⟩ := exec_engine_ok.mp hexec
              have hwired : Wired w.machine.store.engine :=
                ⟨hsound.wired.token_iff, hsound.wired.admin,
                  hsound.wired.pendingAdmin⟩
              have hself : D.engine ∉ signers :=
                hforeign D.engine (by simp [Sites.members])
              let v : World PolicyEngine.State :=
                ⟨w.now, ⟨w.machine.store.engine, w.machine.bank⟩⟩
              have hstep' : Step PolicyEngine.exec D.engine v
                  (.call signers e) ⟨w.now, ⟨s, B⟩⟩ := .call hself hengine
              have hstocked := PolicyEngine.step_stocked (w := v) hwired
                hsound.book ih hstep'
              rw [hm]
              exact hstocked
          | pool e =>
              obtain ⟨s, B, -, hm⟩ := exec_pool_ok.mp hexec
              exact hrest (by rw [hm])
          | oracle e =>
              obtain ⟨s, B, -, hm⟩ := exec_oracle_ok.mp hexec
              exact hrest (by rw [hm])
      | _ =>
          cases hstep.2
          exact hrest rfl

/-- What the calls on a claim look up. -/
structure LookedUp (D : Sites) (w : World Network) (c : Claim) (p : Policy)
    (product : InsuranceProduct) : Prop where
  address : w.machine.store.claims.policyEngine = some D.engine
  policy : w.machine.store.engine.policies c.policyId = some p
  product : w.machine.store.engine.products p.productId = some product

theorem reachable_lookedUp (hw : (system D).Reachable w) {id : ℕ} {c : Claim}
    (hc : w.machine.store.claims.claim id = some c) :
    ∃ p product, LookedUp D w c p product := by
  obtain ⟨p, hp, -⟩ := (reachable_sound hw).covered id c hc
  obtain ⟨product, hproduct⟩ := reachable_supplied hw c.policyId p hp
  exact ⟨p, product, reachable_sited hw id c hc, hp, hproduct⟩

theorem reachable_dated (hw : (system D).Reachable w) :
    Dated w.now (docket w.machine) :=
  ((hw.restrict fun _ _ => trivial).invariant dated_stable.preserved).2

end Runs

/-! ## What the three calls answer -/

/-- `caller` gets claim `id` escalated. -/
def Escalates (D : Sites) (w : World Network) (signers : List Address)
    (caller : Address) (id : ℕ) : Prop :=
  ∃ m, escalateClaim (D.context w.now signers) caller id w.machine =
    .ok ((), m)

/-- Claim `id` is among the escalatable ones. -/
def ListedOverdue (D : Sites) (w : World Network) (signers : List Address)
    (id : ℕ) : Prop :=
  ∃ ids m, getEscalatableClaims (D.context w.now signers) w.machine =
    .ok (ids, m) ∧ id ∈ ids

/-- Claim `id` is said to be escalatable. -/
def ReportedOverdue (D : Sites) (w : World Network) (signers : List Address)
    (id : ℕ) : Prop :=
  ∃ info m, getClaimAge (D.context w.now signers) id w.machine =
    .ok (info, m) ∧ info.escalatable = true

/-- The claim is pending and past the threshold of its category. -/
def Overdue (w : World Network) (c : Claim) (product : InsuranceProduct) :
    Prop :=
  c.status = .pending ∧
    w.machine.store.claims.thresholdFor product.category ≤
      w.now - c.submittedAt

/-- When the claim has waited for the threshold of its category. -/
def dueAt (w : World Network) (c : Claim) (product : InsuranceProduct) : ℕ :=
  c.submittedAt + w.machine.store.claims.thresholdFor product.category

/-- When the time for claims on the policy is over. -/
def cutoff (w : World Network) (p : Policy) : ℕ :=
  satAddU64 p.endTime w.machine.store.claims.claimDeadline

section Answers

variable {D : Sites} {w w' : World Network} {signers : List Address}
  {caller : Address} {id : ℕ} {c : Claim} {p : Policy}
  {product : InsuranceProduct}

theorem escalates_iff (h : LookedUp D w c p product)
    (hc : w.machine.store.claims.claim id = some c)
    (hrunning : w.machine.store.claims.paused = false)
    (hcaller : caller ∈ signers) :
    Escalates D w signers caller id ↔
      Overdue w c product ∧ w.now ≤ cutoff w p := by
  simp only [Escalates, escalateClaim, bind_ok, requireAuth_ok,
    requireNotPaused_ok, loadClaim_ok, ensure_ok, policyEngine_ok,
    getPolicy_ok, getProduct_ok, loadClaims_ok, storeClaim_ok,
    removeFromPending, updateClaims_ok]
  simp [Sites.context, Overdue, cutoff, hc, hrunning, hcaller, h.address,
    h.policy, h.product, and_assoc]

theorem getClaimAge_ok (signers : List Address) {info : ClaimAgeInfo}
    {m : Machine Network}
    (h : LookedUp D w c p product)
    (hc : w.machine.store.claims.claim id = some c) :
    getClaimAge (D.context w.now signers) id w.machine = .ok (info, m) ↔
      info = c.ageInfo w.now id
        (w.machine.store.claims.thresholdFor product.category) ∧
      m = w.machine := by
  simp [getClaimAge, Sites.context, hc, h.address, h.policy, h.product]
  exact and_comm

theorem escalatable_iff (id : ℕ) :
    (c.ageInfo w.now id (w.machine.store.claims.thresholdFor
      product.category)).escalatable = true ↔ Overdue w c product := by
  by_cases hpending : c.status = .pending
  · simp [Claim.ageInfo, Overdue, hpending]
  · simp [Claim.ageInfo, Overdue, hpending]

theorem reportedOverdue_iff (h : LookedUp D w c p product)
    (hc : w.machine.store.claims.claim id = some c) :
    ReportedOverdue D w signers id ↔ Overdue w c product := by
  rw [← escalatable_iff id]
  simp [ReportedOverdue, getClaimAge_ok signers h hc]

/-- One round of the listing. -/
theorem inspectPending_answers (hw : (system D).Reachable w)
    (signers : List Address) (i : ℕ) :
    ∃ ids, inspectPending (D.context w.now signers) D.engine i w.machine =
        .ok (ids, w.machine) ∧
      ∀ j, j ∈ ids ↔ j = i ∧ ∃ c p product,
        w.machine.store.claims.claim i = some c ∧ LookedUp D w c p product ∧
          Overdue w c product := by
  cases hc : w.machine.store.claims.claim i with
  | none =>
      refine ⟨[], ?_, by simp⟩
      exact bind_ok.mpr ⟨_, _, loadClaims_ok.mpr ⟨rfl, rfl⟩, by
        simp [hc]⟩
  | some c =>
      obtain ⟨p, product, h⟩ := reachable_lookedUp hw hc
      have hiff : (∃ c₁ q other, some c = some c₁ ∧ LookedUp D w c₁ q other ∧
          Overdue w c₁ other) ↔ Overdue w c product := by
        constructor
        · rintro ⟨c₁, q, other, hsame, hother, hoverdue⟩
          obtain rfl := Option.some.inj hsame
          obtain rfl := Option.some.inj (hother.policy.symm.trans h.policy)
          obtain rfl := Option.some.inj (hother.product.symm.trans h.product)
          exact hoverdue
        · exact fun hoverdue => ⟨c, p, product, rfl, h, hoverdue⟩
      simp only [hiff]
      by_cases hpending : c.status = .pending
      · by_cases hlong :
            w.machine.store.claims.thresholdFor product.category ≤
              w.now - c.submittedAt
        · refine ⟨[i], ?_, by simp [Overdue, hpending, hlong]⟩
          simp [inspectPending, Sites.context, bind_ok, hc, h.policy, h.product,
            hpending, hlong]
        · refine ⟨[], ?_, by simp [Overdue, hlong]⟩
          simp [inspectPending, Sites.context, bind_ok, hc, h.policy, h.product,
            hpending, hlong]
      · refine ⟨[], ?_, by simp [Overdue, hpending]⟩
        simp [inspectPending, bind_ok, hc, hpending]

/-- The listing names the pending claims past their thresholds. -/
theorem listedOverdue_iff (hw : (system D).Reachable w)
    (h : LookedUp D w c p product)
    (hc : w.machine.store.claims.claim id = some c) :
    ListedOverdue D w signers id ↔ Overdue w c product := by
  choose g hg hmem using inspectPending_answers hw signers
  have hlist : ∀ ids m,
      getEscalatableClaims (D.context w.now signers) w.machine =
          .ok (ids, m) ↔
        ids = (w.machine.store.claims.pendingClaims.map g).flatten ∧
          m = w.machine := by
    intro ids m
    have hrounds : collect w.machine.store.claims.pendingClaims
        (inspectPending (D.context w.now signers) D.engine) w.machine =
          .ok (w.machine.store.claims.pendingClaims.map g, w.machine) :=
      collect_read fun i _ => hg i
    simp [getEscalatableClaims, bind_ok, h.address, hrounds, and_comm]
    exact fun _ => eq_comm
  have hqueued := (pending_queue_exact hw).2 id
  constructor
  · rintro ⟨ids, m, hids, hid⟩
    obtain ⟨rfl, -⟩ := (hlist ids m).mp hids
    obtain ⟨answer, hanswer, hid⟩ := List.mem_flatten.mp hid
    obtain ⟨i, -, rfl⟩ := List.mem_map.mp hanswer
    obtain ⟨rfl, c₁, q, other, hc₁, hother, hoverdue⟩ := (hmem i id).mp hid
    obtain rfl := Option.some.inj (hc₁.symm.trans hc)
    obtain rfl := Option.some.inj (hother.policy.symm.trans h.policy)
    obtain rfl := Option.some.inj (hother.product.symm.trans h.product)
    exact hoverdue
  · intro hoverdue
    refine ⟨_, _, (hlist _ _).mpr ⟨rfl, rfl⟩, ?_⟩
    refine List.mem_flatten.mpr ⟨g id, List.mem_map.mpr ⟨id, ?_, rfl⟩, ?_⟩
    · exact hqueued.mpr ⟨c, hc, (reachable_sound hw).orderly.keyed id c hc,
        hoverdue.1⟩
    · exact (hmem id id).mpr ⟨rfl, c, p, product, hc, h, hoverdue⟩

end Answers

/-! ## Where they agree -/

/-- A claim can be escalated exactly if it is listed, and exactly if it is
reported as escalatable; and a pending claim that is not can be after the
seconds the report gives. -/
structure ReportedAsEnforced (D : Sites) (w : World Network) (id : ℕ) :
    Prop where
  agrees : ∀ signers, ∀ caller ∈ signers,
    (Escalates D w signers caller id ↔ ListedOverdue D w signers id) ∧
      (Escalates D w signers caller id ↔ ReportedOverdue D w signers id)
  becomes : ∀ signers, ∀ caller ∈ signers, ∀ info m w',
    getClaimAge (D.context w.now signers) id w.machine = .ok (info, m) →
    info.status = .pending → info.escalatable = false →
    (system D).Step w (.tick info.secondsUntilEscalatable) w' →
    Escalates D w' signers caller id ∧ ListedOverdue D w' signers id ∧
      ReportedOverdue D w' signers id

section Agreement

variable {D : Sites} {w w' : World Network} {signers : List Address}
  {caller : Address} {id : ℕ} {c : Claim} {p : Policy}
  {product : InsuranceProduct}

theorem overdue_iff_dueAt (hdated : c.submittedAt ≤ w.now)
    (hpending : c.status = .pending) :
    Overdue w c product ↔ dueAt w c product ≤ w.now := by
  simp only [Overdue, dueAt, hpending, true_and]
  omega

/-- The answers agree on an overdue claim up to the cutoff. -/
theorem answers_agree_iff (hw : (system D).Reachable w)
    (h : LookedUp D w c p product)
    (hc : w.machine.store.claims.claim id = some c)
    (hrunning : w.machine.store.claims.paused = false)
    (hcaller : caller ∈ signers) :
    (Escalates D w signers caller id ↔ ListedOverdue D w signers id) ∧
        (Escalates D w signers caller id ↔ ReportedOverdue D w signers id) ↔
      (Overdue w c product → w.now ≤ cutoff w p) := by
  rw [escalates_iff h hc hrunning hcaller, listedOverdue_iff hw h hc,
    reportedOverdue_iff h hc, and_self, and_iff_left_iff_imp]

theorem seconds_of_pending (id : ℕ) (hdated : c.submittedAt ≤ w.now)
    (hpending : c.status = .pending) (hsoon : ¬ dueAt w c product ≤ w.now) :
    w.now + (c.ageInfo w.now id (w.machine.store.claims.thresholdFor
      product.category)).secondsUntilEscalatable = dueAt w c product := by
  simp only [Claim.ageInfo, hpending, dueAt, decide_true, Bool.not_true,
    Bool.false_eq_true, if_false, if_true] at hsoon ⊢
  omega

/-- Once the seconds of the report have passed, a pending claim is listed and
reported, and it can be escalated if that is not after the cutoff. -/
theorem answers_after_wait (hw : (system D).Reachable w)
    (h : LookedUp D w c p product)
    (hc : w.machine.store.claims.claim id = some c)
    (hrunning : w.machine.store.claims.paused = false)
    (hcaller : caller ∈ signers) (hpending : c.status = .pending)
    (hsoon : ¬ Overdue w c product)
    (hstep : (system D).Step w
      (.tick (c.ageInfo w.now id (w.machine.store.claims.thresholdFor
        product.category)).secondsUntilEscalatable) w') :
    (Escalates D w' signers caller id ↔ dueAt w c product ≤ cutoff w p) ∧
      ListedOverdue D w' signers id ∧ ReportedOverdue D w' signers id := by
  have hdated : c.submittedAt ≤ w.now := reachable_dated hw id c hc
  have hnow := seconds_of_pending id hdated hpending fun hle =>
    hsoon ((overdue_iff_dueAt hdated hpending).mpr hle)
  have hw' := hw.step hstep
  cases hstep.2
  rw [hnow] at hw' ⊢
  have h' : LookedUp D ⟨dueAt w c product, w.machine⟩ c p product :=
    ⟨h.address, h.policy, h.product⟩
  have hdue : Overdue ⟨dueAt w c product, w.machine⟩ c product :=
    (overdue_iff_dueAt (Nat.le_add_right _ _) hpending).mpr le_rfl
  refine ⟨?_, (listedOverdue_iff hw' h' hc).mpr hdue,
    (reportedOverdue_iff h' hc).mpr hdue⟩
  rw [escalates_iff h' hc hrunning hcaller]
  exact ⟨fun hgoes => hgoes.2, fun hlimit => ⟨hdue, hlimit⟩⟩

end Agreement

/-- Reports and enforcement agree on a claim unless it is pending and the time
for claims on its policy is over, or will be before the claim is due, if the
clock ever shows that. -/
theorem escalatability_reported_iff {D : Sites} {w : World Network} {id : ℕ}
    {c : Claim} (hw : (system D).Reachable w)
    (hrunning : w.machine.store.claims.paused = false)
    (hc : w.machine.store.claims.claim id = some c) :
    ∃ p product, LookedUp D w c p product ∧
      (ReportedAsEnforced D w id ↔
        (c.status = .pending → dueAt w c product ≤ max w.now maxU64 →
          max w.now (dueAt w c product) ≤ cutoff w p)) := by
  obtain ⟨p, product, h⟩ := reachable_lookedUp hw hc
  refine ⟨p, product, h, ?_⟩
  have hdated : c.submittedAt ≤ w.now := reachable_dated hw id c hc
  constructor
  · intro hreported hpending hrange
    let caller : Address := .account 0
    have hcaller : caller ∈ [caller] := List.mem_singleton_self caller
    have hdue_iff : Overdue w c product ↔ dueAt w c product ≤ w.now :=
      overdue_iff_dueAt hdated hpending
    by_cases hoverdue : Overdue w c product
    · have hlimit := (answers_agree_iff hw h hc hrunning hcaller).mp
        (hreported.agrees _ _ hcaller) hoverdue
      exact max_le hlimit ((hdue_iff.mp hoverdue).trans hlimit)
    · have hlater : ¬ dueAt w c product ≤ w.now := fun hle =>
        hoverdue (hdue_iff.mpr hle)
      have hend : dueAt w c product ≤ maxU64 := by omega
      have hstep : (system D).Step w (.tick _) _ :=
        ⟨trivial, .tick ((seconds_of_pending id hdated hpending
          hlater).trans_le hend)⟩
      have hfalse := Bool.eq_false_iff.mpr fun htrue =>
        hoverdue ((escalatable_iff id).mp htrue)
      have hbecomes := hreported.becomes _ _ hcaller _ _ _
        ((getClaimAge_ok [caller] h hc).mpr ⟨rfl, rfl⟩) hpending hfalse hstep
      have hafter := answers_after_wait hw h hc hrunning hcaller hpending
        hoverdue hstep
      have hlimit := hafter.1.mp hbecomes.1
      omega
  · intro hlimit
    refine ⟨fun signers caller hcaller => ?_, ?_⟩
    · refine (answers_agree_iff hw h hc hrunning hcaller).mpr
        fun hoverdue => ?_
      have hdue := (overdue_iff_dueAt hdated hoverdue.1).mp hoverdue
      exact (le_max_left _ _).trans
        (hlimit hoverdue.1 (hdue.trans (le_max_left _ _)))
    · intro signers caller hcaller info m w' hinfo hpending hfalse hstep
      obtain ⟨rfl, -⟩ := (getClaimAge_ok signers h hc).mp hinfo
      have hoverdue : ¬ Overdue w c product := fun hoverdue =>
        nomatch hfalse.symm.trans ((escalatable_iff id).mpr hoverdue)
      have hlater : ¬ dueAt w c product ≤ w.now := fun hle =>
        hoverdue ((overdue_iff_dueAt hdated hpending).mpr hle)
      have hend : dueAt w c product ≤ maxU64 := by
        rw [← seconds_of_pending id hdated hpending hlater]
        cases hstep.2
        assumption
      obtain ⟨hescalates, hanswers⟩ := answers_after_wait hw h hc hrunning
        hcaller hpending hoverdue hstep
      exact ⟨hescalates.mpr ((le_max_right _ _).trans
        (hlimit hpending (hend.trans (le_max_right _ _)))), hanswers⟩

namespace Scenario

/-- The claim is left alone until the time for claims is over. -/
def forsaken : World Network :=
  (step sites filed (.tick 34128001)).get (by decide +kernel)

theorem forsaken_reached : (system sites).Reachable forsaken :=
  filed_reached.step (step_sound (Option.some_get _).symm)

end Scenario

open Scenario in
theorem escalatability_reported_iff_filed :
    ∃ c p product, filed.machine.store.claims.claim 1 = some c ∧
      LookedUp sites filed c p product ∧
      (ReportedAsEnforced sites filed 1 ↔
        (c.status = .pending → dueAt filed c product ≤ max filed.now maxU64 →
          max filed.now (dueAt filed c product) ≤ cutoff filed p)) := by
  have hsome : (filed.machine.store.claims.claim 1).isSome := by
    decide +kernel
  obtain ⟨c, hc⟩ := Option.isSome_iff_exists.mp hsome
  obtain ⟨p, product, h, hiff⟩ :=
    escalatability_reported_iff filed_reached (by decide +kernel) hc
  exact ⟨c, p, product, hc, h, hiff⟩

open Scenario in
/-- A claim that is listed and reported as escalatable, which nobody can
escalate any more. -/
theorem overdue_claim_refused :
    (system sites).Reachable forsaken ∧
      forsaken.machine.store.claims.paused = false ∧
      (forsaken.machine.store.claims.claim 1).isSome = true ∧
      ListedOverdue sites forsaken [stranger] 1 ∧
      ReportedOverdue sites forsaken [stranger] 1 ∧
      ¬ Escalates sites forsaken [stranger] stranger 1 ∧
      ¬ ReportedAsEnforced sites forsaken 1 := by
  have hlisted : ListedOverdue sites forsaken [stranger] 1 := by
    have hanswer : (getEscalatableClaims
        (sites.context forsaken.now [stranger])
        forsaken.machine).toOption.map Prod.fst = some [1] := by
      decide +kernel
    obtain ⟨m, hm⟩ := exists_of_toOption hanswer
    exact ⟨[1], m, hm, List.mem_singleton_self 1⟩
  have hreported : ReportedOverdue sites forsaken [stranger] 1 := by
    have hanswer : (getClaimAge (sites.context forsaken.now [stranger]) 1
        forsaken.machine).toOption.map Prod.fst = some
          { claimId := 1
            status := .pending
            submittedAt := 1000000
            pendingFor := 34128001
            escalationThreshold := 604800
            escalatable := true
            secondsUntilEscalatable := 0 } := by
      decide +kernel
    obtain ⟨m, hm⟩ := exists_of_toOption hanswer
    exact ⟨_, m, hm, rfl⟩
  have hrefused : ¬ Escalates sites forsaken [stranger] stranger 1 := by
    have hfailure : failure (escalateClaim
        (sites.context forsaken.now [stranger]) stranger 1 forsaken.machine) =
          some (.error .notEscalatable) := by
      decide +kernel
    rintro ⟨m, hm⟩
    exact nomatch (failure_eq_some.mp hfailure).symm.trans hm
  refine ⟨forsaken_reached, by decide +kernel, by decide +kernel, hlisted,
    hreported, hrefused, fun h => ?_⟩
  exact hrefused ((h.agrees _ _ (List.mem_singleton_self stranger)).1.mpr
    hlisted)

end Parashield.Protocol
