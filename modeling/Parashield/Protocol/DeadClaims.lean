import Parashield.Protocol.Paths
import Parashield.Protocol.Queue

/-!
# Dead claims in the queue

A claim is processed by a call that names it, or by a sweep of its policy.  The
first always takes the claim off the queue.  The sweep looks at the policy
first, and a policy that is no longer active, or has run out, ends the sweep
with the claim where it was.
-/

namespace Parashield.Protocol

open Support Support.Contract Invocation
open PolicyEngine (Policy)
open ClaimsProcessor

/-- The policy is on the book and active. -/
def Live (d : Docket) (policyId : ℕ) : Prop :=
  ∃ p, d.engine.policies policyId = some p ∧ p.status = .active

/-! ## Decisions -/

section Decisions

variable {now : ℕ} {engine : Address} {k : Kind} {d d' : Docket}
  {id j bps policyId : ℕ} {basis : Basis}

theorem change_elsewhere {env : Env} {b b' : PolicyEngine.Book}
    {bk : PolicyEngine.Book.Kind}
    (h : PolicyEngine.Book.Change env bk b b')
    (hbk : bk = .claim policyId ∨ bk = .expire policyId) {i : ℕ}
    (hi : i ≠ policyId) : b'.policies i = b.policies i := by
  rcases hbk with rfl | rfl
  · cases h
    exact Function.update_of_ne hi ..
  · cases h
    exact Function.update_of_ne hi ..

/-- A decision on a claim decides it. -/
theorem decision_decides (hk : k.Decision id basis bps)
    (h : Move now engine k d d') :
    ∃ c', d'.claim = d.setClaim id c' ∧ c'.status ≠ .pending := by
  rcases hk with rfl | rfl | rfl
  · cases h
    exact ⟨_, rfl, nofun⟩
  · cases h with
    | hold _ _ happrove =>
        have hstatus := approve_status happrove
        exact ⟨_, rfl, hstatus⟩
  · cases h with
    | settle _ _ happrove => exact ⟨_, rfl, approve_status happrove⟩

theorem decision_waits (hk : k.Decision id basis bps)
    (h : Move now engine k d d') (j : ℕ) : Waits d' j ↔ j ≠ id ∧ Waits d j := by
  obtain ⟨c', hclaim, hstatus⟩ := decision_decides hk h
  rw [waits_rewritten hclaim]
  by_cases hj : j = id
  · simp [hj, hstatus]
  · simp [hj]

theorem decision_policyClaim (hk : k.Decision id basis bps)
    (h : Move now engine k d d') : d'.policyClaim = d.policyClaim := by
  rcases hk with rfl | rfl | rfl
  all_goals
    cases h
    rfl

/-- A decision concerns the policy of the claim only. -/
theorem decision_policies (hk : k.Decision id basis bps)
    (h : Move now engine k d d') {c : Claim} (hc : d.claim id = some c)
    (hpolicy : policyId ≠ c.policyId) :
    d'.engine.policies policyId = d.engine.policies policyId := by
  rcases hk with rfl | rfl | rfl
  · cases h
    rfl
  · cases h
    rfl
  · cases h with
    | settle hdecides _ _ _ hchange =>
        obtain rfl := Option.some.inj (hdecides.found.symm.trans hc)
        exact change_elsewhere hchange (.inl rfl) hpolicy

end Decisions

/-! ## Calls that name the claim -/

section Named

variable {env : Context} {m m' : Machine Network} {id : ℕ} {bps : Option ℕ}
  {keeper : Address} {r : ClaimResult}

end Named

/-! ## Sweeps of the policy -/

/-- What a sweep does with a waiting claim `id` on policy `p`. -/
inductive Swept (now : ℕ) (engine : Address) (id policyId : ℕ) (p : Policy)
    (d : Docket) : Docket → Prop
  | idle : p.status ≠ .active → Swept now engine id policyId p d d
  | expire {d' : Docket} :
      p.status = .active → p.endTime < now →
      Move now engine (.expire policyId) d d' →
      Swept now engine id policyId p d d'
  | decide {d' : Docket} {k : Kind} {bps : ℕ} :
      p.status = .active → now ≤ p.endTime → k.Decision id .own bps →
      Move now engine k d d' → Swept now engine id policyId p d d'

section Sweeps

variable {env : Context} {m m' : Machine Network} {id : ℕ} {bps : Option ℕ}
  {keeper : Address} {r : ClaimResult} {c : Claim} {p : Policy} {now : ℕ}
  {engine : Address} {d d' : Docket}

theorem awaits_of_waiting (hsound : Sound (docket m))
    (hc : m.store.claims.claim id = some c) (hpending : c.status = .pending)
    (hp : m.store.engine.policies c.policyId = some p) :
    Awaits m c.policyId p id c where
  linked := hsound.orderly.recorded id c hc
  found := hc
  id := hsound.orderly.keyed id c hc
  policyId := rfl
  pending := hpending
  coverage := by
    obtain ⟨q, hq, hcoverage⟩ := hsound.covered id c hc
    obtain rfl := Option.some.inj (hq.symm.trans hp)
    exact hcoverage.symm

theorem autoProcess_swept (hsound : Sound (docket m))
    (hc : m.store.claims.claim id = some c) (hpending : c.status = .pending)
    (hp : m.store.engine.policies c.policyId = some p)
    (h : autoProcess env keeper c.policyId bps m = .ok (r, m')) :
    Swept env.now env.engine id c.policyId p (docket m) (docket m') := by
  have hawaits := awaits_of_waiting hsound hc hpending hp
  have hpos := hsound.book.coverage_pos _ _ hp
  obtain ⟨-, -, -, hrun⟩ := autoProcess_ok.mp h
  have hunevaluated :
      (noted m c.policyId env.now).store.claims.evaluated c.policyId = false :=
    noted_unevaluated hawaits
  have hengine := processPolicy_engine hunevaluated hrun
  by_cases hactive : p.status = .active
  · by_cases hend : env.now ≤ p.endTime
    · rw [sweep_evaluates hawaits hp hactive hpos hend hengine] at hrun
      obtain ⟨k, hk, hmove⟩ := evaluateAndSettle_move
        (m := noted m c.policyId env.now) hsound.orderly hc hp hrun
      exact .decide hactive hend hk hmove
    · rw [not_le] at hend
      rw [processPolicy_expired hunevaluated hp hactive hpos hend] at hrun
      have hevaluated :
          ¬ (docket (noted m c.policyId env.now)).evaluated c.policyId := by
        rw [← evaluated_iff, hunevaluated]
        exact Bool.false_ne_true
      exact .expire hactive hend
        (closeExpired_move hevaluated hp hend hrun.2).2
  · obtain ⟨r', hidle, -⟩ : ∃ r', processPolicy env c.policyId bps
        (noted m c.policyId env.now) = .ok (r', noted m c.policyId env.now) ∧
          ¬ Decision r' :=
      processPolicy_inactive hunevaluated hengine hp hpos hactive
    obtain ⟨-, rfl⟩ := Prod.mk.inj (Except.ok.inj (hrun.symm.trans hidle))
    exact .idle hactive

/-- After a sweep the claim is off the queue or its policy is active exactly
if the policy was active and had not run out. -/
theorem Swept.settles_iff (h : Swept now engine id c.policyId p d d')
    (hc : d.claim id = some c) (hpending : c.status = .pending)
    (hp : d.engine.policies c.policyId = some p) :
    (Waits d' id → Live d' c.policyId) ↔
      p.status = .active ∧ now ≤ p.endTime := by
  cases h with
  | idle hstatus =>
      refine iff_of_false (fun hlive => ?_) fun hrun => hstatus hrun.1
      obtain ⟨q, hq, hactive⟩ := hlive ((waits_of_found hc).mpr hpending)
      obtain rfl := Option.some.inj (hq.symm.trans hp)
      exact hstatus hactive
  | expire _ hend hmove =>
      refine iff_of_false (fun hlive => ?_) fun hrun => hend.not_ge hrun.2
      cases hmove with
      | expire _ _ _ hchange =>
          obtain ⟨q, hq, hactive⟩ := hlive ((waits_of_found hc).mpr hpending)
          cases hchange with
          | expire =>
              simp only [PolicyEngine.Book.setPolicy, Function.update_self,
                Option.some.injEq] at hq
              rw [← hq] at hactive
              cases hactive
  | decide hactive hend hk hmove =>
      refine iff_of_true (fun hwaits => ?_) ⟨hactive, hend⟩
      exact absurd rfl ((decision_waits hk hmove id).mp hwaits).1

/-- A sweep of one policy leaves the claims on others alone. -/
theorem Swept.elsewhere (h : Swept now engine id c.policyId p d d')
    (hc : d.claim id = some c) {j policyId : ℕ} (hj : j ≠ id)
    (hpolicy : policyId ≠ c.policyId) :
    d'.claim j = d.claim j ∧
      d'.engine.policies policyId = d.engine.policies policyId := by
  cases h with
  | idle => exact ⟨rfl, rfl⟩
  | expire _ _ hmove =>
      cases hmove with
      | expire _ _ _ hchange =>
          exact ⟨rfl, change_elsewhere hchange (.inr rfl) hpolicy⟩
  | decide _ _ hk hmove =>
      refine ⟨?_, decision_policies hk hmove hc hpolicy⟩
      obtain ⟨c', hclaim, -⟩ := decision_decides hk hmove
      rw [hclaim, Docket.setClaim, Function.update_of_ne hj]

theorem Swept.policyClaim {policyId : ℕ}
    (h : Swept now engine id policyId p d d') :
    d'.policyClaim = d.policyClaim := by
  cases h with
  | idle => rfl
  | expire _ _ hmove =>
      cases hmove
      rfl
  | decide _ _ hk hmove => exact decision_policyClaim hk hmove

theorem Swept.sound {policyId : ℕ} (h : Swept now engine id policyId p d d')
    (hsound : Sound d) : Sound d' := by
  cases h with
  | idle => exact hsound
  | expire _ _ hmove => exact hsound.move hmove
  | decide _ _ _ hmove => exact hsound.move hmove

end Sweeps

/-! ## Sweeps of the queue -/

section Queue

variable {env : Context} {m m' : Machine Network} {id policyId : ℕ}
  {caller : Address} {x : Option Claim} {y : Option Policy}

/-- A round of the batch skips its claim, or sweeps its policy. -/
theorem autoProcessPending_swept {result : Option (ℕ × ClaimResult)}
    (hsound : Sound (docket m))
    (h : autoProcessPending env caller id m = .ok (result, m')) :
    (result = none ∧ m' = m) ∨
      ∃ c p r, m.store.claims.claim id = some c ∧ c.status = .pending ∧
        m.store.engine.policies c.policyId = some p ∧
        result = some (id, r) ∧
        Swept env.now env.engine id c.policyId p (docket m) (docket m') := by
  simp only [autoProcessPending, bind_ok, loadClaims_ok] at h
  obtain ⟨s, _, ⟨hs, ht⟩, h⟩ := h
  rw [hs, ht] at h
  cases hc : m.store.claims.claim id with
  | none =>
      rw [hc] at h
      exact .inl (pure_ok.mp h)
  | some c =>
      rw [hc] at h
      simp only [ite_ok, bind_ok, not_or, not_not] at h
      rcases h with ⟨-, h⟩ | ⟨⟨hpending, -⟩, outcome, t, hattempt, h⟩
      · exact .inl (pure_ok.mp h)
      obtain ⟨p, hp, -⟩ := hsound.covered id c hc
      rcases attempt_ok.mp hattempt with ⟨r, rfl, hrun⟩ | ⟨e, rfl, -, rfl⟩
      · obtain ⟨rfl, rfl⟩ := pure_ok.mp h
        have hswept : Swept env.enterSelf.now env.enterSelf.engine id c.policyId
            p (docket m) (docket m') :=
          autoProcess_swept hsound hc hpending hp hrun
        exact .inr ⟨c, p, r, rfl, hpending, hp, rfl, hswept⟩
      · exact .inl (pure_ok.mp h)

/-- What the rounds for other claims leave as it is. -/
structure Untouched (id policyId : ℕ) (x : Option Claim) (y : Option Policy)
    (m : Machine Network) : Prop where
  sound : Sound (docket m)
  claim : m.store.claims.claim id = x
  policy : m.store.engine.policies policyId = y
  linked : m.store.claims.policyClaim policyId = some id

theorem Untouched.round {i : ℕ} (hi : i ≠ id) :
    Keeps (Untouched id policyId x y) (autoProcessPending env caller i) := by
  rintro t result t' ⟨hsound, hclaim, hpolicy, hlinked⟩ h
  rcases autoProcessPending_swept hsound h with
    ⟨-, rfl⟩ | ⟨c, p, r, hc, -, -, -, hswept⟩
  · exact ⟨hsound, hclaim, hpolicy, hlinked⟩
  have hother : policyId ≠ c.policyId := by
    rintro rfl
    have hrecorded := hsound.orderly.recorded i c hc
    rw [show (docket t).policyClaim = t.store.claims.policyClaim from rfl,
      hlinked, Option.some.injEq] at hrecorded
    exact hi hrecorded.symm
  obtain ⟨hclaim', hpolicy'⟩ := hswept.elsewhere hc hi.symm hother
  exact ⟨hswept.sound hsound, hclaim'.trans hclaim, hpolicy'.trans hpolicy,
    (congrFun hswept.policyClaim policyId).trans hlinked⟩

end Queue

/-! ## Every processing call -/

/-- The accepted processing calls on claim `id`, with whether the call sweeps
the policy of the claim instead of naming the claim.  A batch processes the
claims it reports on. -/
inductive Processes (env : Context) (id : ℕ) (m m' : Machine Network) :
    Bool → Prop
  | claim {keeper : Address} {bps : Option ℕ} {r : ClaimResult} :
      processClaim env keeper id bps m = .ok (r, m') →
      Processes env id m m' false
  | readings {keeper : Address} {bps : Option ℕ} {r : ClaimResult}
      {queries : List OracleVerifier.OracleReadingQuery}
      {requireAll : Bool} :
      processMultiReadingClaim env keeper id queries requireAll bps m =
        .ok (r, m') →
      Processes env id m m' false
  | claims {keeper : Address} {ids : List ℕ} {bps : Option ℕ}
      {rs : List (ℕ × ClaimResult)} {r : ClaimResult} :
      batchProcessClaims env keeper ids bps m = .ok (rs, m') →
      (id, r) ∈ rs →
      Processes env id m m' false
  | policy {keeper : Address} {bps : Option ℕ} {r : ClaimResult} {c : Claim} :
      m.store.claims.claim id = some c →
      autoProcess env keeper c.policyId bps m = .ok (r, m') →
      Processes env id m m' true
  | queue {caller : Address} {limit : ℕ} {rs : List (ℕ × ClaimResult)}
      {r : ClaimResult} :
      batchAutoProcess env caller limit m = .ok (rs, m') →
      (id, r) ∈ rs →
      Processes env id m m' true

section Processing

variable {env : Context} {m m' : Machine Network} {id : ℕ} {sweep : Bool}

theorem Processes.moved (h : Processes env id m m' sweep)
    (horderly : (docket m).Orderly) :
    Moved env (fun _ _ => True) m m' := by
  cases h with
  | claim h => exact processClaim_moved horderly (fun _ _ => trivial) h
  | readings h =>
      exact processMultiReadingClaim_moved horderly (fun _ _ => trivial) h
  | claims h =>
      exact batchProcessClaims_moved horderly (fun _ _ _ _ _ => trivial) h
  | policy _ h =>
      exact autoProcess_moved horderly
        ⟨trivial, fun _ _ _ _ => trivial, fun _ => trivial,
          fun _ _ _ _ _ _ => trivial⟩ h
  | queue h =>
      exact batchAutoProcess_moved horderly (fun _ => trivial)
        (fun _ _ _ _ _ => ⟨trivial, fun _ _ => trivial⟩) h

end Processing

namespace Scenario

/-- The holder cancels the policy while the claim waits. -/
def desertion : List (Label Entry) :=
  [.call [holder] (.engine (.cancelPolicy holder 1 [7]))]

def deserted : World Network :=
  (TransitionSystem.execute (step sites) desertion filed).get
    (by decide +kernel)

/-- What a processing call leaves of claim and policy 1. -/
def outcome {α : Type} (o : Except (Fault Error) (α × Machine Network)) :
    Option (α × List ℕ × Option PolicyEngine.PolicyStatus) :=
  o.toOption.map fun result =>
    (result.1, result.2.store.claims.pendingClaims,
      (result.2.store.engine.policies 1).map Policy.status)

end Scenario

end Parashield.Protocol
