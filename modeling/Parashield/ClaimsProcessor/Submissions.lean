import Parashield.ClaimsProcessor.Moves
import Parashield.ClaimsProcessor.Office

/-!
# Claims processor: what a submission has to meet

A claim filed by its claimant passes every check on its policy; one filed by
a keeper that processes the policy is checked only for the end of the cover.
Reference numbers are written by one entry point, each of them once.
-/

namespace Parashield.ClaimsProcessor

open Support Support.Contract Invocation
open PolicyEngine (Policy)

/-- The policy `p` of claim `c` is active and held by the claimant, and claims
on it are still taken. -/
structure Claimable (now : ℕ) (m : Machine Network) (c : Claim) (p : Policy) :
    Prop where
  policy : m.store.engine.policies c.policyId = some p
  active : p.status = .active
  holder : c.claimant = p.policyholder
  taken : now ≤ p.endTime + m.store.claims.claimDeadline

/-! ## Claims filed by their claimant -/

section Filing

variable {env : Context} {m m' : Machine Network} {claimant : Address}
  {policyId id : ℕ}

/-- What one filing writes. -/
structure Files (env : Context) (policyId id : ℕ) (c : Claim)
    (m m' : Machine Network) : Prop where
  fresh : id = m.store.claims.nextClaimId
  claim : m'.store.claims.claim =
    Function.update m.store.claims.claim id (some c)
  subject : c.policyId = policyId
  engine : m'.store.engine = m.store.engine
  claimDeadline : m'.store.claims.claimDeadline =
    m.store.claims.claimDeadline

theorem fileClaim_files (h : fileClaim env claimant policyId m = .ok (id, m')) :
    ∃ c p, Files env policyId id c m m' ∧ Claimable env.now m c p ∧
      p.startTime ≤ env.now := by
  obtain ⟨p, fraud, history, heligible, -, -, rfl, rfl⟩ := fileClaim_ok h
  obtain rfl := heligible.holder
  refine ⟨_, p, ⟨rfl, rfl, rfl, rfl, rfl⟩, ⟨heligible.policy,
    heligible.active, rfl, ?_⟩, heligible.started⟩
  rcases heligible.taken with hend | hcutoff
  · exact hend.trans (Nat.le_add_right _ _)
  · exact hcutoff.trans (Nat.min_le_left _ _)

/-- The claims of `m'` are those of `m` and others filed on policies that had
started. -/
structure Submitted (env : Context) (m m' : Machine Network) : Prop where
  engine : m'.store.engine = m.store.engine
  claimDeadline : m'.store.claims.claimDeadline =
    m.store.claims.claimDeadline
  claim : ∀ i c, m'.store.claims.claim i = some c →
    m.store.claims.claim i = some c ∨
      ∃ p, Claimable env.now m c p ∧ p.startTime ≤ env.now

theorem Submitted.refl : Submitted env m m :=
  ⟨rfl, rfl, fun _ _ => .inl⟩

theorem Submitted.file {t : Machine Network} (h : Submitted env m t)
    (hfile : fileClaim env claimant policyId t = .ok (id, m')) :
    Submitted env m m' := by
  obtain ⟨c, p, hfiles, hclaimable, hstart⟩ := fileClaim_files hfile
  refine ⟨hfiles.engine.trans h.engine,
    hfiles.claimDeadline.trans h.claimDeadline, fun i x hx => ?_⟩
  rw [hfiles.claim] at hx
  by_cases hi : i = id
  · subst hi
    rw [Function.update_self, Option.some.injEq] at hx
    subst hx
    obtain ⟨hpolicy, hactive, hholder, htaken⟩ := hclaimable
    rw [h.engine] at hpolicy
    rw [h.claimDeadline] at htaken
    exact .inr ⟨p, ⟨hpolicy, hactive, hholder, htaken⟩, hstart⟩
  · rw [Function.update_of_ne hi] at hx
    exact h.claim i x hx

/-- A call that files claims for their claimant files none before the start
of its policy. -/
theorem exec_submitted {e : Entry} {u : Unit} (he : e.files = true)
    (h : exec env e m = .ok (u, m')) : Submitted env m m' := by
  cases e with
  | submitClaim =>
      simp [exec, submitClaim] at h
      obtain ⟨-, id, hfile⟩ := h
      exact Submitted.refl.file hfile
  | submitClaimWithRef =>
      simp [exec, submitClaimWithRef] at h
      obtain ⟨-, -, -, id, t, hfile, rfl⟩ := h
      obtain ⟨hengine, hdeadline, hclaim⟩ := Submitted.refl.file hfile
      exact ⟨hengine, hdeadline, hclaim⟩
  | submitClaimWithType =>
      simp [exec, submitClaimWithType] at h
      obtain ⟨-, -, id, hfile⟩ := h
      exact Submitted.refl.file hfile
  | batchSubmitClaims claimant policyIds =>
      simp [exec, batchSubmitClaims] at h
      obtain ⟨-, ids, h⟩ := h
      have hkeeps : Keeps (Submitted env m)
          (collect (policyIds.take maxBatchSize) (fileClaim env claimant)) :=
        keeps_collect fun _ _ _ _ _ ht hfile => ht.file hfile
      exact hkeeps m ids m' .refl h
  | _ => cases he

end Filing

/-! ## Claims filed by a keeper -/

section Processing

variable {env : Context} {m m' : Machine Network} {policyId : ℕ} {p : Policy}
  {bps : Option ℕ} {r : ClaimResult}

/-- Processing the policy by its number opens a claim on it. -/
structure Opens (now : ℕ) (m : Machine Network) (policyId : ℕ) (p : Policy) :
    Prop where
  vacant : m.store.claims.policyClaim policyId = none
  policy : m.store.engine.policies policyId = some p
  active : p.status = .active
  covered : now ≤ p.endTime

theorem Opens.claimable {c : Claim} (h : Opens env.now m policyId p)
    (hpolicy : c.policyId = policyId) (hholder : c.claimant = p.policyholder) :
    Claimable env.now m c p where
  policy := hpolicy ▸ h.policy
  active := h.active
  holder := hholder
  taken := h.covered.trans (Nat.le_add_right _ _)

/-- The claim is filed first; what follows are moves of the docket. -/
theorem processPolicy_files (horderly : (docket m).Orderly)
    (hopens : Opens env.now m policyId p)
    (h : processPolicy env policyId bps m = .ok (r, m')) :
    ∃ id t, (docket t).Orderly ∧
      t.store.claims.claim id =
        some (.fresh id policyId p.policyholder p.coverageAmount env.now) ∧
      Moved env (fun _ _ => True) t m' := by
  obtain ⟨hvacant, hp, hactive, hcovered⟩ := hopens
  simp only [processPolicy, bind_ok, loadClaims_ok] at h
  obtain ⟨s, _, ⟨hs, ht⟩, h⟩ := h
  rw [hs, ht] at h
  have hnot : m.store.claims.evaluated policyId = false := by
    simp [State.evaluated, hvacant]
  simp only [hnot, ite_ok, bind_ok, policyEngine_ok, getPolicy_ok, ensure_ok]
    at h
  obtain ⟨hcontra, -⟩ | ⟨-, address, _, ⟨haddress, ht⟩, q, _, ⟨-, hq, ht'⟩,
    _, _, ⟨hpos, ht''⟩, h⟩ := h
  · cases hcontra
  rw [ht'', ht', ht] at h
  rw [ht] at hq
  obtain rfl := Option.some.inj (hq.symm.trans hp)
  simp only [hactive, ite_ok, bind_ok, loadClaims_ok, unwrap_ok] at h
  obtain ⟨hend, -⟩ | ⟨-, id, _, hclaim, s, _, ⟨rfl, rfl⟩, c, t, ⟨hc, rfl⟩,
    h⟩ := h
  · omega
  obtain ⟨hmoved, hengine, hfresh⟩ := claimOfPolicy_moved
    (G := fun _ _ => True) (by simp [haddress]) (fun _ => trivial) hp hactive
    hpos hcovered hclaim
  obtain ⟨-, hfound⟩ | ⟨-, -, hfound⟩ := hfresh
  · rw [hvacant] at hfound
    cases hfound
  have horderly' := hmoved.orderly horderly
  refine ⟨id, t, horderly', hfound, ?_⟩
  rcases h with ⟨-, h⟩ | ⟨-, h⟩
  · obtain ⟨-, rfl⟩ := pure_ok.mp h
    exact .of_eq rfl
  · obtain rfl := Option.some.inj (hc.symm.trans hfound)
    have hpolicy : t.store.engine.policies policyId = some q := by
      rw [hengine]
      exact hp
    obtain ⟨k, -, hmove⟩ := evaluateAndSettle_move horderly' hc hpolicy h
    exact .single hmove trivial

end Processing

/-! ## Reference numbers -/

section References

variable {env : Context} {m m' : Machine Network} {u : Unit}

/-- The reference numbers are `refs`. -/
def Referenced (refs : Symbol → Option ℕ) (m : Machine Network) : Prop :=
  m.store.claims.claimReference = refs

theorem referenced_indifferent (refs : Symbol → Option ℕ) :
    Indifferent (Referenced refs) :=
  fun hm _ hsame => hsame.trans hm

/-- The call files claim `c` on `policyId` under a reference number that was
not in use. -/
structure Refers (policyId : ℕ) (reference : Symbol) (id : ℕ) (c : Claim)
    (m m' : Machine Network) : Prop where
  unused : m.store.claims.claimReference reference = none
  fresh : id = m.store.claims.nextClaimId
  claim : m'.store.claims.claim id = some c
  subject : c.policyId = policyId
  written : m'.store.claims.claimReference =
    Function.update m.store.claims.claimReference reference (some id)

theorem submitClaimWithRef_refers {claimant : Address} {policyId id : ℕ}
    {reference : Symbol}
    (h : submitClaimWithRef env claimant policyId reference m =
      .ok (id, m')) :
    ∃ c, Refers policyId reference id c m m' := by
  simp [submitClaimWithRef] at h
  obtain ⟨-, -, hunused, t, hfile, rfl⟩ := h
  have hrefs : Referenced m.store.claims.claimReference t :=
    keeps_fileClaim (referenced_indifferent _) m id t rfl hfile
  obtain ⟨c, p, hfiles, -⟩ := fileClaim_files hfile
  refine ⟨c, hunused, hfiles.fresh, ?_, hfiles.subject, ?_⟩
  · show t.store.claims.claim id = some c
    rw [hfiles.claim, Function.update_self]
  · show Function.update t.store.claims.claimReference reference (some id) = _
    rw [hrefs]

/-- A call leaves the reference numbers alone or adds its own. -/
theorem exec_references {e : Entry} (h : exec env e m = .ok (u, m')) :
    m'.store.claims.claimReference = m.store.claims.claimReference ∨
      ∃ claimant policyId reference id c,
        e = .submitClaimWithRef claimant policyId reference ∧
          Refers policyId reference id c m m' := by
  cases e with
  | submitClaimWithRef =>
      obtain ⟨id, h⟩ := perform_ok.mp h
      obtain ⟨c, hrefers⟩ := submitClaimWithRef_refers h
      exact .inr ⟨_, _, _, id, c, rfl, hrefers⟩
  | initializeProcessor =>
      simp [exec, initializeProcessor] at h
      obtain ⟨-, -, rfl⟩ := h
      exact .inl rfl
  | setGuardians =>
      simp [exec, setGuardians] at h
      obtain ⟨-, -, rfl⟩ := h
      exact .inl rfl
  | setGuardianThreshold =>
      simp [exec, setGuardianThreshold] at h
      obtain ⟨-, -, -, rfl⟩ := h
      exact .inl rfl
  | proposeNewAdmin =>
      simp [exec, proposeNewAdmin, ite_ok] at h
      obtain ⟨-, -, ⟨-, rfl⟩ | ⟨-, rfl⟩⟩ := h
      · exact .inl rfl
      · exact .inl rfl
  | approveAdminChange =>
      simp [exec, approveAdminChange, ite_ok] at h
      obtain ⟨-, -, pending, -, -, -, ⟨-, rfl⟩ | ⟨-, rfl⟩⟩ := h
      · exact .inl rfl
      · exact .inl rfl
  | acceptAdmin =>
      simp [exec, acceptAdmin] at h
      obtain ⟨-, -, -, rfl⟩ := h
      exact .inl rfl
  | _ =>
      exact .inl (exec_indifferent (referenced_indifferent _) rfl rfl m u m'
        rfl h)

end References

end Parashield.ClaimsProcessor
