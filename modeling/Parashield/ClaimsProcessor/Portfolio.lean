import Parashield.ClaimsProcessor.Submissions

/-!
# Claims processor: filing on a list of policies

The policies of the list are filed on one after the other, by the body that a
single submission runs.  Each filing restarts the cooldown of its claimant, and
the next one of the same call meets it.
-/

namespace Parashield.ClaimsProcessor

open Support Support.Contract Invocation
open PolicyEngine (Policy)

/-- Claims `ids` are filed by `claimant` from `m` to `m'`, one on each policy of
the list, in order, and nothing else is filed. -/
structure Portfolio (env : Context) (claimant : Address)
    (policyIds ids : List ℕ) (m m' : Machine Network) : Prop where
  consecutive :
    ids = List.range' m.store.claims.nextClaimId policyIds.length
  vacant : ∀ policyId ∈ policyIds,
    m.store.claims.policyClaim policyId = none
  filed : List.Forall₂
    (fun policyId id => ∃ p, m.store.engine.policies policyId = some p ∧
      m'.store.claims.claim id =
        some (.fresh id policyId claimant p.coverageAmount env.now) ∧
      m'.store.claims.policyClaim policyId = some id) policyIds ids
  others : ∀ id ∉ ids, m'.store.claims.claim id = m.store.claims.claim id
  elsewhere : ∀ policyId ∉ policyIds,
    m'.store.claims.policyClaim policyId =
      m.store.claims.policyClaim policyId
  queue : m'.store.claims.pendingClaims =
    m.store.claims.pendingClaims ++ ids
  engine : m'.store.engine = m.store.engine

section Filing

variable {env : Context} {claimant : Address} {policyId id : ℕ}
  {policyIds ids : List ℕ} {p : Policy} {m t m' : Machine Network}

/-- What one filing on an eligible policy writes, and what the next filing of
the same call finds as it was. -/
structure Filing (env : Context) (claimant : Address) (policyId id : ℕ)
    (p : Policy) (m m' : Machine Network) : Prop where
  bound : id + 1 < 2 ^ 128
  fresh : id = m.store.claims.nextClaimId
  next : m'.store.claims.nextClaimId = id + 1
  claim : m'.store.claims.claim =
    Function.update m.store.claims.claim id
      (some (.fresh id policyId claimant p.coverageAmount env.now))
  policyClaim : m'.store.claims.policyClaim =
    Function.update m.store.claims.policyClaim policyId (some id)
  queue : m'.store.claims.pendingClaims = m.store.claims.pendingClaims ++ [id]
  stamped : m'.store.claims.userLastClaim claimant = some env.now
  engine : m'.store.engine = m.store.engine
  address : m'.store.claims.policyEngine = m.store.claims.policyEngine
  deadline : m'.store.claims.claimDeadline = m.store.claims.claimDeadline
  detector : m'.store.claims.fraudConfig = m.store.claims.fraudConfig

theorem fileClaim_filing
    (h : fileClaim env claimant policyId m = .ok (id, m')) :
    ∃ p, Eligible env claimant policyId p m ∧ Rested env claimant m ∧
      Filing env claimant policyId id p m m' := by
  obtain ⟨p, fraud, history, heligible, hrested, hbound, rfl, rfl⟩ :=
    fileClaim_ok h
  exact ⟨p, heligible, hrested, hbound, rfl, rfl, rfl, rfl, rfl,
    Function.update_self .., rfl, rfl, rfl, rfl⟩

/-! ## What a list comes to -/

theorem Portfolio.nil : Portfolio env claimant [] [] m m :=
  ⟨rfl, nofun, .nil, fun _ _ => rfl, fun _ _ => rfl,
    (List.append_nil _).symm, rfl⟩

theorem Portfolio.cons (heligible : Eligible env claimant policyId p m)
    (hfile : Filing env claimant policyId id p m t)
    (hrest : Portfolio env claimant policyIds ids t m') :
    Portfolio env claimant (policyId :: policyIds) (id :: ids) m m' := by
  -- the first policy is taken by now, so that the rest are others
  have hothers : ∀ other ∈ policyIds, other ≠ policyId := by
    rintro other hother rfl
    have htaken := hrest.vacant other hother
    rw [hfile.policyClaim, Function.update_self] at htaken
    cases htaken
  have hpolicy : policyId ∉ policyIds := fun h => hothers policyId h rfl
  have hid : id ∉ ids := by
    rw [hrest.consecutive, hfile.next, List.mem_range'_1]
    omega
  refine ⟨?_, ?_, .cons ⟨p, heligible.policy, ?_, ?_⟩ ?_, ?_, ?_, ?_,
    hrest.engine.trans hfile.engine⟩
  · rw [hrest.consecutive, hfile.next, hfile.fresh, List.length_cons,
      List.range'_succ]
  · intro other hother
    rcases List.mem_cons.mp hother with rfl | hother
    · exact heligible.vacant
    · have hvacant := hrest.vacant other hother
      rwa [hfile.policyClaim, Function.update_of_ne (hothers other hother)]
        at hvacant
  · rw [hrest.others id hid, hfile.claim, Function.update_self]
  · rw [hrest.elsewhere policyId hpolicy, hfile.policyClaim,
      Function.update_self]
  · have hfiled := hrest.filed
    rwa [hfile.engine] at hfiled
  · intro other hother
    rw [List.mem_cons, not_or] at hother
    rw [hrest.others other hother.2, hfile.claim,
      Function.update_of_ne hother.1]
  · intro other hother
    rw [List.mem_cons, not_or] at hother
    rw [hrest.elsewhere other hother.2, hfile.policyClaim,
      Function.update_of_ne hother.1]
  · rw [hrest.queue, hfile.queue, List.append_assoc, List.singleton_append]

theorem collect_portfolio
    (h : collect policyIds (fileClaim env claimant) m = .ok (ids, m')) :
    Portfolio env claimant policyIds ids m m' := by
  induction policyIds generalizing m ids with
  | nil =>
      obtain ⟨rfl, rfl⟩ := pure_ok.mp h
      exact .nil
  | cons policyId policyIds ih =>
      simp only [collect, bind_ok, pure_ok] at h
      obtain ⟨id, t, hfile, ids, _, hrest, rfl, rfl⟩ := h
      obtain ⟨p, heligible, -, hfiling⟩ := fileClaim_filing hfile
      exact .cons heligible hfiling (ih hrest)

/-! ## The cooldown inside a list -/

/-- Right after a filing its claimant has rested only at the end of time, where
the sum of the cooldown saturates. -/
theorem rested_of_filed
    (hlast : m.store.claims.userLastClaim claimant = some env.now) :
    Rested env claimant m ↔ maxU64 ≤ env.now := by
  simp only [Rested, hlast, Option.mem_def, Option.some.injEq, forall_eq',
    satAddU64, userClaimCooldownSeconds]
  omega

theorem rested_of_end (hend : maxU64 ≤ env.now) : Rested env claimant m :=
  fun _ _ => (Nat.min_le_right _ _).trans hend

/-- No list of two or more policies gets past its second one. -/
theorem collect_short
    (h : collect policyIds (fileClaim env claimant) m = .ok (ids, m')) :
    policyIds.length ≤ 1 ∨ maxU64 ≤ env.now := by
  match policyIds, h with
  | [], _ => exact .inl (Nat.zero_le 1)
  | [_], _ => exact .inl le_rfl
  | first :: second :: rest, h =>
      simp only [collect, bind_ok, pure_ok] at h
      obtain ⟨id, t, hfirst, ids, _, hrest, -⟩ := h
      obtain ⟨id', t', hsecond, -⟩ := hrest
      obtain ⟨p, -, -, hfiling⟩ := fileClaim_filing hfirst
      obtain ⟨p', -, hrested, -⟩ := fileClaim_filing hsecond
      exact .inr ((rested_of_filed hfiling.stamped).mp hrested)

theorem collect_bound
    (h : collect policyIds (fileClaim env claimant) m = .ok (ids, m'))
    (hne : policyIds ≠ []) :
    m.store.claims.nextClaimId + policyIds.length < 2 ^ 128 := by
  induction policyIds generalizing m m' ids with
  | nil => exact absurd rfl hne
  | cons policyId policyIds ih =>
      simp only [collect, bind_ok, pure_ok] at h
      obtain ⟨id, t, hfile, ids, _, hrest, -, -⟩ := h
      obtain ⟨p, -, -, hfiling⟩ := fileClaim_filing hfile
      have hbound := hfiling.bound
      rw [hfiling.fresh] at hbound
      cases policyIds with
      | nil => exact hbound
      | cons second policyIds =>
          have hlater := ih hrest (List.cons_ne_nil _ _)
          rw [hfiling.next, hfiling.fresh] at hlater
          simp only [List.length_cons] at hlater ⊢
          omega

/-! ## Filing without the fraud detector -/

/-- A filing that meets every check goes through. -/
theorem Eligible.files (h : Eligible env claimant policyId p m)
    (hrested : Rested env claimant m)
    (hoff : m.store.claims.fraudConfig = none)
    (hid : m.store.claims.nextClaimId + 1 < 2 ^ 128) :
    ∃ id m', fileClaim env claimant policyId m = .ok (id, m') := by
  obtain ⟨product, hproduct, hcategory⟩ := h.product
  have hstatus : p.status ≠ .cancelled := by
    rw [h.active]
    nofun
  simp [fileClaim, updateClaimantHistory, nextClaimId, evaluateFraud, hoff]
  exact ⟨h.vacant, h.engine, p, h.policy, product, hproduct, hcategory,
    h.coverage, h.holder, hstatus, h.active, h.started, h.taken, h.near,
    h.inTime, h.endless, hrested, hid⟩

/-- A filing leaves the other policies as they were. -/
theorem Eligible.after {other : ℕ} {q : Policy}
    (h : Eligible env claimant other q m) (hne : other ≠ policyId)
    (hfile : Filing env claimant policyId id p m t) :
    Eligible env claimant other q t := by
  obtain ⟨hvacant, haddress, hpolicy, hproduct, hcoverage, hholder, hactive,
    hstarted, htaken, hnear, hin, hendless⟩ := h
  rw [← hfile.deadline] at htaken hin
  rw [← hfile.engine] at hpolicy hproduct
  refine ⟨?_, hfile.address.trans haddress, hpolicy, hproduct, hcoverage,
    hholder, hactive, hstarted, htaken, hnear, hin, hendless⟩
  rw [hfile.policyClaim, Function.update_of_ne hne, hvacant]

/-- At the end of time a list of different eligible policies goes through. -/
theorem collect_files (hend : maxU64 ≤ env.now)
    (heligible : ∀ policyId ∈ policyIds,
      ∃ p, Eligible env claimant policyId p m)
    (hnodup : policyIds.Nodup) (hoff : m.store.claims.fraudConfig = none)
    (hbound : m.store.claims.nextClaimId + policyIds.length < 2 ^ 128) :
    ∃ ids m', collect policyIds (fileClaim env claimant) m =
      .ok (ids, m') := by
  induction policyIds generalizing m with
  | nil => exact ⟨[], m, pure_ok.mpr ⟨rfl, rfl⟩⟩
  | cons policyId policyIds ih =>
      obtain ⟨hnew, hnodup⟩ := List.nodup_cons.mp hnodup
      rw [List.length_cons] at hbound
      obtain ⟨p, hp⟩ := heligible policyId List.mem_cons_self
      obtain ⟨id, t, hfile⟩ := hp.files (rested_of_end hend) hoff (by omega)
      obtain ⟨q, -, -, hfiling⟩ := fileClaim_filing hfile
      obtain ⟨ids, m', hrest⟩ := ih (m := t) (fun other hother => by
          obtain ⟨q', hq'⟩ := heligible other (List.mem_cons_of_mem _ hother)
          have hne : other ≠ policyId := fun h => hnew (h ▸ hother)
          exact ⟨q', hq'.after hne hfiling⟩)
        hnodup (hfiling.detector.trans hoff)
        (by rw [hfiling.next, hfiling.fresh]; omega)
      refine ⟨id :: ids, m', ?_⟩
      simp only [collect, bind_ok, pure_ok]
      exact ⟨id, t, hfile, ids, m', hrest, rfl, rfl⟩

end Filing

end Parashield.ClaimsProcessor
