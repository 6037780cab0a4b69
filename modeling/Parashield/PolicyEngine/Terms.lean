import Parashield.PolicyEngine.Book

/-!
# What becomes of one policy

A change of the book never rewrites the terms of a policy: it can only hand
the policy over or end it, and a policy it adds is one it sold.
-/

namespace Parashield.PolicyEngine

open Support

/-- The policies agree on everything but holder and status. -/
def Policy.SameTerms (p p' : Policy) : Prop :=
  p' = { p with policyholder := p'.policyholder, status := p'.status }

namespace Policy.SameTerms

variable {p p' : Policy}

theorem refl (p : Policy) : p.SameTerms p := rfl

theorem trans {p'' : Policy} (h : p.SameTerms p') (h' : p'.SameTerms p'') :
    p.SameTerms p'' := by
  rw [SameTerms, show p'' = _ from h', show p' = _ from h]

theorem coverage (h : p.SameTerms p') :
    p'.coverageAmount = p.coverageAmount := by
  rw [show p' = _ from h]

theorem product (h : p.SameTerms p') : p'.productId = p.productId := by
  rw [show p' = _ from h]

theorem start (h : p.SameTerms p') : p'.startTime = p.startTime := by
  rw [show p' = _ from h]

end Policy.SameTerms

namespace Book

/-- The change ends policy `id`. -/
def Kind.Ends (id : ℕ) (k : Kind) : Prop :=
  k = .cancel id ∨ k = .claim id ∨ k = .expire id

/-- What every book keeps: policies are numbered, sold by a wired engine, and
insure something. -/
structure Sound (b : Book) : Prop where
  fresh : ∀ id, b.nextPolicyId ≤ id → b.policies id = none
  unwired : b.usdcToken = none → ∀ id, b.policies id = none
  coverage_pos : ∀ id p, b.policies id = some p → 0 < p.coverageAmount

section Change

variable {env : Env} {b b' : Book} {k : Kind} {id : ℕ} {p : Policy}

theorem Change.token (h : Change env k b b') {usdc : Address}
    (husdc : b.usdcToken = some usdc) : b'.usdcToken = some usdc := by
  cases h with
  | wire hnone =>
      rw [hnone] at husdc
      cases husdc
  | _ => exact husdc

/-- What a change makes of a policy on the book. -/
structure Continues (k : Kind) (id : ℕ) (p p' : Policy) : Prop where
  terms : p.SameTerms p'
  holder : k ≠ .transfer id → p'.policyholder = p.policyholder
  status : p'.status = p.status ∨ p.status = .active ∧ k.Ends id
  ends : k.Ends id → p'.status ≠ .active

theorem Continues.refl (h : ¬ k.Ends id) : Continues k id p p :=
  ⟨.refl p, fun _ => rfl, .inl rfl, fun hends => (h hends).elim⟩

/-- Rewriting one policy continues all of them. -/
theorem continues_of_write {i : ℕ} {q q' : Policy}
    (hq : b.policies i = some q)
    (hpolicies : b'.policies = b.setPolicy i q')
    (hwritten : Continues k i q q') (hother : id ≠ i → ¬ k.Ends id)
    (hp : b.policies id = some p) :
    ∃ p', b'.policies id = some p' ∧ Continues k id p p' := by
  rw [hpolicies]
  by_cases hi : id = i
  · subst hi
    obtain rfl := Option.some.inj (hp.symm.trans hq)
    exact ⟨q', by simp [setPolicy], hwritten⟩
  · refine ⟨p, by simp [setPolicy, Function.update_of_ne hi, hp], ?_⟩
    exact .refl (hother hi)

/-- A policy on the book stays on it with its terms. -/
theorem Sound.continues (h : b.Sound) (hchange : Change env k b b')
    (hp : b.policies id = some p) :
    ∃ p', b'.policies id = some p' ∧ Continues k id p p' := by
  cases hchange with
  | wire hnone =>
      have habsent := h.unwired hnone id
      rw [hp] at habsent
      cases habsent
  | @buy _ q _ _ _ hq =>
      have hne : id ≠ q.id := by
        rintro rfl
        have habsent := h.fresh q.id hq.id_eq.ge
        rw [hp] at habsent
        cases habsent
      refine ⟨p, by simp [setPolicy, Function.update_of_ne hne, hp], ?_⟩
      exact .refl (by simp [Kind.Ends])
  | @cancel _ i q _ _ hq hactive =>
      refine continues_of_write hq rfl ⟨rfl, fun _ => rfl, ?_, ?_⟩ ?_ hp
      · exact .inr ⟨hactive, .inl rfl⟩
      · simp
      · intro hne
        simpa [Kind.Ends] using hne.symm
  | @transfer _ i q recipient hq hactive =>
      refine continues_of_write hq rfl ⟨rfl, ?_, .inl rfl, ?_⟩ ?_ hp
      · simp
      · simp [Kind.Ends]
      · simp [Kind.Ends]
  | @claim _ i q _ _ hq hactive =>
      refine continues_of_write hq rfl ⟨rfl, fun _ => rfl, ?_, ?_⟩ ?_ hp
      · exact .inr ⟨hactive, .inr (.inl rfl)⟩
      · simp
      · intro hne
        simpa [Kind.Ends] using hne.symm
  | @expire _ i q hq hactive =>
      refine continues_of_write hq rfl ⟨rfl, fun _ => rfl, ?_, ?_⟩ ?_ hp
      · exact .inr ⟨hactive, .inr (.inr rfl)⟩
      · simp
      · intro hne
        simpa [Kind.Ends] using hne.symm
  | warn => exact ⟨p, hp, .refl (by simp [Kind.Ends])⟩

/-- A policy found after a change was there before, or was just sold. -/
theorem Sound.arises (h : b.Sound) (hchange : Change env k b b')
    {p' : Policy} (hp : b'.policies id = some p') :
    (∃ p, b.policies id = some p ∧ Continues k id p p') ∨
      (b.policies id = none ∧ k = .buy id ∧ Offered env b p') := by
  cases hbefore : b.policies id with
  | some p =>
      obtain ⟨q, hq, hcontinues⟩ := h.continues hchange hbefore
      obtain rfl := Option.some.inj (hq.symm.trans hp)
      exact .inl ⟨p, rfl, hcontinues⟩
  | none =>
      right
      have hfound : ∀ {i q q'}, b.policies i = some q →
          b.setPolicy i q' id = some p' → False := by
        intro i q q' hq hwritten
        by_cases hi : id = i
        · subst hi
          rw [hbefore] at hq
          cases hq
        · simp [setPolicy, Function.update_of_ne hi, hbefore] at hwritten
      cases hchange with
      | wire =>
          rw [hbefore] at hp
          cases hp
      | @buy _ q _ _ _ hq =>
          by_cases hi : id = q.id
          · subst hi
            simp only [setPolicy, Function.update_self,
              Option.some.injEq] at hp
            exact ⟨rfl, rfl, hp ▸ hq⟩
          · simp [setPolicy, Function.update_of_ne hi, hbefore] at hp
      | cancel hq => exact (hfound hq hp).elim
      | transfer hq => exact (hfound hq hp).elim
      | claim hq => exact (hfound hq hp).elim
      | expire hq => exact (hfound hq hp).elim
      | warn =>
          rw [hbefore] at hp
          cases hp

theorem Sound.change (h : b.Sound) (hchange : Change env k b b') :
    b'.Sound := by
  have hpos : ∀ i q, b'.policies i = some q → 0 < q.coverageAmount := by
    intro i q hq
    rcases h.arises hchange hq with ⟨p, hp, hcontinues⟩ | ⟨-, -, hoffered⟩
    · rw [hcontinues.terms.coverage]
      exact h.coverage_pos i p hp
    · exact hoffered.coverage_pos
  have hkept : ∀ i, b'.policies i ≠ none → b.policies i ≠ none ∨
      k = .buy i ∧ i = b.nextPolicyId := by
    intro i hi
    obtain ⟨q, hq⟩ := Option.ne_none_iff_exists'.mp hi
    rcases h.arises hchange hq with ⟨p, hp, -⟩ | ⟨-, hk, hoffered⟩
    · exact .inl (by simp [hp])
    · cases hchange with
      | buy _ hsold hB =>
          obtain rfl := Kind.buy.inj hk
          exact .inr ⟨rfl, hsold.id_eq⟩
      | _ => cases hk
  have hnext : (b'.usdcToken = b.usdcToken ∧
      b.nextPolicyId ≤ b'.nextPolicyId ∧
      (∀ i, k = .buy i → b.nextPolicyId < b'.nextPolicyId)) ∨
      (b.usdcToken = none ∧ b'.usdcToken ≠ none ∧ ∀ i, k ≠ .buy i) := by
    cases hchange with
    | wire hnone => exact .inr ⟨hnone, by simp, by simp⟩
    | buy _ hsold =>
        refine .inl ⟨rfl, ?_, fun _ _ => ?_⟩
        · simp [hsold.id_eq]
        · simp [hsold.id_eq]
    | _ => exact .inl ⟨rfl, le_rfl, fun i hi => by cases hi⟩
  refine ⟨?_, ?_, hpos⟩
  · intro i hi
    by_contra hsome
    rcases hnext with ⟨-, hle, hlt⟩ | ⟨hnone, -, hbuy⟩
    · rcases hkept i hsome with hb | ⟨rfl, rfl⟩
      · exact hb (h.fresh i (hle.trans hi))
      · have := hlt _ rfl
        omega
    · rcases hkept i hsome with hb | ⟨hk, -⟩
      · exact hb (h.unwired hnone i)
      · exact hbuy i hk
  · intro hnone i
    by_contra hsome
    rcases hnext with ⟨htoken, -, hlt⟩ | ⟨-, hset, -⟩
    · rw [htoken] at hnone
      rcases hkept i hsome with hb | ⟨rfl, -⟩
      · exact hb (h.unwired hnone i)
      · cases hchange with
        | buy hwired => simp [hnone] at hwired
    · exact hset hnone

end Change

end Book

end Parashield.PolicyEngine
