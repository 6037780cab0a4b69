import Parashield.PolicyEngine.Catalogue
import Parashield.PolicyEngine.Sales
import Parashield.Support.Accrual

/-!
# Refunds

Products are created within fixed limits, so the premium and the term of a
policy are small, and the refund of a policy is the part of its premium that
has not accrued over its term.
-/

namespace Parashield.PolicyEngine

open Support Support.Contract Invocation

/-- The limits a product is created within. -/
structure InsuranceProduct.Limited (p : InsuranceProduct) : Prop where
  coverage : p.coverageMax ≤ maxCoverageLimit
  rate : p.premiumRateBps ≤ 5000
  duration : p.maxDurationDays ≤ 3650

/-- All products keep to the limits. -/
def Limited (products : ℕ → Option InsuranceProduct) : Prop :=
  ∀ id p, products id = some p → p.Limited

theorem Limited.update {products : ℕ → Option InsuranceProduct}
    (h : Limited products) (id : ℕ) {p : InsuranceProduct}
    (hp : p.Limited) : Limited (Function.update products id (some p)) := by
  intro i q hq
  by_cases hi : i = id
  · subst hi
    rw [Function.update_self] at hq
    exact Option.some.inj hq ▸ hp
  · rw [Function.update_of_ne hi] at hq
    exact h i q hq

section Products

variable {env : Env} {m m' : Machine State}

theorem createProduct_limited {admin : Address}
    {params : CreateProductParams} {id : ℕ}
    (h : createProduct env admin params m = .ok (id, m')) :
    ∃ (i : ℕ) (p : InsuranceProduct), p.Limited ∧
      m'.store.products = Function.update m.store.products i (some p) := by
  simp [createProduct, validateProductParams] at h
  obtain ⟨-, -, -, -, -, -, -, -, hrate, -, -, hcoverage, ⟨-, hdays⟩, -, -, -,
    -, -, -, rfl, -⟩ := h
  exact ⟨_, _, ⟨hcoverage, hrate, hdays⟩, rfl⟩

/-- A call writes one product at most, and none beyond the limits: a created
product is within them, and they are never written again. -/
theorem exec_products {e : Entry} {u : Unit}
    (h : exec env e m = .ok (u, m')) :
    m'.store.products = m.store.products ∨
      ∃ (i : ℕ) (p : InsuranceProduct),
        (Limited m.store.products → p.Limited) ∧
          m'.store.products =
            Function.update m.store.products i (some p) := by
  by_cases he : e.Catalogues
  swap
  · left
    show (catalogue m').products = (catalogue m).products
    rw [exec_catalogue_eq he h]
  cases e with
  | initializeEngine =>
      obtain ⟨-, heq⟩ := initializeEngine_catalogue h
      left
      show (catalogue m').products = (catalogue m).products
      rw [heq]
      rfl
  | createProduct =>
      obtain ⟨id, h⟩ := perform_ok.mp h
      obtain ⟨i, p, hp, hproducts⟩ := createProduct_limited h
      exact .inr ⟨i, p, fun _ => hp, hproducts⟩
  | pauseProduct admin id =>
      obtain ⟨p, hp, heq⟩ := pauseProduct_catalogue h
      refine .inr ⟨id, { p with status := .paused }, fun hlimited => ?_, ?_⟩
      · have hkept := hlimited id p hp
        exact ⟨hkept.coverage, hkept.rate, hkept.duration⟩
      · show (catalogue m').products = _
        rw [heq]
        rfl
  | deprecateProduct admin id =>
      obtain ⟨p, hp, heq⟩ := deprecateProduct_catalogue h
      refine .inr ⟨id, { p with status := .deprecated }, fun hlimited => ?_, ?_⟩
      · have hkept := hlimited id p hp
        exact ⟨hkept.coverage, hkept.rate, hkept.duration⟩
      · show (catalogue m').products = _
        rw [heq]
        rfl
  | _ => exact he.elim

theorem exec_limited {e : Entry} {u : Unit}
    (hlimited : Limited m.store.products)
    (h : exec env e m = .ok (u, m')) : Limited m'.store.products := by
  rcases exec_products h with heq | ⟨i, p, hp, heq⟩
  · rw [heq]
    exact hlimited
  · rw [heq]
    exact hlimited.update i (hp hlimited)

theorem limited_inductive (engine : Address) :
    (system engine).Inductive fun w => Limited w.machine.store.products where
  init w hw := by
    rw [hw.1]
    exact nofun
  step w l w' h hstep := by
    cases hstep with
    | call _ hexec => exact exec_limited h hexec
    | _ => exact h

/-- Every policy has its product. -/
def Stocked (s : State) : Prop :=
  ∀ id p, s.policies id = some p →
    ∃ product, s.products p.productId = some product

/-- A sold policy has its product, and no product is ever taken away. -/
theorem step_stocked {engine : Address} {w w' : World State}
    {l : Label Entry} (hwired : Wired w.machine.store)
    (hsound : (book w.machine).Sound) (h : Stocked w.machine.store)
    (hstep : Step exec engine w l w') : Stocked w'.machine.store := by
  have hkept : ∀ i, (∃ product, w.machine.store.products i = some product) →
      ∃ product, w'.machine.store.products i = some product := by
    rintro i ⟨product, hproduct⟩
    cases hstep with
    | call _ hexec =>
        rcases exec_products hexec with heq | ⟨j, q, -, heq⟩
        · exact ⟨product, by rw [heq, hproduct]⟩
        · by_cases hij : i = j
          · exact ⟨q, by rw [heq, hij, Function.update_self]⟩
          · exact ⟨product, by rw [heq, Function.update_of_ne hij, hproduct]⟩
    | _ => exact ⟨product, hproduct⟩
  intro id p hp
  apply hkept
  cases hbefore : w.machine.store.policies id with
  | some q =>
      obtain ⟨q', hq', hterms⟩ := step_keeps_terms hwired hsound hstep hbefore
      obtain rfl := Option.some.inj (hp.symm.trans hq')
      rw [hterms.product]
      exact h id q hbefore
  | none =>
      have hissues := step_issues hwired hsound hstep
      obtain ⟨product, hproduct, -⟩ :=
        hissues.conforms p (hissues.only id p hbefore hp)
      exact ⟨product, hproduct⟩

end Products

/-! ## Policies are small -/

/-- What a policy sold under such a product costs, and how long it runs. -/
structure Policy.Bounded (p : Policy) : Prop where
  premium_pos : 0 < p.premiumPaid
  premium_le : p.premiumPaid ≤ 5000000000000
  start_lt_end : p.startTime < p.endTime
  term_le : p.endTime - p.startTime ≤ 3650 * 86400

theorem Policy.Conforms.bounded {product : InsuranceProduct} {now : ℕ}
    {p : Policy} (h : p.Conforms product now) (hlimited : product.Limited) :
    p.Bounded := by
  obtain ⟨days, -, hdays, hend, hpremium⟩ := h.term
  have hcoverage : p.coverageAmount ≤ 1000000000000 :=
    h.coverage_max.trans hlimited.coverage
  have hrate : (product.premiumRateBps : ℤ) ≤ 5000 := by
    exact_mod_cast hlimited.rate
  have hterm : (days : ℤ) ≤ 3650 := by
    exact_mod_cast hdays.trans hlimited.duration
  have hprice : p.coverageAmount * product.premiumRateBps * days ≤
      1000000000000 * 5000 * 3650 :=
    Int.mul_le_mul (Int.mul_le_mul hcoverage hrate (by omega) (by omega))
      hterm (by omega) (by omega)
  exact
    { premium_pos := h.premium_pos
      premium_le := by omega
      start_lt_end := h.start_lt_end
      term_le := by omega }

theorem Policy.SameTerms.bounded {p p' : Policy} (h : p.SameTerms p')
    (hp : p.Bounded) : p'.Bounded := by
  rw [show p' = _ from h]
  exact ⟨hp.premium_pos, hp.premium_le, hp.start_lt_end, hp.term_le⟩

/-- Every policy on the book is small. -/
theorem policies_bounded {engine : Address} {w : World State}
    (hw : (system engine).Reachable w) {id : ℕ} {p : Policy}
    (hp : w.machine.store.policies id = some p) : p.Bounded := by
  induction hw generalizing id p with
  | init hinit =>
      rw [hinit.1] at hp
      cases hp
  | @step w w' l hw hstep ih =>
      obtain ⟨⟨hwired, hsound⟩, -⟩ := hw.invariant (bought_inductive engine)
      cases hbefore : w.machine.store.policies id with
      | some q =>
          obtain ⟨q', hq', hterms⟩ :=
            step_keeps_terms hwired hsound hstep hbefore
          obtain rfl := Option.some.inj (hp.symm.trans hq')
          exact hterms.bounded (ih hbefore)
      | none =>
          have hissues := step_issues hwired hsound hstep
          obtain ⟨product, hproduct, hconforms⟩ :=
            hissues.conforms p (hissues.only id p hbefore hp)
          exact hconforms.bounded
            (hw.invariant (limited_inductive engine) _ _ hproduct)

/-! ## The refund is what has not accrued -/

namespace Policy.Bounded

variable {p : Policy}

/-- What accrues on the premium is far below the range of an `i128`. -/
theorem product_bounds (h : p.Bounded) (elapsed : ℕ) :
    0 ≤ p.premiumPaid * (min elapsed (p.endTime - p.startTime) : ℕ) ∧
      p.premiumPaid * (min elapsed (p.endTime - p.startTime) : ℕ) ≤
        5000000000000 * (3650 * 86400) := by
  have hpos := h.premium_pos
  have hterm := h.term_le
  refine ⟨Int.mul_nonneg hpos.le (Int.natCast_nonneg _), ?_⟩
  exact Int.mul_le_mul h.premium_le (by omega) (by omega) (by omega)

theorem refundFits (h : p.Bounded) (elapsed : ℕ) :
    RefundFits p.premiumPaid elapsed (p.endTime - p.startTime) := by
  have hlt := h.start_lt_end
  have hpremium := h.premium_le
  obtain ⟨hlow, hhigh⟩ := h.product_bounds elapsed
  obtain ⟨hearned, hearned'⟩ := earned_bounds h.premium_pos.le
    (Nat.min_le_right elapsed (p.endTime - p.startTime)) (by omega)
  refine .inr ⟨⟨?_, ?_⟩, ?_, ?_⟩
  · exact le_trans (by decide) hlow
  · exact lt_of_le_of_lt hhigh (by decide)
  · exact le_trans (by decide) hearned
  · exact lt_of_le_of_lt (hearned'.trans hpremium) (by decide)

/-- The refund is what has not accrued of the premium. -/
theorem refund_eq (h : p.Bounded) (now : ℕ) :
    Book.refund p now =
      unaccrued p.premiumPaid (p.endTime - p.startTime)
        (now - p.startTime) := by
  have hlt := h.start_lt_end
  have hpremium := h.premium_le
  obtain ⟨hlow, -⟩ := h.product_bounds (now - p.startTime)
  obtain ⟨hearned, hearned'⟩ := earned_bounds h.premium_pos.le
    (Nat.min_le_right (now - p.startTime) (p.endTime - p.startTime))
    (by omega)
  rw [Book.refund, unearnedPremium, if_neg (by omega), unaccrued, accrued]
  rw [Int.tdiv_eq_ediv_of_nonneg hlow] at hearned hearned' ⊢
  simp only [satI128, minI128, maxI128]
  omega

end Policy.Bounded

/-! ## Cancellation -/

theorem refundAmount_avoids {m : Machine State} {premiumPaid : ℤ}
    {elapsed totalDuration : ℕ}
    (h : RefundFits premiumPaid elapsed totalDuration) :
    Avoids Fault.IsOverflow (refundAmount premiumPaid elapsed totalDuration)
      m := by
  unfold refundAmount
  rw [avoids_ite]
  refine ⟨fun _ => avoids_pure _, fun hzero => ?_⟩
  obtain ⟨hprod, hquot⟩ := h.resolve_left hzero
  simp only [avoids_bind, avoids_i128, avoids_pure, i128_ok, implies_true,
    and_true]
  refine ⟨fun _ => hprod, ?_⟩
  rintro v t ⟨-, rfl, rfl⟩ -
  exact hquot

section Avoids

variable {m : Machine State} {id : ℕ}

@[simp] theorem avoids_loadPolicy :
    Avoids Fault.IsOverflow (loadPolicy id) m := by
  simp [loadPolicy]

@[simp] theorem avoids_storePolicy (p : Policy) :
    Avoids Fault.IsOverflow (storePolicy id p) m :=
  avoids_update _

@[simp] theorem avoids_removePolicyFromUser (user : Address) :
    Avoids Fault.IsOverflow (removePolicyFromUser user id) m :=
  avoids_update _

@[simp] theorem avoids_publish (e : Event) :
    Avoids Fault.IsOverflow (publish e) m :=
  avoids_update _

/-- The arithmetic of a cancellation does not fail. -/
theorem cancelPolicy_avoids {env : Env} {holder : Address} {reason : Bytes}
    (h : ∀ p, m.store.policies id = some p → p.Bounded) :
    Avoids Fault.IsOverflow (cancelPolicy env holder id reason) m := by
  simp [cancelPolicy]
  intro _ _ _ p hp _ _
  exact refundAmount_avoids ((h p hp).refundFits _)

end Avoids

/-- A cancellation pays the refund. -/
theorem cancelPolicy_refund {env : Env} {m m' : Machine State}
    {holder : Address} {id : ℕ} {reason : Bytes} {refund : ℤ} {p : Policy}
    (hp : m.store.policies id = some p)
    (h : cancelPolicy env holder id reason m = .ok (refund, m')) :
    refund = Book.refund p env.now := by
  simp [cancelPolicy] at h
  obtain ⟨-, -, -, q, hq, -, -, -, usdc, -, B, -, -, hrefund⟩ := h
  obtain rfl := Option.some.inj (hp.symm.trans hq)
  exact hrefund

/-- The refund falls from the whole premium at the start of the policy to
nothing at its end, in proportion to the time left, rounded up. -/
structure Policy.ProRata (p : Policy) (refund : ℕ → ℤ) : Prop where
  bounds : ∀ now, 0 ≤ refund now ∧ refund now ≤ p.premiumPaid
  whole : ∀ now, now ≤ p.startTime → refund now = p.premiumPaid
  nothing : ∀ now, p.endTime ≤ now → refund now = 0
  antitone : Antitone refund
  rounded : ∀ now, p.startTime ≤ now → now ≤ p.endTime →
    0 ≤ (refund now : ℚ) -
        p.premiumPaid * (p.endTime - now) / (p.endTime - p.startTime) ∧
      (refund now : ℚ) -
        p.premiumPaid * (p.endTime - now) / (p.endTime - p.startTime) < 1

theorem Policy.Bounded.proRata {p : Policy} (h : p.Bounded) :
    p.ProRata (Book.refund p) := by
  have hterm : 0 < p.endTime - p.startTime := by
    have hlt := h.start_lt_end
    omega
  have hpremium := h.premium_pos.le
  exact
    { bounds := fun now => unearnedPremium_bounds hpremium _ _
      whole := by
        intro now hle
        rw [h.refund_eq, Nat.sub_eq_zero_of_le hle, unaccrued_zero]
      nothing := by
        intro now hle
        rw [h.refund_eq, unaccrued_of_le hterm (by omega)]
      antitone := by
        intro now now' hle
        rw [h.refund_eq, h.refund_eq]
        exact unaccrued_antitone hpremium hterm
          (Nat.sub_le_sub_right hle _)
      rounded := by
        intro now hstart hend
        have hexact := unaccrued_sub_exact (x := p.premiumPaid) hterm
          (Nat.sub_le_sub_right hend p.startTime)
        rw [← h.refund_eq, Nat.cast_sub hstart,
          Nat.cast_sub h.start_lt_end.le, sub_sub_sub_cancel_right] at hexact
        exact hexact }

/-- Whenever a policy of the engine is cancelled, the refund is the share of
its premium for the time left, and computing it does not overflow. -/
theorem cancellation_refund_pro_rata {engine : Address} {w : World State}
    (hw : (system engine).Reachable w) {id : ℕ} {p : Policy}
    (hp : w.machine.store.policies id = some p) :
    p.ProRata (Book.refund p) ∧
      ∀ env holder reason,
        Avoids Fault.IsOverflow (cancelPolicy env holder id reason)
            w.machine ∧
          ∀ refund m',
            cancelPolicy env holder id reason w.machine = .ok (refund, m') →
              refund = Book.refund p env.now := by
  refine ⟨(policies_bounded hw hp).proRata, fun env holder reason => ⟨?_, ?_⟩⟩
  · exact cancelPolicy_avoids fun _ => policies_bounded hw
  · exact fun refund m' => cancelPolicy_refund hp

open Sample in
theorem cancellation_refund_pro_rata_insured :
    ∃ p, insured.machine.store.policies 1 = some p ∧
      p.ProRata (Book.refund p) := by
  have hsome : (insured.machine.store.policies 1).isSome = true := by
    decide +kernel
  obtain ⟨p, hp⟩ := Option.isSome_iff_exists.mp hsome
  exact ⟨p, hp, (cancellation_refund_pro_rata insured_reachable hp).1⟩

end Parashield.PolicyEngine
