import Parashield.Protocol.Invariants

/-!
# Payments for claims

The claims processor has no tokens: it has the policy engine pay.  Every
transfer made in a call of the processor is a payment for one claim, and no
claim is paid twice.
-/

namespace Parashield.Protocol

open Support
open PolicyEngine (Policy)
open ClaimsProcessor (Claim Docket Kind Move Network docket moves)

/-! ## How a claim evolves -/

/-- The claim has been approved, in full or in part. -/
def Approved (c : Claim) : Prop :=
  c.status = .paid ∨ c.status = .partiallyPaid

instance (c : Claim) : Decidable (Approved c) :=
  inferInstanceAs (Decidable (_ ∨ _))

/-- The move reviews a claim outside its processing. -/
def Reviews : Kind → Prop
  | .dispute _ | .resolve _ | .reject _ | .escalate _ => True
  | _ => False

/-- What a claim keeps as long as it is not reviewed. -/
structure Evolves (c c' : Claim) : Prop extends SameSubject c c' where
  paid : c.paidAmount.isSome → c'.paidAmount.isSome
  approved : Approved c → Approved c'
  closed : c.status ≠ .pending → c'.status = c.status

theorem Evolves.refl (c : Claim) : Evolves c c :=
  ⟨.refl c, id, id, fun _ => rfl⟩

theorem Evolves.trans {c c₁ c₂ : Claim} (h : Evolves c c₁)
    (h' : Evolves c₁ c₂) : Evolves c c₂ where
  toSameSubject := h.toSameSubject.trans h'.toSameSubject
  paid hpaid := h'.paid (h.paid hpaid)
  approved happroved := h'.approved (h.approved happroved)
  closed hpending := by
    have hstatus := h.closed hpending
    rw [h'.closed (hstatus ▸ hpending), hstatus]

/-- A claim evolves into itself with the same amount and status. -/
theorem Evolves.of_eq {c c' : Claim} (hsubject : SameSubject c c')
    (hpaid : c'.paidAmount = c.paidAmount) (hstatus : c'.status = c.status) :
    Evolves c c' where
  toSameSubject := hsubject
  paid h := hpaid ▸ h
  approved h := by
    rw [Approved, hstatus]
    exact h
  closed _ := hstatus

/-- A pending claim may evolve into anything on the same subject. -/
theorem Evolves.of_pending {c c' : Claim} (hsubject : SameSubject c c')
    (hpaid : c.paidAmount.isSome → c'.paidAmount.isSome)
    (hpending : c.status = .pending) : Evolves c c' where
  toSameSubject := hsubject
  paid := hpaid
  approved h := by
    rcases h with h | h <;> rw [hpending] at h <;> cases h
  closed h := (h hpending).elim

theorem approve_amount {c c' : Claim} {bps : ℕ}
    (h : c.approve bps = .ok c') :
    Approved c' ∧ c'.paidAmount.isSome ∧
      (10000 ≤ bps → c'.paidAmount = some c'.coverageAmount) := by
  unfold ClaimsProcessor.Claim.approve at h
  split at h
  · obtain rfl := Check.pure_ok.mp h
    exact ⟨.inl rfl, rfl, fun _ => rfl⟩
  · next hlow =>
      simp at h
      obtain ⟨-, -, rfl⟩ := h
      exact ⟨.inr rfl, rfl, fun hfull => (hlow hfull).elim⟩

section Moves

variable {now : ℕ} {engine : Address} {k : Kind} {d d' : Docket}

/-- Rewriting one claim relates all of them. -/
theorem related_of_write {R : Claim → Claim → Prop} (hrefl : ∀ c, R c c)
    {id i : ℕ} {c c₁ c₂ : Claim} (hclaim : d'.claim = d.setClaim i c₂)
    (hfound : d.claim i = some c₁) (hR : R c₁ c₂)
    (hc : d.claim id = some c) : ∃ c', d'.claim id = some c' ∧ R c c' := by
  rw [hclaim]
  by_cases hi : id = i
  · subst hi
    obtain rfl := Option.some.inj (hc.symm.trans hfound)
    exact ⟨c₂, by simp [Docket.setClaim], hR⟩
  · exact ⟨c, by simp [Docket.setClaim, Function.update_of_ne hi, hc],
      hrefl c⟩

theorem evolves_of_write {id i : ℕ} {c c₁ c₂ : Claim}
    (hclaim : d'.claim = d.setClaim i c₂) (hfound : d.claim i = some c₁)
    (hevolves : Evolves c₁ c₂) (hc : d.claim id = some c) :
    ∃ c', d'.claim id = some c' ∧ Evolves c c' :=
  related_of_write .refl hclaim hfound hevolves hc

theorem subject_of_write {id i : ℕ} {c c₁ c₂ : Claim}
    (hclaim : d'.claim = d.setClaim i c₂) (hfound : d.claim i = some c₁)
    (hsubject : SameSubject c₁ c₂) (hc : d.claim id = some c) :
    ∃ c', d'.claim id = some c' ∧ SameSubject c c' :=
  related_of_write .refl hclaim hfound hsubject hc

/-- A claim stays, about the same loss. -/
theorem move_subject (horderly : d.Orderly) (h : Move now engine k d d')
    {id : ℕ} {c : Claim} (hc : d.claim id = some c) :
    ∃ c', d'.claim id = some c' ∧ SameSubject c c' := by
  cases h with
  | file =>
      have hne : id ≠ d.nextClaimId := (horderly.fresh id c hc).ne
      refine ⟨c, ?_, .refl c⟩
      simp [Docket.record, Docket.setClaim, ClaimsProcessor.Claim.fresh,
        Function.update_of_ne hne, hc]
  | refuse hd => exact subject_of_write rfl hd.found ⟨rfl, rfl, rfl⟩ hc
  | hold hd _ happrove =>
      obtain ⟨hpolicy, hclaimant, hcoverage⟩ := sameSubject_of_approve happrove
      exact subject_of_write rfl hd.found ⟨hpolicy, hclaimant, hcoverage⟩ hc
  | settle hd _ happrove =>
      exact subject_of_write rfl hd.found (sameSubject_of_approve happrove) hc
  | payout hfound => exact subject_of_write rfl hfound ⟨rfl, rfl, rfl⟩ hc
  | dispute hfound => exact subject_of_write rfl hfound ⟨rfl, rfl, rfl⟩ hc
  | resolve hfound => exact subject_of_write rfl hfound ⟨rfl, rfl, rfl⟩ hc
  | reject hfound => exact subject_of_write rfl hfound ⟨rfl, rfl, rfl⟩ hc
  | escalate hfound => exact subject_of_write rfl hfound ⟨rfl, rfl, rfl⟩ hc
  | installment hfound _ hterms =>
      exact subject_of_write rfl hfound
        ⟨hterms.policyId, hterms.claimant, hterms.coverageAmount⟩ hc
  | annotate hfound hterms =>
      exact subject_of_write rfl hfound
        ⟨hterms.policyId, hterms.claimant, hterms.coverageAmount⟩ hc
  | _ => exact ⟨c, hc, .refl c⟩

theorem move_evolves (horderly : d.Orderly) (h : Move now engine k d d')
    (hk : ¬ Reviews k) {id : ℕ} {c : Claim} (hc : d.claim id = some c) :
    ∃ c', d'.claim id = some c' ∧ Evolves c c' := by
  cases h with
  | file =>
      have hne : id ≠ d.nextClaimId := (horderly.fresh id c hc).ne
      refine ⟨c, ?_, .refl c⟩
      simp [Docket.record, Docket.setClaim, ClaimsProcessor.Claim.fresh,
        Function.update_of_ne hne, hc]
  | refuse hd =>
      exact evolves_of_write rfl hd.found
        (.of_pending ⟨rfl, rfl, rfl⟩ (fun h => h) hd.pending) hc
  | hold hd _ happrove =>
      obtain ⟨hpolicy, hclaimant, hcoverage⟩ := sameSubject_of_approve happrove
      exact evolves_of_write rfl hd.found
        (.of_pending ⟨hpolicy, hclaimant, hcoverage⟩
          (fun _ => (approve_amount happrove).2.1) hd.pending) hc
  | settle hd _ happrove =>
      exact evolves_of_write rfl hd.found
        (.of_pending (sameSubject_of_approve happrove)
          (fun _ => (approve_amount happrove).2.1) hd.pending) hc
  | payout hfound =>
      exact evolves_of_write rfl hfound
        (.of_eq ⟨rfl, rfl, rfl⟩ rfl rfl) hc
  | dispute => exact (hk trivial).elim
  | resolve => exact (hk trivial).elim
  | reject => exact (hk trivial).elim
  | escalate => exact (hk trivial).elim
  | installment hfound _ hterms =>
      exact evolves_of_write rfl hfound
        (.of_eq ⟨hterms.policyId, hterms.claimant, hterms.coverageAmount⟩
          hterms.paidAmount hterms.status) hc
  | annotate hfound hterms =>
      exact evolves_of_write rfl hfound
        (.of_eq ⟨hterms.policyId, hterms.claimant, hterms.coverageAmount⟩
          hterms.paidAmount hterms.status) hc
  | _ => exact ⟨c, hc, .refl c⟩

/-! ## The move that pays -/

/-- A move pays `t` for claim `id`, which goes from `c` to `c'`, out of policy
`p`. -/
structure Disbursed (engine : Address) (d d' : Docket) (id : ℕ)
    (c c' : Claim) (p : Policy) (t : Transfer) : Prop where
  before : d.claim id = some c
  after : d'.claim id = some c'
  policy : d.engine.policies c.policyId = some p
  active : p.status = .active
  claimed : d'.engine.policies c.policyId = some { p with status := .claimed }
  token : d.engine.usdcToken = some t.token
  token' : d'.engine.usdcToken = some t.token
  sender : t.sender = engine
  recipient : t.recipient = p.policyholder
  amount : t.amount = p.coverageAmount.toNat
  history : d'.engine.bank.history = t :: d.engine.bank.history
  subject : SameSubject c c'
  /-- The claim was approved just now, or its payout was awaited. -/
  route :
    (c.claimant = p.policyholder ∧ c.status = .pending ∧ Approved c' ∧
        c'.paidAmount.isSome) ∨
      (c.payoutReadyAt.isSome ∧ c.paidAmount.isSome ∧
        c' = { c with payoutReadyAt := none })

/-- The payment of a policy by the engine. -/
theorem claim_change {env : Env} {policyId : ℕ} {b b' : PolicyEngine.Book}
    (h : PolicyEngine.Book.Change env (.claim policyId) b b') :
    ∃ p usdc, b.policies policyId = some p ∧ p.status = .active ∧
      b.usdcToken = some usdc ∧
      b'.policies = b.setPolicy policyId { p with status := .claimed } ∧
      b'.usdcToken = b.usdcToken ∧
      b'.bank.history =
        ⟨usdc, env.self, p.policyholder, p.coverageAmount.toNat⟩ ::
          b.bank.history := by
  cases h with
  | claim hp hactive husdc hB =>
      exact ⟨_, _, hp, hactive, husdc, rfl, rfl, Bank.transfer_history hB⟩

/-- A move transfers nothing, or pays for one claim, which it approves or whose
payout it collects. -/
theorem move_disburses (h : Move now engine k d d') :
    d'.engine.bank.history = d.engine.bank.history ∨
      ∃ id c c' p t, Disbursed engine d d' id c c' p t ∧
        ((Approved c' ∧ ∃ basis bps, k = .settle id basis bps) ∨
          k = .payout id) := by
  cases h with
  | @settle _ id _ _ c c' p _ _ _ _ hd _ happrove hself hchange =>
      obtain ⟨q, usdc, hq, hactive, husdc, hpolicies, htoken, hhistory⟩ :=
        claim_change hchange
      obtain rfl := Option.some.inj (hq.symm.trans hd.policy)
      obtain ⟨happroved, hpaid, -⟩ := approve_amount happrove
      rw [hself] at hhistory
      refine .inr ⟨id, c, c', q,
        ⟨usdc, engine, q.policyholder, q.coverageAmount.toNat⟩, ?_,
        .inl ⟨happroved, _, _, rfl⟩⟩
      exact
        { before := hd.found
          after := by
            simp [Docket.close, Docket.release, Docket.setClaim]
          policy := hd.policy
          active := hactive
          claimed := by
            simp [hpolicies, PolicyEngine.Book.setPolicy]
          token := husdc
          token' := htoken.trans husdc
          sender := rfl
          recipient := rfl
          amount := rfl
          history := hhistory
          subject := sameSubject_of_approve happrove
          route := .inl ⟨hd.holder, hd.pending, happroved, hpaid⟩ }
  | @payout _ id ready c paid _ _ _ hc hready _ hpaid _ hself hchange =>
      obtain ⟨p, usdc, hp, hactive, husdc, hpolicies, htoken, hhistory⟩ :=
        claim_change hchange
      rw [hself] at hhistory
      refine .inr ⟨id, c, { c with payoutReadyAt := none }, p,
        ⟨usdc, engine, p.policyholder, p.coverageAmount.toNat⟩, ?_,
        .inr rfl⟩
      exact
        { before := hc
          after := by simp [Docket.setClaim]
          policy := hp
          active := hactive
          claimed := by
            simp [hpolicies, PolicyEngine.Book.setPolicy]
          token := husdc
          token' := htoken.trans husdc
          sender := rfl
          recipient := rfl
          amount := rfl
          history := hhistory
          subject := ⟨rfl, rfl, rfl⟩
          route := .inr ⟨by simp [hready], by simp [hpaid], rfl⟩ }
  | expire _ _ _ hchange =>
      cases hchange
      exact .inl rfl
  | _ => exact .inl rfl

theorem move_token (h : Move now engine k d d') {usdc : Address}
    (husdc : d.engine.usdcToken = some usdc) :
    d'.engine.usdcToken = some usdc := by
  rcases move_book h with heq | ⟨env, bk, policyId, hchange, -⟩
  · rw [heq, husdc]
  · exact hchange.token husdc

/-- A policy that is claimed stays as it is. -/
theorem move_claimed (hbook : d.engine.Sound) (h : Move now engine k d d')
    {id : ℕ} {p : Policy} (hp : d.engine.policies id = some p)
    (hclaimed : p.status = .claimed) :
    ∃ p', d'.engine.policies id = some p' ∧ p'.status = .claimed ∧
      p'.policyholder = p.policyholder ∧
      p'.coverageAmount = p.coverageAmount := by
  rcases move_book h with heq | ⟨env, bk, policyId, hchange, hbk⟩
  · exact ⟨p, by rw [heq, hp], hclaimed, rfl, rfl⟩
  · obtain ⟨p', hp', hcontinues⟩ := hbook.continues hchange hp
    refine ⟨p', hp', ?_, hcontinues.holder ?_, hcontinues.terms.coverage⟩
    · rcases hcontinues.status with hsame | ⟨hactive, -⟩
      · rw [hsame, hclaimed]
      · rw [hclaimed] at hactive
        cases hactive
    · rintro rfl
      rcases hbk with hbk | hbk <;> cases hbk

/-- A policy that is active after a move was active before. -/
theorem move_active (hbook : d.engine.Sound) (h : Move now engine k d d')
    {id : ℕ} {p' : Policy} (hp : d'.engine.policies id = some p')
    (hactive : p'.status = .active) :
    ∃ p, d.engine.policies id = some p ∧ p.status = .active := by
  rcases move_book h with heq | ⟨env, bk, policyId, hchange, hbk⟩
  · exact ⟨p', by rw [← heq, hp], hactive⟩
  · rcases hbook.arises hchange hp with ⟨p, hp', hcontinues⟩ | ⟨-, hk, -⟩
    · rcases hcontinues.status with hsame | ⟨hactive', -⟩
      · exact ⟨p, hp', hsame ▸ hactive⟩
      · exact ⟨p, hp', hactive'⟩
    · rcases hbk with hbk | hbk <;> rw [hk] at hbk <;> cases hbk

end Moves

/-! ## The payments of a call -/

/-- In a call that leads from `d₀` to `d`, `t` pays the claim `c` out of the
policy `p`. -/
structure Payment (engine : Address) (d₀ d : Docket) (c : Claim) (p : Policy)
    (t : Transfer) : Prop where
  wasActive : ∃ p₀, d₀.engine.policies c.policyId = some p₀ ∧
    p₀.status = .active
  policy : d.engine.policies c.policyId = some p
  claimed : p.status = .claimed
  token : d.engine.usdcToken = some t.token
  sender : t.sender = engine
  recipient : t.recipient = p.policyholder
  amount : (t.amount : ℤ) = p.coverageAmount

/-- Every transfer between `d₀` and `d` pays a claim of its own, and `P` holds
of the claim and the transfer. -/
def PaidFor (engine : Address) (P : ℕ → Claim → Transfer → Prop)
    (d₀ d : Docket) : Prop :=
  ∃ payments : List (ℕ × Transfer),
    d.engine.bank.history =
        payments.map Prod.snd ++ d₀.engine.bank.history ∧
      (payments.map Prod.fst).Nodup ∧
      ∀ x ∈ payments, ∃ c p, d.claim x.1 = some c ∧
        Payment engine d₀ d c p x.2 ∧ P x.1 c x.2

theorem PaidFor.imp {engine : Address} {P Q : ℕ → Claim → Transfer → Prop}
    {d₀ d : Docket} (h : PaidFor engine P d₀ d)
    (hPQ : ∀ id c p t, d.claim id = some c → Payment engine d₀ d c p t →
      P id c t → Q id c t) : PaidFor engine Q d₀ d := by
  obtain ⟨payments, hhistory, hnodup, hpaid⟩ := h
  refine ⟨payments, hhistory, hnodup, fun x hx => ?_⟩
  obtain ⟨c, p, hc, hpayment, hP⟩ := hpaid x hx
  exact ⟨c, p, hc, hpayment, hPQ x.1 c p x.2 hc hpayment hP⟩

/-- A call that may review a claim pays nothing. -/
theorem no_payment_of_review {e : ClaimsProcessor.Entry}
    {d₀ d d₁ d₂ : Docket} {k₀ k : Kind} {now : ℕ} {engine : Address}
    (h₀ : e.admits d₀ d k₀) (hreviews : Reviews k₀)
    (hadmits : e.admits d₀ d₁ k) (hmove : Move now engine k d₁ d₂) :
    d₂.engine.bank.history = d₁.engine.bank.history := by
  have hnot : ∀ id basis, ¬ e.judges d₀ d₁ id basis := by
    intro id basis hjudges
    cases k₀ with
    | dispute =>
        obtain ⟨-, caller, reason, rfl⟩ := h₀
        exact hjudges
    | resolve =>
        obtain ⟨-, admin, rfl⟩ := h₀
        exact hjudges
    | reject =>
        obtain ⟨-, admin, rfl⟩ := h₀
        exact hjudges
    | escalate =>
        obtain ⟨-, caller, rfl⟩ := h₀
        exact hjudges
    | _ => exact hreviews
  have hnot' : ∀ id, ¬ e.collects id := by
    intro id hcollects
    cases k₀ with
    | dispute =>
        obtain ⟨-, caller, reason, rfl⟩ := h₀
        exact hcollects
    | resolve =>
        obtain ⟨-, admin, rfl⟩ := h₀
        exact hcollects
    | reject =>
        obtain ⟨-, admin, rfl⟩ := h₀
        exact hcollects
    | escalate =>
        obtain ⟨-, caller, rfl⟩ := h₀
        exact hcollects
    | _ => exact hreviews
  cases hmove with
  | settle => exact (hnot _ _ hadmits.1).elim
  | payout => exact (hnot' _ hadmits.2).elim
  | expire _ _ _ hchange =>
      cases hchange
      rfl
  | _ => rfl

section Calls

variable {D : Sites} {G : World Network → Label Entry → Prop}
  {P : ℕ → Claim → Transfer → Prop}

/-- If the moves of a call keep `I`, `I` ensures `P` at the moment of payment
and `P` lasts as claims evolve, the transfers of the call are payments with
`P`. -/
theorem payments_of_moves {e : ClaimsProcessor.Entry} {d₀ d₁ : Docket}
    {now : ℕ} {engine : Address} {ks : List Kind} {I : Docket → Prop}
    (hkeeps : ∀ d k d', e.admits d₀ d k → Move now engine k d d' → Sound d →
      Sound d' → I d → I d')
    (hpay : ∀ d k d' id c c' p t, I d → e.admits d₀ d k →
      (∀ c₀, d₀.claim id = some c₀ → Evolves c₀ c) →
      ((Approved c' ∧ ∃ basis bps, k = .settle id basis bps) ∨
        k = .payout id) →
      Disbursed engine d d' id c c' p t → P id c' t)
    (hlast : ∀ id c c' t, Evolves c c' → P id c t → P id c' t)
    (hsound : Sound d₀) (hI : I d₀)
    (hrun : ((moves now engine).restrict (e.admits d₀)).Run d₀ ks d₁) :
    PaidFor engine P d₀ d₁ := by
  by_cases hreviews : ∃ d k, e.admits d₀ d k ∧ Reviews k
  · obtain ⟨d, k₀, h₀, hk₀⟩ := hreviews
    have hsame : d₁.engine.bank.history = d₀.engine.bank.history := by
      refine TransitionSystem.Run.preserves
        (Q := fun d => d.engine.bank.history = d₀.engine.bank.history)
        ?_ hrun rfl
      rintro d k d' hd ⟨hadmits, hmove⟩
      exact (no_payment_of_review h₀ hk₀ hadmits hmove).trans hd
    exact ⟨[], hsame, by simp, by simp⟩
  · have hpaid := TransitionSystem.Run.logged
      (fun d : Docket => d.engine.bank.history) Prod.snd Prod.fst
      (I := fun d => (Sound d ∧ I d) ∧
        (∀ i p, d.engine.policies i = some p → p.status = .active →
          ∃ p₀, d₀.engine.policies i = some p₀ ∧ p₀.status = .active) ∧
        ∀ i c₀, d₀.claim i = some c₀ → ∃ c, d.claim i = some c ∧ Evolves c₀ c)
      (Q := fun d (x : ℕ × Transfer) => ∃ c p, d.claim x.1 = some c ∧
        Payment engine d₀ d c p x.2 ∧ P x.1 c x.2)
      ?_ hrun ⟨⟨hsound, hI⟩, fun i p hp hactive => ⟨p, hp, hactive⟩,
        fun i c hc => ⟨c, hc, .refl c⟩⟩
    · exact hpaid
    rintro d k d' ⟨⟨hd, hId⟩, hactive, horigin⟩ ⟨hadmits, hmove⟩
    have hd' := hd.move hmove
    have hk : ¬ Reviews k := fun hk => hreviews ⟨d, k, hadmits, hk⟩
    refine ⟨⟨⟨hd', hkeeps d k d' hadmits hmove hd hd' hId⟩, ?_, ?_⟩, ?_, ?_⟩
    · intro i p' hp' hactive'
      obtain ⟨p, hp, hp_active⟩ := move_active hd.book hmove hp' hactive'
      exact hactive i p hp hp_active
    · intro i c₀ hc₀
      obtain ⟨c, hc, hfrom⟩ := horigin i c₀ hc₀
      obtain ⟨c', hc', hevolves⟩ := move_evolves hd.orderly hmove hk hc
      exact ⟨c', hc', hfrom.trans hevolves⟩
    · rintro x ⟨c, p, hc, hpayment, hP⟩
      obtain ⟨c', hc', hevolves⟩ := move_evolves hd.orderly hmove hk hc
      obtain ⟨p', hp', hclaimed, hholder, hcoverage⟩ :=
        move_claimed hd.book hmove hpayment.policy hpayment.claimed
      refine ⟨c', p', hc', ?_, hlast x.1 c c' x.2 hevolves hP⟩
      exact
        { wasActive := by
            rw [hevolves.policyId]
            exact hpayment.wasActive
          policy := by
            rw [hevolves.policyId]
            exact hp'
          claimed := hclaimed
          token := move_token hmove hpayment.token
          sender := hpayment.sender
          recipient := hpayment.recipient.trans hholder.symm
          amount := hpayment.amount.trans hcoverage.symm }
    · rcases move_disburses hmove with
        hsame | ⟨id, c, c', p, t, hpaid, hroute⟩
      · exact .inl hsame
      · refine .inr ⟨(id, t), hpaid.history, ⟨c',
          { p with status := .claimed }, hpaid.after, ?_, ?_⟩, ?_⟩
        · have hpos := hd.book.coverage_pos _ p hpaid.policy
          exact
            { wasActive := by
                rw [hpaid.subject.policyId]
                exact hactive _ p hpaid.policy hpaid.active
              policy := by
                rw [hpaid.subject.policyId]
                exact hpaid.claimed
              claimed := rfl
              token := hpaid.token'
              sender := hpaid.sender
              recipient := hpaid.recipient
              amount := by
                simp only [hpaid.amount]
                omega }
        · refine hpay d k d' id c c' p t hId hadmits (fun c₀ hc₀ => ?_) hroute
            hpaid
          obtain ⟨c₁, hc₁, hfrom⟩ := horigin id c₀ hc₀
          obtain rfl := Option.some.inj (hc₁.symm.trans hpaid.before)
          exact hfrom
        · rintro ⟨id', t'⟩ ⟨c'', p'', hc'', hpayment, -⟩ heq
          obtain rfl : id' = id := heq
          obtain rfl := Option.some.inj (hc''.symm.trans hpaid.before)
          obtain rfl := Option.some.inj
            (hpayment.policy.symm.trans hpaid.policy)
          have hclaimed := hpayment.claimed
          rw [hpaid.active] at hclaimed
          cases hclaimed

/-- The same for what holds in every state of a run. -/
theorem call_payments {I : ℕ → Docket → Prop} (hI : Stable D G I)
    {w w' : World Network} {signers : List Address}
    {e : ClaimsProcessor.Entry}
    (hpay : ∀ d d' id c c' p t, I w.now d →
      (∀ c₀, (docket w.machine).claim id = some c₀ → Evolves c₀ c) →
      (Approved c' ∨ d = docket w.machine ∧ e.collects id) →
      Disbursed D.engine d d' id c c' p t → P id c' t)
    (hlast : ∀ id c c' t, Evolves c c' → P id c t → P id c' t)
    (hw : ((system D).restrict G).Reachable w)
    (hstep : ((system D).restrict G).Step w (.call signers (.claims e)) w') :
    PaidFor D.engine P (docket w.machine) (docket w'.machine) := by
  obtain ⟨hsound, hIw⟩ := hw.invariant hI.preserved
  obtain ⟨hG, hstep⟩ := hstep
  obtain ⟨-, -, hexec⟩ := call_exec hstep
  obtain ⟨ks, hrun⟩ := ClaimsProcessor.exec_moved hsound.orderly hexec
  have hkeeps : ∀ d k d', e.admits (docket w.machine) d k →
      Move w.now D.engine k d d' → Sound d → Sound d' → I w.now d →
        I w.now d' :=
    fun d k d' hadmits hmove hd hd' => hI.move hG hadmits hmove hd hd'
  refine payments_of_moves hkeeps ?_ hlast hsound hIw hrun
  intro d k d' id c c' p t hId hadmits hfrom hroute hpaid
  refine hpay d d' id c c' p t hId hfrom ?_ hpaid
  rcases hroute with ⟨happroved, -⟩ | rfl
  · exact .inl happroved
  · exact .inr hadmits

end Calls

end Parashield.Protocol
