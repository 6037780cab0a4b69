import Parashield.PolicyEngine.Calls

/-!
# A policy settles at most once

A policy leaves `Active` by being claimed, cancelled or expired.  The
invariant below ties its status to the settlement events in the journal and
the journal to the tokens the engine has paid out, so that over a whole run a
policy produces one payment of its coverage, or one refund of at most its
premium, or nothing.
-/

namespace Parashield.PolicyEngine

open Support

/-- The event settles policy `id`: its claim was paid or it was cancelled. -/
def Event.settles (id : ℕ) : Event → Bool
  | .claimPaid i _ _ => decide (i = id)
  | .policyCancelled i _ _ => decide (i = id)
  | _ => false

/-- The token transfer out of the engine an event stands for. -/
def Event.payout (usdc engine : Address) : Event → Option Transfer
  | .claimPaid _ holder amount => some ⟨usdc, engine, holder, amount.toNat⟩
  | .policyCancelled _ holder refund =>
      if 0 < refund then some ⟨usdc, engine, holder, refund.toNat⟩ else none
  | _ => none

namespace Book

/-- Settlement events of policy `id`. -/
def settlements (b : Book) (id : ℕ) : List Event :=
  b.journal.filter (Event.settles id)

/-- Tokens that left the engine, newest first. -/
def outflow (b : Book) (engine : Address) : List Transfer :=
  b.bank.history.filter fun t => decide (t.sender = engine ∧ 0 < t.amount)

/-- How the status of a policy and its settlement events go together. -/
def Outcome (id : ℕ) : Option Policy → List Event → Prop
  | none, es => es = []
  | some p, es =>
      match p.status with
      | .active | .expired => es = []
      | .claimed => es = [.claimPaid id p.policyholder p.coverageAmount]
      | .cancelled => ∃ refund, 0 ≤ refund ∧ refund ≤ p.premiumPaid ∧
          es = [.policyCancelled id p.policyholder refund]

/-- The invariant of the policy book. -/
structure Consistent (engine : Address) (b : Book) : Prop where
  fresh : ∀ id, b.nextPolicyId ≤ id → b.policies id = none
  terms : ∀ id p, b.policies id = some p →
    0 < p.coverageAmount ∧ 0 < p.premiumPaid
  outcome : ∀ id, Outcome id (b.policies id) (b.settlements id)
  unwired : b.usdcToken = none →
    (∀ id, b.policies id = none) ∧ b.journal = [] ∧ b.outflow engine = []
  payouts : ∀ usdc, b.usdcToken = some usdc →
    b.outflow engine = b.journal.filterMap (Event.payout usdc engine)

end Book

/-! ## Settlement events and outflow -/

theorem settlements_of_journal {b b' : Book} {e : Event}
    (h : b'.journal = e :: b.journal) (id : ℕ) :
    b'.settlements id =
      if e.settles id then e :: b.settlements id else b.settlements id := by
  simp [Book.settlements, h, List.filter_cons]

/-- Transfers the engine does not send do not count as outflow. -/
theorem outflow_of_transfer {b : Book} {B : Bank} {engine : Address}
    {token sender recipient : Address} {amount : ℤ}
    (h : b.bank.transfer token sender recipient amount = some B)
    (hne : sender ≠ engine ∨ amount ≤ 0) :
    Book.outflow { b with bank := B } engine = b.outflow engine := by
  simp only [Book.outflow, Bank.transfer_history h, List.filter_cons]
  rw [if_neg]
  simp only [decide_eq_true_eq, not_and, not_lt]
  intro hs
  rcases hne with hne | hne
  · exact absurd hs hne
  · omega

/-- A positive transfer sent by the engine is its newest outflow. -/
theorem outflow_of_payment {b : Book} {B : Bank} {engine : Address}
    {token recipient : Address} {amount : ℤ}
    (h : b.bank.transfer token engine recipient amount = some B)
    (hpos : 0 < amount) :
    Book.outflow { b with bank := B } engine =
      ⟨token, engine, recipient, amount.toNat⟩ :: b.outflow engine := by
  simp only [Book.outflow, Bank.transfer_history h, List.filter_cons]
  rw [if_pos]
  simp only [true_and, decide_eq_true_eq]
  omega

/-! ## The invariant -/

namespace Book

section Consistency

variable {engine : Address} {b b' : Book}

/-- Rewriting one stored policy together with one journal entry about it. -/
theorem Consistent.write {id : ℕ} {p q : Policy} {e : Event}
    (h : Consistent engine b) (hp : b.policies id = some p)
    (hpolicies : b'.policies = b.setPolicy id q)
    (hnext : b'.nextPolicyId = b.nextPolicyId)
    (htoken : b'.usdcToken = b.usdcToken)
    (hjournal : b'.journal = e :: b.journal)
    (hother : ∀ i, i ≠ id → e.settles i = false)
    (hterms : 0 < q.coverageAmount ∧ 0 < q.premiumPaid)
    (houtcome : Outcome id (some q) (b'.settlements id))
    (hpayout : ∀ usdc, b.usdcToken = some usdc →
      b'.outflow engine = (e.payout usdc engine).toList ++ b.outflow engine) :
    Consistent engine b' where
  fresh i hi := by
    have hnone := h.fresh i (hnext ▸ hi)
    have hne : i ≠ id := by
      rintro rfl
      rw [hp] at hnone
      cases hnone
    rw [hpolicies, setPolicy, Function.update_of_ne hne, hnone]
  terms i r hr := by
    rw [hpolicies] at hr
    by_cases hi : i = id
    · subst hi
      rw [setPolicy, Function.update_self, Option.some.injEq] at hr
      rw [← hr]
      exact hterms
    · rw [setPolicy, Function.update_of_ne hi] at hr
      exact h.terms i r hr
  outcome i := by
    by_cases hi : i = id
    · subst hi
      rw [hpolicies, setPolicy, Function.update_self]
      exact houtcome
    · rw [hpolicies, setPolicy, Function.update_of_ne hi,
        settlements_of_journal hjournal, hother i hi]
      exact h.outcome i
  unwired hnone := by
    have habsent := (h.unwired (htoken ▸ hnone)).1 id
    rw [hp] at habsent
    cases habsent
  payouts usdc husdc := by
    rw [htoken] at husdc
    rw [hpayout usdc husdc, h.payouts usdc husdc, hjournal,
      List.filterMap_cons]
    cases e.payout usdc engine <;> rfl

/-- A policy that is still active has produced no settlement. -/
theorem Consistent.settlements_of_active {id : ℕ} {p : Policy}
    (h : Consistent engine b) (hp : b.policies id = some p)
    (hactive : p.status = .active) : b.settlements id = [] := by
  have houtcome := h.outcome id
  rw [hp] at houtcome
  simpa [Outcome, hactive] using houtcome

theorem Consistent.wire {usdc : Address} {B : Bank}
    (h : Consistent engine b) (hnone : b.usdcToken = none)
    (hB : b.bank.transfer usdc engine engine 0 = some B) :
    Consistent engine
      { b with usdcToken := some usdc, nextPolicyId := 1, bank := B } := by
  obtain ⟨hpolicies, hjournal, houtflow⟩ := h.unwired hnone
  exact
    { fresh := fun i _ => hpolicies i
      terms := h.terms
      outcome := h.outcome
      unwired := fun hsome => by cases hsome
      payouts := fun usdc' _ => by
        simp only [hjournal, List.filterMap_nil]
        rw [← houtflow]
        exact outflow_of_transfer (b := b) hB (.inr le_rfl) }

theorem Consistent.buy {env : Env} {p : Policy} {token : Address}
    {B : Bank} (h : Consistent env.self b) (hself : env.self ∉ env.signers)
    (hwired : b.usdcToken.isSome) (hp : Offered env b p)
    (hB : b.bank.transfer token p.policyholder env.self p.premiumPaid =
      some B)
    (hpolicies : b'.policies = b.setPolicy p.id p)
    (hnext : b'.nextPolicyId = p.id + 1)
    (htoken : b'.usdcToken = b.usdcToken) (hbank : b'.bank = B)
    (hjournal : b'.journal =
      .buyPolicy p.policyholder p.id p.productId p.coverageAmount
        p.premiumPaid :: b.journal) :
    Consistent env.self b' := by
  have hsettle : ∀ i, b'.settlements i = b.settlements i := by
    intro i
    rw [settlements_of_journal hjournal]
    rfl
  have hfresh : b.policies p.id = none := h.fresh p.id hp.id_eq.ge
  have houtflow : b'.outflow env.self = b.outflow env.self := by
    have hsender : p.policyholder ≠ env.self := by
      intro heq
      exact hself (heq ▸ hp.signed)
    rw [← outflow_of_transfer hB (.inl hsender)]
    simp [outflow, hbank]
  refine
    { fresh := ?_, terms := ?_, outcome := ?_, unwired := ?_, payouts := ?_ }
  · intro i hi
    rw [hnext] at hi
    rw [hpolicies, setPolicy, Function.update_of_ne (by omega)]
    apply h.fresh
    rw [← hp.id_eq]
    omega
  · intro i r hr
    rw [hpolicies] at hr
    by_cases hi : i = p.id
    · subst hi
      rw [setPolicy, Function.update_self, Option.some.injEq] at hr
      rw [← hr]
      exact ⟨hp.coverage_pos, hp.premium_pos⟩
    · rw [setPolicy, Function.update_of_ne hi] at hr
      exact h.terms i r hr
  · intro i
    rw [hsettle, hpolicies]
    by_cases hi : i = p.id
    · subst hi
      have hempty := h.outcome p.id
      rw [hfresh] at hempty
      rw [setPolicy, Function.update_self]
      simpa [Outcome, hp.active] using hempty
    · rw [setPolicy, Function.update_of_ne hi]
      exact h.outcome i
  · intro hnone
    rw [htoken] at hnone
    simp [hnone] at hwired
  · intro usdc husdc
    rw [houtflow, hjournal, h.payouts usdc (htoken ▸ husdc)]
    rfl

/-- Every change keeps the book consistent. -/
theorem Consistent.change {env : Env} {k : Kind}
    (h : Consistent env.self b) (hself : env.self ∉ env.signers)
    (hchange : Change env k b b') : Consistent env.self b' := by
  cases hchange with
  | wire hnone hB => exact h.wire hnone hB
  | buy hwired hp hB => exact h.buy hself hwired hp hB rfl rfl rfl rfl rfl
  | @cancel _ id p usdc B hp hactive _ husdc hB =>
      have hnil := h.settlements_of_active hp hactive
      obtain ⟨hlow, hhigh⟩ := unearnedPremium_bounds
        (h.terms id p hp).2.le (env.now - p.startTime)
        (p.endTime - p.startTime)
      refine h.write hp rfl rfl rfl rfl ?_ (h.terms id p hp) ?_ ?_
      · intro i hi
        simp [Event.settles, hi.symm]
      · rw [settlements_of_journal rfl, hnil]
        exact ⟨refund p env.now, hlow, hhigh, by simp [Event.settles]⟩
      · intro usdc' husdc'
        obtain rfl : usdc = usdc' := by simpa [husdc] using husdc'
        rcases hB with ⟨hpos, hB⟩ | ⟨hneg, rfl⟩
        · have hpaid := outflow_of_payment hB hpos
          simp only [Event.payout, hpos, if_true, Option.toList_some,
            List.singleton_append]
          exact hpaid
        · simp [Event.payout, hneg, outflow]
  | @transfer _ id p recipient hp hactive =>
      have hnil := h.settlements_of_active hp hactive
      refine h.write hp rfl rfl rfl rfl ?_ (h.terms id p hp) ?_ ?_
      · intro i _
        rfl
      · rw [settlements_of_journal rfl, hnil]
        simp [Outcome, hactive, Event.settles]
      · intro usdc _
        rfl
  | @claim _ id p usdc B hp hactive husdc hB =>
      have hnil := h.settlements_of_active hp hactive
      refine h.write hp rfl rfl rfl rfl ?_ (h.terms id p hp) ?_ ?_
      · intro i hi
        simp [Event.settles, hi.symm]
      · rw [settlements_of_journal rfl, hnil]
        simp [Outcome, Event.settles]
      · intro usdc' husdc'
        obtain rfl : usdc = usdc' := by simpa [husdc] using husdc'
        exact outflow_of_payment hB (h.terms id p hp).1
  | @expire _ id p hp hactive =>
      have hnil := h.settlements_of_active hp hactive
      refine h.write hp rfl rfl rfl rfl ?_ (h.terms id p hp) ?_ ?_
      · intro i _
        rfl
      · rw [settlements_of_journal rfl, hnil]
        simp [Outcome, Event.settles]
      · intro usdc _
        rfl
  | @warn _ id p hp hactive =>
      have hnil := h.settlements_of_active hp hactive
      refine h.write hp ?_ rfl rfl rfl ?_ (h.terms id p hp) ?_ ?_
      · exact (Function.update_eq_self_iff.mpr hp.symm).symm
      · intro i _
        rfl
      · rw [settlements_of_journal rfl, hnil]
        simp [Outcome, hactive, Event.settles]
      · intro usdc _
        rfl

/-- A policy that has left `Active` is never touched again. -/
theorem Consistent.change_of_terminal {env : Env} {k : Kind} {id : ℕ}
    {p : Policy} (h : Consistent engine b) (hp : b.policies id = some p)
    (hterminal : p.status ≠ .active) (hchange : Change env k b b') :
    b'.policies id = some p ∧ b'.settlements id = b.settlements id := by
  have habsurd : ∀ {i : ℕ} {q : Policy}, b.policies i = some q →
      q.status = .active → id ≠ i := by
    rintro i q hq hactive rfl
    rw [hp, Option.some.injEq] at hq
    exact hterminal (hq ▸ hactive)
  cases hchange with
  | wire hnone =>
      have habsent := (h.unwired hnone).1 id
      rw [hp] at habsent
      cases habsent
  | @buy _ q _ _ _ hq =>
      have hne : id ≠ q.id := by
        rintro rfl
        have hfresh := h.fresh q.id hq.id_eq.ge
        rw [hp] at hfresh
        cases hfresh
      refine ⟨?_, rfl⟩
      simp only [setPolicy, Function.update_of_ne hne, hp]
  | cancel hq hactive =>
      have hne := habsurd hq hactive
      refine ⟨by simp only [setPolicy, Function.update_of_ne hne, hp], ?_⟩
      rw [settlements_of_journal rfl]
      simp [Event.settles, hne.symm]
  | transfer hq hactive =>
      have hne := habsurd hq hactive
      exact ⟨by simp only [setPolicy, Function.update_of_ne hne, hp], rfl⟩
  | claim hq hactive =>
      have hne := habsurd hq hactive
      refine ⟨by simp only [setPolicy, Function.update_of_ne hne, hp], ?_⟩
      rw [settlements_of_journal rfl]
      simp [Event.settles, hne.symm]
  | expire hq hactive =>
      have hne := habsurd hq hactive
      exact ⟨by simp only [setPolicy, Function.update_of_ne hne, hp], rfl⟩
  | warn => exact ⟨hp, rfl⟩

/-- From `b` to `b'` policy `id` settles: it was active with nothing settled,
and its holder at that time is paid the coverage or refunded at most the
premium. -/
def SettledBy (id : ℕ) (b b' : Book) : Prop :=
  ∃ p, b.policies id = some p ∧ p.status = .active ∧
    b.settlements id = [] ∧
    ((b'.policies id = some { p with status := .claimed } ∧
        b'.settlements id = [.claimPaid id p.policyholder p.coverageAmount]) ∨
      (b'.policies id = some { p with status := .cancelled } ∧
        ∃ refund, 0 ≤ refund ∧ refund ≤ p.premiumPaid ∧
          b'.settlements id = [.policyCancelled id p.policyholder refund]))

/-- A change leaves the settlements of a policy alone or settles it. -/
theorem Consistent.change_settlements {env : Env} {k : Kind}
    (h : Consistent engine b) (hchange : Change env k b b') (id : ℕ) :
    b'.settlements id = b.settlements id ∨ SettledBy id b b' := by
  cases hchange with
  | @cancel _ i p usdc B hp hactive =>
      by_cases hi : i = id
      · subst hi
        right
        have hnil := h.settlements_of_active hp hactive
        obtain ⟨hlow, hhigh⟩ := unearnedPremium_bounds
          (h.terms i p hp).2.le (env.now - p.startTime)
          (p.endTime - p.startTime)
        refine ⟨p, hp, hactive, hnil, .inr ⟨by simp [setPolicy], ?_⟩⟩
        refine ⟨refund p env.now, hlow, hhigh, ?_⟩
        rw [settlements_of_journal rfl]
        simp [Event.settles, hnil]
      · left
        rw [settlements_of_journal rfl]
        simp [Event.settles, hi]
  | @claim _ i p usdc B hp hactive =>
      by_cases hi : i = id
      · subst hi
        right
        have hnil := h.settlements_of_active hp hactive
        refine ⟨p, hp, hactive, hnil, .inl ⟨by simp [setPolicy], ?_⟩⟩
        rw [settlements_of_journal rfl]
        simp [Event.settles, hnil]
      · left
        rw [settlements_of_journal rfl]
        simp [Event.settles, hi]
  | _ => exact .inl rfl

theorem Adds.change {env : Env} (h : Adds env b b') :
    ∃ k, Change env k b b' := by
  rcases h with ⟨id, h⟩ | ⟨id, h⟩
  · exact ⟨_, h⟩
  · exact ⟨_, h⟩

theorem Adds.settlements {env : Env} (h : Adds env b b') (id : ℕ) :
    b'.settlements id = b.settlements id := by
  rcases h with ⟨i, h⟩ | ⟨i, h⟩
  · cases h
    rfl
  · cases h
    rfl

/-! ## What a call preserves -/

theorem Consistent.effect {env : Env} (h : Consistent env.self b)
    (hself : env.self ∉ env.signers) (heffect : Effect env b b') :
    Consistent env.self b' := by
  cases heffect with
  | change hchange => exact h.change hself hchange
  | batch hadds =>
      induction hadds with
      | refl => exact h
      | tail _ hadd ih =>
          obtain ⟨k, hchange⟩ := hadd.change
          exact ih.change hself hchange

theorem Consistent.effect_of_terminal {env : Env} {id : ℕ} {p : Policy}
    (h : Consistent env.self b) (hself : env.self ∉ env.signers)
    (hp : b.policies id = some p) (hterminal : p.status ≠ .active)
    (heffect : Effect env b b') :
    b'.policies id = some p ∧ b'.settlements id = b.settlements id := by
  cases heffect with
  | change hchange => exact h.change_of_terminal hp hterminal hchange
  | batch hadds =>
      induction hadds with
      | refl => exact ⟨hp, rfl⟩
      | tail hadds hadd ih =>
          obtain ⟨k, hchange⟩ := hadd.change
          obtain ⟨hp', hsame⟩ := (h.effect hself (.batch hadds)).change_of_terminal
            ih.1 hterminal hchange
          exact ⟨hp', hsame.trans ih.2⟩

theorem Consistent.effect_settlements {env : Env}
    (h : Consistent env.self b) (heffect : Effect env b b') (id : ℕ) :
    b'.settlements id = b.settlements id ∨ SettledBy id b b' := by
  cases heffect with
  | change hchange => exact h.change_settlements hchange id
  | batch hadds =>
      left
      induction hadds with
      | refl => rfl
      | tail _ hadd ih => exact (hadd.settlements id).trans ih

end Consistency

end Book

/-! ## Runs -/

section Runs

variable {engine : Address}

/-- Moves of tokens elsewhere keep the book consistent. -/
theorem consistent_of_outflow {b b' : Book} (h : b.Consistent engine)
    (hbook : b' = { b with bank := b'.bank })
    (houtflow : b'.outflow engine = b.outflow engine) :
    b'.Consistent engine := by
  rw [hbook] at houtflow ⊢
  exact
    { fresh := h.fresh
      terms := h.terms
      outcome := h.outcome
      unwired := fun hnone => by
        obtain ⟨hpolicies, hjournal, hnil⟩ := h.unwired hnone
        exact ⟨hpolicies, hjournal, houtflow.trans hnil⟩
      payouts := fun usdc husdc => houtflow.trans (h.payouts usdc husdc) }

theorem consistent_inductive (engine : Address) :
    (system engine).Inductive fun w =>
      Wired w.machine.store ∧ (book w.machine).Consistent engine := by
  apply (wired_inductive engine).and
  · rintro w ⟨hstore, hhistory⟩
    exact
      { fresh := fun id _ => by simp [book, hstore, State.deployed]
        terms := fun id p hp => by simp [book, hstore, State.deployed] at hp
        outcome := fun id => by
          simp [book, hstore, State.deployed, Book.Outcome, Book.settlements]
        unwired := fun _ => by
          simp [book, hstore, hhistory, State.deployed, Book.outflow]
        payouts := fun usdc husdc => by
          simp [book, hstore, State.deployed] at husdc }
  · intro w l w' hwired _ h hstep
    cases hstep with
    | call hself hexec => exact h.effect hself (exec_effect hwired hexec).1
    | tick => exact h
    | transfer hne hB =>
        exact consistent_of_outflow h rfl
          (outflow_of_transfer (b := book w.machine) hB (.inl hne))
    | mint => exact consistent_of_outflow h rfl rfl

theorem Reachable.consistent {w : World State}
    (hw : (system engine).Reachable w) :
    Wired w.machine.store ∧ (book w.machine).Consistent engine :=
  hw.invariant (consistent_inductive engine)

/-- A terminal policy and its settlement are the same after every later run. -/
theorem terminal_stable {w w' : World State} {ls : List (Label Entry)} {id : ℕ}
    {p : Policy} (hw : (system engine).Reachable w)
    (hp : (book w.machine).policies id = some p)
    (hterminal : p.status ≠ .active) (hrun : (system engine).Run w ls w') :
    (book w'.machine).policies id = some p ∧
      (book w'.machine).settlements id = (book w.machine).settlements id := by
  induction hrun with
  | nil => exact ⟨hp, rfl⟩
  | @cons s t u l ls hstep hrest ih =>
      obtain ⟨hwired, hconsistent⟩ := Reachable.consistent hw
      have hkept : (book t.machine).policies id = some p ∧
          (book t.machine).settlements id =
            (book s.machine).settlements id := by
        cases hstep with
        | call hself hexec =>
            exact hconsistent.effect_of_terminal hself hp hterminal
              (exec_effect hwired hexec).1
        | tick => exact ⟨hp, rfl⟩
        | transfer => exact ⟨hp, rfl⟩
        | mint => exact ⟨hp, rfl⟩
      obtain ⟨hp', hsame⟩ := ih (hw.step hstep) hkept.1
      exact ⟨hp', hsame.trans hkept.2⟩

/-- One step leaves the settlements of a policy alone or settles it. -/
theorem step_settlements {w w' : World State} {l : Label Entry}
    (hw : (system engine).Reachable w) (hstep : (system engine).Step w l w')
    (id : ℕ) :
    (book w'.machine).settlements id = (book w.machine).settlements id ∨
      Book.SettledBy id (book w.machine) (book w'.machine) := by
  obtain ⟨hwired, hconsistent⟩ := Reachable.consistent hw
  cases hstep with
  | call hself hexec =>
      exact hconsistent.effect_settlements (exec_effect hwired hexec).1 id
  | tick => exact .inl rfl
  | transfer => exact .inl rfl
  | mint => exact .inl rfl

/-- In every run a policy leaves `Active` at most once and keeps its terminal
status; it produces at most one settlement, which pays its holder at that
time the coverage or refunds at most the premium; and the settlements are all
the tokens the engine pays out. -/
theorem policy_settles_at_most_once {w : World State}
    (hw : (system engine).Reachable w) (id : ℕ) :
    Book.Outcome id ((book w.machine).policies id)
        ((book w.machine).settlements id) ∧
      (∀ usdc, (book w.machine).usdcToken = some usdc →
        (book w.machine).outflow engine =
          (book w.machine).journal.filterMap (Event.payout usdc engine)) ∧
      (∀ p ls w', (book w.machine).policies id = some p →
        p.status ≠ .active → (system engine).Run w ls w' →
        (book w'.machine).policies id = some p ∧
          (book w'.machine).settlements id =
            (book w.machine).settlements id) ∧
      (∀ l w', (system engine).Step w l w' →
        (book w'.machine).settlements id =
            (book w.machine).settlements id ∨
          Book.SettledBy id (book w.machine) (book w'.machine)) := by
  have hconsistent := (Reachable.consistent hw).2
  refine ⟨hconsistent.outcome id, hconsistent.payouts, ?_, ?_⟩
  · intro p ls w' hp hterminal hrun
    exact terminal_stable hw hp hterminal hrun
  · intro l w' hstep
    exact step_settlements hw hstep id

end Runs

/-! ## A run with a refund -/

namespace Sample

def engine : Address := .contract 1
def usdc : Address := .contract 2
def oracle : Address := .contract 3
def admin : Address := .account 1
def holder : Address := .account 2
def rainKey : Symbol := ⟨['k', 'i', 's', '1']⟩

def rainProduct : CreateProductParams where
  name := ⟨['r', 'a', 'i', 'n']⟩
  category := Symbols.crop
  oracleKey := rainKey
  expectedToken := usdc
  triggerType := .threshold
  oracleDataType := Symbols.weather
  triggerThreshold := 500
  triggerComparison := .lessThan
  coverageMin := 1
  coverageMax := 1000000000
  premiumRateBps := 500
  maxDurationDays := 365

/-- The engine right after its deployment. -/
def genesis : World State where
  now := 1000
  machine := ⟨State.deployed, ⟨fun _ => none, []⟩⟩

/-- A holder insures for a year and cancels after half of it. -/
def refundRun : List (Label Entry) :=
  [.mint usdc holder 1000000,
    .call [admin] (.initializeEngine admin usdc oracle),
    .call [admin] (.createProduct admin rainProduct),
    .call [holder] (.buyPolicy holder 1 1000000 365 rainKey usdc),
    .tick 15768000,
    .call [holder] (.cancelPolicy holder 1 [7])]

def refunded : World State :=
  (TransitionSystem.execute (step exec engine) refundRun genesis).get
    (by decide +kernel)

theorem refunded_reachable : (system engine).Reachable refunded :=
  TransitionSystem.reachable_of_execute (fun _ _ _ => step_sound)
    ⟨rfl, rfl⟩ (Option.some_get _).symm

end Sample

/-- Half of the premium goes back to the holder, and nothing else ever. -/
theorem policy_settles_at_most_once_refunded :
    (book Sample.refunded.machine).settlements 1 =
        [.policyCancelled 1 Sample.holder 25000] ∧
      (∀ p ls w', (book Sample.refunded.machine).policies 1 = some p →
        p.status ≠ .active →
        (system Sample.engine).Run Sample.refunded ls w' →
        (book w'.machine).policies 1 = some p ∧
          (book w'.machine).settlements 1 =
            (book Sample.refunded.machine).settlements 1) :=
  ⟨by decide +kernel,
    (policy_settles_at_most_once Sample.refunded_reachable 1).2.2.1⟩

end Parashield.PolicyEngine
