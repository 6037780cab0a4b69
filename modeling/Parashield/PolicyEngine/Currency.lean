import Parashield.PolicyEngine.Settlement
import Parashield.PolicyEngine.Terms

/-!
# The currency of a policy

A premium is taken in the token the product names, while refunds and payouts
are made in the token the engine was set up with.  As long as every purchase
is paid in the latter, all tokens a policy moves are of one kind, and its
refund is covered by its premium.
-/

namespace Parashield.PolicyEngine

open Support Support.Contract Invocation

/-- The event is the purchase of policy `id`. -/
def Event.purchases (id : ℕ) : Event → Bool
  | .buyPolicy _ i _ _ _ => decide (i = id)
  | _ => false

/-- The token transfer into the engine a purchase stands for. -/
def Event.premium (usdc engine : Address) : Event → Option Transfer
  | .buyPolicy buyer _ _ _ premium =>
      some ⟨usdc, buyer, engine, premium.toNat⟩
  | _ => none

namespace Book

/-- Purchases of policy `id`. -/
def purchases (b : Book) (id : ℕ) : List Event :=
  b.journal.filter (Event.purchases id)

/-- How a policy and its purchases go together. -/
def Bought (id : ℕ) : Option Policy → List Event → Prop
  | none, es => es = []
  | some p, es => ∃ buyer,
      es = [.buyPolicy buyer id p.productId p.coverageAmount p.premiumPaid]

/-- Every premium was received in `usdc`, in a transfer of its own, and all
refunds and payouts were made in `usdc`. -/
structure SettledIn (usdc engine : Address) (b : Book) : Prop where
  received : (b.journal.filterMap (Event.premium usdc engine)).Sublist
    b.bank.history
  sent : b.outflow engine = b.journal.filterMap (Event.payout usdc engine)

/-- Premiums were received in the token refunds and payouts are made in. -/
def Received (engine : Address) (b : Book) : Prop :=
  ∀ usdc, b.usdcToken = some usdc →
    (b.journal.filterMap (Event.premium usdc engine)).Sublist b.bank.history

end Book

/-! ## A policy is bought once -/

namespace Book

section Purchases

variable {env : Env} {b b' : Book} {k : Kind} {id : ℕ}

/-- Only a purchase of the policy is recorded as one. -/
theorem purchases_of_ne (hchange : Change env k b b') (hk : k ≠ .buy id) :
    b'.purchases id = b.purchases id := by
  cases hchange with
  | @buy _ p =>
      have hne : p.id ≠ id := fun h => hk (h ▸ rfl)
      simp [purchases, Event.purchases, hne]
  | _ => rfl

theorem bought_change (hsound : b.Sound) (hchange : Change env k b b')
    (h : Bought id (b.policies id) (b.purchases id)) :
    Bought id (b'.policies id) (b'.purchases id) := by
  by_cases hk : k = .buy id
  · subst hk
    cases hchange with
    | @buy _ p _ _ _ hp =>
        have hnone : b.policies p.id = none := hsound.fresh p.id hp.id_eq.ge
        rw [hnone] at h
        have hempty : b.journal.filter (Event.purchases p.id) = [] := h
        show Bought p.id (b.setPolicy p.id p p.id) _
        rw [setPolicy, Function.update_self]
        refine ⟨p.policyholder, ?_⟩
        simp [purchases, Event.purchases, hempty]
  rw [purchases_of_ne hchange hk]
  cases hp' : b'.policies id with
  | none =>
      cases hp : b.policies id with
      | none => rwa [hp] at h
      | some p =>
          obtain ⟨q, hq, -⟩ := hsound.continues hchange hp
          rw [hp'] at hq
          cases hq
  | some p' =>
      rcases hsound.arises hchange hp' with
        ⟨p, hp, hcontinues⟩ | ⟨-, hbuy, -⟩
      · rw [hp] at h
        rw [show p' = _ from hcontinues.terms]
        exact h
      · exact (hk hbuy).elim

end Purchases

/-! ## Premiums are received -/

section Received

variable {env : Env} {engine : Address} {b b' : Book} {k : Kind}

/-- Further transfers and events that record no premium change nothing. -/
theorem Received.extend (h : Received engine b)
    (htoken : b'.usdcToken = b.usdcToken)
    (hjournal : ∀ usdc, b'.journal.filterMap (Event.premium usdc engine) =
      b.journal.filterMap (Event.premium usdc engine))
    (hhistory : b.bank.history.Sublist b'.bank.history) :
    Received engine b' := by
  intro usdc husdc
  rw [hjournal usdc]
  exact (h usdc (htoken ▸ husdc)).trans hhistory

theorem history_sublist {B B' : Bank} {token sender recipient : Address}
    {amount : ℤ} (h : B.transfer token sender recipient amount = some B') :
    B.history.Sublist B'.history := by
  rw [Bank.transfer_history h]
  exact List.sublist_cons_self _ _

theorem Received.change (h : Received engine b)
    (hconsistent : Consistent engine b) (hchange : Change env k b b')
    (hk : ∀ id, k ≠ .buy id) : Received engine b' := by
  cases hchange with
  | wire hnone =>
      obtain ⟨-, hjournal, -⟩ := hconsistent.unwired hnone
      intro usdc _
      simp [hjournal]
  | buy => exact (hk _ rfl).elim
  | cancel _ _ _ _ hB =>
      refine h.extend rfl (fun _ => rfl) ?_
      rcases hB with ⟨-, hB⟩ | ⟨-, rfl⟩
      · exact history_sublist hB
      · exact .refl _
  | claim _ _ _ hB => exact h.extend rfl (fun _ => rfl) (history_sublist hB)
  | _ => exact h.extend rfl (fun _ => rfl) (.refl _)

/-- A purchase paid in the engine's token. -/
theorem Received.buy {buyer token : Address} {id productId : ℕ}
    {coverage premium : ℤ} (h : Received engine b)
    (htoken : b'.usdcToken = b.usdcToken)
    (hpaid : ∀ usdc, b.usdcToken = some usdc → token = usdc)
    (hjournal : b'.journal =
      .buyPolicy buyer id productId coverage premium :: b.journal)
    (hhistory : b'.bank.history =
      ⟨token, buyer, engine, premium.toNat⟩ :: b.bank.history) :
    Received engine b' := by
  intro usdc husdc
  rw [htoken] at husdc
  rw [hjournal, hhistory, hpaid usdc husdc]
  exact (h usdc husdc).cons_cons _

end Received

end Book

/-! ## Calls -/

/-- Purchases of the call are paid in `token`. -/
def Entry.paysIn (token : Address) : Entry → Prop
  | .buyPolicy _ _ _ _ _ paymentToken
  | .buyPolicyScheduled _ _ _ _ _ _ paymentToken
  | .buyPolicyWithRate _ _ _ _ _ paymentToken _ => paymentToken = token
  | .batchBuyPolicy _ items => ∀ item ∈ items, item.paymentToken = token
  | _ => True

section Calls

variable {env : Env} {m m' : Machine State}

theorem buyPolicyInner_received {buyer : Address} {productId : ℕ}
    {coverageAmount : ℤ} {durationDays : ℕ} {oracleKey : Symbol}
    {startTime : ℕ} {paymentToken : Address} {id : ℕ}
    (hreceived : (book m).Received env.self)
    (hpaid : ∀ usdc, m.store.usdcToken = some usdc → paymentToken = usdc)
    (h : buyPolicyInner env buyer productId coverageAmount durationDays
      oracleKey startTime paymentToken m = .ok (id, m')) :
    (book m').Received env.self ∧
      m'.store.usdcToken = m.store.usdcToken := by
  obtain ⟨p, B, hsells, -, rfl⟩ := buyPolicyInner_sells h
  exact ⟨hreceived.buy rfl hpaid rfl (Bank.transfer_history hsells.paid), rfl⟩

/-- Purchases paid in the engine's token keep the premiums received. -/
theorem exec_received {e : Entry} {u : Unit} (hwired : Wired m.store)
    (hself : env.self ∉ env.signers)
    (hconsistent : (book m).Consistent env.self)
    (hreceived : (book m).Received env.self)
    (hpaid : ∀ usdc, m.store.usdcToken = some usdc → e.paysIn usdc)
    (h : exec env e m = .ok (u, m')) : (book m').Received env.self := by
  by_cases hbuy : ∃ id, e.performs (.buy id)
  swap
  · have heffect := (exec_performs hwired h).1
    refine (heffect.preserves
      (Q := fun b => b.Consistent env.self ∧ b.Received env.self)
      ?_ ⟨hconsistent, hreceived⟩).2
    rintro k c c' hk - hchange ⟨hc, hr⟩
    refine ⟨hc.change hself hchange, hr.change hc hchange ?_⟩
    rintro id rfl
    exact hbuy ⟨id, hk⟩
  cases e with
  | buyPolicy =>
      simp [exec, buyPolicy] at h
      obtain ⟨-, -, id, h⟩ := h
      exact (buyPolicyInner_received hreceived hpaid h).1
  | buyPolicyScheduled =>
      simp [exec, buyPolicyScheduled] at h
      obtain ⟨-, -, id, h⟩ := h
      exact (buyPolicyInner_received hreceived hpaid h).1
  | buyPolicyWithRate =>
      simp [exec, buyPolicyWithRate] at h
      obtain ⟨-, -, product, -, -, id, h⟩ := h
      exact (buyPolicyInner_received hreceived hpaid h).1
  | batchBuyPolicy buyer items =>
      simp [exec, batchBuyPolicy] at h
      obtain ⟨-, -, -, -, ids, h⟩ := h
      have hkeeps : Keeps (fun t : Machine State =>
          (book t).Received env.self ∧
            t.store.usdcToken = m.store.usdcToken)
          (collect items fun item => buyPolicyInner env buyer item.productId
            item.coverageAmount item.durationDays item.oracleKey env.now
            item.paymentToken) := by
        apply keeps_collect
        rintro item hitem s id s' ⟨hs, htoken⟩ hrun
        obtain ⟨hs', htoken'⟩ := buyPolicyInner_received hs
          (fun usdc husdc => hpaid usdc (htoken ▸ husdc) item hitem) hrun
        exact ⟨hs', htoken'.trans htoken⟩
      exact (hkeeps m ids m' ⟨hreceived, rfl⟩ h).1
  | _ =>
      obtain ⟨id, hperforms⟩ := hbuy
      exact hperforms.elim

end Calls

/-! ## Runs -/

/-- Every purchase is paid in the token the engine refunds and pays in. -/
def PaysUsdc (w : World State) : Label Entry → Prop
  | .call _ e =>
      ∀ usdc, w.machine.store.usdcToken = some usdc → e.paysIn usdc
  | _ => True

section Runs

variable {engine : Address}

/-- Every policy of a run was bought once, for its premium. -/
theorem bought_inductive (engine : Address) :
    (system engine).Inductive fun w =>
      (Wired w.machine.store ∧ (book w.machine).Sound) ∧
        ∀ id, Book.Bought id ((book w.machine).policies id)
          ((book w.machine).purchases id) where
  init := by
    rintro ⟨now, ⟨store, B⟩⟩ ⟨hstore, -⟩
    obtain rfl : store = State.deployed := hstore
    refine ⟨⟨⟨by simp [State.deployed], by simp [State.deployed],
      by simp [State.deployed]⟩, ?_⟩, ?_⟩
    · exact ⟨by simp [book, State.deployed], by simp [book, State.deployed],
        by simp [book, State.deployed]⟩
    · simp [book, State.deployed, Book.Bought, Book.purchases]
  step := by
    rintro w l w' ⟨⟨hwired, hsound⟩, hbought⟩ hstep
    cases hstep with
    | call hself hexec =>
        obtain ⟨heffect, hwired'⟩ := exec_performs hwired hexec
        have hkept := heffect.preserves
          (Q := fun b => b.Sound ∧
            ∀ id, Book.Bought id (b.policies id) (b.purchases id))
          (fun k c c' _ _ hchange h => ⟨h.1.change hchange, fun id =>
            Book.bought_change h.1 hchange (h.2 id)⟩)
          ⟨hsound, hbought⟩
        exact ⟨⟨hwired', hkept.1⟩, hkept.2⟩
    | tick => exact ⟨⟨hwired, hsound⟩, hbought⟩
    | transfer =>
        exact ⟨⟨hwired, hsound.fresh, hsound.unwired, hsound.coverage_pos⟩,
          hbought⟩
    | mint =>
        exact ⟨⟨hwired, hsound.fresh, hsound.unwired, hsound.coverage_pos⟩,
          hbought⟩

theorem received_inductive (engine : Address) :
    ((system engine).restrict PaysUsdc).Inductive fun w =>
      (Wired w.machine.store ∧ (book w.machine).Consistent engine) ∧
        (book w.machine).Received engine := by
  apply ((consistent_inductive engine).restrict PaysUsdc).and
  · rintro w ⟨hstore, -⟩ usdc husdc
    simp [book, hstore, State.deployed] at husdc
  · rintro w l w' ⟨hwired, hconsistent⟩ - hreceived ⟨hG, hstep⟩
    cases hstep with
    | call hself hexec =>
        exact exec_received hwired hself hconsistent hreceived hG hexec
    | tick => exact hreceived
    | transfer _ hB =>
        exact hreceived.extend rfl (fun _ => rfl) (Book.history_sublist hB)
    | mint => exact hreceived.extend rfl (fun _ => rfl) (.refl _)

/-- As long as every purchase is paid in the engine's token, each policy was
bought once for its premium, is settled at most once, by its coverage or by a
refund of at most its premium, and premiums, refunds and payouts all move in
that token. -/
theorem policy_in_one_currency {w : World State} {id : ℕ} {p : Policy}
    (hw : ((system engine).restrict PaysUsdc).Reachable w)
    (hp : (book w.machine).policies id = some p) :
    Book.Bought id (some p) ((book w.machine).purchases id) ∧
      Book.Outcome id (some p) ((book w.machine).settlements id) ∧
      ∃ usdc, (book w.machine).usdcToken = some usdc ∧
        Book.SettledIn usdc engine (book w.machine) := by
  obtain ⟨⟨hwired, hconsistent⟩, hreceived⟩ :=
    hw.invariant (received_inductive engine)
  obtain ⟨-, hbought⟩ := hw.of_restrict.invariant (bought_inductive engine)
  refine ⟨hp ▸ hbought id, hp ▸ hconsistent.outcome id, ?_⟩
  cases husdc : (book w.machine).usdcToken with
  | none =>
      have habsent := (hconsistent.unwired husdc).1 id
      rw [hp] at habsent
      cases habsent
  | some usdc =>
      exact ⟨usdc, rfl, hreceived usdc husdc, hconsistent.payouts usdc husdc⟩

end Runs

namespace Sample

/-- The engine sells policies against `token`. -/
def preparation (token : Address) : List (Label Entry) :=
  [.mint token holder 1000000,
    .call [admin] (.initializeEngine admin usdc oracle),
    .call [admin]
      (.createProduct admin { rainProduct with expectedToken := token })]

def prepared : World State :=
  (TransitionSystem.execute (step exec engine) (preparation usdc) genesis).get
    (by decide +kernel)

def buying (token : Address) : Label Entry :=
  .call [holder] (.buyPolicy holder 1 1000000 365 rainKey token)

def insured : World State :=
  (step exec engine prepared (buying usdc)).get (by decide +kernel)

theorem prepared_reachable : (system engine).Reachable prepared :=
  TransitionSystem.reachable_of_execute (fun _ _ _ => step_sound) ⟨rfl, rfl⟩
    (Option.some_get _).symm

theorem insured_reachable : (system engine).Reachable insured :=
  prepared_reachable.step (step_sound (Option.some_get _).symm)

def cancelling : Label Entry := .call [holder] (.cancelPolicy holder 1 [7])

def cancelled : World State :=
  (step exec engine insured cancelling).get (by decide +kernel)

def euro : Address := .contract 9

/-- The premium is paid in euros, and the policy cancelled at once. -/
def exchange : List (Label Entry) :=
  .mint usdc engine 1000000 :: preparation euro ++
    [buying euro, cancelling]

def exchanged : World State :=
  (TransitionSystem.execute (step exec engine) exchange genesis).get
    (by decide +kernel)

end Sample

theorem policy_in_one_currency_cancelled :
    ∃ p, (book Sample.cancelled.machine).policies 1 = some p ∧
      Book.Outcome 1 (some p) ((book Sample.cancelled.machine).settlements 1) ∧
      ∃ usdc, (book Sample.cancelled.machine).usdcToken = some usdc ∧
        Book.SettledIn usdc Sample.engine (book Sample.cancelled.machine) := by
  have hrun : (system Sample.engine).Run Sample.genesis
      (Sample.preparation Sample.usdc) Sample.prepared :=
    TransitionSystem.run_of_execute (fun _ _ _ => step_sound)
      (Option.some_get _).symm
  have hprepared :
      ((system Sample.engine).restrict PaysUsdc).Reachable Sample.prepared :=
    TransitionSystem.Reachable.run (.init ⟨rfl, rfl⟩)
      (hrun.restrict (by simp [Sample.preparation, PaysUsdc, Entry.paysIn]))
  have hbuying : PaysUsdc Sample.prepared (Sample.buying Sample.usdc) := by
    have husdc : Sample.prepared.machine.store.usdcToken = some Sample.usdc := by
      decide +kernel
    intro usdc hset
    exact Option.some.inj (husdc.symm.trans hset)
  have hinsured :
      ((system Sample.engine).restrict PaysUsdc).Reachable Sample.insured :=
    .step hprepared ⟨hbuying, step_sound (Option.some_get _).symm⟩
  have hcancelling : PaysUsdc Sample.insured Sample.cancelling :=
    fun _ _ => trivial
  have hcancelled :
      ((system Sample.engine).restrict PaysUsdc).Reachable Sample.cancelled :=
    .step hinsured ⟨hcancelling, step_sound (Option.some_get _).symm⟩
  have hsome : ((book Sample.cancelled.machine).policies 1).isSome = true := by
    decide +kernel
  obtain ⟨p, hp⟩ := Option.isSome_iff_exists.mp hsome
  exact ⟨p, hp, (policy_in_one_currency hcancelled hp).2⟩

/-- A premium received in another token is refunded in the engine's. -/
theorem refund_in_other_currency :
    (system Sample.engine).Reachable Sample.exchanged ∧
      (book Sample.exchanged.machine).purchases 1 =
        [.buyPolicy Sample.holder 1 1 1000000 50000] ∧
      (book Sample.exchanged.machine).settlements 1 =
        [.policyCancelled 1 Sample.holder 50000] ∧
      Sample.exchanged.machine.bank.history =
        [⟨Sample.usdc, Sample.engine, Sample.holder, 50000⟩,
          ⟨Sample.euro, Sample.holder, Sample.engine, 50000⟩,
          ⟨Sample.usdc, Sample.engine, Sample.engine, 0⟩] :=
  ⟨TransitionSystem.reachable_of_execute (fun _ _ _ => step_sound)
      ⟨rfl, rfl⟩ (Option.some_get _).symm,
    by decide +kernel, by decide +kernel, by decide +kernel⟩

end Parashield.PolicyEngine
