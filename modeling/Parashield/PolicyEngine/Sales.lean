import Parashield.PolicyEngine.Currency
import Parashield.Support.Cooldown

/-!
# Sales

A purchase, through whichever path, puts one policy on the book: one that
keeps to the bounds and the price of its product, for a premium taken from the
buyer.  A call that buys several policies is a run of such sales.
-/

namespace Parashield.PolicyEngine

open Support Support.Contract Invocation

/-- What the premium is charged for: the buyer and the oracle key. -/
def Policy.purchaseKey (p : Policy) : Address × Symbol :=
  (p.policyholder, p.oracleKey)

/-- The policy keeps to the product it is sold under at `now`. -/
structure Policy.Conforms (product : InsuranceProduct) (now : ℕ)
    (p : Policy) : Prop where
  offered : product.status = .active
  active : p.status = .active
  coverage_pos : 0 < p.coverageAmount
  coverage_min : product.coverageMin ≤ p.coverageAmount
  coverage_max : p.coverageAmount ≤ product.coverageMax
  premium_pos : 0 < p.premiumPaid
  created : p.createdAt = now
  start_le : now ≤ p.startTime
  end_le : p.endTime ≤ maxU64
  /-- The policy runs for whole days, and costs at most their share of the
  yearly rate. -/
  term : ∃ days, 0 < days ∧ days ≤ product.maxDurationDays ∧
    p.endTime = p.startTime + days * 86400 ∧
    p.premiumPaid * (365 * 10000) ≤
      p.coverageAmount * product.premiumRateBps * days

theorem Policy.Conforms.start_lt_end {product : InsuranceProduct} {now : ℕ}
    {p : Policy} (h : p.Conforms product now) : p.startTime < p.endTime := by
  obtain ⟨days, hpos, -, hend, -⟩ := h.term
  omega

/-- The premium is rounded down. -/
theorem premiumFor_le {coverageAmount : ℤ} (hpos : 0 ≤ coverageAmount)
    (premiumRateBps durationDays : ℕ) :
    premiumFor coverageAmount premiumRateBps durationDays * (365 * 10000) ≤
      coverageAmount * premiumRateBps * durationDays := by
  have hprod : 0 ≤ coverageAmount * premiumRateBps * durationDays :=
    Int.mul_nonneg (Int.mul_nonneg hpos (Int.natCast_nonneg _))
      (Int.natCast_nonneg _)
  rw [premiumFor, Int.tdiv_eq_ediv_of_nonneg hprod,
    Int.tdiv_eq_ediv_of_nonneg (Int.ediv_nonneg hprod (by decide))]
  generalize coverageAmount * premiumRateBps * durationDays = x
  omega

/-! ## One sale -/

/-- The sale of `p`: what it asks for, and what it writes. -/
structure Sale (env : Env) (m : Machine State) (p : Policy)
    (m' : Machine State) : Prop where
  id_eq : p.id = m.store.nextPolicyId
  cooled : ∀ last ∈ m.store.lastPurchase p.purchaseKey,
    satAddU64 last purchaseCoolingOffSeconds ≤ env.now
  paid : ∃ product, m.store.products p.productId = some product ∧
    p.Conforms product env.now ∧
    m.bank.transfer product.expectedToken p.policyholder env.self
      p.premiumPaid = some m'.bank
  products : m'.store.products = m.store.products
  policies : m'.store.policies =
    Function.update m.store.policies p.id (some p)
  next : m'.store.nextPolicyId = p.id + 1
  stamped : m'.store.lastPurchase =
    Function.update m.store.lastPurchase p.purchaseKey (some env.now)

section Calls

variable {env : Env} {m m' : Machine State}

theorem buyPolicyInner_sale {buyer : Address} {productId : ℕ}
    {coverageAmount : ℤ} {durationDays : ℕ} {oracleKey : Symbol}
    {startTime : ℕ} {paymentToken : Address} {id : ℕ}
    (h : buyPolicyInner env buyer productId coverageAmount durationDays
      oracleKey startTime paymentToken m = .ok (id, m')) :
    ∃ p, p.policyholder = buyer ∧ id = p.id ∧ Sale env m p m' := by
  simp [buyPolicyInner] at h
  obtain ⟨hstart, -, admin, -, -, hcooled, product, hproduct, hoffered, hpos,
    ⟨hmin, hmax⟩, hdays, hlimit, -, -, -, hpremium, htoken, B, ⟨-, hB⟩, -,
    hend, -, -, ⟨rfl, -⟩, rfl⟩ := h
  rw [htoken] at hB
  refine ⟨⟨m.store.nextPolicyId, productId, buyer, coverageAmount,
    premiumFor coverageAmount product.premiumRateBps durationDays, oracleKey,
    product.oracleDataType, product.triggerThreshold,
    product.triggerComparison, startTime, startTime + durationDays * 86400,
    .active, env.now⟩, rfl, rfl, ?_⟩
  refine ⟨rfl, hcooled, ⟨product, hproduct, ?_, hB⟩, rfl, rfl, rfl, rfl⟩
  exact
    { offered := hoffered
      active := rfl
      coverage_pos := hpos
      coverage_min := hmin
      coverage_max := hmax
      premium_pos := hpremium
      created := rfl
      start_le := hstart
      end_le := by simp only [maxU64]; omega
      term := ⟨durationDays, by omega, hlimit, rfl,
        premiumFor_le hpos.le _ _⟩ }

/-! ## Runs of sales -/

/-- The purchases of one call, as a machine of its own: it sells policies. -/
def selling (env : Env) : TransitionSystem (Machine State) Policy where
  Init _ := True
  Step := Sale env

/-- The transfer a sale stands for, at the product's token. -/
def State.charge (s : State) (engine : Address) (p : Policy) :
    Option Transfer :=
  (s.products p.productId).map fun product =>
    ⟨product.expectedToken, p.policyholder, engine, p.premiumPaid.toNat⟩

/-- What the sales `ps` have done to a machine. -/
structure Sold (env : Env) (m : Machine State) (ps : List Policy)
    (m' : Machine State) : Prop where
  products : m'.store.products = m.store.products
  ids : ps.map Policy.id = List.range' m.store.nextPolicyId ps.length
  next : m'.store.nextPolicyId = m.store.nextPolicyId + ps.length
  stored : ∀ p ∈ ps, m'.store.policies p.id = some p
  kept : ∀ id, (∀ p ∈ ps, p.id ≠ id) →
    m'.store.policies id = m.store.policies id
  conforms : ∀ p ∈ ps, ∃ product,
    m.store.products p.productId = some product ∧
      p.Conforms product env.now
  history : m'.bank.history =
    (ps.filterMap (m.store.charge env.self)).reverse ++ m.bank.history

theorem Sold.nil : Sold env m [] m :=
  ⟨rfl, rfl, rfl, nofun, fun _ _ => rfl, nofun, rfl⟩

/-- One more sale. -/
theorem Sold.concat {m'' : Machine State} {ps : List Policy} {p : Policy}
    (h : Sold env m ps m') (hsale : Sale env m' p m'') :
    Sold env m (ps ++ [p]) m'' := by
  obtain ⟨product, hproduct, hconforms, hB⟩ := hsale.paid
  have hfound : m.store.products p.productId = some product :=
    h.products ▸ hproduct
  have hnew : ∀ q ∈ ps, q.id ≠ p.id := by
    intro q hq
    have hmem : q.id ∈ ps.map Policy.id := List.mem_map_of_mem hq
    rw [h.ids, List.mem_range'_1] at hmem
    rw [hsale.id_eq, h.next]
    omega
  exact
    { products := hsale.products.trans h.products
      ids := by
        rw [List.map_append, h.ids, List.length_append,
          ← List.range'_append_1, ← h.next, ← hsale.id_eq]
        rfl
      next := by
        rw [hsale.next, hsale.id_eq, h.next, List.length_append,
          List.length_singleton]
        omega
      stored := by
        intro q hq
        rw [hsale.policies]
        rcases List.mem_append.mp hq with hq | hq
        · rw [Function.update_of_ne (hnew q hq)]
          exact h.stored q hq
        · rw [List.mem_singleton.mp hq, Function.update_self]
      kept := by
        intro id hother
        have hne : id ≠ p.id :=
          (hother p (List.mem_append_right _ List.mem_cons_self)).symm
        rw [hsale.policies, Function.update_of_ne hne]
        exact h.kept id fun q hq => hother q (List.mem_append_left _ hq)
      conforms := by
        intro q hq
        rcases List.mem_append.mp hq with hq | hq
        · exact h.conforms q hq
        · rw [List.mem_singleton.mp hq]
          exact ⟨product, hfound, hconforms⟩
      history := by
        rw [Bank.transfer_history hB, h.history, List.filterMap_append]
        simp [State.charge, hfound] }

theorem sold_of_run {ps : List Policy} (hrun : (selling env).Run m ps m') :
    Sold env m ps m' := by
  induction ps using List.reverseRecOn generalizing m' with
  | nil =>
      obtain rfl := TransitionSystem.run_nil_iff.mp hrun
      exact .nil
  | append_singleton ps p ih =>
      obtain ⟨t, hrun, hsale⟩ := TransitionSystem.run_concat_iff.mp hrun
      exact (ih hrun).concat hsale

/-- The identifiers a run of sales returns lead to what it sold. -/
theorem Sold.lookup {ps : List Policy} (h : Sold env m ps m') :
    (ps.map Policy.id).filterMap m'.store.policies = ps := by
  rw [List.filterMap_map]
  calc
    ps.filterMap (m'.store.policies ∘ Policy.id) = ps.filterMap some :=
      List.filterMap_congr h.stored
    _ = ps := List.filterMap_some

/-- A batch is a run of sales to one buyer. -/
theorem collect_selling {buyer : Address} {items : List BatchBuyItem}
    {ids : List ℕ}
    (h : collect items (fun item =>
      buyPolicyInner env buyer item.productId item.coverageAmount
        item.durationDays item.oracleKey env.now item.paymentToken) m =
      .ok (ids, m')) :
    ∃ ps, ids = ps.map Policy.id ∧ (∀ p ∈ ps, p.policyholder = buyer) ∧
      (selling env).Run m ps m' := by
  induction items generalizing m ids with
  | nil =>
      obtain ⟨rfl, rfl⟩ := pure_ok.mp h
      exact ⟨[], rfl, nofun, .nil _⟩
  | cons item items ih =>
      simp only [collect, bind_ok, pure_ok] at h
      obtain ⟨id, t, hfirst, ids', _, hrest, rfl, rfl⟩ := h
      obtain ⟨p, hbuyer, rfl, hsale⟩ := buyPolicyInner_sale hfirst
      obtain ⟨ps, rfl, hbuyers, hrun⟩ := ih hrest
      exact ⟨p :: ps, rfl, List.forall_mem_cons.mpr ⟨hbuyer, hbuyers⟩,
        .cons hsale hrun⟩

/-- What the sales `ps` take in `token`. -/
def State.taken (s : State) (engine : Address) (ps : List Policy)
    (token : Address) : ℕ :=
  (((ps.filterMap (s.charge engine)).filter fun t => t.token = token).map
    Transfer.amount).sum

/-- The buyer of a run of sales pays their premiums. -/
theorem balance_of_run {buyer : Address} {ps : List Policy}
    (hbuyer : buyer ≠ env.self) (hps : ∀ p ∈ ps, p.policyholder = buyer)
    (hrun : (selling env).Run m ps m') (token : Address) :
    m'.bank.balance token buyer + m.store.taken env.self ps token =
      m.bank.balance token buyer := by
  induction ps using List.reverseRecOn generalizing m' with
  | nil =>
      obtain rfl := TransitionSystem.run_nil_iff.mp hrun
      rfl
  | append_singleton ps p ih =>
      obtain ⟨t, hrun, hsale⟩ := TransitionSystem.run_concat_iff.mp hrun
      have hbefore := ih (fun q hq => hps q (List.mem_append_left _ hq)) hrun
      obtain ⟨product, hproduct, hconforms, hB⟩ := hsale.paid
      have hfound : m.store.products p.productId = some product :=
        (sold_of_run hrun).products ▸ hproduct
      obtain rfl := hps p (List.mem_append_right _ List.mem_cons_self)
      have hpos := hconforms.premium_pos
      by_cases htoken : product.expectedToken = token
      · subst htoken
        have hpaid := Bank.transfer_balance_sender hB hbuyer
        have htaken : m.store.taken env.self (ps ++ [p])
            product.expectedToken =
            m.store.taken env.self ps product.expectedToken +
              p.premiumPaid.toNat := by
          simp [State.taken, State.charge, hfound]
        omega
      · have hsame := Bank.transfer_balance_of_ne hB
          (a := p.policyholder) (.inl (Ne.symm htoken))
        have htaken : m.store.taken env.self (ps ++ [p]) token =
            m.store.taken env.self ps token := by
          simp [State.taken, State.charge, hfound, htoken]
        omega

end Calls

/-! ## Purchase paths -/

/-- The purchase paths, with the identifiers they return. -/
def purchase (env : Env) : Entry → Call (List ℕ)
  | .buyPolicy buyer productId coverage days key token => do
      let id ← buyPolicy env buyer productId coverage days key token
      pure [id]
  | .buyPolicyScheduled buyer productId coverage days key start token => do
      let id ←
        buyPolicyScheduled env buyer productId coverage days key start token
      pure [id]
  | .buyPolicyWithRate buyer productId coverage days key token rate => do
      let id ←
        buyPolicyWithRate env buyer productId coverage days key token rate
      pure [id]
  | .batchBuyPolicy buyer items => batchBuyPolicy env buyer items
  | _ => pure []

def Entry.buyer : Entry → Option Address
  | .buyPolicy buyer .. | .buyPolicyScheduled buyer ..
  | .buyPolicyWithRate buyer .. | .batchBuyPolicy buyer _ => some buyer
  | _ => none

/-- The policies sold by a step, in order. -/
def sold (engine : Address) (w : World State) : Label Entry → List Policy
  | .call signers e =>
      if engine ∈ signers then []
      else
        match purchase (callEnv engine w signers) e w.machine with
        | .ok (ids, m) => ids.filterMap m.store.policies
        | .error _ => []
  | _ => []

section Paths

variable {env : Env} {m m' : Machine State} {e : Entry}

/-- A purchase path is a run of sales to the buyer, who signed. -/
theorem purchase_selling {ids : List ℕ}
    (h : purchase env e m = .ok (ids, m')) :
    ∃ ps, ids = ps.map Policy.id ∧
      (∀ p ∈ ps, e.buyer = some p.policyholder ∧
        p.policyholder ∈ env.signers) ∧
      (selling env).Run m ps m' := by
  have single : ∀ {buyer : Address} {id : ℕ} {p : Policy},
      p.policyholder = buyer ∧ id = p.id ∧ Sale env m p m' →
      e.buyer = some buyer → buyer ∈ env.signers →
      ∃ ps, [id] = ps.map Policy.id ∧
        (∀ p ∈ ps, e.buyer = some p.policyholder ∧
          p.policyholder ∈ env.signers) ∧
        (selling env).Run m ps m' := by
    rintro _ _ p ⟨rfl, rfl, hsale⟩ hbuyer hsigned
    exact ⟨[p], rfl, List.forall_mem_singleton.mpr ⟨hbuyer, hsigned⟩,
      .cons hsale (.nil _)⟩
  cases e with
  | buyPolicy =>
      simp [purchase, buyPolicy] at h
      obtain ⟨hsigned, -, id, h, rfl⟩ := h
      obtain ⟨p, hp⟩ := buyPolicyInner_sale h
      exact single hp rfl hsigned
  | buyPolicyScheduled =>
      simp [purchase, buyPolicyScheduled] at h
      obtain ⟨hsigned, -, id, h, rfl⟩ := h
      obtain ⟨p, hp⟩ := buyPolicyInner_sale h
      exact single hp rfl hsigned
  | buyPolicyWithRate =>
      simp [purchase, buyPolicyWithRate] at h
      obtain ⟨hsigned, -, product, -, -, id, h, rfl⟩ := h
      obtain ⟨p, hp⟩ := buyPolicyInner_sale h
      exact single hp rfl hsigned
  | batchBuyPolicy buyer items =>
      simp [purchase, batchBuyPolicy] at h
      obtain ⟨hsigned, -, -, -, h⟩ := h
      obtain ⟨ps, hids, hbuyers, hrun⟩ := collect_selling h
      refine ⟨ps, hids, fun p hp => ?_, hrun⟩
      obtain rfl := hbuyers p hp
      exact ⟨rfl, hsigned⟩
  | _ =>
      obtain ⟨rfl, rfl⟩ := pure_ok.mp h
      exact ⟨[], rfl, by rintro _ ⟨⟩, .nil _⟩

/-- A call is a purchase, or sells nothing. -/
theorem exec_purchase {u : Unit} (h : exec env e m = .ok (u, m')) :
    (∃ ids, purchase env e m = .ok (ids, m')) ∨
      purchase env e m = .ok ([], m) ∧ ∀ id, ¬ e.performs (.buy id) := by
  cases e with
  | buyPolicy | buyPolicyScheduled | buyPolicyWithRate =>
      obtain ⟨id, h⟩ := perform_ok.mp h
      exact .inl ⟨[id], bind_ok.mpr ⟨id, m', h, pure_ok.mpr ⟨rfl, rfl⟩⟩⟩
  | batchBuyPolicy => exact .inl (perform_ok.mp h)
  | _ => exact .inr ⟨rfl, fun _ => id⟩

/-- A purchase that returns identifiers is a call. -/
theorem exec_of_purchase {ids : List ℕ} (hids : ids ≠ [])
    (h : purchase env e m = .ok (ids, m')) :
    exec env e m = .ok ((), m') := by
  cases e with
  | buyPolicy | buyPolicyScheduled | buyPolicyWithRate =>
      obtain ⟨id, t, h, hpure⟩ := bind_ok.mp h
      obtain ⟨-, rfl⟩ := pure_ok.mp hpure
      exact perform_ok.mpr ⟨id, h⟩
  | batchBuyPolicy => exact perform_ok.mpr ⟨ids, h⟩
  | _ => exact absurd (pure_ok.mp h).1 hids

end Paths

/-! ## Steps -/

section Steps

variable {engine : Address} {w w' : World State} {l : Label Entry}

/-- The step sells nothing. -/
structure Unsold (engine : Address) (w : World State) (l : Label Entry)
    (w' : World State) : Prop where
  none_sold : sold engine w l = []
  stamps : w'.machine.store.lastPurchase = w.machine.store.lastPurchase
  none_stored : ∀ id, w.machine.store.policies id = none →
    w'.machine.store.policies id = none

/-- The step is a run of sales to one buyer. -/
def Trades (engine : Address) (w : World State) (l : Label Entry)
    (w' : World State) : Prop :=
  ∃ signers e, l = .call signers e ∧ engine ∉ signers ∧
    (∀ p ∈ sold engine w l,
      e.buyer = some p.policyholder ∧ p.policyholder ∈ signers) ∧
    (selling (callEnv engine w signers)).Run w.machine (sold engine w l)
      w'.machine

theorem step_trades (hwired : Wired w.machine.store)
    (hsound : (book w.machine).Sound) (hstep : Step exec engine w l w') :
    Trades engine w l w' ∨ Unsold engine w l w' := by
  cases hstep with
  | tick => exact .inr ⟨rfl, rfl, fun _ => id⟩
  | transfer => exact .inr ⟨rfl, rfl, fun _ => id⟩
  | mint => exact .inr ⟨rfl, rfl, fun _ => id⟩
  | @call signers e m' hself hexec =>
      rcases exec_purchase hexec with ⟨ids, hids⟩ | ⟨hnone, hbuys⟩
      · left
        obtain ⟨ps, hps, hbuyers, hrun⟩ := purchase_selling hids
        have hsold : sold engine w (.call signers e) = ps := by
          simp only [sold, hself, if_false, hids, hps]
          exact (sold_of_run hrun).lookup
        refine ⟨signers, e, rfl, hself, ?_, ?_⟩
        · rwa [hsold]
        · rwa [hsold]
      · right
        have heffect := (exec_performs hwired hexec).1
        refine ⟨by simp [sold, hself, hnone], ?_, fun i hi => ?_⟩
        · refine heffect.preserves (Q := fun b =>
            b.lastPurchase = w.machine.store.lastPurchase) ?_ rfl
          intro k c c' hk _ hchange hc
          cases hchange with
          | buy => exact (hbuys _ hk).elim
          | _ => exact hc
        · refine (heffect.preserves (Q := fun b =>
            b.Sound ∧ b.policies i = none) ?_ ⟨hsound, hi⟩).2
          rintro k c c' hk - hchange ⟨hc, hnone⟩
          refine ⟨hc.change hchange, ?_⟩
          cases hp : c'.policies i with
          | none => rfl
          | some p =>
              rcases hc.arises hchange hp with ⟨q, hq, -⟩ | ⟨-, rfl, -⟩
              · rw [hnone] at hq
                cases hq
              · exact (hbuys i hk).elim

/-- A refused step sells nothing. -/
theorem sold_of_refused (h : ∀ t, ¬ Step exec engine w l t) :
    sold engine w l = [] := by
  cases l with
  | call signers e =>
      by_cases hself : engine ∈ signers
      · simp only [sold, hself, if_true]
      · cases hids : purchase (callEnv engine w signers) e w.machine with
        | error fault => simp only [sold, hself, if_false, hids]
        | ok r =>
            obtain ⟨ids, m'⟩ := r
            by_cases hnil : ids = []
            · simp [sold, hself, hids, hnil]
            · exact absurd (.call hself (exec_of_purchase hnil hids)) (h _)
  | _ => rfl

/-- No step rewrites the terms of a policy. -/
theorem step_keeps_terms (hwired : Wired w.machine.store)
    (hsound : (book w.machine).Sound) (hstep : Step exec engine w l w')
    {id : ℕ} {p : Policy} (hp : w.machine.store.policies id = some p) :
    ∃ p', w'.machine.store.policies id = some p' ∧ p.SameTerms p' := by
  cases hstep with
  | call _ hexec =>
      have hkept := (exec_performs hwired hexec).1.preserves (Q := fun b =>
        b.Sound ∧ ∃ q, b.policies id = some q ∧ p.SameTerms q)
        (by
          rintro k c c' - - hchange ⟨hc, q, hq, hterms⟩
          obtain ⟨q', hq', hcontinues⟩ := hc.continues hchange hq
          exact ⟨hc.change hchange, q', hq', hterms.trans hcontinues.terms⟩)
        ⟨hsound, p, hp, .refl p⟩
      exact hkept.2
  | _ => exact ⟨p, hp, .refl p⟩

/-! ## Runs -/

/-- Every policy of a run keeps its terms. -/
theorem run_keeps_terms {ls : List (Label Entry)}
    (hw : (system engine).Reachable w) (hrun : (system engine).Run w ls w')
    {id : ℕ} {p : Policy} (hp : w.machine.store.policies id = some p) :
    ∃ p', w'.machine.store.policies id = some p' ∧ p.SameTerms p' := by
  refine (hrun.preserves (Q := fun t =>
    (system engine).Reachable t ∧
      ∃ p', t.machine.store.policies id = some p' ∧ p.SameTerms p')
    ?_ ⟨hw, p, hp, .refl p⟩).2
  rintro s l t ⟨hs, q, hq, hterms⟩ hstep
  obtain ⟨⟨hwired, hsound⟩, -⟩ := hs.invariant (bought_inductive engine)
  obtain ⟨q', hq', hterms'⟩ := step_keeps_terms hwired hsound hstep hq
  exact ⟨hs.step hstep, q', hq', hterms.trans hterms'⟩

/-- What a step sells: policies that conform to their product, numbered
upwards from all before them, paid for by their buyer and by nobody else. -/
structure Issues (engine : Address) (w : World State) (ps : List Policy)
    (w' : World State) : Prop where
  conforms : ∀ p ∈ ps, ∃ product,
    w.machine.store.products p.productId = some product ∧
      p.Conforms product w.now
  stored : ∀ p ∈ ps, w'.machine.store.policies p.id = some p
  only : ∀ id p, w.machine.store.policies id = none →
    w'.machine.store.policies id = some p → p ∈ ps
  increasing : (ps.map Policy.id).Pairwise (· < ·)
  fresh : ∀ p ∈ ps, ∀ id q, w.machine.store.policies id = some q → id < p.id
  charged : ps ≠ [] → w'.machine.bank.history =
    (ps.filterMap (w.machine.store.charge engine)).reverse ++
      w.machine.bank.history
  paid : ∀ p ∈ ps, ∀ token,
    w'.machine.bank.balance token p.policyholder +
        w.machine.store.taken engine ps token =
      w.machine.bank.balance token p.policyholder

theorem step_issues (hwired : Wired w.machine.store)
    (hsound : (book w.machine).Sound) (hstep : Step exec engine w l w') :
    Issues engine w (sold engine w l) w' := by
  rcases step_trades hwired hsound hstep with
    ⟨signers, e, -, hself, hbuyers, hrun⟩ | ⟨hnone, -, hstored⟩
  · have hsold := sold_of_run hrun
    have hids : ∀ p ∈ sold engine w l,
        w.machine.store.nextPolicyId ≤ p.id := by
      intro p hp
      have hmem : p.id ∈ (sold engine w l).map Policy.id :=
        List.mem_map_of_mem hp
      rw [hsold.ids, List.mem_range'_1] at hmem
      exact hmem.1
    exact
      { conforms := hsold.conforms
        stored := hsold.stored
        only := by
          intro id p hbefore hafter
          by_contra hnew
          have hkept := hsold.kept id fun q hq hid => hnew (by
            rw [← hid, hsold.stored q hq] at hafter
            exact Option.some.inj hafter ▸ hq)
          rw [hkept, hbefore] at hafter
          cases hafter
        increasing := by
          rw [hsold.ids]
          exact List.pairwise_lt_range'
        fresh := by
          intro p hp id q hq
          by_contra hle
          have hfree := hsound.fresh id
            ((hids p hp).trans (Nat.le_of_not_lt hle))
          cases hfree.symm.trans hq
        charged := fun _ => hsold.history
        paid := by
          intro p hp token
          obtain ⟨hbuyer, hsigned⟩ := hbuyers p hp
          refine balance_of_run
            (fun heq : p.policyholder = engine => hself (heq ▸ hsigned)) ?_ hrun
            token
          intro q hq
          exact Option.some.inj ((hbuyers q hq).1.symm.trans hbuyer) }
  · rw [hnone]
    exact
      { conforms := nofun
        stored := nofun
        only := by
          intro id p hbefore hafter
          cases (hstored id hbefore).symm.trans hafter
        increasing := List.Pairwise.nil
        fresh := nofun
        charged := fun h => absurd rfl h
        paid := nofun }

/-- Whatever step sells a policy, it conforms to its product, starts no
earlier than it was created, is paid for by exactly its premium, and is
numbered above all before it; and from then on only its status and its holder
change. -/
theorem sold_policies_valid_and_frozen {w'' : World State}
    {ls : List (Label Entry)} (hw : (system engine).Reachable w)
    (hstep : (system engine).Step w l w')
    (hrun : (system engine).Run w' ls w'') :
    Issues engine w (sold engine w l) w' ∧
      (∀ p ∈ sold engine w l, p.createdAt ≤ p.startTime ∧
        p.startTime < p.endTime) ∧
      ∀ id p, w'.machine.store.policies id = some p →
        ∃ p', w''.machine.store.policies id = some p' ∧ p.SameTerms p' := by
  obtain ⟨⟨hwired, hsound⟩, -⟩ := hw.invariant (bought_inductive engine)
  have hissues := step_issues hwired hsound hstep
  refine ⟨hissues, fun p hp => ?_, fun id p hp => ?_⟩
  · obtain ⟨product, -, hconforms⟩ := hissues.conforms p hp
    exact ⟨hconforms.created.trans_le hconforms.start_le,
      hconforms.start_lt_end⟩
  · exact run_keeps_terms (hw.step hstep) hrun hp

/-! ## Cooling off -/

/-- The purchases of a step, with the ledger time they are made at. -/
def purchasesAt (engine : Address) (w : World State) (l : Label Entry) :
    List (ℕ × Policy) :=
  (sold engine w l).map fun p => (w.now, p)

/-- Who bought, and on which oracle key. -/
def boughtBy (purchase : ℕ × Policy) : Address × Symbol :=
  purchase.2.purchaseKey

/-- The engine remembers the last purchase of each buyer and key in `log`,
and lets none follow another too soon. -/
structure CooledOff (s : State) (log : List (ℕ × Policy)) : Prop where
  spaced : Spaced boughtBy Prod.fst purchaseCoolingOffSeconds log
  stamps : s.lastPurchase = stamp boughtBy Prod.fst log

theorem CooledOff.sale {env : Env} {m m' : Machine State} {p : Policy}
    {log : List (ℕ × Policy)} (h : CooledOff m.store log)
    (hsale : Sale env m p m') :
    CooledOff m'.store (log ++ [(env.now, p)]) := by
  obtain ⟨product, -, hconforms, -⟩ := hsale.paid
  refine ⟨h.spaced.concat fun t ht => ?_, ?_⟩
  · -- a term ends within 64 bits, so the deadline cannot have been clamped
    have hcooled := hsale.cooled t (by rw [h.stamps]; exact ht)
    obtain ⟨days, hdays, -, hend, -⟩ := hconforms.term
    have hlast := hconforms.end_le
    have hstart := hconforms.start_le
    simp only [satAddU64, purchaseCoolingOffSeconds, maxU64] at *
    omega
  · rw [hsale.stamped, h.stamps, stamp_concat]
    rfl

theorem CooledOff.run {env : Env} {m m' : Machine State} {ps : List Policy}
    {log : List (ℕ × Policy)} (h : CooledOff m.store log)
    (hrun : (selling env).Run m ps m') :
    CooledOff m'.store (log ++ ps.map fun p => (env.now, p)) := by
  induction hrun generalizing log with
  | nil => simpa using h
  | cons hsale _ ih =>
      have hrest := ih (h.sale hsale)
      simpa using hrest

theorem step_cools_off {log : List (ℕ × Policy)}
    (hwired : Wired w.machine.store) (hsound : (book w.machine).Sound)
    (h : CooledOff w.machine.store log)
    (hstep : (system engine).attempts.Step w l w') :
    CooledOff w'.machine.store (log ++ purchasesAt engine w l) := by
  rcases hstep with hstep | ⟨hrefused, rfl⟩
  · rcases step_trades hwired hsound hstep with
      ⟨signers, e, -, -, -, hrun⟩ | ⟨hnone, hstamps, -⟩
    · exact h.run hrun
    · rw [purchasesAt, hnone, List.map_nil, List.append_nil]
      exact ⟨h.spaced, hstamps.trans h.stamps⟩
  · rw [purchasesAt, sold_of_refused hrefused, List.map_nil, List.append_nil]
    exact h

/-- Whatever is attempted in a run, any two purchases of one buyer on one
oracle key are made a cooling-off period apart, and the period that is running
is that of the last purchase that was accepted. -/
theorem purchases_cool_off {w₀ : World State} {ls : List (Label Entry)}
    {log : List (ℕ × Policy)} (hinit : (system engine).Init w₀)
    (hrun : (system engine).attempts.Outputs (purchasesAt engine) w₀ ls w
      log) : CooledOff w.machine.store log := by
  have hempty : CooledOff w₀.machine.store [] := by
    rw [hinit.1]
    exact ⟨spaced_nil .., rfl⟩
  have hkept := hrun.preserves (Q := fun t past =>
    (system engine).Reachable t ∧ CooledOff t.machine.store past)
    (by
      rintro s l t past ⟨hs, hcooled⟩ hstep
      obtain ⟨⟨hwired, hsound⟩, -⟩ := hs.invariant (bought_inductive engine)
      refine ⟨?_, step_cools_off hwired hsound hcooled hstep⟩
      rcases hstep with hstep | ⟨-, rfl⟩
      · exact hs.step hstep
      · exact hs)
    ⟨.init hinit, hempty⟩
  simpa using hkept.2

end Steps

namespace Sample

/-- The second purchase comes a day too soon, and is refused. -/
def insistence : List (Label Entry) :=
  preparation usdc ++
    [buying usdc, .tick 86399, buying usdc, .tick 1,
      .call [holder]
        (.batchBuyPolicy holder [⟨1, 1000000, 365, rainKey, usdc⟩])]

def insisted : World State :=
  (TransitionSystem.execute (TransitionSystem.attempted (step exec engine))
    insistence genesis).get (by decide +kernel)

/-- The purchases that were accepted. -/
def accepted : List (ℕ × Policy) :=
  TransitionSystem.emit (TransitionSystem.attempted (step exec engine))
    (purchasesAt engine) insistence genesis

theorem insisted_outputs : (system engine).attempts.Outputs
    (purchasesAt engine) genesis insistence insisted accepted :=
  TransitionSystem.outputs_of_execute
    (TransitionSystem.attempted_sound fun _ _ _ => step_eq_some_iff)
    (Option.some_get _).symm

end Sample

open Sample in
theorem sold_policies_valid_and_frozen_cancelled :
    (sold engine prepared (buying usdc)).map Policy.id = [1] ∧
      Issues engine prepared (sold engine prepared (buying usdc)) insured ∧
      ∀ id p, insured.machine.store.policies id = some p →
        ∃ p', cancelled.machine.store.policies id = some p' ∧
          p.SameTerms p' := by
  have hbuying : (system engine).Step prepared (buying usdc) insured :=
    step_sound (Option.some_get _).symm
  have hcancelling : (system engine).Run insured [cancelling] cancelled :=
    .cons (step_sound (Option.some_get _).symm) (.nil _)
  obtain ⟨hissues, -, hfrozen⟩ :=
    sold_policies_valid_and_frozen prepared_reachable hbuying hcancelling
  exact ⟨by decide +kernel, hissues, hfrozen⟩

open Sample in
theorem purchases_cool_off_insisted :
    accepted.map Prod.fst = [genesis.now, genesis.now + 86400] ∧
      CooledOff insisted.machine.store accepted :=
  ⟨by decide +kernel, purchases_cool_off ⟨rfl, rfl⟩ insisted_outputs⟩

end Parashield.PolicyEngine
