import Parashield.PolicyEngine.Sales

/-!
# Purchases in a batch

A batch of purchases comes to what its purchases come to one after the other,
each as a call of its own.  Since they are all made at once, no two of them can
be on one oracle key.
-/

namespace Parashield.PolicyEngine

open Support Support.Contract Invocation TransitionSystem

/-- An item of a batch as a purchase of its own. -/
def BatchBuyItem.purchase (buyer : Address) (item : BatchBuyItem) : Entry :=
  .buyPolicy buyer item.productId item.coverageAmount item.durationDays
    item.oracleKey item.paymentToken

/-- One item of a batch, bought within it. -/
def BatchBuyItem.buy (env : Env) (buyer : Address) (item : BatchBuyItem) :
    Call ℕ :=
  buyPolicyInner env buyer item.productId item.coverageAmount
    item.durationDays item.oracleKey env.now item.paymentToken

section Calls

variable {env : Env} {m m' : Machine State} {buyer : Address}
  {item : BatchBuyItem} {items : List BatchBuyItem} {id : ℕ} {ids : List ℕ}
  {u : Unit}

/-- What one purchase of a batch leaves to the next. -/
structure Stamped (env : Env) (buyer : Address) (key : Symbol)
    (m m' : Machine State) : Prop where
  cooled : ∀ last ∈ m.store.lastPurchase (buyer, key),
    satAddU64 last purchaseCoolingOffSeconds ≤ env.now
  early : env.now < maxU64
  stamped : m'.store.lastPurchase =
    Function.update m.store.lastPurchase (buyer, key) (some env.now)
  paused : m'.store.paused = m.store.paused
  next : m'.store.nextPolicyId = m.store.nextPolicyId + 1

theorem BatchBuyItem.buy_stamped (h : item.buy env buyer m = .ok (id, m')) :
    Stamped env buyer item.oracleKey m m' := by
  simp [BatchBuyItem.buy, buyPolicyInner] at h
  obtain ⟨-, admin, -, -, hcooled, product, -, -, -, -, hdays, -, -, -, -, -,
    -, B, -, -, hend, -, -, ⟨rfl, -⟩, rfl⟩ := h
  refine ⟨hcooled, ?_, rfl, rfl, rfl⟩
  unfold maxU64
  omega

theorem exec_purchase_iff :
    exec env (item.purchase buyer) m = .ok (u, m') ↔
      buyer ∈ env.signers ∧ m.store.paused = false ∧
        ∃ id, item.buy env buyer m = .ok (id, m') := by
  simp only [BatchBuyItem.purchase, exec, buyPolicy, perform_ok, bind_ok,
    requireAuth_ok, ensureNotPaused_ok, BatchBuyItem.buy]
  constructor
  · rintro ⟨id, _, _, ⟨hsigned, rfl⟩, _, _, ⟨hpaused, rfl⟩, h⟩
    exact ⟨hsigned, hpaused, id, h⟩
  · rintro ⟨hsigned, hpaused, id, h⟩
    exact ⟨id, (), m, ⟨hsigned, rfl⟩, (), m, ⟨hpaused, rfl⟩, h⟩

theorem exec_batch_iff :
    exec env (.batchBuyPolicy buyer items) m = .ok (u, m') ↔
      buyer ∈ env.signers ∧ m.store.paused = false ∧ items ≠ [] ∧
        items.length ≤ maxBatchBuy ∧
        ∃ ids, collect items (BatchBuyItem.buy env buyer) m =
          .ok (ids, m') := by
  simp only [exec, batchBuyPolicy, perform_ok, bind_ok, requireAuth_ok,
    ensureNotPaused_ok, ensure_ok]
  constructor
  · rintro ⟨ids, _, _, ⟨hsigned, rfl⟩, _, _, ⟨hpaused, rfl⟩, _, _,
      ⟨hne, rfl⟩, _, _, ⟨hle, rfl⟩, h⟩
    exact ⟨hsigned, hpaused, List.length_eq_zero_iff.not.mp hne, hle, ids, h⟩
  · rintro ⟨hsigned, hpaused, hne, hle, ids, h⟩
    exact ⟨ids, (), m, ⟨hsigned, rfl⟩, (), m, ⟨hpaused, rfl⟩, (), m,
      ⟨List.length_eq_zero_iff.not.mpr hne, rfl⟩, (), m, ⟨hle, rfl⟩, h⟩

/-- The keys of a batch differ from each other, and from what was bought at the
same time before. -/
theorem collect_keys
    (h : collect items (BatchBuyItem.buy env buyer) m = .ok (ids, m')) :
    (items.map BatchBuyItem.oracleKey).Nodup ∧
      (∀ key, m.store.lastPurchase (buyer, key) = some env.now →
        key ∉ items.map BatchBuyItem.oracleKey) ∧
      m'.store.nextPolicyId = m.store.nextPolicyId + items.length := by
  induction items generalizing m ids with
  | nil =>
      obtain ⟨-, rfl⟩ := pure_ok.mp h
      exact ⟨.nil, fun _ _ => List.not_mem_nil, rfl⟩
  | cons item items ih =>
      simp only [collect, bind_ok, pure_ok] at h
      obtain ⟨id, t, hfirst, ids', _, hrest, rfl, rfl⟩ := h
      have hstamped := item.buy_stamped hfirst
      obtain ⟨hnodup, hfresh, hnext⟩ := ih hrest
      have hnew : item.oracleKey ∉ items.map BatchBuyItem.oracleKey := by
        refine hfresh _ ?_
        rw [hstamped.stamped, Function.update_self]
      refine ⟨?_, fun key hkey => ?_, ?_⟩
      · rw [List.map_cons, List.nodup_cons]
        exact ⟨hnew, hnodup⟩
      · have hne : key ≠ item.oracleKey := by
          rintro rfl
          -- the period would have to be over at the time it starts
          have hcooled := hstamped.cooled env.now hkey
          have hearly := hstamped.early
          unfold satAddU64 purchaseCoolingOffSeconds at hcooled
          omega
        rw [List.map_cons, List.mem_cons, not_or]
        refine ⟨hne, hfresh key ?_⟩
        rw [hstamped.stamped, Function.update_of_ne (by simp [hne])]
        exact hkey
      · rw [hnext, hstamped.next, List.length_cons]
        omega

end Calls

/-! ## Runs -/

section Runs

variable {engine buyer : Address} {signers : List Address}
  {w w' : World State} {items : List BatchBuyItem}

theorem collect_iff_run (hself : engine ∉ signers) (hsigned : buyer ∈ signers)
    (hpaused : w.machine.store.paused = false) :
    (∃ ids m', collect items
        (BatchBuyItem.buy (callEnv engine w signers) buyer) w.machine =
          .ok (ids, m') ∧ w' = { w with machine := m' }) ↔
      (system engine).Run w
        (items.map fun item => .call signers (item.purchase buyer)) w' := by
  induction items generalizing w with
  | nil =>
      rw [List.map_nil, run_nil_iff]
      constructor
      · rintro ⟨ids, m', h, rfl⟩
        obtain ⟨-, rfl⟩ := pure_ok.mp h
        rfl
      · rintro rfl
        exact ⟨[], w'.machine, pure_ok.mpr ⟨rfl, rfl⟩, rfl⟩
  | cons item items ih =>
      rw [List.map_cons, run_cons_iff]
      simp only [collect, bind_ok, pure_ok]
      constructor
      · rintro ⟨_, _, ⟨id, t, hfirst, ids, _, hrest, rfl, rfl⟩, rfl⟩
        have hopen : t.store.paused = false :=
          (item.buy_stamped hfirst).paused.trans hpaused
        exact ⟨{ w with machine := t },
          .call hself (exec_purchase_iff.mpr ⟨hsigned, hpaused, id, hfirst⟩),
          (ih (w := { w with machine := t }) hopen).mp
            ⟨ids, _, hrest, rfl⟩⟩
      · rintro ⟨v, hstep, hrun⟩
        cases hstep with
        | @call _ _ t _ hexec =>
            obtain ⟨-, -, id, hfirst⟩ := exec_purchase_iff.mp hexec
            have hopen : t.store.paused = false :=
              (item.buy_stamped hfirst).paused.trans hpaused
            obtain ⟨ids, m', hrest, rfl⟩ :=
              (ih (w := { w with machine := t }) hopen).mpr hrun
            exact ⟨id :: ids, m', ⟨id, t, hfirst, ids, m', hrest, rfl, rfl⟩,
              rfl⟩

/-- A batch of purchases leads where its purchases lead one after the other,
each signed and called on its own, and is refused if one of them is.  An
accepted batch numbers its policies one by one, and buys on different oracle
keys. -/
theorem batch_buys_one_by_one (engine buyer : Address) (signers : List Address)
    (items : List BatchBuyItem) (w w' : World State) :
    ((system engine).Step w (.call signers (.batchBuyPolicy buyer items)) w' ↔
      items ≠ [] ∧ items.length ≤ maxBatchBuy ∧ (system engine).Run w
        (items.map fun item => .call signers (item.purchase buyer)) w') ∧
      ((system engine).Step w (.call signers (.batchBuyPolicy buyer items)) w' →
        (items.map BatchBuyItem.oracleKey).Nodup ∧
          w'.machine.store.nextPolicyId =
            w.machine.store.nextPolicyId + items.length) := by
  refine ⟨⟨fun hstep => ?_, ?_⟩, fun hstep => ?_⟩
  · cases hstep with
    | @call _ _ m' hself hexec =>
        obtain ⟨hsigned, hpaused, hne, hle, ids, h⟩ := exec_batch_iff.mp hexec
        exact ⟨hne, hle,
          (collect_iff_run hself hsigned hpaused).mp ⟨ids, m', h, rfl⟩⟩
  · rintro ⟨hne, hle, hrun⟩
    obtain ⟨item, rest, rfl⟩ := List.exists_cons_of_ne_nil hne
    obtain ⟨v, hfirst, -⟩ := run_cons_iff.mp hrun
    obtain ⟨hself, hexec⟩ := hfirst.exec_eq
    obtain ⟨hsigned, hpaused, -⟩ := exec_purchase_iff.mp hexec
    obtain ⟨ids, m', h, rfl⟩ :=
      (collect_iff_run hself hsigned hpaused).mpr hrun
    exact .call hself
      (exec_batch_iff.mpr ⟨hsigned, hpaused, hne, hle, ids, h⟩)
  · obtain ⟨-, hexec⟩ := hstep.exec_eq
    obtain ⟨-, -, -, -, ids, hall⟩ := exec_batch_iff.mp hexec
    obtain ⟨hnodup, -, hnext⟩ := collect_keys hall
    exact ⟨hnodup, hnext⟩

end Runs

namespace Sample

def windKey : Symbol := ⟨['w', 'i', 'n', 'd']⟩

/-- Cover against rain and against wind. -/
def basket : List BatchBuyItem :=
  [⟨1, 1000000, 365, rainKey, usdc⟩, ⟨1, 1000000, 365, windKey, usdc⟩]

def stocked : World State :=
  (step exec engine prepared
    (.call [holder] (.batchBuyPolicy holder basket))).get (by decide +kernel)

end Sample

open Sample in
theorem batch_buys_one_by_one_stocked :
    (system engine).Run prepared
        (basket.map fun item => .call [holder] (item.purchase holder))
        stocked ∧
      stocked.machine.store.nextPolicyId =
        prepared.machine.store.nextPolicyId + 2 := by
  have hstep : (system engine).Step prepared
      (.call [holder] (.batchBuyPolicy holder basket)) stocked :=
    step_sound (Option.some_get _).symm
  obtain ⟨hiff, hnumbered⟩ :=
    batch_buys_one_by_one engine holder [holder] basket prepared stocked
  exact ⟨(hiff.mp hstep).2.2, (hnumbered hstep).2⟩

end Parashield.PolicyEngine
