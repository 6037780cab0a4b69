import Mathlib.Data.Set.Card
import Parashield.PolicyEngine.Settlement
import Parashield.Support.Index

/-!
# Policy engine: the product catalogue

The engine keeps four indexes of its products: the active ones, a count for
each category, and the product behind each key and each name.  They mirror the
products as long as no call names a product that is already deprecated.
-/

namespace Parashield.PolicyEngine

open Support Support.Contract Invocation

/-- The products and their indexes. -/
@[ext] structure Catalogue where
  initialized : Bool
  products : ℕ → Option InsuranceProduct
  nextProductId : ℕ
  activeProducts : List ℕ
  poolProductCount : Symbol → ℕ
  productKey : Symbol × Symbol → Option ℕ
  productName : Symbol → Option ℕ

/-- The catalogue kept by a machine. -/
def catalogue (m : Machine State) : Catalogue where
  initialized := m.store.initialized
  products := m.store.products
  nextProductId := m.store.nextProductId
  activeProducts := m.store.activeProducts
  poolProductCount := m.store.poolProductCount
  productKey := m.store.productKey
  productName := m.store.productName

namespace InsuranceProduct

/-- The product has not been deprecated. -/
def Live (p : InsuranceProduct) : Prop :=
  p.status ≠ .deprecated

def key (p : InsuranceProduct) : Symbol × Symbol :=
  (p.category, p.oracleKey)

end InsuranceProduct

namespace Catalogue

variable {c c' : Catalogue} {id : ℕ} {p : InsuranceProduct} {κ : Type}

/-- Product `id` is live, and `f` is `k` on it. -/
def LiveWith (c : Catalogue) (f : InsuranceProduct → κ) (id : ℕ) (k : κ) :
    Prop :=
  ∃ p, c.products id = some p ∧ p.Live ∧ f p = k

/-- The live products of a category. -/
def liveIn (c : Catalogue) (category : Symbol) : Set ℕ :=
  {id | c.LiveWith InsuranceProduct.category id category}

/-- The indexes mirror the products. -/
structure Consistent (c : Catalogue) : Prop where
  fresh : ∀ id p, c.products id = some p → id < c.nextProductId
  count : ∀ category,
    (c.liveIn category).encard = c.poolProductCount category
  key : Mirrors c.productKey (c.LiveWith InsuranceProduct.key)
  name : Mirrors c.productName (c.LiveWith InsuranceProduct.name)
  active_nodup : c.activeProducts.Nodup
  active : ∀ id, id ∈ c.activeProducts ↔
    ∃ p, c.products id = some p ∧ p.status = .active

/-- Deprecated products stay deprecated. -/
def RetiredStay (c c' : Catalogue) : Prop :=
  ∀ id p, c.products id = some p → p.status = .deprecated →
    ∃ p', c'.products id = some p' ∧ p'.status = .deprecated

theorem RetiredStay.refl (c : Catalogue) : RetiredStay c c :=
  fun _ p hp hstatus => ⟨p, hp, hstatus⟩

theorem RetiredStay.trans {c'' : Catalogue} (h : RetiredStay c c')
    (h' : RetiredStay c' c'') : RetiredStay c c'' := by
  intro id p hp hstatus
  obtain ⟨q, hq, hretired⟩ := h id p hp hstatus
  exact h' id q hq hretired

/-- Writing anything but a deprecated product leaves the deprecated ones. -/
theorem RetiredStay.of_update {q : InsuranceProduct}
    (hid : ∀ p, c.products id = some p → p.Live)
    (hproducts : c'.products = Function.update c.products id (some q)) :
    RetiredStay c c' := by
  intro j r hr hstatus
  have hj : j ≠ id := by
    rintro rfl
    exact hid r hr hstatus
  exact ⟨r, by rw [hproducts, Function.update_of_ne hj, hr], hstatus⟩

/-! ## Changes -/

/-- The catalogue of an engine that is initialized. -/
def opened (c : Catalogue) : Catalogue :=
  { c with initialized := true, nextProductId := 1, activeProducts := [] }

def added (c : Catalogue) (id : ℕ) (p : InsuranceProduct) : Catalogue :=
  { c with
    products := Function.update c.products id (some p)
    nextProductId := id + 1
    productKey := Function.update c.productKey p.key (some id)
    productName := Function.update c.productName p.name (some id)
    activeProducts := c.activeProducts ++ [id]
    poolProductCount :=
      Function.update c.poolProductCount p.category
        (c.poolProductCount p.category + 1) }

/-- Product `id` becomes `p` and leaves the active ones. -/
def withdrawn (c : Catalogue) (id : ℕ) (p : InsuranceProduct) : Catalogue :=
  { c with
    products := Function.update c.products id (some p)
    activeProducts := c.activeProducts.erase id }

def paused (c : Catalogue) (id : ℕ) (p : InsuranceProduct) : Catalogue :=
  c.withdrawn id { p with status := .paused }

def deprecated (c : Catalogue) (id : ℕ) (p : InsuranceProduct) : Catalogue :=
  { c.withdrawn id { p with status := .deprecated } with
    poolProductCount :=
      Function.update c.poolProductCount p.category
        (c.poolProductCount p.category - 1)
    productName :=
      if c.productName p.name = some id then
        Function.update c.productName p.name none
      else
        c.productName
    productKey := Function.update c.productKey p.key none }

/-! ## A product is created -/

theorem liveWith_added (f : InsuranceProduct → κ) (hfree : c.products id = none)
    (hp : p.Live) (j : ℕ) (k : κ) :
    (c.added id p).LiveWith f j k ↔ (j = id ∧ k = f p) ∨ c.LiveWith f j k := by
  unfold LiveWith added
  by_cases hj : j = id
  · subst hj
    simp only [Function.update_self, Option.some.injEq, exists_eq_left', hp,
      true_and, hfree, reduceCtorEq, false_and, exists_false, or_false]
    exact eq_comm
  · simp [hj]

theorem Consistent.added (hc : Consistent c) (hid : id = c.nextProductId)
    (hkey : c.productKey p.key = none) (hname : c.productName p.name = none)
    (hp : p.status = .active) : Consistent (c.added id p) := by
  have hfree : c.products id = none := by
    refine Option.eq_none_iff_forall_ne_some.mpr fun q hq => ?_
    exact absurd (hc.fresh id q hq) (by omega)
  have hlive : p.Live := by
    unfold InsuranceProduct.Live
    rw [hp]
    exact nofun
  have hstays : ∀ j, j ≠ id → (c.added id p).products j = c.products j :=
    fun j hj => Function.update_of_ne hj ..
  have hnew : (c.added id p).products id = some p :=
    Function.update_self ..
  refine
    { fresh := ?_
      count := ?_
      key := hc.key.insert hkey (liveWith_added _ hfree hlive)
      name := hc.name.insert hname (liveWith_added _ hfree hlive)
      active_nodup := ?_
      active := ?_ }
  · intro j q hq
    by_cases hj : j = id
    · exact hj ▸ Nat.lt_succ_self id
    · rw [hstays j hj] at hq
      have hlt := hc.fresh j q hq
      show j < id + 1
      omega
  · intro category
    by_cases hcategory : category = p.category
    · subst hcategory
      have hset : (c.added id p).liveIn p.category =
          insert id (c.liveIn p.category) := by
        ext j
        simp [liveIn, liveWith_added _ hfree hlive]
      have hnone : id ∉ c.liveIn p.category := by
        rintro ⟨q, hq, -⟩
        rw [hfree] at hq
        cases hq
      rw [hset, Set.encard_insert_of_notMem hnone, hc.count]
      simp [Catalogue.added]
    · have hset : (c.added id p).liveIn category = c.liveIn category := by
        ext j
        simp [liveIn, liveWith_added _ hfree hlive, hcategory]
      rw [hset, hc.count]
      simp [Catalogue.added, Function.update_of_ne hcategory]
  · refine List.nodup_append.mpr ⟨hc.active_nodup, List.nodup_singleton id, ?_⟩
    rintro a ha b hb rfl
    obtain rfl := List.mem_singleton.mp hb
    obtain ⟨q, hq, -⟩ := (hc.active a).mp ha
    rw [hfree] at hq
    cases hq
  · intro j
    show j ∈ c.activeProducts ++ [id] ↔ _
    rw [List.mem_append, List.mem_singleton, hc.active]
    by_cases hj : j = id
    · subst hj
      rw [hnew]
      simp [hp]
    · rw [hstays j hj]
      simp [hj]

/-! ## A product is paused or deprecated -/

section Withdrawn

variable {q : InsuranceProduct}

theorem Consistent.withdrawn_fresh (hc : Consistent c)
    (hp : c.products id = some p) (j : ℕ) (r : InsuranceProduct)
    (hr : (c.withdrawn id q).products j = some r) : j < c.nextProductId := by
  by_cases hj : j = id
  · exact hj ▸ hc.fresh id p hp
  · exact hc.fresh j r (by simpa [withdrawn, hj] using hr)

/-- What leaves the active ones is exactly the withdrawn product. -/
theorem Consistent.withdrawn_active (hc : Consistent c)
    (hq : q.status ≠ .active) (j : ℕ) :
    j ∈ (c.withdrawn id q).activeProducts ↔
      ∃ r, (c.withdrawn id q).products j = some r ∧ r.status = .active := by
  simp only [withdrawn, hc.active_nodup.mem_erase_iff, hc.active]
  by_cases hj : j = id
  · subst hj
    simp [hq]
  · simp [hj]

theorem liveWith_withdrawn (f : InsuranceProduct → κ)
    (hp : c.products id = some p) (hlive : p.Live) (hq : q.Live)
    (hsame : f q = f p) (j : ℕ) (k : κ) :
    (c.withdrawn id q).LiveWith f j k ↔ c.LiveWith f j k := by
  unfold LiveWith withdrawn
  by_cases hj : j = id
  · subst hj
    simp [hp, hlive, hq, hsame]
  · simp [hj]

theorem liveWith_retired (f : InsuranceProduct → κ) (hq : ¬ q.Live) (j : ℕ)
    (k : κ) :
    (c.withdrawn id q).LiveWith f j k ↔ c.LiveWith f j k ∧ j ≠ id := by
  unfold LiveWith withdrawn
  by_cases hj : j = id
  · subst hj
    simp [hq]
  · simp [hj]

end Withdrawn

theorem Consistent.paused (hc : Consistent c) (hp : c.products id = some p)
    (hlive : p.Live) : Consistent (c.paused id p) := by
  have hpaused : ({ p with status := .paused } : InsuranceProduct).Live :=
    nofun
  have hsame : ∀ {κ : Type} (f : InsuranceProduct → κ),
      f { p with status := .paused } = f p → ∀ j k,
      (c.paused id p).LiveWith f j k ↔ c.LiveWith f j k :=
    fun f hf => liveWith_withdrawn f hp hlive hpaused hf
  refine
    { fresh := hc.withdrawn_fresh hp
      count := fun category => ?_
      key := hc.key.congr (hsame _ rfl)
      name := hc.name.congr (hsame _ rfl)
      active_nodup := hc.active_nodup.erase id
      active := hc.withdrawn_active nofun }
  have hset : (c.paused id p).liveIn category = c.liveIn category :=
    Set.ext fun j => hsame InsuranceProduct.category rfl j category
  rw [hset]
  exact hc.count category

/-- A live product is found under its name. -/
theorem Consistent.found_by_name (hc : Consistent c)
    (hp : c.products id = some p) (hlive : p.Live) :
    c.productName p.name = some id :=
  (hc.name p.name id).mpr ⟨p, hp, hlive, rfl⟩

theorem Consistent.deprecated (hc : Consistent c)
    (hp : c.products id = some p) (hlive : p.Live) :
    Consistent (c.deprecated id p) := by
  have hretired :
      ¬ ({ p with status := .deprecated } : InsuranceProduct).Live :=
    fun h => h rfl
  have hgone : ∀ {κ : Type} (f : InsuranceProduct → κ) j k,
      (c.deprecated id p).LiveWith f j k ↔ c.LiveWith f j k ∧ j ≠ id :=
    fun f => liveWith_retired f hretired
  have honly : ∀ {κ : Type} (f : InsuranceProduct → κ) k,
      c.LiveWith f id k → k = f p := by
    rintro κ f k ⟨q, hq, -, rfl⟩
    rw [Option.some.inj (hp.symm.trans hq)]
  have hhas : ∀ {κ : Type} (f : InsuranceProduct → κ),
      c.LiveWith f id (f p) :=
    fun f => ⟨p, hp, hlive, rfl⟩
  refine
    { fresh := hc.withdrawn_fresh hp
      count := fun category => ?_
      key := hc.key.remove (hhas _) (honly _) (hgone _)
      name := ?_
      active_nodup := hc.active_nodup.erase id
      active := hc.withdrawn_active nofun }
  · have hset : (c.deprecated id p).liveIn category =
        c.liveIn category \ {id} :=
      Set.ext fun j => hgone InsuranceProduct.category j category
    rw [hset]
    by_cases hcategory : category = p.category
    · subst hcategory
      have hmem : id ∈ c.liveIn p.category := hhas InsuranceProduct.category
      rw [Set.encard_sdiff_singleton_of_mem hmem, hc.count]
      simp [Catalogue.deprecated]
    · have hother : id ∉ c.liveIn category :=
        fun h => hcategory (honly _ _ h)
      rw [Set.sdiff_singleton_eq_self hother, hc.count]
      simp [Catalogue.deprecated, Function.update_of_ne hcategory]
  · have hname : (c.deprecated id p).productName =
        Function.update c.productName p.name none :=
      if_pos (hc.found_by_name hp hlive)
    rw [hname]
    exact hc.name.remove (hhas _) (honly _) (hgone _)

/-- Deprecating a product again breaks the count of its category, unless that
is zero. -/
theorem Consistent.count_zero_of_deprecated (hc : Consistent c)
    (hp : c.products id = some p) (hstatus : p.status = .deprecated)
    (hc' : Consistent (c.deprecated id p)) :
    c.poolProductCount p.category = 0 := by
  have hretired :
      ¬ ({ p with status := .deprecated } : InsuranceProduct).Live :=
    fun h => h rfl
  have hset : (c.deprecated id p).liveIn p.category =
      c.liveIn p.category := by
    ext j
    refine (liveWith_retired InsuranceProduct.category hretired j _).trans
      (and_iff_left_of_imp ?_)
    rintro ⟨q, hq, hlive, -⟩ rfl
    rw [← Option.some.inj (hp.symm.trans hq)] at hlive
    exact hlive hstatus
  have hcount : (c.deprecated id p).poolProductCount p.category =
      c.poolProductCount p.category - 1 :=
    Function.update_self ..
  have hsame := hc'.count p.category
  rw [hset, hc.count, hcount, Nat.cast_inj] at hsame
  omega

/-- Deprecating a product of a category without live products again changes
nothing. -/
theorem Consistent.deprecated_again (hc : Consistent c)
    (hp : c.products id = some p) (hstatus : p.status = .deprecated)
    (hcount : c.poolProductCount p.category = 0) :
    c.deprecated id p = c := by
  have hretired : ∀ {κ : Type} (f : InsuranceProduct → κ) k,
      ¬ c.LiveWith f id k := by
    rintro κ f k ⟨q, hq, hlive, -⟩
    rw [← Option.some.inj (hp.symm.trans hq)] at hlive
    exact hlive hstatus
  have hinactive : id ∉ c.activeProducts := by
    rw [hc.active]
    rintro ⟨q, hq, hactive⟩
    rw [← Option.some.inj (hp.symm.trans hq), hstatus] at hactive
    cases hactive
  have hkey : c.productKey p.key = none := by
    refine Option.eq_none_iff_forall_ne_some.mpr fun j hj => ?_
    obtain ⟨q, hq, hlive, hsame⟩ := (hc.key p.key j).mp hj
    have hnone := hc.count p.category
    rw [hcount, Nat.cast_zero, Set.encard_eq_zero,
      Set.eq_empty_iff_forall_notMem] at hnone
    exact hnone j ⟨q, hq, hlive, congrArg Prod.fst hsame⟩
  have hname : c.productName p.name ≠ some id :=
    fun h => hretired _ _ ((hc.name p.name id).mp h)
  have hsame : ({ p with status := .deprecated } : InsuranceProduct) = p := by
    rw [← hstatus]
  simp only [Catalogue.deprecated, withdrawn, hsame, hname, if_false, hcount,
    Nat.zero_sub, List.erase_of_not_mem hinactive]
  ext1
  · rfl
  · exact Function.update_eq_self_iff.mpr hp.symm
  · rfl
  · rfl
  · exact Function.update_eq_self_iff.mpr hcount.symm
  · exact Function.update_eq_self_iff.mpr hkey.symm
  · rfl

end Catalogue

/-! ## Calls -/

/-- The call writes the catalogue. -/
def Entry.Catalogues : Entry → Prop
  | .initializeEngine .. | .createProduct .. | .pauseProduct ..
  | .deprecateProduct .. => True
  | _ => False

section Calls

variable {env : Env} {m m' : Machine State} {u : Unit}

theorem buyPolicyInner_catalogue {buyer : Address} {productId : ℕ}
    {coverageAmount : ℤ} {durationDays : ℕ} {oracleKey : Symbol}
    {startTime : ℕ} {paymentToken : Address} {id : ℕ}
    (h : buyPolicyInner env buyer productId coverageAmount durationDays
      oracleKey startTime paymentToken m = .ok (id, m')) :
    catalogue m' = catalogue m := by
  obtain ⟨p, B, -, -, rfl⟩ := buyPolicyInner_sells h
  rfl

theorem notifyIfExpiring_catalogue {policyId n : ℕ}
    (h : notifyIfExpiring env policyId m = .ok (n, m')) :
    catalogue m' = catalogue m := by
  simp [notifyIfExpiring] at h
  cases hp : m.store.policies policyId with
  | none =>
      simp [hp] at h
      rw [h.2]
  | some p =>
      simp [hp, ite_ok, warnExpiring] at h
      obtain ⟨-, rfl, -⟩ | ⟨-, -, rfl⟩ := h
      · rfl
      · rfl

/-- A loop whose body leaves the catalogue alone leaves it alone. -/
theorem collect_catalogue {α β : Type} {f : α → Call β} {xs : List α}
    {bs : List β}
    (hf : ∀ x (s s' : Machine State) b, f x s = .ok (b, s') →
      catalogue s' = catalogue s)
    (h : collect xs f m = .ok (bs, m')) : catalogue m' = catalogue m := by
  have hkeeps : Keeps (fun s => catalogue s = catalogue m) (collect xs f) :=
    keeps_collect fun x _ s b s' hs hrun => (hf x s s' b hrun).trans hs
  exact hkeeps m bs m' rfl h

theorem exec_catalogue_eq {e : Entry} (he : ¬ e.Catalogues)
    (h : exec env e m = .ok (u, m')) : catalogue m' = catalogue m := by
  cases e with
  | initializeEngine => exact (he trivial).elim
  | setClaimsProcessor =>
      simp [exec, setClaimsProcessor] at h
      rw [h.2]
      rfl
  | setOracleGuardian =>
      simp [exec, setOracleGuardian] at h
      rw [h.2.2]
      rfl
  | proposeOracleChange =>
      simp [exec, proposeOracleChange] at h
      obtain ⟨-, -, -, -, rfl⟩ := h
      rfl
  | approveOracleChange =>
      simp [exec, approveOracleChange] at h
      obtain ⟨-, -, change, -, rfl⟩ := h
      rfl
  | executeOracleChange =>
      simp [exec, executeOracleChange] at h
      obtain ⟨-, change, -, -, -, rfl⟩ := h
      rfl
  | createProduct => exact (he trivial).elim
  | pauseProduct => exact (he trivial).elim
  | deprecateProduct => exact (he trivial).elim
  | buyPolicy =>
      simp [exec, buyPolicy] at h
      obtain ⟨-, -, id, h⟩ := h
      exact buyPolicyInner_catalogue h
  | buyPolicyScheduled =>
      simp [exec, buyPolicyScheduled] at h
      obtain ⟨-, -, id, h⟩ := h
      exact buyPolicyInner_catalogue h
  | buyPolicyWithRate =>
      simp [exec, buyPolicyWithRate] at h
      obtain ⟨-, -, product, -, -, id, h⟩ := h
      exact buyPolicyInner_catalogue h
  | batchBuyPolicy =>
      simp [exec, batchBuyPolicy] at h
      obtain ⟨-, -, -, -, ids, h⟩ := h
      exact collect_catalogue (fun _ _ _ _ => buyPolicyInner_catalogue) h
  | cancelPolicy =>
      simp [exec, cancelPolicy] at h
      obtain ⟨-, -, -, p, -, -, -, -, usdc, -, B, -, rfl⟩ := h
      rfl
  | transferPolicy =>
      simp [exec, transferPolicy, ite_ok] at h
      obtain ⟨-, -, -, p, -, -, -, ⟨-, rfl⟩ | ⟨-, rfl⟩⟩ := h
      · rfl
      · rfl
  | payClaim =>
      simp [exec, payClaim] at h
      obtain ⟨-, p, -, -, usdc, -, B, -, rfl⟩ := h
      rfl
  | expirePolicy =>
      simp [exec, expirePolicy] at h
      obtain ⟨-, p, -, -, rfl⟩ := h
      rfl
  | registerCategory =>
      simp [exec, registerCategory, ite_ok] at h
      obtain ⟨-, ⟨-, rfl⟩ | ⟨-, rfl⟩⟩ := h
      · rfl
      · rfl
  | unregisterCategory =>
      simp [exec, unregisterCategory] at h
      rw [h.2.2]
      rfl
  | registerOracleDataType =>
      simp [exec, registerOracleDataType, ite_ok] at h
      obtain ⟨-, ⟨-, rfl⟩ | ⟨-, rfl⟩⟩ := h
      · rfl
      · rfl
  | emergencyPause =>
      simp [exec, emergencyPause] at h
      rw [h.2]
      rfl
  | emergencyResume =>
      simp [exec, emergencyResume] at h
      rw [h.2]
      rfl
  | proposeNewAdmin =>
      simp [exec, proposeNewAdmin] at h
      rw [h.2.2]
      rfl
  | cancelAdminTransfer =>
      simp [exec, cancelAdminTransfer] at h
      rw [h.2]
      rfl
  | acceptAdmin =>
      simp [exec, acceptAdmin] at h
      rw [h.2.2.2]
      rfl
  | setMaxProductsPerPool =>
      simp [exec, setMaxProductsPerPool] at h
      rw [h.2.2]
      rfl
  | setExpiryWarningWindow =>
      simp [exec, setExpiryWarningWindow] at h
      rw [h.2.2]
      rfl
  | notifyPolicyExpiring =>
      simp [exec, notifyPolicyExpiring, warnExpiring] at h
      obtain ⟨p, -, -, -, -, -, rfl⟩ := h
      rfl
  | notifyExpiringPolicies =>
      simp [exec, notifyExpiringPolicies] at h
      obtain ⟨ns, h⟩ := h
      exact collect_catalogue (fun _ _ _ _ => notifyIfExpiring_catalogue) h

theorem initializeEngine_catalogue {admin usdcToken oracleAddress : Address}
    (h : initializeEngine env admin usdcToken oracleAddress m =
      .ok (u, m')) :
    (catalogue m).initialized = false ∧
      catalogue m' = (catalogue m).opened := by
  simp [initializeEngine] at h
  obtain ⟨hinit, -, -, -, -, B, -, -, rfl⟩ := h
  exact ⟨hinit, rfl⟩

theorem createProduct_catalogue {admin : Address}
    {params : CreateProductParams} {id : ℕ}
    (h : createProduct env admin params m = .ok (id, m')) :
    ∃ p, p.status = .active ∧ (catalogue m).productKey p.key = none ∧
      (catalogue m).productName p.name = none ∧
      IsAdmin env m.store admin ∧
      catalogue m' = (catalogue m).added m.store.nextProductId p := by
  simp [createProduct, validateProductParams] at h
  obtain ⟨hadmin, -, -, -, -, -, -, -, -, -, -, -, -, -, hkey, hname, -, -, -,
    rfl, -⟩ := h
  exact ⟨_, rfl, by exact hkey, by exact hname, hadmin, rfl⟩

theorem pauseProduct_catalogue {admin : Address} {id : ℕ}
    (h : pauseProduct env admin id m = .ok (u, m')) :
    ∃ p, (catalogue m).products id = some p ∧
      catalogue m' = (catalogue m).paused id p := by
  simp [pauseProduct] at h
  obtain ⟨-, p, hp, rfl⟩ := h
  exact ⟨p, hp, rfl⟩

theorem deprecateProduct_catalogue {admin : Address} {id : ℕ}
    (h : deprecateProduct env admin id m = .ok (u, m')) :
    ∃ p, (catalogue m).products id = some p ∧
      catalogue m' = (catalogue m).deprecated id p := by
  simp [deprecateProduct] at h
  obtain ⟨-, p, hp, rfl⟩ := h
  exact ⟨p, hp, rfl⟩

end Calls

/-! ## Runs -/

/-- No call pauses a deprecated product, or deprecates one again while its
category has live products. -/
def SparesRetired (w : World State) : Label Entry → Prop
  | .call _ (.pauseProduct _ id) =>
      ∀ p, w.machine.store.products id = some p → p.status ≠ .deprecated
  | .call _ (.deprecateProduct _ id) =>
      ∀ p, w.machine.store.products id = some p → p.status = .deprecated →
        w.machine.store.poolProductCount p.category = 0
  | _ => True

/-- A consistent catalogue, empty until the engine is initialized. -/
structure Catalogue.Kept (c : Catalogue) : Prop where
  consistent : c.Consistent
  unopened : c.initialized = false → ∀ id, c.products id = none

theorem Catalogue.Kept.opened {c : Catalogue} (h : c.Kept)
    (hinit : c.initialized = false) : c.opened.Kept := by
  have hnone := h.unopened hinit
  refine ⟨?_, nofun⟩
  exact
    { fresh := fun id p hp => by
        have hp' : c.products id = some p := hp
        rw [hnone id] at hp'
        cases hp'
      count := h.consistent.count
      key := h.consistent.key
      name := h.consistent.name
      active_nodup := List.nodup_nil
      active := fun id => by simp [Catalogue.opened, hnone id] }

/-- Products are only written when the engine is initialized. -/
theorem Catalogue.Kept.of_products {c c' : Catalogue} {id : ℕ}
    {p : InsuranceProduct} (h : c.Kept) (hp : c.products id = some p)
    (hinit : c'.initialized = c.initialized) (hc' : c'.Consistent) :
    c'.Kept := by
  refine ⟨hc', fun hclosed => ?_⟩
  rw [h.unopened (hinit.symm.trans hclosed) id] at hp
  cases hp

section Runs

variable {self : Address} {w w' : World State} {l : Label Entry}

/-- Steps that spare the deprecated products keep the catalogue. -/
theorem catalogue_kept_step (hwired : Wired w.machine.store)
    (h : (catalogue w.machine).Kept) (hspares : SparesRetired w l)
    (hstep : Step exec self w l w') :
    (catalogue w'.machine).Kept ∧
      (catalogue w.machine).RetiredStay (catalogue w'.machine) := by
  cases hstep with
  | tick => exact ⟨h, .refl _⟩
  | transfer => exact ⟨h, .refl _⟩
  | mint => exact ⟨h, .refl _⟩
  | @call _ e m' _ hexec =>
      by_cases he : e.Catalogues
      swap
      · show (catalogue m').Kept ∧ _
        rw [exec_catalogue_eq he hexec]
        exact ⟨h, .refl _⟩
      cases e with
      | initializeEngine =>
          obtain ⟨hinit, heq⟩ := initializeEngine_catalogue hexec
          show (catalogue m').Kept ∧ _
          rw [heq]
          exact ⟨h.opened hinit, .refl _⟩
      | createProduct =>
          obtain ⟨id, hexec⟩ := perform_ok.mp hexec
          obtain ⟨p, hactive, hkey, hname, hadmin, heq⟩ :=
            createProduct_catalogue hexec
          have hinit := hwired.admin (by simp [hadmin.1])
          show (catalogue m').Kept ∧ _
          rw [heq]
          refine ⟨⟨h.consistent.added rfl hkey hname hactive, ?_⟩, ?_⟩
          · exact fun hclosed => absurd (hinit.symm.trans hclosed) nofun
          · refine .of_update (fun q hq => ?_) rfl
            exact absurd (h.consistent.fresh _ q hq) (Nat.lt_irrefl _)
      | pauseProduct admin id =>
          obtain ⟨p, hp, heq⟩ := pauseProduct_catalogue hexec
          have hlive : p.Live := hspares p hp
          show (catalogue m').Kept ∧ _
          rw [heq]
          refine ⟨h.of_products hp rfl (h.consistent.paused hp hlive), ?_⟩
          refine .of_update (fun q hq => ?_) rfl
          rwa [← Option.some.inj (hp.symm.trans hq)]
      | deprecateProduct admin id =>
          obtain ⟨p, hp, heq⟩ := deprecateProduct_catalogue hexec
          show (catalogue m').Kept ∧ _
          rw [heq]
          by_cases hlive : p.Live
          · refine ⟨h.of_products hp rfl (h.consistent.deprecated hp hlive),
              ?_⟩
            refine .of_update (fun q hq => ?_) rfl
            rwa [← Option.some.inj (hp.symm.trans hq)]
          · have hstatus := not_not.mp hlive
            rw [h.consistent.deprecated_again hp hstatus
              (hspares p hp hstatus)]
            exact ⟨h, .refl _⟩
      | _ => exact he.elim

/-- Steps that do not spare them break it. -/
theorem spares_of_catalogue_kept (hc : (catalogue w.machine).Consistent)
    (hstep : Step exec self w l w')
    (hc' : (catalogue w'.machine).Consistent)
    (hstay : (catalogue w.machine).RetiredStay (catalogue w'.machine)) :
    SparesRetired w l := by
  cases hstep with
  | tick => trivial
  | transfer => trivial
  | mint => trivial
  | @call _ e m' _ hexec =>
      cases e with
      | pauseProduct admin id =>
          intro p hp hstatus
          obtain ⟨q, hq, heq⟩ := pauseProduct_catalogue hexec
          obtain ⟨r, hr, hretired⟩ := hstay id p hp hstatus
          change (catalogue m').products id = some r at hr
          rw [heq] at hr
          simp only [Catalogue.paused, Catalogue.withdrawn,
            Function.update_self, Option.some.injEq] at hr
          rw [← hr] at hretired
          cases hretired
      | deprecateProduct admin id =>
          intro p hp hstatus
          obtain ⟨q, hq, heq⟩ := deprecateProduct_catalogue hexec
          obtain rfl := Option.some.inj (hp.symm.trans hq)
          change (catalogue m').Consistent at hc'
          rw [heq] at hc'
          exact hc.count_zero_of_deprecated hp hstatus hc'
      | _ => trivial

theorem catalogue_kept_inductive (self : Address) :
    ((system self).restrict SparesRetired).Inductive fun w =>
      Wired w.machine.store ∧ (catalogue w.machine).Kept := by
  refine ((wired_inductive self).restrict SparesRetired).and ?_ ?_
  · intro w hw
    refine ⟨?_, fun _ _ => ?_⟩
    · exact
        { fresh := by simp [catalogue, hw.1, State.deployed]
          count := by
            simp [catalogue, hw.1, State.deployed, Catalogue.liveIn,
              Catalogue.LiveWith]
          key := by
            simp [Mirrors, catalogue, hw.1, State.deployed,
              Catalogue.LiveWith]
          name := by
            simp [Mirrors, catalogue, hw.1, State.deployed,
              Catalogue.LiveWith]
          active_nodup := by simp [catalogue, hw.1, State.deployed]
          active := by simp [catalogue, hw.1, State.deployed] }
    · simp [catalogue, hw.1, State.deployed]
  · intro w l w' hwired _ h hstep
    exact (catalogue_kept_step hwired h hstep.1 hstep.2).1

/-- In a run that spares the deprecated products the indexes mirror the
products, no two live products share a key or a name, and deprecated products
stay deprecated; and a step breaks this exactly if it does not spare them. -/
theorem catalogue_consistent
    (hw : ((system self).restrict SparesRetired).Reachable w) :
    (catalogue w.machine).Consistent ∧
      (∀ i j p q, w.machine.store.products i = some p →
        w.machine.store.products j = some q → p.Live → q.Live →
        (p.key = q.key ∨ p.name = q.name) → i = j) ∧
      (∀ ls v, ((system self).restrict SparesRetired).Run w ls v →
        (catalogue w.machine).RetiredStay (catalogue v.machine)) ∧
      ∀ l v, (system self).Step w l v →
        (((catalogue v.machine).Consistent ∧
            (catalogue w.machine).RetiredStay (catalogue v.machine)) ↔
          SparesRetired w l) := by
  obtain ⟨hwired, hkept⟩ := hw.invariant (catalogue_kept_inductive self)
  have hc := hkept.consistent
  refine ⟨hc, ?_, fun ls v hrun => ?_, fun l v hstep => ⟨?_, ?_⟩⟩
  · rintro i j p q hp hq hlive hlive' (hsame | hsame)
    · exact hc.key.unique ⟨p, hp, hlive, rfl⟩ ⟨q, hq, hlive', hsame.symm⟩
    · exact hc.name.unique ⟨p, hp, hlive, rfl⟩ ⟨q, hq, hlive', hsame.symm⟩
  · refine (hrun.preserves (Q := fun t =>
      (Wired t.machine.store ∧ (catalogue t.machine).Kept) ∧
        (catalogue w.machine).RetiredStay (catalogue t.machine))
      ?_ ⟨⟨hwired, hkept⟩, .refl _⟩).2
    rintro s l t ⟨hs, hstay⟩ hstep
    refine ⟨(catalogue_kept_inductive self).step s l t hs hstep, ?_⟩
    exact hstay.trans (catalogue_kept_step hs.1 hs.2 hstep.1 hstep.2).2
  · rintro ⟨hc', hstay⟩
    exact spares_of_catalogue_kept hc hstep hc' hstay
  · intro hspares
    obtain ⟨hkept', hstay⟩ := catalogue_kept_step hwired hkept hspares hstep
    exact ⟨hkept'.consistent, hstay⟩

end Runs

/-! ## A product is replaced -/

namespace Sample

def offerRun : List (Label Entry) :=
  [.mint usdc holder 1000000,
    .call [admin] (.initializeEngine admin usdc oracle),
    .call [admin] (.createProduct admin rainProduct)]

/-- The engine sells its first product. -/
def offered : World State :=
  (TransitionSystem.execute (step exec engine) offerRun genesis).get
    (by decide +kernel)

def retire : Label Entry :=
  .call [admin] (.deprecateProduct admin 1)

/-- The product is deprecated. -/
def retired : World State :=
  (step exec engine offered retire).get (by decide +kernel)

/-- Another takes its key and name. -/
def replaced : World State :=
  (step exec engine retired
    (.call [admin] (.createProduct admin rainProduct))).get
    (by decide +kernel)

/-- The first is deprecated again. -/
def retiredAgain : World State :=
  (step exec engine replaced retire).get (by decide +kernel)

/-- The first is paused. -/
def revived : World State :=
  (step exec engine retired (.call [admin] (.pauseProduct admin 1))).get
    (by decide +kernel)

theorem retired_reachable :
    ((system engine).restrict SparesRetired).Reachable retired := by
  have hrun : (system engine).Run genesis offerRun offered :=
    TransitionSystem.run_of_execute (fun _ _ _ => step_sound)
      (Option.some_get _).symm
  have hgenesis : ((system engine).restrict SparesRetired).Reachable genesis :=
    .init ⟨rfl, rfl⟩
  have hoffered : ((system engine).restrict SparesRetired).Reachable
      offered := by
    refine hgenesis.run (hrun.restrict fun l hl _ => ?_)
    simp only [offerRun, List.mem_cons, List.not_mem_nil, or_false] at hl
    rcases hl with rfl | rfl | rfl <;> trivial
  refine .step hoffered ⟨?_, step_sound (Option.some_get _).symm⟩
  show ∀ p ∈ offered.machine.store.products 1, _
  decide +kernel

theorem replaced_reachable :
    ((system engine).restrict SparesRetired).Reachable replaced := by
  have hstep : ((system engine).restrict SparesRetired).Step retired
      (.call [admin] (.createProduct admin rainProduct)) replaced :=
    ⟨trivial, step_sound (Option.some_get _).symm⟩
  exact .step retired_reachable hstep

end Sample

/-- After a product was replaced, deprecating it again would corrupt the
catalogue. -/
theorem catalogue_consistent_replaced :
    (catalogue Sample.replaced.machine).Consistent ∧
      ¬ ((catalogue Sample.retiredAgain.machine).Consistent ∧
        (catalogue Sample.replaced.machine).RetiredStay
          (catalogue Sample.retiredAgain.machine)) := by
  obtain ⟨hc, -, -, hstep⟩ := catalogue_consistent Sample.replaced_reachable
  refine ⟨hc, fun h => ?_⟩
  have hspares := (hstep Sample.retire Sample.retiredAgain
    (step_sound (Option.some_get _).symm)).mp h
  have hbroken : ¬ ∀ p ∈ Sample.replaced.machine.store.products 1,
      p.status = .deprecated →
        Sample.replaced.machine.store.poolProductCount p.category = 0 := by
    decide +kernel
  exact hbroken hspares

/-- Deprecated again, a product takes the count and the key of its successor;
paused, it is no longer deprecated. -/
theorem retired_product_not_spared :
    ((system Sample.engine).Reachable Sample.retiredAgain ∧
      ((Sample.retiredAgain.machine.store.products 2).map fun p =>
        (p.status, p.key)) = some (.active, Symbols.crop, Sample.rainKey) ∧
      Sample.retiredAgain.machine.store.poolProductCount Symbols.crop = 0 ∧
      Sample.retiredAgain.machine.store.productKey
        (Symbols.crop, Sample.rainKey) = none) ∧
    ((system Sample.engine).Reachable Sample.retired ∧
      (system Sample.engine).Step Sample.retired
        (.call [Sample.admin] (.pauseProduct Sample.admin 1))
        Sample.revived ∧
      ((Sample.retired.machine.store.products 1).map
        InsuranceProduct.status) = some .deprecated ∧
      ((Sample.revived.machine.store.products 1).map
        InsuranceProduct.status) = some .paused) := by
  have hagain : (system Sample.engine).Step Sample.replaced Sample.retire
      Sample.retiredAgain :=
    step_sound (Option.some_get _).symm
  refine ⟨⟨.step Sample.replaced_reachable.of_restrict hagain, ?_, ?_, ?_⟩,
    Sample.retired_reachable.of_restrict,
    step_sound (Option.some_get _).symm, ?_, ?_⟩
  all_goals decide +kernel

end Parashield.PolicyEngine
