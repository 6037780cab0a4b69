import Parashield.PolicyEngine.Book
import Parashield.Deployment

/-!
# Policy engine: entry points and runs

All state-changing entry points of the engine, and the transition system in
which anyone calls them in any order while time passes and tokens move
elsewhere.
-/

namespace Parashield.PolicyEngine

open Support Support.Contract Invocation

/-- The state-changing entry points with their arguments. -/
inductive Entry where
  | initializeEngine (admin usdcToken oracleAddress : Address)
  | setClaimsProcessor (admin claimsProcessor : Address)
  | setOracleGuardian (admin guardian : Address)
  | proposeOracleChange (admin newOracle : Address)
  | approveOracleChange (guardian : Address)
  | executeOracleChange (admin : Address)
  | createProduct (admin : Address) (params : CreateProductParams)
  | pauseProduct (admin : Address) (productId : ℕ)
  | deprecateProduct (admin : Address) (productId : ℕ)
  | buyPolicy (buyer : Address) (productId : ℕ) (coverageAmount : ℤ)
      (durationDays : ℕ) (oracleKey : Symbol) (paymentToken : Address)
  | buyPolicyScheduled (buyer : Address) (productId : ℕ)
      (coverageAmount : ℤ) (durationDays : ℕ) (oracleKey : Symbol)
      (startTime : ℕ) (paymentToken : Address)
  | buyPolicyWithRate (buyer : Address) (productId : ℕ)
      (coverageAmount : ℤ) (durationDays : ℕ) (oracleKey : Symbol)
      (paymentToken : Address) (rateBps : ℕ)
  | batchBuyPolicy (buyer : Address) (items : List BatchBuyItem)
  | cancelPolicy (policyholder : Address) (policyId : ℕ) (reason : Bytes)
  | transferPolicy (sender recipient : Address) (policyId : ℕ)
  | payClaim (caller : Address) (policyId : ℕ)
  | expirePolicy (caller : Address) (policyId : ℕ)
  | registerCategory (admin : Address) (category : Symbol)
  | unregisterCategory (admin : Address) (category : Symbol)
  | registerOracleDataType (admin : Address) (dataType : Symbol)
  | emergencyPause (admin : Address)
  | emergencyResume (admin : Address)
  | proposeNewAdmin (admin newAdmin : Address)
  | cancelAdminTransfer (admin : Address)
  | acceptAdmin (admin : Address)
  | setMaxProductsPerPool (admin : Address) (maxProducts : ℕ)
  | setExpiryWarningWindow (admin : Address) (window : ℕ)
  | notifyPolicyExpiring (policyId : ℕ)
  | notifyExpiringPolicies (user : Address) (offset : ℕ)

def exec (env : Env) : Entry → Call Unit
  | .initializeEngine admin usdcToken oracleAddress =>
      initializeEngine env admin usdcToken oracleAddress
  | .setClaimsProcessor admin cp => setClaimsProcessor env admin cp
  | .setOracleGuardian admin guardian => setOracleGuardian env admin guardian
  | .proposeOracleChange admin newOracle =>
      proposeOracleChange env admin newOracle
  | .approveOracleChange guardian => approveOracleChange env guardian
  | .executeOracleChange admin => executeOracleChange env admin
  | .createProduct admin params => perform (createProduct env admin params)
  | .pauseProduct admin productId => pauseProduct env admin productId
  | .deprecateProduct admin productId => deprecateProduct env admin productId
  | .buyPolicy buyer productId coverage days key token =>
      perform (buyPolicy env buyer productId coverage days key token)
  | .buyPolicyScheduled buyer productId coverage days key start token =>
      perform
        (buyPolicyScheduled env buyer productId coverage days key start token)
  | .buyPolicyWithRate buyer productId coverage days key token rate =>
      perform
        (buyPolicyWithRate env buyer productId coverage days key token rate)
  | .batchBuyPolicy buyer items => perform (batchBuyPolicy env buyer items)
  | .cancelPolicy holder policyId reason =>
      perform (cancelPolicy env holder policyId reason)
  | .transferPolicy sender recipient policyId =>
      transferPolicy env sender recipient policyId
  | .payClaim caller policyId => payClaim env caller policyId
  | .expirePolicy caller policyId => expirePolicy env caller policyId
  | .registerCategory admin category => registerCategory env admin category
  | .unregisterCategory admin category =>
      unregisterCategory env admin category
  | .registerOracleDataType admin dataType =>
      registerOracleDataType env admin dataType
  | .emergencyPause admin => emergencyPause env admin
  | .emergencyResume admin => emergencyResume env admin
  | .proposeNewAdmin admin newAdmin => proposeNewAdmin env admin newAdmin
  | .cancelAdminTransfer admin => cancelAdminTransfer env admin
  | .acceptAdmin admin => acceptAdmin env admin
  | .setMaxProductsPerPool admin n => setMaxProductsPerPool env admin n
  | .setExpiryWarningWindow admin window =>
      setExpiryWarningWindow env admin window
  | .notifyPolicyExpiring policyId => notifyPolicyExpiring env policyId
  | .notifyExpiringPolicies user offset =>
      perform (notifyExpiringPolicies env user offset)

/-! ## What each entry point does to the book -/

section Refinement

variable {env : Env} {m m' : Machine State}

/-- The changes of the book a call can contain. -/
def Entry.performs : Entry → Book.Kind → Prop
  | .initializeEngine .., .wire => True
  | .buyPolicy .., .buy _ | .buyPolicyScheduled .., .buy _
  | .buyPolicyWithRate .., .buy _ | .batchBuyPolicy .., .buy _ => True
  | .cancelPolicy _ policyId _, .cancel id => id = policyId
  | .transferPolicy _ _ policyId, .transfer id => id = policyId
  | .payClaim _ policyId, .claim id => id = policyId
  | .expirePolicy _ policyId, .expire id => id = policyId
  | .notifyPolicyExpiring _, .warn _ | .notifyExpiringPolicies .., .warn _ =>
      True
  | _, _ => False

/-- A loop whose body only adds to the book only adds to the book. -/
theorem collect_adds {α β : Type} {f : α → Call β} {xs : List α}
    {bs : List β} {P : Book.Kind → Prop}
    (hf : ∀ x ∈ xs, ∀ (m m' : Machine State) b, Wired m.store →
      f x m = .ok (b, m') →
      Relation.ReflTransGen (Book.AddsOf env P) (book m) (book m') ∧
        Wired m'.store)
    (hwired : Wired m.store) (h : collect xs f m = .ok (bs, m')) :
    Relation.ReflTransGen (Book.AddsOf env P) (book m) (book m') ∧
      Wired m'.store := by
  let Kept := fun w : Machine State =>
    Relation.ReflTransGen (Book.AddsOf env P) (book m) (book w) ∧
      Wired w.store
  have hkeeps : Keeps Kept (collect xs f) := by
    apply keeps_collect
    intro x hx s b s' hs hrun
    obtain ⟨hchanges, hw⟩ := hf x hx s s' b hs.2 hrun
    exact ⟨hs.1.trans hchanges, hw⟩
  exact hkeeps m bs m' ⟨.refl, hwired⟩ h

theorem buyPolicyInner_adds {buyer : Address} {productId : ℕ}
    {coverageAmount : ℤ} {durationDays : ℕ} {oracleKey : Symbol}
    {startTime : ℕ} {paymentToken : Address} {id : ℕ}
    {P : Book.Kind → Prop} (hwired : Wired m.store) (hP : ∀ i, P (.buy i))
    (hauth : buyer ∈ env.signers)
    (h : buyPolicyInner env buyer productId coverageAmount durationDays
      oracleKey startTime paymentToken m = .ok (id, m')) :
    Relation.ReflTransGen (Book.AddsOf env P) (book m) (book m') ∧
      Wired m'.store := by
  obtain ⟨hchange, hwired'⟩ := buyPolicyInner_change hwired hauth h
  exact ⟨.single (.inl ⟨id, hP id, hchange⟩), hwired'⟩

/-- Every call changes the book once, or only adds to it, in the ways the
entry point stands for. -/
theorem exec_performs {e : Entry} {u : Unit} (hwired : Wired m.store)
    (h : exec env e m = .ok (u, m')) :
    Book.EffectOf env e.performs (book m) (book m') ∧ Wired m'.store := by
  have single : ∀ {k : Book.Kind} {w : Machine State},
      Book.Change env k (book m) (book w) ∧ Wired w.store → e.performs k →
      Book.EffectOf env e.performs (book m) (book w) ∧ Wired w.store :=
    fun hc hk => ⟨.change hk hc.1, hc.2⟩
  cases e with
  | initializeEngine => exact single (initializeEngine_change hwired h) trivial
  | setClaimsProcessor =>
      exact (setClaimsProcessor_keepsBook h).effect hwired
  | setOracleGuardian =>
      exact (setOracleGuardian_keepsBook h).effect hwired
  | proposeOracleChange =>
      exact (proposeOracleChange_keepsBook h).effect hwired
  | approveOracleChange =>
      exact (approveOracleChange_keepsBook h).effect hwired
  | executeOracleChange =>
      exact (executeOracleChange_keepsBook h).effect hwired
  | createProduct =>
      obtain ⟨id, h⟩ := perform_ok.mp h
      exact (createProduct_keepsBook h).effect hwired
  | pauseProduct => exact (pauseProduct_keepsBook h).effect hwired
  | deprecateProduct => exact (deprecateProduct_keepsBook h).effect hwired
  | buyPolicy =>
      simp [exec, buyPolicy] at h
      obtain ⟨hauth, -, id, h⟩ := h
      exact single (buyPolicyInner_change hwired hauth h) trivial
  | buyPolicyScheduled =>
      simp [exec, buyPolicyScheduled] at h
      obtain ⟨hauth, -, id, h⟩ := h
      exact single (buyPolicyInner_change hwired hauth h) trivial
  | buyPolicyWithRate =>
      simp [exec, buyPolicyWithRate] at h
      obtain ⟨hauth, -, product, -, -, id, h⟩ := h
      exact single (buyPolicyInner_change hwired hauth h) trivial
  | batchBuyPolicy buyer items =>
      simp [exec, batchBuyPolicy] at h
      obtain ⟨hauth, -, -, -, ids, h⟩ := h
      have hbuys : ∀ i, (Entry.batchBuyPolicy buyer items).performs (.buy i) :=
        fun _ => trivial
      obtain ⟨hadds, hw⟩ := collect_adds (fun item _ s s' id hw hrun =>
        buyPolicyInner_adds hw hbuys hauth hrun) hwired h
      exact ⟨.batch hadds, hw⟩
  | cancelPolicy =>
      obtain ⟨r, h⟩ := perform_ok.mp h
      exact single (cancelPolicy_change hwired h) rfl
  | transferPolicy => exact transferPolicy_effect hwired rfl h
  | payClaim => exact single (payClaim_change hwired h) rfl
  | expirePolicy => exact single (expirePolicy_change hwired h) rfl
  | registerCategory => exact (registerCategory_keepsBook h).effect hwired
  | unregisterCategory =>
      exact (unregisterCategory_keepsBook h).effect hwired
  | registerOracleDataType =>
      exact (registerOracleDataType_keepsBook h).effect hwired
  | emergencyPause => exact (emergencyPause_keepsBook h).effect hwired
  | emergencyResume => exact (emergencyResume_keepsBook h).effect hwired
  | proposeNewAdmin => exact (proposeNewAdmin_keepsBook h).effect hwired
  | cancelAdminTransfer =>
      exact (cancelAdminTransfer_keepsBook h).effect hwired
  | acceptAdmin => exact (acceptAdmin_keepsBook h).effect hwired
  | setMaxProductsPerPool =>
      exact (setMaxProductsPerPool_keepsBook h).effect hwired
  | setExpiryWarningWindow =>
      exact (setExpiryWarningWindow_keepsBook h).effect hwired
  | notifyPolicyExpiring =>
      exact single (notifyPolicyExpiring_change hwired h) trivial
  | notifyExpiringPolicies user offset =>
      simp [exec, notifyExpiringPolicies] at h
      obtain ⟨ns, h⟩ := h
      have hwarns : ∀ i,
          (Entry.notifyExpiringPolicies user offset).performs (.warn i) :=
        fun _ => trivial
      obtain ⟨hadds, hw⟩ := collect_adds
        (fun id _ s s' n hw hrun => notifyIfExpiring_adds hw (hwarns id) hrun)
        hwired h
      exact ⟨.batch hadds, hw⟩

/-- Every call changes the book once, or only adds to it. -/
theorem exec_effect {e : Entry} {u : Unit} (hwired : Wired m.store)
    (h : exec env e m = .ok (u, m')) :
    Book.Effect env (book m) (book m') ∧ Wired m'.store := by
  obtain ⟨heffect, hw⟩ := exec_performs hwired h
  exact ⟨heffect.effect, hw⟩

end Refinement

/-! ## Runs -/

/-- Runs of the engine deployed at `self`. -/
def system (self : Address) : TransitionSystem (World State) (Label Entry) :=
  deployment exec State.deployed self

theorem wired_inductive (self : Address) :
    (system self).Inductive fun w => Wired w.machine.store where
  init w hw := by
    rw [hw.1]
    exact ⟨by simp [State.deployed], by simp [State.deployed],
      by simp [State.deployed]⟩
  step w l w' hwired hstep := by
    cases hstep with
    | call _ h => exact (exec_effect hwired h).2
    | tick => exact hwired
    | transfer => exact hwired
    | mint => exact hwired

end Parashield.PolicyEngine
