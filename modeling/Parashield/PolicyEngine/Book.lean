import Mathlib.Logic.Relation
import Parashield.PolicyEngine.Policies

/-!
# Policy engine: the policy book

The part of the engine a policyholder depends on: the policies, their index
by holder, the tokens, and the journal of policy events.  A policy is bought,
then changes hands any number of times, then is cancelled, claimed or expired.
`Book.Change` lists these changes with everything they write.  Each entry point
of the engine either leaves the book alone or performs a sequence of changes.
-/

namespace Parashield.PolicyEngine

open Support Support.Contract Invocation

/-- Events about a particular policy. -/
def Event.isPolicyEvent : Event → Bool
  | .buyPolicy .. | .policyCancelled .. | .policyTransferred ..
  | .claimPaid .. | .policyExpired .. | .policyExpiringSoon .. => true
  | _ => false

/-- The policy book. -/
@[ext] structure Book where
  usdcToken : Option Address
  policies : ℕ → Option Policy
  userPolicies : Address → List ℕ
  nextPolicyId : ℕ
  lastPurchase : Address × Symbol → Option ℕ
  expiryWarned : ℕ → Bool
  bank : Bank
  /-- Policy events, newest first. -/
  journal : List Event

/-- The book kept by a machine. -/
def book (m : Machine State) : Book where
  usdcToken := m.store.usdcToken
  policies := m.store.policies
  userPolicies := m.store.userPolicies
  nextPolicyId := m.store.nextPolicyId
  lastPurchase := m.store.lastPurchase
  expiryWarned := m.store.expiryWarned
  bank := m.bank
  journal := m.store.events.filter Event.isPolicyEvent

namespace Book

def addToUser (b : Book) (user : Address) (id : ℕ) : Address → List ℕ :=
  Function.update b.userPolicies user (b.userPolicies user ++ [id])

def removeFromUser (b : Book) (user : Address) (id : ℕ) :
    Address → List ℕ :=
  Function.update b.userPolicies user ((b.userPolicies user).erase id)

def setPolicy (b : Book) (id : ℕ) (p : Policy) : ℕ → Option Policy :=
  Function.update b.policies id (some p)

/-- The refund owed when `p` is cancelled at `now`. -/
def refund (p : Policy) (now : ℕ) : ℤ :=
  unearnedPremium p.premiumPaid (now - p.startTime)
    (p.endTime - p.startTime)

/-- The policy a purchase may add to the book. -/
structure Offered (env : Env) (b : Book) (p : Policy) : Prop where
  id_eq : p.id = b.nextPolicyId
  active : p.status = .active
  coverage_pos : 0 < p.coverageAmount
  premium_pos : 0 < p.premiumPaid
  created : p.createdAt = env.now
  start_le : env.now ≤ p.startTime
  start_lt_end : p.startTime < p.endTime
  signed : p.policyholder ∈ env.signers
  cooled : ∀ last ∈ b.lastPurchase (p.policyholder, p.oracleKey),
    satAddU64 last purchaseCoolingOffSeconds ≤ env.now

/-- What a change does, and to which policy. -/
inductive Kind where
  | wire
  | buy (id : ℕ)
  | cancel (id : ℕ)
  | transfer (id : ℕ)
  | claim (id : ℕ)
  | expire (id : ℕ)
  | warn (id : ℕ)

/-- One change of the book under the environment of a call. -/
inductive Change (env : Env) : Kind → Book → Book → Prop
  | wire {b : Book} {usdc : Address} {B : Bank} :
      b.usdcToken = none →
      b.bank.transfer usdc env.self env.self 0 = some B →
      Change env .wire b
        { b with usdcToken := some usdc, nextPolicyId := 1, bank := B }
  | buy {b : Book} {p : Policy} {token : Address} {B : Bank} :
      b.usdcToken.isSome →
      Offered env b p →
      b.bank.transfer token p.policyholder env.self p.premiumPaid =
        some B →
      Change env (.buy p.id) b
        { b with
          policies := b.setPolicy p.id p
          userPolicies := b.addToUser p.policyholder p.id
          nextPolicyId := p.id + 1
          lastPurchase :=
            Function.update b.lastPurchase (p.policyholder, p.oracleKey)
              (some env.now)
          bank := B
          journal :=
            .buyPolicy p.policyholder p.id p.productId p.coverageAmount
              p.premiumPaid :: b.journal }
  | cancel {b : Book} {id : ℕ} {p : Policy} {usdc : Address} {B : Bank} :
      b.policies id = some p →
      p.status = .active →
      p.policyholder ∈ env.signers →
      b.usdcToken = some usdc →
      (0 < refund p env.now ∧
          b.bank.transfer usdc env.self p.policyholder
            (refund p env.now) = some B ∨
        ¬ 0 < refund p env.now ∧ B = b.bank) →
      Change env (.cancel id) b
        { b with
          policies := b.setPolicy id { p with status := .cancelled }
          userPolicies := b.removeFromUser p.policyholder id
          bank := B
          journal :=
            .policyCancelled id p.policyholder (refund p env.now) ::
              b.journal }
  | transfer {b : Book} {id : ℕ} {p : Policy} {recipient : Address} :
      b.policies id = some p →
      p.status = .active →
      p.policyholder ∈ env.signers →
      recipient ∈ env.signers →
      p.policyholder ≠ recipient →
      Change env (.transfer id) b
        { b with
          policies := b.setPolicy id { p with policyholder := recipient }
          userPolicies :=
            addToUser
              { b with
                userPolicies := b.removeFromUser p.policyholder id }
              recipient id
          journal :=
            .policyTransferred id p.policyholder recipient :: b.journal }
  | claim {b : Book} {id : ℕ} {p : Policy} {usdc : Address} {B : Bank} :
      b.policies id = some p →
      p.status = .active →
      b.usdcToken = some usdc →
      b.bank.transfer usdc env.self p.policyholder p.coverageAmount =
        some B →
      Change env (.claim id) b
        { b with
          policies := b.setPolicy id { p with status := .claimed }
          userPolicies := b.removeFromUser p.policyholder id
          bank := B
          journal :=
            .claimPaid id p.policyholder p.coverageAmount :: b.journal }
  | expire {b : Book} {id : ℕ} {p : Policy} :
      b.policies id = some p →
      p.status = .active →
      Change env (.expire id) b
        { b with
          policies := b.setPolicy id { p with status := .expired }
          userPolicies := b.removeFromUser p.policyholder id
          journal := .policyExpired id env.now :: b.journal }
  | warn {b : Book} {id : ℕ} {p : Policy} :
      b.policies id = some p →
      p.status = .active →
      env.now < p.endTime →
      b.expiryWarned id = false →
      Change env (.warn id) b
        { b with
          expiryWarned := Function.update b.expiryWarned id true
          journal :=
            .policyExpiringSoon id p.policyholder p.productId
              p.coverageAmount p.endTime (p.endTime - env.now) ::
              b.journal }

/-- The change only adds to the book. -/
def Kind.Adds (k : Kind) : Prop :=
  (∃ id, k = .buy id) ∨ ∃ id, k = .warn id

/-- Purchases and warnings only add to the book. -/
def Adds (env : Env) (b b' : Book) : Prop :=
  (∃ id, Change env (.buy id) b b') ∨ ∃ id, Change env (.warn id) b b'

/-- What one call does to the book: one change, or a batch of additions. -/
inductive Effect (env : Env) (b b' : Book) : Prop
  | change {k : Kind} : Change env k b b' → Effect env b b'
  | batch : Relation.ReflTransGen (Adds env) b b' → Effect env b b'

/-- Additions of kinds that satisfy `P`. -/
def AddsOf (env : Env) (P : Kind → Prop) (b b' : Book) : Prop :=
  (∃ id, P (.buy id) ∧ Change env (.buy id) b b') ∨
    ∃ id, P (.warn id) ∧ Change env (.warn id) b b'

/-- An effect whose changes are all of kinds that satisfy `P`. -/
inductive EffectOf (env : Env) (P : Kind → Prop) (b b' : Book) : Prop
  | change {k : Kind} : P k → Change env k b b' → EffectOf env P b b'
  | batch :
      Relation.ReflTransGen (AddsOf env P) b b' → EffectOf env P b b'

section EffectOf

variable {env : Env} {P : Kind → Prop} {b b' : Book}

theorem EffectOf.unchanged : EffectOf env P b b := .batch .refl

theorem AddsOf.adds (h : AddsOf env P b b') : Adds env b b' := by
  rcases h with ⟨id, -, h⟩ | ⟨id, -, h⟩
  · exact .inl ⟨id, h⟩
  · exact .inr ⟨id, h⟩

theorem EffectOf.effect (h : EffectOf env P b b') : Effect env b b' := by
  cases h with
  | change _ hchange => exact .change hchange
  | batch hadds => exact .batch (hadds.lift id fun _ _ => AddsOf.adds)

/-- What each change of these kinds preserves, the effect preserves; a change
that does more than add is the first and only one. -/
theorem EffectOf.preserves {Q : Book → Prop} (h : EffectOf env P b b')
    (hstep : ∀ k c c', P k → k.Adds ∨ c = b → Change env k c c' → Q c → Q c')
    (hQ : Q b) : Q b' := by
  cases h with
  | change hk hchange => exact hstep _ _ _ hk (.inr rfl) hchange hQ
  | batch hadds =>
      induction hadds with
      | refl => exact hQ
      | tail _ hadd ih =>
          rcases hadd with ⟨id, hk, hchange⟩ | ⟨id, hk, hchange⟩
          · exact hstep _ _ _ hk (.inl (.inl ⟨id, rfl⟩)) hchange ih
          · exact hstep _ _ _ hk (.inl (.inr ⟨id, rfl⟩)) hchange ih

end EffectOf

end Book

/-- Only an initialized engine has a token, an admin or a candidate admin. -/
structure Wired (s : State) : Prop where
  token_iff : s.usdcToken.isSome ↔ s.initialized = true
  admin : s.admin.isSome → s.initialized = true
  pendingAdmin : s.pendingAdmin.isSome → s.initialized = true

/-! ## Policy operations change the book -/

section Refinement

variable {env : Env} {m m' : Machine State}

/-- What the sale of `p` checks, and the tokens it leaves. -/
structure Sells (env : Env) (m : Machine State) (buyer paymentToken : Address)
    (p : Policy) (B : Bank) : Prop where
  id_eq : p.id = m.store.nextPolicyId
  holder : p.policyholder = buyer
  outsider : ∃ admin, m.store.admin = some admin ∧ buyer ≠ admin
  active : p.status = .active
  coverage_pos : 0 < p.coverageAmount
  premium_pos : 0 < p.premiumPaid
  created : p.createdAt = env.now
  start_le : env.now ≤ p.startTime
  start_lt_end : p.startTime < p.endTime
  cooled : ∀ last ∈ m.store.lastPurchase (buyer, p.oracleKey),
    satAddU64 last purchaseCoolingOffSeconds ≤ env.now
  paid : m.bank.transfer paymentToken buyer env.self p.premiumPaid = some B

theorem buyPolicyInner_sells {buyer : Address} {productId : ℕ}
    {coverageAmount : ℤ} {durationDays : ℕ} {oracleKey : Symbol}
    {startTime : ℕ} {paymentToken : Address} {id : ℕ}
    (h : buyPolicyInner env buyer productId coverageAmount durationDays
      oracleKey startTime paymentToken m = .ok (id, m')) :
    ∃ p B, Sells env m buyer paymentToken p B ∧ id = p.id ∧
      m' =
        { store :=
            { m.store with
              policies := Function.update m.store.policies p.id (some p)
              userPolicies :=
                Function.update m.store.userPolicies buyer
                  (m.store.userPolicies buyer ++ [p.id])
              nextPolicyId := p.id + 1
              lastPurchase :=
                Function.update m.store.lastPurchase (buyer, p.oracleKey)
                  (some env.now)
              events :=
                .buyPolicy buyer p.id p.productId p.coverageAmount
                  p.premiumPaid :: m.store.events }
          bank := B } := by
  simp [buyPolicyInner] at h
  obtain ⟨hstart, -, admin, hadmin, hother, hcooled, product, -, -, hpos, -,
    hdays, -, -, -, -, hpremium, -, B, ⟨-, hB⟩, -, -, -, -, ⟨rfl, -⟩,
    rfl⟩ := h
  refine ⟨⟨m.store.nextPolicyId, productId, buyer, coverageAmount, _,
    oracleKey, product.oracleDataType, product.triggerThreshold,
    product.triggerComparison, startTime, _, .active, env.now⟩, B, ?_, rfl,
    rfl⟩
  exact
    { id_eq := rfl
      holder := rfl
      outsider := ⟨admin, hadmin, hother⟩
      active := rfl
      coverage_pos := hpos
      premium_pos := hpremium
      created := rfl
      start_le := hstart
      start_lt_end := by simp only; omega
      cooled := hcooled
      paid := hB }

theorem buyPolicyInner_change {buyer : Address} {productId : ℕ}
    {coverageAmount : ℤ} {durationDays : ℕ} {oracleKey : Symbol}
    {startTime : ℕ} {paymentToken : Address} {id : ℕ}
    (hwired : Wired m.store) (hauth : buyer ∈ env.signers)
    (h : buyPolicyInner env buyer productId coverageAmount durationDays
      oracleKey startTime paymentToken m = .ok (id, m')) :
    Book.Change env (.buy id) (book m) (book m') ∧ Wired m'.store := by
  obtain ⟨p, B, hsells, rfl, rfl⟩ := buyPolicyInner_sells h
  obtain ⟨admin, hadmin, -⟩ := hsells.outsider
  obtain rfl := hsells.holder
  have hinit := hwired.admin (by simp [hadmin])
  refine ⟨?_, ⟨hwired.token_iff, hwired.admin, hwired.pendingAdmin⟩⟩
  refine Book.Change.buy (hwired.token_iff.mpr hinit) ?_ hsells.paid
  exact
    { id_eq := hsells.id_eq
      active := hsells.active
      coverage_pos := hsells.coverage_pos
      premium_pos := hsells.premium_pos
      created := hsells.created
      start_le := hsells.start_le
      start_lt_end := hsells.start_lt_end
      signed := hauth
      cooled := hsells.cooled }

theorem cancelPolicy_change {policyholder : Address} {policyId : ℕ}
    {reason : Bytes} {refund : ℤ} (hwired : Wired m.store)
    (h : cancelPolicy env policyholder policyId reason m = .ok (refund, m')) :
    Book.Change env (.cancel policyId) (book m) (book m') ∧
      Wired m'.store := by
  simp [cancelPolicy] at h
  obtain ⟨hauth, -, -, p, hp, rfl, hactive, -, usdc, husdc, B, hB, rfl,
    rfl⟩ := h
  refine ⟨?_, ?_⟩
  · apply Book.Change.cancel (B := B) hp hactive hauth husdc
    simpa [Book.refund, book] using hB
  · exact ⟨hwired.token_iff, hwired.admin, hwired.pendingAdmin⟩

theorem transferPolicy_effect {sender recipient : Address} {policyId : ℕ}
    {u : Unit} {P : Book.Kind → Prop} (hwired : Wired m.store)
    (hP : P (.transfer policyId))
    (h : transferPolicy env sender recipient policyId m = .ok (u, m')) :
    Book.EffectOf env P (book m) (book m') ∧ Wired m'.store := by
  simp [transferPolicy, ite_ok] at h
  obtain ⟨hs, hr, -, p, hp, rfl, hactive, ⟨-, rfl⟩ | ⟨hne, rfl⟩⟩ := h
  · exact ⟨.unchanged, hwired⟩
  · refine ⟨.change hP (.transfer hp hactive hs hr hne), ?_⟩
    exact ⟨hwired.token_iff, hwired.admin, hwired.pendingAdmin⟩

theorem payClaim_change {caller : Address} {policyId : ℕ} {u : Unit}
    (hwired : Wired m.store)
    (h : payClaim env caller policyId m = .ok (u, m')) :
    Book.Change env (.claim policyId) (book m) (book m') ∧
      Wired m'.store := by
  simp [payClaim] at h
  obtain ⟨-, p, hp, hactive, usdc, husdc, B, hB, rfl⟩ := h
  refine ⟨?_, ?_⟩
  · exact Book.Change.claim hp hactive husdc hB
  · exact ⟨hwired.token_iff, hwired.admin, hwired.pendingAdmin⟩

theorem expirePolicy_change {caller : Address} {policyId : ℕ} {u : Unit}
    (hwired : Wired m.store)
    (h : expirePolicy env caller policyId m = .ok (u, m')) :
    Book.Change env (.expire policyId) (book m) (book m') ∧
      Wired m'.store := by
  simp [expirePolicy] at h
  obtain ⟨-, p, hp, hactive, rfl⟩ := h
  refine ⟨?_, ?_⟩
  · exact Book.Change.expire hp hactive
  · exact ⟨hwired.token_iff, hwired.admin, hwired.pendingAdmin⟩

theorem notifyPolicyExpiring_change {policyId : ℕ} {u : Unit}
    (hwired : Wired m.store)
    (h : notifyPolicyExpiring env policyId m = .ok (u, m')) :
    Book.Change env (.warn policyId) (book m) (book m') ∧
      Wired m'.store := by
  simp [notifyPolicyExpiring, warnExpiring] at h
  obtain ⟨p, hp, hactive, hend, -, hwarned, rfl⟩ := h
  refine ⟨?_, ?_⟩
  · exact Book.Change.warn hp hactive hend hwarned
  · exact ⟨hwired.token_iff, hwired.admin, hwired.pendingAdmin⟩

theorem notifyIfExpiring_adds {policyId n : ℕ} {P : Book.Kind → Prop}
    (hwired : Wired m.store) (hP : P (.warn policyId))
    (h : notifyIfExpiring env policyId m = .ok (n, m')) :
    Relation.ReflTransGen (Book.AddsOf env P) (book m) (book m') ∧
      Wired m'.store := by
  simp [notifyIfExpiring] at h
  cases hp : m.store.policies policyId with
  | none =>
      simp [hp] at h
      obtain ⟨-, rfl⟩ := h
      exact ⟨.refl, hwired⟩
  | some p =>
      simp [hp, ite_ok, warnExpiring] at h
      obtain ⟨⟨hactive, hend, -, hwarned⟩, rfl, -⟩ | ⟨-, -, rfl⟩ := h
      · refine ⟨.single (.inr ⟨policyId, hP, ?_⟩), ?_⟩
        · exact Book.Change.warn hp hactive hend hwarned
        · exact ⟨hwired.token_iff, hwired.admin, hwired.pendingAdmin⟩
      · exact ⟨.refl, hwired⟩

/-! ## Configuration leaves the book alone -/

/-- The call wrote neither the book nor the initialization. -/
structure KeepsBook (m m' : Machine State) : Prop where
  book_eq : book m' = book m
  wired : Wired m.store → Wired m'.store

theorem KeepsBook.effect {P : Book.Kind → Prop} (h : KeepsBook m m')
    (hwired : Wired m.store) :
    Book.EffectOf env P (book m) (book m') ∧ Wired m'.store := by
  rw [h.book_eq]
  exact ⟨.unchanged, h.wired hwired⟩

theorem setClaimsProcessor_keepsBook {admin cp : Address} {u : Unit}
    (h : setClaimsProcessor env admin cp m = .ok (u, m')) :
    KeepsBook m m' := by
  simp [setClaimsProcessor] at h
  obtain ⟨-, rfl⟩ := h
  exact ⟨rfl, fun hw => ⟨hw.token_iff, hw.admin, hw.pendingAdmin⟩⟩

theorem setOracleGuardian_keepsBook {admin guardian : Address} {u : Unit}
    (h : setOracleGuardian env admin guardian m = .ok (u, m')) :
    KeepsBook m m' := by
  simp [setOracleGuardian] at h
  obtain ⟨-, -, rfl⟩ := h
  exact ⟨rfl, fun hw => ⟨hw.token_iff, hw.admin, hw.pendingAdmin⟩⟩

theorem proposeOracleChange_keepsBook {admin newOracle : Address} {u : Unit}
    (h : proposeOracleChange env admin newOracle m = .ok (u, m')) :
    KeepsBook m m' := by
  simp [proposeOracleChange] at h
  obtain ⟨-, -, -, -, rfl⟩ := h
  exact ⟨rfl, fun hw => ⟨hw.token_iff, hw.admin, hw.pendingAdmin⟩⟩

theorem approveOracleChange_keepsBook {guardian : Address} {u : Unit}
    (h : approveOracleChange env guardian m = .ok (u, m')) :
    KeepsBook m m' := by
  simp [approveOracleChange] at h
  obtain ⟨-, -, change, -, rfl⟩ := h
  exact ⟨rfl, fun hw => ⟨hw.token_iff, hw.admin, hw.pendingAdmin⟩⟩

theorem executeOracleChange_keepsBook {admin : Address} {u : Unit}
    (h : executeOracleChange env admin m = .ok (u, m')) :
    KeepsBook m m' := by
  simp [executeOracleChange] at h
  obtain ⟨-, change, -, -, -, rfl⟩ := h
  exact ⟨rfl, fun hw => ⟨hw.token_iff, hw.admin, hw.pendingAdmin⟩⟩

theorem createProduct_keepsBook {admin : Address}
    {params : CreateProductParams} {id : ℕ}
    (h : createProduct env admin params m = .ok (id, m')) :
    KeepsBook m m' := by
  simp [createProduct, validateProductParams] at h
  obtain ⟨-, -, -, -, -, -, -, -, -, -, -, -, -, -, -, -, -, -, -, rfl, -⟩ := h
  exact ⟨rfl, fun hw => ⟨hw.token_iff, hw.admin, hw.pendingAdmin⟩⟩

theorem pauseProduct_keepsBook {admin : Address} {productId : ℕ} {u : Unit}
    (h : pauseProduct env admin productId m = .ok (u, m')) :
    KeepsBook m m' := by
  simp [pauseProduct] at h
  obtain ⟨-, product, -, rfl⟩ := h
  exact ⟨rfl, fun hw => ⟨hw.token_iff, hw.admin, hw.pendingAdmin⟩⟩

theorem deprecateProduct_keepsBook {admin : Address} {productId : ℕ}
    {u : Unit} (h : deprecateProduct env admin productId m = .ok (u, m')) :
    KeepsBook m m' := by
  simp [deprecateProduct] at h
  obtain ⟨-, product, -, rfl⟩ := h
  exact ⟨rfl, fun hw => ⟨hw.token_iff, hw.admin, hw.pendingAdmin⟩⟩

theorem registerCategory_keepsBook {admin : Address} {category : Symbol}
    {u : Unit} (h : registerCategory env admin category m = .ok (u, m')) :
    KeepsBook m m' := by
  simp [registerCategory, ite_ok] at h
  obtain ⟨-, ⟨-, rfl⟩ | ⟨-, rfl⟩⟩ := h
  · exact ⟨rfl, id⟩
  · exact ⟨rfl, fun hw => ⟨hw.token_iff, hw.admin, hw.pendingAdmin⟩⟩

theorem unregisterCategory_keepsBook {admin : Address} {category : Symbol}
    {u : Unit} (h : unregisterCategory env admin category m = .ok (u, m')) :
    KeepsBook m m' := by
  simp [unregisterCategory] at h
  obtain ⟨-, -, rfl⟩ := h
  exact ⟨rfl, fun hw => ⟨hw.token_iff, hw.admin, hw.pendingAdmin⟩⟩

theorem registerOracleDataType_keepsBook {admin : Address}
    {dataType : Symbol} {u : Unit}
    (h : registerOracleDataType env admin dataType m = .ok (u, m')) :
    KeepsBook m m' := by
  simp [registerOracleDataType, ite_ok] at h
  obtain ⟨-, ⟨-, rfl⟩ | ⟨-, rfl⟩⟩ := h
  · exact ⟨rfl, id⟩
  · exact ⟨rfl, fun hw => ⟨hw.token_iff, hw.admin, hw.pendingAdmin⟩⟩

theorem emergencyPause_keepsBook {admin : Address} {u : Unit}
    (h : emergencyPause env admin m = .ok (u, m')) : KeepsBook m m' := by
  simp [emergencyPause] at h
  obtain ⟨-, rfl⟩ := h
  exact ⟨rfl, fun hw => ⟨hw.token_iff, hw.admin, hw.pendingAdmin⟩⟩

theorem emergencyResume_keepsBook {admin : Address} {u : Unit}
    (h : emergencyResume env admin m = .ok (u, m')) : KeepsBook m m' := by
  simp [emergencyResume] at h
  obtain ⟨-, rfl⟩ := h
  exact ⟨rfl, fun hw => ⟨hw.token_iff, hw.admin, hw.pendingAdmin⟩⟩

theorem proposeNewAdmin_keepsBook {admin newAdmin : Address} {u : Unit}
    (h : proposeNewAdmin env admin newAdmin m = .ok (u, m')) :
    KeepsBook m m' := by
  simp [proposeNewAdmin] at h
  obtain ⟨hadmin, -, rfl⟩ := h
  refine ⟨rfl, fun hw => ⟨hw.token_iff, hw.admin, fun _ => ?_⟩⟩
  exact hw.admin (by simp [hadmin.1])

theorem cancelAdminTransfer_keepsBook {admin : Address} {u : Unit}
    (h : cancelAdminTransfer env admin m = .ok (u, m')) :
    KeepsBook m m' := by
  simp [cancelAdminTransfer] at h
  obtain ⟨-, rfl⟩ := h
  exact ⟨rfl, fun hw => ⟨hw.token_iff, hw.admin, by simp⟩⟩

theorem acceptAdmin_keepsBook {admin : Address} {u : Unit}
    (h : acceptAdmin env admin m = .ok (u, m')) : KeepsBook m m' := by
  simp [acceptAdmin] at h
  obtain ⟨hpending, -, -, rfl⟩ := h
  refine ⟨rfl, fun hw => ⟨hw.token_iff, fun _ => ?_, by simp⟩⟩
  exact hw.pendingAdmin (by simp [hpending])

theorem setMaxProductsPerPool_keepsBook {admin : Address}
    {maxProducts : ℕ} {u : Unit}
    (h : setMaxProductsPerPool env admin maxProducts m = .ok (u, m')) :
    KeepsBook m m' := by
  simp [setMaxProductsPerPool] at h
  obtain ⟨-, -, rfl⟩ := h
  exact ⟨rfl, fun hw => ⟨hw.token_iff, hw.admin, hw.pendingAdmin⟩⟩

theorem setExpiryWarningWindow_keepsBook {admin : Address} {window : ℕ}
    {u : Unit}
    (h : setExpiryWarningWindow env admin window m = .ok (u, m')) :
    KeepsBook m m' := by
  simp [setExpiryWarningWindow] at h
  obtain ⟨-, -, rfl⟩ := h
  exact ⟨rfl, fun hw => ⟨hw.token_iff, hw.admin, hw.pendingAdmin⟩⟩

theorem initializeEngine_change {admin usdcToken oracleAddress : Address}
    {u : Unit} (hwired : Wired m.store)
    (h : initializeEngine env admin usdcToken oracleAddress m =
      .ok (u, m')) :
    Book.Change env .wire (book m) (book m') ∧ Wired m'.store := by
  simp [initializeEngine] at h
  obtain ⟨hinit, -, -, -, -, B, hB, -, rfl⟩ := h
  have hnone : m.store.usdcToken = none := by
    rw [← Option.not_isSome_iff_eq_none, hwired.token_iff, hinit]
    simp
  refine ⟨Book.Change.wire hnone hB, ?_⟩
  exact ⟨by simp, by simp, by simp⟩

end Refinement

end Parashield.PolicyEngine
