import Parashield.PolicyEngine.Holdings
import Parashield.PolicyEngine.Oversight

/-!
# The administrator's interest in policies

A purchase by the administrator is refused.  A policy can still reach the
administrator: by a transfer, or because its holder takes the administration.
-/

namespace Parashield.PolicyEngine

open Support Support.Contract Invocation

namespace Book

variable {env : Env} {b b' : Book} {k : Kind} {admin : Option Address}

/-- No active policy insures `admin`. -/
def Disinterests (b : Book) (admin : Option Address) : Prop :=
  ∀ id a, b.insured id = some a → admin ≠ some a

/-- Rewriting a policy for nobody new leaves the administrator out. -/
theorem Disinterests.write (h : b.Disinterests admin) (id : ℕ) (p : Policy)
    (hp : ∀ a, p.insured = some a → admin ≠ some a)
    (hpolicies : b'.policies = b.setPolicy id p) : b'.Disinterests admin := by
  intro i a hi
  rw [insured_setPolicy hpolicies] at hi
  by_cases hid : i = id
  · rw [hid, Function.update_self] at hi
    exact hp a hi
  · rw [Function.update_of_ne hid] at hi
    exact h i a hi

theorem Disinterests.ends {id : ℕ} {p : Policy} (h : b.Disinterests admin)
    (hpolicies : b'.policies = b.setPolicy id p) (hends : p.status ≠ .active) :
    b'.Disinterests admin := by
  refine h.write _ _ (fun a ha => ?_) hpolicies
  rw [Policy.insured_of_ne hends] at ha
  cases ha

/-- Only purchases and transfers insure somebody new. -/
theorem Disinterests.change (h : b.Disinterests admin)
    (hchange : Change env k b b') (hbuy : ∀ id, k ≠ .buy id)
    (htransfer : ∀ id, k ≠ .transfer id) : b'.Disinterests admin := by
  cases hchange with
  | wire => exact h
  | buy => exact absurd rfl (hbuy _)
  | cancel => exact h.ends rfl (by simp)
  | transfer => exact absurd rfl (htransfer _)
  | claim => exact h.ends rfl (by simp)
  | expire => exact h.ends rfl (by simp)
  | warn => exact h

end Book

/-! ## Calls -/

section Calls

variable {env : Env} {m m' : Machine State}

/-- The administrator holds no active policy. -/
def State.Disinterested (s : State) : Prop :=
  ∀ id p, s.policies id = some p → p.status = .active →
    s.admin ≠ some p.policyholder

theorem disinterested_iff :
    m.store.Disinterested ↔ (book m).Disinterests m.store.admin := by
  constructor
  · intro h id a ha
    obtain ⟨p, hp, rfl, hactive⟩ := Book.insured_eq_some.mp ha
    exact h id p hp hactive
  · intro h id p hp hactive
    exact h id p.policyholder (Book.insured_eq_some.mpr ⟨p, hp, rfl, hactive⟩)

/-- A purchase is not the administrator's. -/
theorem buyPolicyInner_disinterested {buyer : Address} {productId : ℕ}
    {coverageAmount : ℤ} {durationDays : ℕ} {oracleKey : Symbol}
    {startTime : ℕ} {paymentToken : Address} :
    Keeps (fun t : Machine State => t.store.Disinterested)
      (buyPolicyInner env buyer productId coverageAmount durationDays oracleKey
        startTime paymentToken) := by
  intro t id t' ht h
  obtain ⟨p, B, hsells, -, rfl⟩ := buyPolicyInner_sells h
  obtain ⟨admin, hadmin, hother⟩ := hsells.outsider
  rw [disinterested_iff] at ht ⊢
  refine ht.write p.id p (fun a ha => ?_) rfl
  rw [Policy.insured_of_active hsells.active, hsells.holder] at ha
  obtain rfl := Option.some.inj ha
  rw [hadmin]
  exact fun hsame => hother (Option.some.inj hsame).symm

/-- The administrator's office and the administrator's policies stay apart in
this call. -/
def Entry.SparesAdmin (s : State) : Entry → Prop
  | .acceptAdmin admin => ∀ id p, s.policies id = some p →
      p.status = .active → p.policyholder ≠ admin
  | .transferPolicy _ recipient _ => s.admin ≠ some recipient
  | _ => True

theorem transferPolicy_ok {sender recipient : Address} {id : ℕ} {u : Unit}
    (h : transferPolicy env sender recipient id m = .ok (u, m')) :
    ∃ p, m.store.policies id = some p ∧ p.status = .active ∧
      p.policyholder = sender ∧
      (sender = recipient ∧ m' = m ∨
        sender ≠ recipient ∧ m'.store.admin = m.store.admin ∧
          m'.store.policies = Function.update m.store.policies id
            (some { p with policyholder := recipient })) := by
  simp [transferPolicy, ite_ok] at h
  obtain ⟨-, -, -, p, hp, hholder, hactive, ⟨hsame, rfl⟩ | ⟨hne, rfl⟩⟩ := h
  · exact ⟨p, hp, hactive, hholder, .inl ⟨hsame, rfl⟩⟩
  · exact ⟨p, hp, hactive, hholder, .inr ⟨hne, rfl, rfl⟩⟩

theorem transferPolicy_disinterested {sender recipient : Address} {id : ℕ}
    {u : Unit} (hm : m.store.Disinterested)
    (h : transferPolicy env sender recipient id m = .ok (u, m')) :
    m'.store.Disinterested ↔ m.store.admin ≠ some recipient := by
  obtain ⟨p, hp, hactive, rfl, ⟨rfl, rfl⟩ | ⟨hne, hadmin, hpolicies⟩⟩ :=
    transferPolicy_ok h
  · exact ⟨fun _ => hm id p hp hactive, fun _ => hm⟩
  · constructor
    · intro h' hsame
      refine h' id { p with policyholder := recipient } ?_ hactive ?_
      · rw [hpolicies, Function.update_self]
      · rw [hadmin, hsame]
    · intro hother
      rw [disinterested_iff] at hm ⊢
      rw [hadmin]
      refine hm.write id { p with policyholder := recipient }
        (fun a ha => ?_) hpolicies
      obtain ⟨rfl, -⟩ := Policy.insured_eq_some.mp ha
      exact hother

/-- Only the initialization and a hand-over change the administrator. -/
theorem Oversight.Act.admin_eq {e : Entry} {o o' : Oversight}
    (h : Oversight.Act env e o o')
    (hset : ∀ admin usdcToken oracleAddress,
      e ≠ .initializeEngine admin usdcToken oracleAddress)
    (haccept : ∀ admin, e ≠ .acceptAdmin admin) : o'.admin = o.admin := by
  cases h with
  | found => exact absurd rfl (hset _ _ _)
  | accept => exact absurd rfl (haccept _)
  | _ => rfl

theorem exec_keeps_disinterested {e : Entry} {u : Unit}
    (hwired : Wired m.store) (hm : m.store.Disinterested)
    (h : exec env e m = .ok (u, m'))
    (hadmin : m'.store.admin = m.store.admin)
    (hbuy : ∀ id, ¬ e.performs (.buy id))
    (htransfer : ∀ id, ¬ e.performs (.transfer id)) :
    m'.store.Disinterested := by
  rw [disinterested_iff] at hm ⊢
  rw [hadmin]
  refine (exec_performs hwired h).1.preserves
    (Q := fun b => b.Disinterests m.store.admin) ?_ hm
  rintro k c c' hk - hchange hc
  refine hc.change hchange ?_ ?_
  · rintro id rfl
    exact hbuy id hk
  · rintro id rfl
    exact htransfer id hk

/-- A call leaves the administrator without an active policy if and only if it
spares the administrator. -/
theorem exec_disinterested_iff {e : Entry} {u : Unit}
    (hwired : Wired m.store) (hsound : (book m).Sound)
    (hm : m.store.Disinterested) (h : exec env e m = .ok (u, m')) :
    m'.store.Disinterested ↔ e.SparesAdmin m.store := by
  cases e with
  | initializeEngine =>
      refine iff_of_true (fun id p hp => ?_) trivial
      simp [exec, initializeEngine] at h
      obtain ⟨hfresh, -, -, -, -, B, -, -, rfl⟩ := h
      have hnone : m.store.usdcToken = none := by
        rw [← Option.not_isSome_iff_eq_none, hwired.token_iff, hfresh]
        rintro ⟨⟩
      have habsent := hsound.unwired hnone id
      rw [show (book m).policies id = some p from hp] at habsent
      cases habsent
  | acceptAdmin admin =>
      simp [exec, acceptAdmin] at h
      obtain ⟨-, -, -, rfl⟩ := h
      constructor
      · intro h' id p hp hactive hsame
        exact h' id p hp hactive (congrArg some hsame.symm)
      · intro hspares id p hp hactive hsame
        exact hspares id p hp hactive (Option.some.inj hsame).symm
  | buyPolicy =>
      simp [exec, buyPolicy] at h
      obtain ⟨-, -, id, h⟩ := h
      exact iff_of_true (buyPolicyInner_disinterested _ _ _ hm h) trivial
  | buyPolicyScheduled =>
      simp [exec, buyPolicyScheduled] at h
      obtain ⟨-, -, id, h⟩ := h
      exact iff_of_true (buyPolicyInner_disinterested _ _ _ hm h) trivial
  | buyPolicyWithRate =>
      simp [exec, buyPolicyWithRate] at h
      obtain ⟨-, -, product, -, -, id, h⟩ := h
      exact iff_of_true (buyPolicyInner_disinterested _ _ _ hm h) trivial
  | batchBuyPolicy =>
      simp [exec, batchBuyPolicy] at h
      obtain ⟨-, -, -, -, ids, h⟩ := h
      refine iff_of_true (keeps_collect (I := fun t : Machine State =>
        t.store.Disinterested) ?_ _ _ _ hm h) trivial
      exact fun _ _ => buyPolicyInner_disinterested
  | transferPolicy => exact transferPolicy_disinterested hm h
  | _ =>
      have hadmin : m'.store.admin = m.store.admin :=
        (exec_oversight h).admin_eq (by rintro _ _ _ ⟨⟩) (by rintro _ ⟨⟩)
      exact iff_of_true
        (exec_keeps_disinterested hwired hm h hadmin (by rintro _ ⟨⟩)
          (by rintro _ ⟨⟩)) trivial

end Calls

/-! ## Runs -/

/-- The step spares the administrator. -/
def SparesAdmin (w : World State) : Label Entry → Prop
  | .call _ e => e.SparesAdmin w.machine.store
  | _ => True

section Runs

variable {self : Address} {w w' : World State} {l : Label Entry}

theorem step_disinterested_iff (hwired : Wired w.machine.store)
    (hsound : (book w.machine).Sound) (hw : w.machine.store.Disinterested)
    (hstep : (system self).Step w l w') :
    w'.machine.store.Disinterested ↔ SparesAdmin w l := by
  cases hstep with
  | call _ hexec => exact exec_disinterested_iff hwired hsound hw hexec
  | tick => exact iff_of_true hw trivial
  | transfer => exact iff_of_true hw trivial
  | mint => exact iff_of_true hw trivial

theorem disinterested_inductive (self : Address) :
    ((system self).restrict SparesAdmin).Inductive fun w =>
      ((Wired w.machine.store ∧ (book w.machine).Sound) ∧
        (book w.machine).Indexed) ∧ w.machine.store.Disinterested := by
  refine ((indexed_inductive self).restrict SparesAdmin).and ?_ ?_
  · intro w hw id p hp
    rw [show w.machine.store = State.deployed from hw.1] at hp
    cases hp
  · rintro w l w' ⟨⟨hwired, hsound⟩, -⟩ - hw ⟨hspares, hstep⟩
    exact (step_disinterested_iff hwired hsound hw hstep).mpr hspares

end Runs

end Parashield.PolicyEngine
