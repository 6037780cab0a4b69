import Parashield.PolicyEngine.Currency
import Parashield.Support.Index

/-!
# The policies of a user

The engine keeps, next to the policies, a list for each user.  A policy is
listed when it is bought, changes lists when it is transferred, and leaves its
list when it ends, whatever ends it.
-/

namespace Parashield.PolicyEngine

open Support Support.Contract Invocation

/-- Whom the policy insures while it is active. -/
def Policy.insured (p : Policy) : Option Address :=
  if p.status = .active then some p.policyholder else none

theorem Policy.insured_of_active {p : Policy} (h : p.status = .active) :
    p.insured = some p.policyholder := if_pos h

theorem Policy.insured_of_ne {p : Policy} (h : p.status ≠ .active) :
    p.insured = none := if_neg h

theorem Policy.insured_eq_some {p : Policy} {u : Address} :
    p.insured = some u ↔ p.policyholder = u ∧ p.status = .active := by
  simp [Policy.insured, and_comm]

namespace Book

/-- Whom policy `id` insures. -/
def insured (b : Book) (id : ℕ) : Option Address :=
  (b.policies id).bind Policy.insured

variable {env : Env} {b b' : Book} {k : Kind} {id : ℕ} {p : Policy}

theorem insured_of_some (h : b.policies id = some p) :
    b.insured id = p.insured := by
  rw [insured, h]
  rfl

theorem insured_of_none (h : b.policies id = none) : b.insured id = none := by
  rw [insured, h]
  rfl

theorem insured_eq_some {u : Address} : b.insured id = some u ↔
    ∃ p, b.policies id = some p ∧ p.policyholder = u ∧ p.status = .active := by
  rw [insured, Option.bind_eq_some_iff]
  simp only [Policy.insured_eq_some]

/-- Writing a policy changes whom it insures, and nothing else. -/
theorem insured_setPolicy (h : b'.policies = b.setPolicy id p) :
    b'.insured = Function.update b.insured id p.insured := by
  funext i
  rw [insured, h, setPolicy]
  by_cases hi : i = id
  · subst hi
    rw [Function.update_self, Function.update_self]
    rfl
  · rw [Function.update_of_ne hi, Function.update_of_ne hi]
    rfl

/-- The lists of the users are those of the active policies they hold. -/
def Indexed (b : Book) : Prop :=
  Lists b.userPolicies b.insured

/-- An active policy ends and leaves the list of its holder. -/
theorem Indexed.ends (h : b.Indexed) (hp : b.policies id = some p)
    (hactive : p.status = .active) {p' : Policy}
    (hpolicies : b'.policies = b.setPolicy id p') (hends : p'.status ≠ .active)
    (hlists : b'.userPolicies = b.removeFromUser p.policyholder id) :
    b'.Indexed := by
  have hinsured : b.insured id = some p.policyholder := by
    rw [insured_of_some hp, Policy.insured_of_active hactive]
  rw [Indexed, hlists, insured_setPolicy hpolicies,
    Policy.insured_of_ne hends]
  exact Lists.erase h hinsured

/-- An active policy is handed over from one list to another. -/
theorem Indexed.moves (h : b.Indexed) (hp : b.policies id = some p)
    (hactive : p.status = .active) {p' : Policy}
    (hpolicies : b'.policies = b.setPolicy id p')
    (hactive' : p'.status = .active)
    (hlists : b'.userPolicies =
      addToUser { b with userPolicies := b.removeFromUser p.policyholder id }
        p'.policyholder id) : b'.Indexed := by
  have hinsured : b.insured id = some p.policyholder := by
    rw [insured_of_some hp, Policy.insured_of_active hactive]
  -- in between the policy is on no list
  have herased : Lists (b.removeFromUser p.policyholder id)
      (Function.update b.insured id none) := Lists.erase h hinsured
  have hmoved := herased.append (k := p'.policyholder)
    (Function.update_self id none b.insured)
  rw [Function.update_idem] at hmoved
  rw [Indexed, hlists, insured_setPolicy hpolicies,
    Policy.insured_of_active hactive']
  exact hmoved

theorem Indexed.change (hsound : b.Sound) (h : b.Indexed)
    (hchange : Change env k b b') : b'.Indexed := by
  cases hchange with
  | wire => exact h
  | @buy _ p _ _ _ hp =>
      have hnone : b.insured p.id = none :=
        insured_of_none (hsound.fresh p.id hp.id_eq.ge)
      show Lists (b.addToUser p.policyholder p.id) _
      rw [insured_setPolicy rfl, Policy.insured_of_active hp.active]
      exact Lists.append h hnone
  | cancel hp hactive => exact h.ends hp hactive rfl (by simp) rfl
  | transfer hp hactive => exact h.moves hp hactive rfl hactive rfl
  | claim hp hactive => exact h.ends hp hactive rfl (by simp) rfl
  | expire hp hactive => exact h.ends hp hactive rfl (by simp) rfl
  | warn => exact h

end Book

/-! ## Every reachable state -/

section Runs

variable {engine : Address}

theorem indexed_inductive (engine : Address) :
    (system engine).Inductive fun w =>
      (Wired w.machine.store ∧ (book w.machine).Sound) ∧
        (book w.machine).Indexed where
  init := by
    rintro w hw
    refine ⟨((bought_inductive engine).init w hw).1, ?_⟩
    obtain ⟨now, ⟨store, B⟩⟩ := w
    obtain rfl : store = State.deployed := hw.1
    exact Lists.empty
  step := by
    rintro w l w' ⟨⟨hwired, hsound⟩, hindexed⟩ hstep
    cases hstep with
    | call _ hexec =>
        obtain ⟨heffect, hwired'⟩ := exec_performs hwired hexec
        have hkept := heffect.preserves
          (Q := fun b => b.Sound ∧ b.Indexed)
          (fun _ _ _ _ _ hchange h =>
            ⟨h.1.change hchange, h.2.change h.1 hchange⟩)
          ⟨hsound, hindexed⟩
        exact ⟨⟨hwired', hkept.1⟩, hkept.2⟩
    | tick => exact ⟨⟨hwired, hsound⟩, hindexed⟩
    | transfer =>
        exact ⟨⟨hwired, hsound.fresh, hsound.unwired, hsound.coverage_pos⟩,
          hindexed⟩
    | mint =>
        exact ⟨⟨hwired, hsound.fresh, hsound.unwired, hsound.coverage_pos⟩,
          hindexed⟩

/-- In every reachable state the list of a user holds the identifiers of the
active policies the user holds, each once. -/
theorem user_policies_index {w : World State}
    (hw : (system engine).Reachable w) (u : Address) :
    (w.machine.store.userPolicies u).Nodup ∧
      ∀ id, id ∈ w.machine.store.userPolicies u ↔
        ∃ p, w.machine.store.policies id = some p ∧ p.policyholder = u ∧
          p.status = .active := by
  have hindexed : (book w.machine).Indexed :=
    (hw.invariant (indexed_inductive engine)).2
  refine ⟨hindexed.nodup u, fun id => ?_⟩
  have hinsured : (book w.machine).insured id = some u ↔
      ∃ p, w.machine.store.policies id = some p ∧ p.policyholder = u ∧
        p.status = .active := Book.insured_eq_some
  exact (hindexed.mem_iff u id).trans hinsured

end Runs

namespace Sample

/-- The heir of the holder. -/
def heir : Address := .account 3

/-- Two policies are bought; one is handed over twice and back, the other is
cancelled. -/
def inheritance : List (Label Entry) :=
  preparation usdc ++
    [.call [holder]
      (.batchBuyPolicy holder [⟨1, 1000000, 365, rainKey, usdc⟩]),
    .tick purchaseCoolingOffSeconds, buying usdc,
    .call [holder, heir] (.transferPolicy holder heir 1),
    .call [heir] (.transferPolicy heir heir 1),
    .call [holder, heir] (.transferPolicy heir holder 1),
    .call [holder, heir] (.transferPolicy holder heir 2),
    .call [holder] (.cancelPolicy holder 1 [7])]

def inherited : World State :=
  (TransitionSystem.execute (step exec engine) inheritance genesis).get
    (by decide +kernel)

theorem inherited_reachable : (system engine).Reachable inherited :=
  TransitionSystem.reachable_of_execute (fun _ _ _ => step_sound) ⟨rfl, rfl⟩
    (Option.some_get _).symm

end Sample

theorem user_policies_index_inherited :
    (Sample.inherited.machine.store.userPolicies Sample.heir).Nodup ∧
      ∀ id, id ∈ Sample.inherited.machine.store.userPolicies Sample.heir ↔
        ∃ p, Sample.inherited.machine.store.policies id = some p ∧
          p.policyholder = Sample.heir ∧ p.status = .active :=
  user_policies_index Sample.inherited_reachable Sample.heir

end Parashield.PolicyEngine
