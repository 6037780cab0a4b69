import Parashield.RiskPool.Calls

/-!
# Risk pool: whom the pool pays

Tokens leave the pool for the holder of a position, for the treasury, the
backstop or the reinsurer.  Whoever is none of these when a call is made gets
nothing from it, whoever makes the call.
-/

namespace Parashield.RiskPool

open Support Support.Contract Invocation Book

/-- Whom the pool may pay. -/
def State.Payee (s : State) (a : Address) : Prop :=
  (s.lpPosition a).isSome = true ∨ s.treasury = some a ∨
    s.backstop = some a ∨
    ∃ config ∈ s.reinsurance, config.reinsurer = a

instance (s : State) (a : Address) : Decidable (s.Payee a) :=
  inferInstanceAs (Decidable (_ ∨ _ ∨ _ ∨ _))

variable {env : Env} {a : Address}

/-! ## Changes of the book -/

theorem Pays.withholds {self : Address} {token : Option Address}
    {payments : List (Address × ℤ)} {B B' : Bank}
    (h : Pays self token payments B B')
    (hne : ∀ payment ∈ payments, a ≠ payment.1) : Bank.Withholds a B B' := by
  rcases h with ⟨-, rfl⟩ | ⟨usdc, -, hall⟩
  · exact .refl a _
  · exact .payAll hall hne

theorem not_mem_yieldPayment {provider : Address} {owed : ℤ}
    (h : a = provider → owed ≤ 0) :
    ∀ payment ∈ yieldPayment provider owed, a ≠ payment.1 := by
  unfold yieldPayment
  split
  · next hpos =>
      rintro payment hmem rfl
      obtain rfl := List.mem_singleton.mp hmem
      exact absurd (h rfl) (not_le.mpr hpos)
  · intro payment hmem
    cases hmem

namespace Book

variable {b b' : Book}

/-- A position that is yet to be opened is owed nothing. -/
theorem increased_owed_of_none {now : ℕ} {shares amount : ℤ}
    {compound : Option Bool} (h : b.lpPosition a = none) :
    (b.increased now a shares amount compound).owed = 0 := by
  unfold increased
  rw [h]

/-- The kinds whose recipients the book does not know. -/
def Kind.PaysOut : Kind → Prop
  | .accrue _ | .forward _ | .adminWithdraw _ => True
  | _ => False

/-- Without a position, nothing is paid. -/
theorem Change.withholds {k : Kind} (h : Change env k b b')
    (hnone : b.lpPosition a = none) (hself : a ≠ env.self)
    (hk : ¬ k.PaysOut) : Bank.Withholds a b.bank b'.bank := by
  have holds : ∀ {provider p}, b.lpPosition provider = some p →
      a ≠ provider := by
    rintro provider p hp rfl
    rw [hnone] at hp
    cases hp
  cases h with
  | @burn _ provider shares p joint _ hredeems hpays =>
      have hne := holds hredeems.found
      refine hpays.withholds ?_
      unfold redeemPayments
      split
      · rintro payment hmem rfl
        obtain rfl := List.mem_singleton.mp hmem
        exact hne rfl
      · rw [List.forall_mem_cons]
        exact ⟨hne, not_mem_yieldPayment fun heq => absurd heq hne⟩
  | @mint _ provider _ newShares _ compound _ _ _ _ _ hB _ hpays =>
      refine (Bank.Withholds.transfer hB hself).trans (hpays.withholds ?_)
      split
      · intro payment hmem
        cases hmem
      · refine not_mem_yieldPayment ?_
        rintro rfl
        exact (increased_owed_of_none hnone).le
  | @move _ sender recipient shares amount p _ _ hp _ _ _ _ hpays =>
      have hne := holds hp
      refine hpays.withholds ?_
      rw [List.forall_mem_append]
      refine ⟨not_mem_yieldPayment fun heq => absurd heq hne,
        not_mem_yieldPayment ?_⟩
      rintro rfl
      exact (increased_owed_of_none hnone).le
  | @collect _ provider p _ hp _ hpays =>
      refine hpays.withholds ?_
      rintro payment hmem rfl
      obtain rfl := List.mem_singleton.mp hmem
      exact holds hp rfl
  | wire | lock | release | liquidate | resplit | toggle | enqueue | clear =>
      exact .refl a _
  | recover _ _ _ _ hB => exact .transfer hB hself
  | accrue | forward | adminWithdraw => exact absurd trivial hk

/-- Neither a settlement nor its preparation opens a position. -/
theorem Change.lpPosition_none_of_exit {provider : Address} {k : Kind}
    (h : Change env k b b')
    (hk : k = .clear provider ∨ ∃ shares joint, k = .burn provider shares joint)
    (hnone : b.lpPosition a = none) : b'.lpPosition a = none := by
  rcases hk with rfl | ⟨shares, joint, rfl⟩
  · cases h
    exact hnone
  · cases h with
    | burn hredeems =>
        have hne : a ≠ provider := by
          rintro rfl
          have hfound := hredeems.found
          rw [hnone] at hfound
          cases hfound
        exact (Function.update_of_ne hne _ _).trans hnone

end Book

theorem Sweeps.withholds {n : ℕ} {b b' : Book} (h : Sweeps env n b b')
    (hnone : b.lpPosition a = none) (hself : a ≠ env.self) :
    b'.lpPosition a = none ∧ Bank.Withholds a b.bank b'.bank := by
  induction h with
  | refl => exact ⟨hnone, .refl a _⟩
  | clear _ hclear ih =>
      obtain ⟨hsame, hbank⟩ := ih hnone
      exact ⟨hclear.lpPosition_none_of_exit (.inl rfl) hsame,
        hbank.trans (hclear.withholds hsame hself id)⟩
  | burn _ hburn ih =>
      obtain ⟨hsame, hbank⟩ := ih hnone
      exact ⟨hburn.lpPosition_none_of_exit (.inr ⟨_, _, rfl⟩) hsame,
        hbank.trans (hburn.withholds hsame hself id)⟩

/-! ## Calls -/

section Calls

variable {m m' : Machine State} {u : Unit}

theorem sweepExpiredExits_withholds {skip : Option Address} {maxScan n : ℕ}
    (h : sweepExpiredExits env maxScan skip m = .ok (n, m'))
    (hnone : m.store.lpPosition a = none) (hself : a ≠ env.self) :
    m'.store.lpPosition a = none ∧ Bank.Withholds a m.bank m'.bank := by
  obtain ⟨_, -, hsweeps⟩ := sweepExpiredExits_sweeps h
  exact hsweeps.withholds hnone hself

theorem sendPremium_withholds {amount : ℤ}
    {recipient : State → Option Address}
    (h : sendPremium env amount recipient m = .ok (u, m'))
    (hne : recipient m.store ≠ some a) : Bank.Withholds a m.bank m'.bank := by
  simp [sendPremium] at h
  obtain ⟨usdc, -, account, haccount, B, hB, rfl⟩ := h
  refine .transfer hB ?_
  rintro rfl
  exact hne haccount

/-- A premium goes to the treasury and the backstop in part. -/
theorem receivePremium_withholds {caller : Address} {amount : ℤ}
    (h : receivePremium env caller amount m = .ok (u, m'))
    (hself : a ≠ env.self) (htreasury : m.store.treasury ≠ some a)
    (hbackstop : m.store.backstop ≠ some a) :
    Bank.Withholds a m.bank m'.bank := by
  simp [receivePremium] at h
  obtain ⟨-, ⟨-, usdc, -, B, ⟨-, hB⟩, lp, -, treas, -, backs, -, -, increment,
    -, -, treasury, hpaid, B₁, hB₁, backstop, hpaid', B₂, hB₂, rfl⟩ |
    ⟨-, rfl⟩⟩ := h
  · refine ((Bank.Withholds.transfer hB hself).trans
      (.transfer hB₁ ?_)).trans (.transfer hB₂ ?_)
    · rintro rfl
      exact htreasury hpaid
    · rintro rfl
      exact hbackstop hpaid'
  · exact .refl a _

theorem executeAdminWithdrawal_withholds {admin : Address}
    (h : executeAdminWithdrawal env admin m = .ok (u, m'))
    (htreasury : m.store.treasury ≠ some a) :
    Bank.Withholds a m.bank m'.bank := by
  simp [executeAdminWithdrawal, requireAdmin] at h
  obtain ⟨-, -, req, -, -, -, -, -, usdc, -, treasury, hpaid, B, hB, rfl⟩ := h
  refine .transfer hB ?_
  rintro rfl
  exact htreasury hpaid

/-- The changes of a call that pays nobody but holders of positions. -/
theorem Performs.withholds {e : Entry} {b : Book} (h : Performs env m e b)
    (hnone : m.store.lpPosition a = none) (hself : a ≠ env.self)
    (hkind : ∀ k, e.kind m.store = some k → ¬ k.PaysOut) :
    Bank.Withholds a m.bank b.bank := by
  induction h with
  | idle => exact .refl a _
  | single hk hchange => exact hchange.withholds hnone hself (hkind _ hk)
  | deposit hsweep _ hchange | withdraw hsweep hchange
  | requestExit hsweep hchange =>
      obtain ⟨hsame, hbank⟩ := sweepExpiredExits_withholds hsweep hnone hself
      exact hbank.trans (hchange.withholds hsame hself id)
  | depositWithToken _ ih => exact ih fun k hk => by cases hk
  | claimExit _ hclear hburn =>
      have hsame := hclear.lpPosition_none_of_exit (.inl rfl) hnone
      exact (hclear.withholds hnone hself id).trans
        (hburn.withholds hsame hself id)
  | processExpiredExits hsweep =>
      exact (sweepExpiredExits_withholds hsweep hnone hself).2

/-- Whom the pool may not pay gets nothing from a call. -/
theorem exec_withholds {e : Entry} (h : exec env e m = .ok (u, m'))
    (hself : a ≠ env.self) (hpayee : ¬ m.store.Payee a) :
    Bank.Withholds a m.bank m'.bank := by
  simp only [State.Payee, not_or, Bool.not_eq_true,
    Option.isSome_eq_false_iff, Option.isNone_iff_eq_none] at hpayee
  obtain ⟨hnone, htreasury, hbackstop, hreinsurer⟩ := hpayee
  have hplain : (∀ k, e.kind m.store = some k → ¬ k.PaysOut) →
      Bank.Withholds a m.bank m'.bank :=
    (exec_performs h).withholds hnone hself
  cases e with
  | receivePremium =>
      exact receivePremium_withholds h hself htreasury hbackstop
  | sendPremiumToTreasury =>
      simp [exec, sendPremiumToTreasury, requireAdmin] at h
      obtain ⟨-, -, -, h⟩ := h
      exact sendPremium_withholds h htreasury
  | sendPremiumToBackstop =>
      simp [exec, sendPremiumToBackstop, requireAdmin] at h
      obtain ⟨-, -, -, h⟩ := h
      exact sendPremium_withholds h hbackstop
  | sendPremiumToReinsurer =>
      simp [exec, sendPremiumToReinsurer, requireAdmin] at h
      obtain ⟨-, -, -, config, hconfig, h⟩ := h
      have hpaid : Bank.Withholds a _ m'.bank := sendPremium_withholds h ?_
      · exact hpaid
      rintro ⟨⟩
      exact hreinsurer ⟨config, hconfig, rfl⟩
  | executeAdminWithdrawal =>
      exact executeAdminWithdrawal_withholds h htreasury
  | requestReinsuranceRecovery caller policyId loss answer =>
      refine hplain fun k hk => ?_
      cases answer with
      | none => cases hk
      | some answered =>
          cases hrequest : m.store.recoveryRequest loss with
          | none =>
              simp only [Entry.kind, hrequest] at hk
              cases hk
          | some request =>
              simp only [Entry.kind, hrequest] at hk
              obtain rfl := Option.some.inj hk
              exact id
  | _ =>
      refine hplain fun k hk => ?_
      first
        | (cases hk; done)
        | (obtain rfl := Option.some.inj hk; exact id)

end Calls

/-! ## Runs -/

/-- The step brings `a` no tokens from outside, and the pool may not pay it. -/
def Bypasses (a : Address) (w : World State) : Label Entry → Prop
  | .call .. => ¬ w.machine.store.Payee a
  | .transfer _ _ recipient _ => a ≠ recipient
  | .mint _ holder _ => a ≠ holder
  | .tick _ => True

instance (a : Address) (w : World State) (l : Label Entry) :
    Decidable (Bypasses a w l) :=
  match l with
  | .call .. => inferInstanceAs (Decidable (¬ _))
  | .transfer .. => inferInstanceAs (Decidable (_ ≠ _))
  | .mint .. => inferInstanceAs (Decidable (_ ≠ _))
  | .tick _ => inferInstanceAs (Decidable True)

section Runs

variable {self : Address} {w w' : World State} {ls : List (Label Entry)}

theorem step_withholds {l : Label Entry} (hself : a ≠ self)
    (hstep : Step exec self w l w') (hbypass : Bypasses a w l) :
    Bank.Withholds a w.machine.bank w'.machine.bank := by
  cases hstep with
  | call _ hexec => exact exec_withholds hexec hself hbypass
  | tick => exact .refl a _
  | transfer _ hB => exact .transfer hB hbypass
  | mint => exact .mint hbypass

/-- Over every run, an account that the pool may not pay whenever it is called
gains no tokens but those that are sent or issued to it from outside. -/
theorem pays_only_payees (hself : a ≠ self)
    (hrun : ((system self).restrict fun t l => Bypasses a t l).Run w ls w')
    (token : Address) :
    w'.machine.bank.balance token a ≤ w.machine.bank.balance token a := by
  have hkept := hrun.preserves
    (Q := fun t => Bank.Withholds a w.machine.bank t.machine.bank) ?_
    (.refl a _)
  · exact hkept token
  · rintro t l t' hwithheld ⟨hbypass, hstep⟩
    exact hwithheld.trans (step_withholds hself hstep hbypass)

end Runs

namespace Scenario

/-- The provider takes some of its deposit out, and the administrator sends a
premium on. -/
def paying : List (Label Entry) :=
  [funding, premium, .call [provider] (.withdraw provider 500000000000),
    .call [admin] (.sendPremiumToTreasury admin 1000)]

def paid : World State :=
  (TransitionSystem.execute
    (TransitionSystem.guarded (Bypasses admin) (step exec pool)) paying
    wired).get (by decide +kernel)

theorem pays_only_payees_paid :
    paid.machine.bank.balance usdc admin ≤
      wired.machine.bank.balance usdc admin :=
  pays_only_payees (by decide)
    (TransitionSystem.run_of_execute
      (TransitionSystem.guarded_sound fun _ _ _ => step_sound)
      (Option.some_get _).symm) usdc

end Scenario

end Parashield.RiskPool
