import Parashield.Protocol.Payouts

/-!
# Installments

A keeper may schedule the payment of an approved claim in installments, which
the claimant then collects as they fall due.  A collection releases the capital
lock of the policy, which can be done once, and transfers nothing.
-/

namespace Parashield.Protocol

open Support Support.Contract Invocation
open ClaimsProcessor

/-- Some installment that was not collected yet is due. -/
structure Due (s : InstallmentSchedule) (now : ℕ) : Prop where
  remains : s.paidCount < s.numInstallments
  due : s.firstInstallmentAt + s.paidCount * s.intervalSeconds ≤ now

instance (s : InstallmentSchedule) (now : ℕ) : Decidable (Due s now) :=
  decidable_of_iff
    (s.paidCount < s.numInstallments ∧
      s.firstInstallmentAt + s.paidCount * s.intervalSeconds ≤ now)
    ⟨fun h => ⟨h.1, h.2⟩, fun h => ⟨h.1, h.2⟩⟩

/-- What the installments of claim `id` promise from `w` on, whatever else
happens. -/
structure InstallmentsPay (D : Sites) (w : World Network) (id : ℕ) :
    Prop where
  /-- The claimant can collect what is due. -/
  collectable : ∀ {ls w' c s}, (system D).Run w ls w' →
    w'.machine.store.claims.paused = false →
    w'.machine.store.claims.claim id = some c →
    c.installments.head? = some s → Due s w'.now →
    ∃ amount m', claimInstallment (D.context w'.now [c.claimant]) c.claimant
      id w'.machine = .ok (amount, m')
  /-- A collection transfers what it returns. -/
  transfers : ∀ {ls w' signers claimant amount m'}, (system D).Run w ls w' →
    claimInstallment (D.context w'.now signers) claimant id w'.machine =
      .ok (amount, m') →
    ∃ token sender,
      w'.machine.bank.transfer token sender claimant amount = some m'.bank
  /-- Installments and the payment of the policy stay within the coverage. -/
  capped : ∀ {ls w' c s p}, (system D).Run w ls w' →
    w'.machine.store.claims.claim id = some c →
    c.installments.head? = some s →
    w'.machine.store.engine.policies c.policyId = some p →
    s.paidCount * s.amountPerInstallment +
        (if p.status = .claimed then p.coverageAmount else 0) ≤
      c.coverageAmount

section Collecting

variable {env : Context} {m m' : Machine Network} {id : ℕ}

/-- No collection touches the tokens. -/
theorem claimInstallment_bank {claimant : Address} {amount : ℤ}
    (h : claimInstallment env claimant id m = .ok (amount, m')) :
    m'.bank = m.bank := by
  simp [claimInstallment, RiskPool.releaseForClaim, RiskPool.releaseLock] at h
  obtain ⟨-, -, c, -, -, s, -, -, due, -, -, -, l, -, rfl, -⟩ := h
  rfl

/-- What an accepted schedule leaves behind. -/
theorem scheduleInstallments_found {caller : Address} {amount : ℤ}
    {num interval : ℕ} {u : Unit}
    (h : scheduleInstallments env caller id amount num interval m =
      .ok (u, m')) :
    m'.store.claims.paused = false ∧
      ∃ c s, m'.store.claims.claim id = some c ∧
        c.installments.head? = some s ∧ s.paidCount = 0 ∧
        0 < s.numInstallments ∧
        s.firstInstallmentAt = satAddU64 env.now interval := by
  simp [scheduleInstallments] at h
  obtain ⟨-, hrunning, -, ⟨hnum, -⟩, c, hc, -, -, rfl⟩ := h
  exact ⟨hrunning, _, _, Function.update_self .., rfl, rfl,
    Nat.pos_of_ne_zero hnum, rfl⟩

/-- A transfer of tokens leaves a trace. -/
theorem transfer_ne {B B' : Bank} {token sender recipient : Address}
    {amount : ℤ} (h : B.transfer token sender recipient amount = some B') :
    B' ≠ B := by
  obtain ⟨-, L, L', -, -, -, hhistory⟩ := Bank.transfer_eq_some h
  rintro rfl
  exact List.cons_ne_self _ _ hhistory.symm

end Collecting

section Runs

variable {D : Sites} {w w₁ : World Network}

/-- Time can pass up to any moment the clock can show. -/
theorem wait_until {t : ℕ} (ht : t ≤ maxU64) :
    ∃ ls w', (system D).Run w ls w' ∧ w'.machine = w.machine ∧ t ≤ w'.now := by
  by_cases hpast : t ≤ w.now
  · exact ⟨[], w, .nil w, rfl, hpast⟩
  · have hclock : w.now + (t - w.now) ≤ maxU64 := by omega
    refine ⟨[.tick (t - w.now)], _, .cons ⟨trivial, .tick hclock⟩ (.nil _), rfl,
      ?_⟩
    show t ≤ w.now + (t - w.now)
    omega

/-- No schedule that a keeper sets up, in a reachable state or any other, keeps
what installments promise. -/
theorem installments_never_pay {signers : List Address} {caller : Address}
    {id num interval : ℕ} {amount : ℤ}
    (hstep : (system D).Step w (.call signers (.claims
      (.scheduleInstallments caller id amount num interval))) w₁) :
    ¬ InstallmentsPay D w₁ id := by
  intro hpay
  obtain ⟨-, -, hexec⟩ := call_exec hstep
  obtain ⟨hrunning, c, s, hc, hs, hcount, hnum, hfirst⟩ :=
    scheduleInstallments_found hexec
  have hclock : s.firstInstallmentAt ≤ maxU64 := by
    rw [hfirst]
    exact min_le_right ..
  obtain ⟨ls, w₂, hrun, hmachine, htime⟩ := wait_until (D := D) (w := w₁) hclock
  rw [← hmachine] at hrunning hc
  have hdue : Due s w₂.now := by
    refine ⟨hcount ▸ hnum, ?_⟩
    rw [hcount, zero_mul, add_zero]
    exact htime
  -- the first installment can be collected, and is then not transferred
  obtain ⟨paid, m', hcollect⟩ := hpay.collectable hrun hrunning hc hs hdue
  obtain ⟨token, sender, htransfer⟩ := hpay.transfers hrun hcollect
  exact transfer_ne htransfer (claimInstallment_bank hcollect)

end Runs

namespace Scenario

/-- While an approved claim awaits its payout, it is scheduled in two
installments. -/
def splitting (interval : ℕ) : Label Entry :=
  .call [keeper] (.claims (.scheduleInstallments keeper 1 100 2 interval))

def splitTwice : World Network :=
  (step sites awaiting (splitting 60)).get (by decide +kernel)

def firstDue : World Network :=
  (step sites splitTwice (.tick 60)).get (by decide +kernel)

def firstTaken : World Network :=
  (step sites firstDue
    (.call [holder] (.claims (.claimInstallment holder 1)))).get
    (by decide +kernel)

def secondDue : World Network :=
  (step sites firstTaken (.tick 60)).get (by decide +kernel)

/-- The installments are due all at once. -/
def splitAtOnce : World Network :=
  (step sites awaiting (splitting 0)).get (by decide +kernel)

end Scenario

open Scenario in
theorem installments_never_pay_split :
    ¬ InstallmentsPay sites splitTwice 1 :=
  installments_never_pay
    (step_sound (Option.some_get (by decide +kernel)).symm)

open Scenario in
/-- The first collection returns 100 and transfers nothing, the second fails
although its installment is due, and without an interval there is not even a
first one. -/
theorem installments_fail :
    (system sites).Reachable secondDue ∧
      (system sites).Reachable splitAtOnce ∧
      (claimInstallment (sites.context firstDue.now [holder]) holder 1
          firstDue.machine).toOption.map Prod.fst = some 100 ∧
      firstTaken.machine.bank.history = firstDue.machine.bank.history ∧
      (∀ c, secondDue.machine.store.claims.claim 1 = some c →
        ∀ s, c.installments.head? = some s → Due s secondDue.now) ∧
      (claimInstallment (sites.context secondDue.now [holder]) holder 1
          secondDue.machine).toOption.isNone = true ∧
      (∀ c, splitAtOnce.machine.store.claims.claim 1 = some c →
        ∀ s, c.installments.head? = some s → Due s splitAtOnce.now ∧
          (s.available splitAtOnce.now).toOption.isNone = true) := by
  have hawaiting : (system sites).Reachable awaiting :=
    (awaiting_reachable (G := fun _ _ => True) (fun _ _ _ => trivial)
      (fun _ _ _ => trivial) fun _ _ _ => trivial).of_restrict
  have hstep : ∀ {w w' : World Network} {l : Label Entry},
      (system sites).Reachable w → step sites w l = some w' →
        (system sites).Reachable w' :=
    fun hw hstep => .step hw (step_sound hstep)
  have hsplit : (system sites).Reachable splitTwice :=
    hstep hawaiting (Option.some_get _).symm
  have hdue : (system sites).Reachable firstDue :=
    hstep hsplit (Option.some_get _).symm
  have htaken : (system sites).Reachable firstTaken :=
    hstep hdue (Option.some_get _).symm
  exact ⟨hstep htaken (Option.some_get _).symm,
    hstep hawaiting (Option.some_get _).symm, by decide +kernel,
    by decide +kernel, by decide +kernel, by decide +kernel, by decide +kernel⟩

end Parashield.Protocol
