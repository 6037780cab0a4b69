import Parashield.OracleVerifier.Register
import Parashield.Protocol.Invariants
import Parashield.RiskPool.Reinsurance

/-!
# Whose tokens a call spends

A contract moves its own tokens, and those of a signer only where the call
charges for something: a policy, a deposit, a premium or a stake.  The one
other account that loses tokens is the reinsurer that covers a loss.
-/

namespace Parashield

open Support Support.Contract Invocation

/-! ## The policy engine -/

namespace PolicyEngine

variable {env : Env} {a : Address}

/-- The entry points that charge a signer. -/
def Entry.charges : Entry → Bool
  | .buyPolicy .. | .buyPolicyScheduled .. | .buyPolicyWithRate ..
  | .batchBuyPolicy .. => true
  | _ => false

theorem Book.Change.spares {k : Book.Kind} {b b' : Book}
    (h : Book.Change env k b b') (hself : a ≠ env.self)
    (hbuy : ∀ id, k = .buy id → a ∉ env.signers) :
    Bank.Spares a b.bank b'.bank := by
  cases h with
  | wire _ hB => exact .transfer hB hself
  | @buy _ p _ _ _ hoffered hB =>
      refine .transfer hB ?_
      rintro rfl
      exact hbuy p.id rfl hoffered.signed
  | cancel _ _ _ _ hB =>
      rcases hB with ⟨-, hB⟩ | ⟨-, rfl⟩
      · exact .transfer hB hself
      · exact .refl a _
  | claim _ _ _ hB => exact .transfer hB hself
  | transfer | expire | warn => exact .refl a _

theorem exec_spares {e : Entry} {m m' : Machine State} {u : Unit}
    (hwired : Wired m.store) (h : exec env e m = .ok (u, m'))
    (hself : a ≠ env.self) (hfree : a ∈ env.signers → e.charges = false) :
    Bank.Spares a m.bank m'.bank := by
  obtain ⟨heffect, -⟩ := exec_performs hwired h
  refine heffect.preserves (Q := fun b => Bank.Spares a m.bank b.bank) ?_
    (.refl a _)
  intro k b b' hk _ hchange hb
  refine hb.trans (hchange.spares hself ?_)
  rintro id rfl hsigned
  have hcharges : e.charges = true := by
    cases e <;> first | rfl | exact hk.elim
  rw [hfree hsigned] at hcharges
  cases hcharges

end PolicyEngine

/-! ## The oracle verifier -/

namespace OracleVerifier

variable {env : Env} {a : Address}

/-- The entry points that charge a signer. -/
def Entry.charges : Entry → Bool
  | .stake .. => true
  | _ => false

theorem Register.Paid.spares {r : Register} {amount : ℤ} {B : Bank}
    (h : Register.Paid env r amount B) (hself : a ≠ env.self) :
    Bank.Spares a r.bank B := by
  rcases h with rfl | ⟨token, treasury, -, hB⟩
  · exact .refl a _
  · exact .transfer hB hself

theorem Register.Change.spares {e : Entry} {s : State} {r r' : Register}
    (h : Register.Change env e s r r') (hself : a ≠ env.self)
    (hfree : a ∈ env.signers → e.charges = false) :
    Bank.Spares a r.bank r'.bank := by
  cases h with
  | stake he hsigned _ _ hB =>
      refine .transfer hB ?_
      rintro rfl
      have hnot := hfree hsigned
      rw [he] at hnot
      cases hnot
  | withdraw _ _ _ _ _ hB => exact .transfer hB hself
  | slash _ _ _ hpaid => exact hpaid.spares hself
  | stale _ _ _ _ hpaid => exact hpaid.spares hself
  | _ => exact .refl a _

theorem exec_spares {e : Entry} {m m' : Machine State}
    (h : exec env e m = .ok ((), m')) (hself : a ≠ env.self)
    (hfree : a ∈ env.signers → e.charges = false) :
    Bank.Spares a m.bank m'.bank := by
  have hchanges := exec_changes h
  have hspares : ∀ r, Register.Changes env e m.store (register m) r →
      Bank.Spares a m.bank r.bank := by
    intro r hr
    induction hr with
    | refl => exact .refl a _
    | tail _ hchange ih => exact ih.trans (hchange.spares hself hfree)
  exact hspares (register m') hchanges

end OracleVerifier

/-! ## The risk pool -/

namespace RiskPool

variable {env : Env} {a : Address}

/-- The entry points that charge a signer. -/
def Entry.charges : Entry → Bool
  | .deposit .. | .depositWithToken .. | .receivePremium .. => true
  | _ => false

/-- Whom an entry point asks to cover a loss. -/
def Entry.reinsurer (s : State) : Entry → Option Address
  | .requestReinsuranceRecovery .. => s.reinsurance.map fun c => c.reinsurer
  | _ => none

/-- The change may take tokens from `a`, which is not the pool. -/
def Book.Kind.Draws (env : Env) (a : Address) : Book.Kind → Prop
  | .mint provider .. => a = provider
  | .accrue _ => a ∈ env.signers
  | .recover .. => True
  | _ => False

theorem Pays.spares {self : Address} {token : Option Address}
    {payments : List (Address × ℤ)} {B B' : Bank}
    (h : Pays self token payments B B') (hself : a ≠ self) :
    Bank.Spares a B B' := by
  rcases h with ⟨-, rfl⟩ | ⟨usdc, -, hall⟩
  · exact .refl a _
  · exact .payAll hall hself

theorem Book.Change.spares {k : Book.Kind} {b b' : Book}
    (h : Book.Change env k b b') (hself : a ≠ env.self)
    (hdraws : ¬ k.Draws env a) : Bank.Spares a b.bank b'.bank := by
  cases h with
  | burn _ hpays => exact hpays.spares hself
  | mint _ _ hB _ hpays =>
      exact (Bank.Spares.transfer hB hdraws).trans (hpays.spares hself)
  | move _ _ _ _ _ _ hpays => exact hpays.spares hself
  | collect _ _ hpays => exact hpays.spares hself
  | accrue _ hsigned _ hB hall =>
      refine (Bank.Spares.transfer hB ?_).trans (.payAll hall hself)
      rintro rfl
      exact hdraws hsigned
  | forward _ _ hall => exact .payAll hall hself
  | recover => exact absurd trivial hdraws
  | adminWithdraw _ _ hall => exact .payAll hall hself
  | _ => exact .refl a _

theorem Sweeps.spares {n : ℕ} {b b' : Book} (h : Sweeps env n b b')
    (hself : a ≠ env.self) : Bank.Spares a b.bank b'.bank := by
  induction h with
  | refl => exact .refl a _
  | clear _ hclear ih => exact ih.trans (hclear.spares hself id)
  | burn _ hburn ih => exact ih.trans (hburn.spares hself id)

theorem sweepExpiredExits_spares {skip : Option Address} {maxScan n : ℕ}
    {m m' : Machine State}
    (h : sweepExpiredExits env maxScan skip m = .ok (n, m'))
    (hself : a ≠ env.self) : Bank.Spares a m.bank m'.bank := by
  obtain ⟨_, -, hsweeps⟩ := sweepExpiredExits_sweeps h
  exact hsweeps.spares hself

/-- Who takes part in a deposit, with the sweep before it. -/
theorem deposit_spares {provider : Address} {amount least minted : ℤ}
    {compound : Bool} {m m' : Machine State}
    (h : deposit env provider amount least compound m = .ok (minted, m'))
    (hself : a ≠ env.self) (hunsigned : a ∉ env.signers) :
    Bank.Spares a m.bank m'.bank := by
  obtain ⟨t, n, burnShares, hsweep, -, hchange⟩ := deposit_change h
  obtain ⟨_, _, _, _, _, hdeposits⟩ := deposit_ok h
  refine (sweepExpiredExits_spares hsweep hself).trans ?_
  refine hchange.spares hself ?_
  rintro rfl
  exact hunsigned hdeposits.signed

/-- Besides the pool, only the reinsurer pays for a recovery. -/
theorem requestReinsuranceRecovery_spares {caller : Address} {loss paid : ℤ}
    {answer : Option ReinsurerAnswer} {m m' : Machine State}
    (h : requestReinsuranceRecovery env caller loss answer m = .ok (paid, m'))
    (hreinsurer : ∀ config, m.store.reinsurance = some config →
      a ≠ config.reinsurer) : Bank.Spares a m.bank m'.bank := by
  unfold requestReinsuranceRecovery at h
  simp only [bind_ok, load_ok, requireProtocolCaller_ok] at h
  obtain ⟨_, t, ⟨-, -, ht⟩, s, t', ⟨hs, ht'⟩, h⟩ := h
  rw [hs, ht', ht] at h
  cases hrequest : m.store.recoveryRequest loss with
  | none =>
      rw [hrequest] at h
      obtain ⟨-, rfl⟩ := pure_ok.mp h
      exact .refl a _
  | some request =>
      obtain ⟨config, requested⟩ := request
      have hasks := recoveryRequest_asks hrequest
      simp only [hrequest, bind_ok, unwrap_ok, pure_ok] at h
      obtain ⟨usdc, t₀, ⟨-, ht₀⟩, report, t₁, hrecover, _, t₂, hcredit, -,
        rfl⟩ := h
      rw [ht₀] at hrecover
      obtain ⟨-, answered, B, -, -, hB, rfl⟩ := recover_ok hrecover
      have hbank : m'.bank = B := by
        simp only [whenever_ok, bind_ok, i128_ok, update_ok] at hcredit
        rcases hcredit with ⟨-, d, _, ⟨-, -, rfl⟩, rfl⟩ | ⟨-, rfl⟩
        · rfl
        · rfl
      rw [hbank]
      exact .transfer hB (hreinsurer config hasks.configured)

/-- The changes of a call that charges nobody and asks no reinsurer. -/
theorem Performs.spares {e : Entry} {m : Machine State} {b : Book}
    (h : Performs env m e b) (hself : a ≠ env.self)
    (hcharges : e.charges = false)
    (hkind : ∀ k, e.kind m.store = some k → ¬ k.Draws env a) :
    Bank.Spares a m.bank b.bank := by
  cases h with
  | idle => exact .refl a _
  | single hk hchange => exact hchange.spares hself (hkind _ hk)
  | deposit | depositWithToken => cases hcharges
  | withdraw hsweep hchange | requestExit hsweep hchange =>
      exact (sweepExpiredExits_spares hsweep hself).trans
        (hchange.spares hself id)
  | claimExit _ hclear hburn =>
      exact (hclear.spares hself id).trans (hburn.spares hself id)
  | processExpiredExits hsweep => exact sweepExpiredExits_spares hsweep hself

theorem exec_spares {e : Entry} {m m' : Machine State} {u : Unit}
    (h : exec env e m = .ok (u, m')) (hself : a ≠ env.self)
    (hfree : a ∈ env.signers → e.charges = false)
    (hreinsurer : e.reinsurer m.store ≠ some a) :
    Bank.Spares a m.bank m'.bank := by
  have hplain : e.charges = false →
      (∀ k, e.kind m.store = some k → ¬ k.Draws env a) →
      Bank.Spares a m.bank m'.bank :=
    (exec_performs h).spares hself
  have hunsigned : e.charges = true → a ∉ env.signers := by
    intro hcharges hsigned
    rw [hfree hsigned] at hcharges
    cases hcharges
  cases e with
  | deposit =>
      obtain ⟨minted, hrun⟩ := perform_ok.mp h
      exact deposit_spares hrun hself (hunsigned rfl)
  | depositWithToken =>
      obtain ⟨minted, hrun⟩ := perform_ok.mp h
      simp [depositWithToken] at hrun
      obtain ⟨-, hrun⟩ := hrun
      exact deposit_spares hrun hself (hunsigned rfl)
  | receivePremium =>
      rcases receivePremium_change h with ⟨-, hsame⟩ | hchange
      · have hbank : m'.bank = m.bank := congrArg Book.bank hsame
        rw [hbank]
        exact .refl a _
      · exact hchange.spares hself (hunsigned rfl)
  | requestReinsuranceRecovery =>
      obtain ⟨paid, hrun⟩ := perform_ok.mp h
      refine requestReinsuranceRecovery_spares hrun ?_
      rintro config hconfig rfl
      exact hreinsurer (by simp [Entry.reinsurer, hconfig])
  | executeAdminWithdrawal =>
      refine hplain rfl fun k hk => ?_
      obtain ⟨request, -, rfl⟩ := Option.map_eq_some_iff.mp hk
      exact id
  | _ =>
      refine hplain rfl fun k hk => ?_
      first
        | (cases hk; done)
        | (obtain rfl := Option.some.inj hk; exact id)

end RiskPool

/-! ## The claims processor -/

namespace ClaimsProcessor

variable {a engine : Address}

/-- The processor has the engine pay; nobody else spends anything. -/
theorem Move.spares {now : ℕ} {k : Kind} {d d' : Docket}
    (h : Move now engine k d d') (hengine : a ≠ engine) :
    Bank.Spares a d.engine.bank d'.engine.bank := by
  cases h with
  | settle _ _ _ hself hchange | payout _ _ _ _ _ hself hchange =>
      refine hchange.spares (hself ▸ hengine) ?_
      rintro id ⟨⟩
  | expire _ _ _ hchange =>
      cases hchange
      exact .refl a _
  | _ => exact .refl a _

theorem exec_spares {env : Context} {e : Entry} {m m' : Machine Network}
    {u : Unit} (horderly : (docket m).Orderly)
    (h : exec env e m = .ok (u, m')) (hengine : a ≠ env.engine) :
    Bank.Spares a m.bank m'.bank := by
  obtain ⟨ks, hrun⟩ := exec_moved horderly h
  have hkept := hrun.preserves
    (Q := fun d => Bank.Spares a m.bank d.engine.bank) ?_ (.refl a _)
  · exact hkept
  · rintro d k d' hd ⟨-, hmove⟩
    exact hd.trans (hmove.spares hengine)

end ClaimsProcessor

/-! ## The protocol -/

namespace Protocol

open ClaimsProcessor (Network docket)

variable {D : Sites} {a : Address}

/-- The contract whose own tokens a call may spend. -/
def Entry.payer (D : Sites) : Entry → Address
  | .claims _ | .engine _ => D.engine
  | .pool _ => D.pool
  | .oracle _ => D.oracle

/-- The entry points that charge a signer. -/
def Entry.charges : Entry → Bool
  | .claims _ => false
  | .engine e => e.charges
  | .pool e => e.charges
  | .oracle e => e.charges

/-- Whom an entry point asks to cover a loss. -/
def Entry.reinsurer (n : Network) : Entry → Option Address
  | .pool e => e.reinsurer n.pool
  | _ => none

/-- What may take tokens from `a`: a call of the contract at `a`, a call that
charges its signer `a`, a loss that `a` reinsures, or a transfer by `a`. -/
def Debits (D : Sites) (a : Address) (w : World Network) : Label Entry → Prop
  | .call signers e =>
      a = e.payer D ∨ (a ∈ signers ∧ e.charges = true) ∨
        e.reinsurer w.machine.store = some a
  | .transfer _ sender _ _ => a = sender
  | .tick _ | .mint .. => False

theorem not_debits {w : World Network} {signers : List Address} {e : Entry}
    (hself : a ≠ e.payer D) (hfree : a ∈ signers → e.charges = false)
    (hreinsurer : e.reinsurer w.machine.store = none) :
    ¬ Debits D a w (.call signers e) := by
  rintro (h | ⟨hsigned, hcharges⟩ | h)
  · exact hself h
  · rw [hfree hsigned] at hcharges
    cases hcharges
  · rw [hreinsurer] at h
    cases h

theorem step_spares {w w' : World Network} {l : Label Entry}
    (hsound : Sound (docket w.machine)) (hstep : (system D).Step w l w')
    (hspared : ¬ Debits D a w l) :
    Bank.Spares a w.machine.bank w'.machine.bank := by
  cases l with
  | call signers e =>
      obtain ⟨-, -, hexec⟩ := call_exec hstep
      simp only [Debits, not_or, not_and, Bool.not_eq_true] at hspared
      obtain ⟨hself, hfree, hreinsurer⟩ := hspared
      cases e with
      | claims e => exact ClaimsProcessor.exec_spares hsound.orderly hexec hself
      | engine e =>
          obtain ⟨s, B, hrun, hm⟩ := exec_engine_ok.mp hexec
          have hwired : PolicyEngine.Wired w.machine.store.engine :=
            ⟨hsound.wired.token_iff, hsound.wired.admin,
              hsound.wired.pendingAdmin⟩
          rw [hm]
          exact PolicyEngine.exec_spares hwired hrun hself hfree
      | pool e =>
          obtain ⟨s, B, hrun, hm⟩ := exec_pool_ok.mp hexec
          rw [hm]
          exact RiskPool.exec_spares hrun hself hfree hreinsurer
      | oracle e =>
          obtain ⟨s, B, hrun, hm⟩ := exec_oracle_ok.mp hexec
          rw [hm]
          exact OracleVerifier.exec_spares hrun hself hfree
  | tick =>
      cases hstep.2
      exact .refl a _
  | transfer =>
      cases hstep.2 with
      | transfer _ hB => exact .transfer hB hspared
  | mint =>
      cases hstep.2
      intro token
      exact Bank.balance_le_mint _ _ _ _ token a

/-- An account keeps its tokens through every run that contains no purchase,
deposit, premium or stake it signed, no loss it reinsures, no transfer of its
own and, where a contract is deployed there, no call of that contract. -/
theorem spends_only_charged {w w' : World Network} {ls : List (Label Entry)}
    (hw : (system D).Reachable w)
    (hrun : ((system D).restrict fun t l => ¬ Debits D a t l).Run w ls w')
    (token : Address) :
    w.machine.bank.balance token a ≤ w'.machine.bank.balance token a := by
  have hkept := hrun.preserves
    (Q := fun t => Sound (docket t.machine) ∧
      Bank.Spares a w.machine.bank t.machine.bank)
    (by
      rintro t l t' ⟨hsound, hspares⟩ ⟨hspared, hstep⟩
      exact ⟨(sound_inductive D).step t l t' hsound hstep,
        hspares.trans (step_spares hsound hstep hspared)⟩)
    ⟨reachable_sound hw, .refl a _⟩
  exact hkept.2 token

namespace Scenario

/-- The claim is paid, by a keeper. -/
def compensation : List (Label Entry) :=
  loss ++ [.call [keeper] (.claims (.processClaim keeper 1 none))]

def compensated : World Network :=
  (TransitionSystem.execute (step sites) compensation insured).get
    (by decide +kernel)

/-- The pool's deposits do not pay for the claim, and filing it costs its
holder nothing. -/
theorem spends_only_charged_compensated :
    insured.machine.bank.balance usdc sites.pool ≤
        compensated.machine.bank.balance usdc sites.pool ∧
      insured.machine.bank.balance usdc holder ≤
        compensated.machine.bank.balance usdc holder := by
  have hreach : (system sites).Reachable insured :=
    (insured_reachable (G := fun _ _ => True) fun _ _ _ => trivial).of_restrict
  have hrun : (system sites).Run insured compensation compensated :=
    TransitionSystem.run_of_execute (fun _ _ _ => step_sound)
      (Option.some_get _).symm
  have hfree : ∀ l ∈ compensation, ∀ t,
      ¬ Debits sites sites.pool t l ∧ ¬ Debits sites holder t l := by
    intro l hl t
    simp only [compensation, loss, List.cons_append, List.nil_append,
      List.mem_cons, List.not_mem_nil, or_false] at hl
    rcases hl with rfl | rfl | rfl
    · exact ⟨not_debits (by decide) (by decide) rfl,
        not_debits (by decide) (by decide) rfl⟩
    · exact ⟨not_debits (by decide) (by decide) rfl,
        not_debits (by decide) (by decide) rfl⟩
    · exact ⟨not_debits (by decide) (by decide) rfl,
        not_debits (by decide) (by decide) rfl⟩
  exact
    ⟨spends_only_charged hreach
        (hrun.restrict fun l hl t => (hfree l hl t).1) usdc,
      spends_only_charged hreach
        (hrun.restrict fun l hl t => (hfree l hl t).2) usdc⟩

end Scenario

end Protocol

end Parashield
