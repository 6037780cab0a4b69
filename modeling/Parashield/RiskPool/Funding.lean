import Parashield.RiskPool.Solvency

/-!
# Risk pool: runs covered by the surplus

A call is covered when the surplus of the pool pays for what the call forwards,
credits beyond its receipt, or rounds.  Along covered calls the tokens of the
pool always cover its deposits and the yield its providers can claim; one
premium forwarded out of the deposits is enough to break this.
-/

namespace Parashield.RiskPool

open Support Support.Contract Invocation

namespace Book

variable {b : Book}

/-! ## The price of a change -/

/-- Counting a position anew costs less than one token unit. -/
theorem rebaseCost_le (b : Book) (a : Address) (n : ℤ) :
    b.rebaseCost a (b.pending a) n ≤ perShareScale - 1 :=
  Yield.rounding_lt perShareScale_pos
    (Yield.scale_mul_pending_le perShareScale_pos)

theorem cost_burn_le (b : Book) (provider : Address) (shares : ℤ)
    (joint : Bool) : (Kind.burn provider shares joint).cost b ≤ perShareScale - 1 :=
  b.rebaseCost_le provider (b.held provider - shares)

theorem cost_mint_le (b : Book) (provider : Address) (newShares : ℤ)
    (compound : Bool) :
    (Kind.mint provider newShares compound).cost b ≤ perShareScale - 1 := by
  cases compound with
  | false => exact b.rebaseCost_le provider (b.held provider + newShares)
  | true =>
      refine Yield.rounding_lt perShareScale_pos ?_
      rw [if_pos rfl, mul_zero]
      exact Yield.claim_nonneg

end Book

open Book

/-! ## Sweeps -/

/-- A sweep rounds once for every exit it settles. -/
theorem Sweeps.covers {env : Env} {b b' : Book} {n : ℕ} {r : ℤ}
    (h : Sweeps env n b b') (hb : Sound b)
    (henv : env.self ∉ env.signers)
    (hcovers : Covers env.self (n * (perShareScale - 1) + r) b) :
    Covers env.self r b' := by
  induction h generalizing r with
  | refl =>
      rw [Nat.cast_zero, zero_mul, zero_add] at hcovers
      exact hcovers
  | clear hsweeps hclear ih =>
      refine hclear.covers (hsweeps.sound hb) henv ?_ nofun
      rw [show Kind.cost _ (.clear _) = 0 from rfl, zero_add]
      exact ih hb hcovers
  | @burn n _ b' _ provider shares hsweeps hburn ih =>
      have hprice := cost_burn_le b' provider shares false
      refine hburn.covers (hsweeps.sound hb) henv ?_ nofun
      refine (ih (r := perShareScale - 1 + r) hb ?_).mono (by omega)
      refine hcovers.mono (le_of_eq ?_)
      push_cast
      ring

/-! ## Covered calls -/

/-- What a call takes from the surplus, apart from the exits it settles for
others. -/
def Entry.cost (m : Machine State) : Entry → ℤ
  | .deposit provider amount _ compound
  | .depositWithToken provider _ amount _ compound =>
      match m.store.mintedShares amount with
      | .ok (minted, _) => (Kind.mint provider minted compound).cost (book m)
      | .error _ => 0
  | .withdraw provider shares =>
      (Kind.burn provider shares false).cost (book m)
  | .emergencyWithdraw provider _ shares =>
      (Kind.burn provider shares true).cost (book m)
  | .claimExit provider =>
      match m.store.exitReq provider with
      | some request =>
          (Kind.burn provider request.shares false).cost (book m)
      | none => 0
  | .transferPosition sender recipient shares
  | .transferShares sender recipient shares =>
      (Kind.move sender recipient shares).cost (book m)
  | .sendPremiumToTreasury _ amount
  | .sendPremiumToBackstop _ amount
  | .sendPremiumToReinsurer _ amount => (Kind.forward amount).cost (book m)
  | .requestReinsuranceRecovery _ _ loss (some answer) =>
      match m.store.recoveryRequest loss with
      | some (_, requested) =>
          (Kind.recover (max 0 (min answer.report requested))
            answer.paid).cost (book m)
      | none => 0
  | _ => 0

/-- Whose exit a call leaves alone when it settles the expired ones first. -/
def Entry.sweeps : Entry → Option (Option Address)
  | .deposit provider .. | .depositWithToken provider ..
  | .withdraw provider _ | .requestExit provider _ => some (some provider)
  | .processExpiredExits _ => some none
  | _ => none

/-- The surplus of the pool at `self` pays for the call itself. -/
def Entry.Paid (self : Address) (m : Machine State) (e : Entry) : Prop :=
  e.cost m ≤ 0 ∨ Covers self (e.cost m) (book m)

/-- The surplus pays for the call and for the exits it settles on the way:
there are none, or there is a token unit for each of them and for the call. -/
def Entry.Covered (self : Address) (now : ℕ) (m : Machine State)
    (e : Entry) : Prop :=
  match e.sweeps with
  | none => e.Paid self m
  | some skip =>
      (¬ m.store.ExitDue now skip ∧ e.Paid self m) ∨
        Covers self ((maxAutoExitScan + 1) * (perShareScale - 1)) (book m)

/-- The calls of a step are covered. -/
def Covered (self : Address) (w : World State) : Label Entry → Prop
  | .call _ e => e.Covered self w.now w.machine
  | _ => True

section Performing

variable {env : Env} {m : Machine State} {e : Entry} {b : Book}

/-- A call that makes a single change costs what the change does. -/
theorem Entry.cost_of_kind (e : Entry) {k : Kind}
    (h : e.kind m.store = some k) : e.cost m = k.cost (book m) := by
  cases e with
  | requestReinsuranceRecovery caller policyId loss answer =>
      cases answer with
      | none => cases h
      | some answer =>
          cases hrequest : m.store.recoveryRequest loss with
          | none =>
              simp only [Entry.kind, hrequest] at h
              cases h
          | some request =>
              simp only [Entry.kind, hrequest] at h
              obtain rfl := Option.some.inj h
              simp only [Entry.cost, hrequest]
  | executeAdminWithdrawal =>
      obtain ⟨_, -, rfl⟩ := Option.map_eq_some_iff.mp h
      rfl
  | _ => cases h <;> rfl

theorem Entry.sweeps_of_kind (e : Entry) {k : Kind}
    (h : e.kind m.store = some k) : e.sweeps = none := by
  cases e with
  | deposit => cases h
  | depositWithToken => cases h
  | withdraw => cases h
  | requestExit => cases h
  | processExpiredExits => cases h
  | _ => rfl

theorem Entry.Paid.covers {self : Address} (h : e.Paid self m)
    (hcovers : Covers self 0 (book m)) : Covers self (e.cost m) (book m) := by
  rcases h with hfree | hpaid
  · exact hcovers.mono hfree
  · exact hpaid

/-- A sweep out of a large enough surplus leaves one token unit of it. -/
theorem sweep_covers {skip : Option Address} {maxScan n : ℕ}
    {t : Machine State} (hb : Sound (book m)) (henv : env.self ∉ env.signers)
    (hscan : maxScan ≤ maxAutoExitScan)
    (hsweep : sweepExpiredExits env maxScan skip m = .ok (n, t))
    (hcovers : Covers env.self
      ((maxAutoExitScan + 1) * (perShareScale - 1)) (book m)) :
    Covers env.self (perShareScale - 1) (book t) := by
  obtain ⟨k, hk, hsweeps⟩ := sweepExpiredExits_sweeps hsweep
  refine hsweeps.covers hb henv (hcovers.mono ?_)
  have hmost : (k : ℤ) ≤ maxAutoExitScan := by
    exact_mod_cast hk.trans hscan
  have hscale : (0 : ℤ) ≤ perShareScale - 1 := by decide
  calc (k : ℤ) * (perShareScale - 1) + (perShareScale - 1)
      = (k + 1) * (perShareScale - 1) := by ring
    _ ≤ (maxAutoExitScan + 1) * (perShareScale - 1) :=
        mul_le_mul_of_nonneg_right (by omega) hscale

theorem mintedShares_congr {t : Machine State} (h : book t = book m)
    (amount : ℤ) :
    t.store.mintedShares amount = m.store.mintedShares amount := by
  have hshares : t.store.totalShares = m.store.totalShares :=
    congrArg Book.totalShares h
  have hdeposited : t.store.totalDeposited = m.store.totalDeposited :=
    congrArg Book.totalDeposited h
  simp only [State.mintedShares, hshares, hdeposited]

/-- A covered call leaves the pool covered. -/
theorem Performs.covers (h : Performs env m e b) (hb : Sound (book m))
    (henv : env.self ∉ env.signers)
    (hcovered : e.Covered env.self env.now m)
    (hcovers : Covers env.self 0 (book m)) : Covers env.self 0 b := by
  induction h with
  | idle => exact hcovers
  | @single e k b hkind hchange =>
      have hpaid : e.Paid env.self m := by
        rwa [Entry.Covered, e.sweeps_of_kind hkind] at hcovered
      have hcost := hpaid.covers hcovers
      rw [e.cost_of_kind hkind] at hcost
      refine hchange.covers hb henv ?_ fun _ => le_rfl
      rwa [add_zero]
  | @deposit provider amount least minted burnShares compound t n b hsweep
      hminted hchange =>
      have hsound := sweepExpiredExits_sound hb hsweep
      refine hchange.covers hsound henv ?_ nofun
      rw [add_zero]
      rcases hcovered with ⟨hidle, hpaid⟩ | hmany
      · have hsame := sweepExpiredExits_idle hidle hsweep
        have hpaid := hpaid.covers hcovers
        rw [mintedShares_congr hsame] at hminted
        simp only [Entry.cost, hminted] at hpaid
        rwa [hsame]
      · exact (sweep_covers hb henv le_rfl hsweep hmany).mono
          (cost_mint_le _ provider minted compound)
  | depositWithToken _ ih => exact ih hcovered
  | @withdraw provider shares t n b hsweep hchange =>
      have hsound := sweepExpiredExits_sound hb hsweep
      refine hchange.covers hsound henv ?_ nofun
      rw [add_zero]
      rcases hcovered with ⟨hidle, hpaid⟩ | hmany
      · rw [sweepExpiredExits_idle hidle hsweep]
        exact hpaid.covers hcovers
      · exact (sweep_covers hb henv le_rfl hsweep hmany).mono
          (cost_burn_le _ provider shares false)
  | requestExit hsweep hchange =>
      have hsound := sweepExpiredExits_sound hb hsweep
      refine hchange.covers hsound henv ?_ nofun
      rw [show Kind.cost _ (.enqueue _) = 0 from rfl, add_zero]
      rcases hcovered with ⟨hidle, -⟩ | hmany
      · rwa [sweepExpiredExits_idle hidle hsweep]
      · exact (sweep_covers hb henv le_rfl hsweep hmany).mono (by decide)
  | @claimExit provider request b b' hrequest hclear hburn =>
      have hpaid := Entry.Paid.covers hcovered hcovers
      simp only [Entry.cost, hrequest] at hpaid
      refine hburn.covers (hclear.sound hb) henv ?_ nofun
      rw [add_zero]
      cases hclear
      exact hpaid
  | processExpiredExits hsweep =>
      rcases hcovered with ⟨hidle, -⟩ | hmany
      · rwa [sweepExpiredExits_idle hidle hsweep]
      · exact (sweep_covers hb henv (min_le_right _ _) hsweep hmany).mono
          (by decide)

end Performing

/-! ## Covered runs -/

theorem Book.Covers.fund {self : Address} {r : ℤ} {b : Book} {B : Bank}
    (h : Covers self r b)
    (hB : ∀ token, b.bank.balance token self ≤ B.balance token self) :
    Covers self r { b with bank := B } := by
  by_cases hnone : b.usdcToken = none
  · simp only [Covers, hnone] at h ⊢
    exact h
  · obtain ⟨usdc, htoken⟩ := Option.ne_none_iff_exists'.mp hnone
    rw [covers_iff htoken] at h
    rw [covers_iff (b := { b with bank := B }) htoken]
    refine h.mono (sub_le_sub_right (mul_le_mul_of_nonneg_left ?_
      perShareScale_pos.le) r)
    have hmore := hB usdc
    show (b.bank.balance usdc self : ℤ) - b.totalDeposited ≤
      B.balance usdc self - b.totalDeposited
    omega

/-- Along covered runs the pool book is sound and covered. -/
theorem covers_inductive (self : Address) :
    ((system self).restrict (Covered self)).Inductive fun w =>
      Sound (book w.machine) ∧ Covers self 0 (book w.machine) := by
  refine ((sound_inductive self).restrict (Covered self)).and ?_ ?_
  · intro w hinit
    obtain ⟨now, store, bank⟩ := w
    obtain ⟨rfl, -⟩ := hinit
    exact le_rfl
  · rintro w l w' hsound - hcovers ⟨hcovered, hstep⟩
    cases hstep with
    | call hself hexec =>
        exact (exec_performs hexec).covers hsound hself hcovered hcovers
    | tick => exact hcovers
    | transfer hsender htransfer =>
        exact hcovers.fund fun token =>
          Bank.balance_le_transfer htransfer (Ne.symm hsender) token
    | mint =>
        exact hcovers.fund fun token =>
          Bank.balance_le_mint w.machine.bank _ _ _ token self

/-- Along covered runs the tokens of the pool cover its deposits and all
yield not claimed yet. -/
theorem pool_solvent_of_covered {self usdc : Address} {w : World State}
    (hw : ((system self).restrict (Covered self)).Reachable w)
    (htoken : w.machine.store.usdcToken = some usdc) (F : Finset Address) :
    w.machine.store.totalDeposited +
        ∑ a ∈ F, w.machine.store.pendingYield a ≤
      w.machine.bank.balance usdc self := by
  obtain ⟨hsound, hcovers⟩ := hw.invariant (covers_inductive self)
  have hcapped : ∑ a ∈ F, (book w.machine).claim a ≤
      perShareScale * (w.machine.bank.balance usdc self -
        w.machine.store.totalDeposited) - 0 :=
    (covers_iff htoken).mp hcovers F
  rw [sub_zero] at hcapped
  have hpending : perShareScale * ∑ a ∈ F, w.machine.store.pendingYield a ≤
      ∑ a ∈ F, (book w.machine).claim a := by
    rw [Finset.mul_sum]
    refine Finset.sum_le_sum fun a _ => ?_
    rw [hsound.pendingYield_eq a]
    exact Yield.scale_mul_pending_le perShareScale_pos
  have hle := le_of_mul_le_mul_left (hpending.trans hcapped) perShareScale_pos
  omega

/-! ## A pool with one provider and one premium -/

namespace Scenario

/-- The administrator forwards tokens that belong to the provider. -/
def forwarding : Label Entry :=
  .call [admin] (.sendPremiumToTreasury admin 2000)

def drained : World State :=
  (step exec pool earning forwarding).get (by decide +kernel)

/-- Up to the premium every call is covered. -/
theorem earning_covered :
    ((system pool).restrict (Covered pool)).Reachable earning := by
  have hgenesis : ((system pool).restrict (Covered pool)).Reachable genesis :=
    .init ⟨rfl, rfl⟩
  have hwiring : Covered pool genesis wiring := Or.inl le_rfl
  have hwired : ((system pool).restrict (Covered pool)).Reachable wired :=
    .step hgenesis ⟨hwiring, step_sound (Option.some_get _).symm⟩
  have hidle : ¬ wired.machine.store.ExitDue wired.now (some provider) := by
    rintro ⟨idx, _, _, hidx, -⟩
    have hcount : wired.machine.store.lpCount = 0 := by decide +kernel
    omega
  have hpaid : (Entry.deposit provider 1000000 0 false).Paid pool
      wired.machine :=
    .inl (by decide +kernel)
  have hfunding : Covered pool wired funding := Or.inl ⟨hidle, hpaid⟩
  have hfunded : ((system pool).restrict (Covered pool)).Reachable funded :=
    .step hwired ⟨hfunding, step_sound (Option.some_get _).symm⟩
  have hpremium : Covered pool funded premium := Or.inl le_rfl
  exact .step hfunded ⟨hpremium, step_sound (Option.some_get _).symm⟩

end Scenario

open Scenario in
/-- After the premium one token unit is left over. -/
theorem pool_solvent_of_covered_earning :
    earning.machine.store.totalDeposited = 1000000 ∧
      earning.machine.store.pendingYield provider = 7999 ∧
      earning.machine.bank.balance usdc pool = 1008000 ∧
      earning.machine.store.totalDeposited +
          ∑ a ∈ {provider}, earning.machine.store.pendingYield a ≤
        earning.machine.bank.balance usdc pool := by
  refine ⟨by decide +kernel, by decide +kernel, by decide +kernel, ?_⟩
  exact pool_solvent_of_covered earning_covered (by decide +kernel) {provider}

open Scenario in
/-- After an administrator forwarded 2000 more, the pool cannot pay both the
deposit and the yield of its only provider. -/
theorem pool_insolvent_after_forwarding :
    (system pool).Reachable drained ∧
      drained.machine.store.usdcToken = some usdc ∧
      (drained.machine.bank.balance usdc pool : ℤ) <
        drained.machine.store.totalDeposited +
          ∑ a ∈ {provider}, drained.machine.store.pendingYield a := by
  refine ⟨?_, by decide +kernel, by decide +kernel⟩
  exact .step earning_covered.of_restrict (step_sound (Option.some_get _).symm)

end Parashield.RiskPool
