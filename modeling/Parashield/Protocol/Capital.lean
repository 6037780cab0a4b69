import Parashield.Protocol.Sweeps
import Parashield.RiskPool.Soundness

/-!
# The capital behind the policies

The pool's lock for a policy lives as long as the policy only while every way
to end the policy releases it.  The claims processor does so; a cancellation
does not, and an installment releases the lock of a policy that stays active.
And a payment comes out of what the engine holds, never out of the deposits.
-/

namespace Parashield.Protocol

open Support Support.Contract Invocation
open PolicyEngine (Policy)
open ClaimsProcessor (Claim Docket Kind Move Network docket)
open RiskPool (CapitalLock)

/-! ## The pool within the protocol -/

/-- The pool of a docket. -/
def pool (d : Docket) : RiskPool.State :=
  { d.poolRest with
    lock := d.lock
    totalLocked := d.totalLocked }

/-- The pool of the docket is sound, and the held locks make its locked
total. -/
structure PoolSound (d : Docket) : Prop where
  sound : (RiskPool.book ⟨pool d, d.engine.bank⟩).Sound
  total : HasTotal (RiskPool.book ⟨pool d, d.engine.bank⟩).lockedFor
    d.totalLocked

section Pool

variable {now : ℕ} {engine : Address} {k : Kind} {d d' : Docket}

/-- A move leaves the pool alone, or releases one lock. -/
theorem move_pool (h : Move now engine k d d') :
    pool d' = pool d ∨ ∃ policyId l, d.Holds policyId l ∧
      pool d' = pool (d.release policyId l) := by
  cases h with
  | settle _ _ _ _ _ hheld => exact .inr ⟨_, _, hheld, rfl⟩
  | payout _ _ _ _ _ _ _ hheld => exact .inr ⟨_, _, hheld, rfl⟩
  | expire _ _ _ _ hheld => exact .inr ⟨_, _, hheld, rfl⟩
  | installment _ _ _ hheld => exact .inr ⟨_, _, hheld, rfl⟩
  | _ => exact .inl rfl

theorem PoolSound.same (h : PoolSound d) (hpool : pool d' = pool d) :
    PoolSound d' := by
  have hsound : (RiskPool.book ⟨pool d, d'.engine.bank⟩).Sound :=
    { h.sound with }
  have htotal : HasTotal (RiskPool.book ⟨pool d, d'.engine.bank⟩).lockedFor
      (pool d).totalLocked := h.total
  rw [← hpool] at hsound htotal
  exact ⟨hsound, htotal⟩

theorem PoolSound.change {env : Env} {bk : RiskPool.Book.Kind}
    (h : PoolSound d)
    (hchange : RiskPool.Book.Change env bk
      (RiskPool.book ⟨pool d, d.engine.bank⟩)
      (RiskPool.book ⟨pool d', d'.engine.bank⟩)) : PoolSound d' :=
  ⟨hchange.sound h.sound, hchange.hasTotal h.sound h.total⟩

theorem PoolSound.move (h : PoolSound d) (hmove : Move now engine k d d') :
    PoolSound d' := by
  rcases move_pool hmove with hpool | ⟨policyId, l, hheld, hpool⟩
  · exact h.same hpool
  · have hchange : RiskPool.Book.Change ⟨now, engine, []⟩ (.release policyId)
        (RiskPool.book ⟨pool d, d.engine.bank⟩)
        (RiskPool.book ⟨pool (d.release policyId l), d.engine.bank⟩) :=
      .release hheld.1 hheld.2
    exact (h.change hchange).same hpool

theorem poolSound_deployed (B : Bank) :
    PoolSound (docket ⟨.deployed, B⟩) where
  sound := RiskPool.Sound.deployed B
  total := RiskPool.hasTotal_of_unlocked (fun _ => rfl) rfl

theorem poolSound_inductive (D : Sites) :
    (system D).Inductive fun w =>
      Sound (docket w.machine) ∧ PoolSound (docket w.machine) where
  init := by
    rintro ⟨now, ⟨store, B⟩⟩ ⟨hstore, -⟩
    obtain rfl : store = Network.deployed := hstore
    exact ⟨sound_deployed B, poolSound_deployed B⟩
  step := by
    rintro w l w' ⟨hsound, hpool⟩ hstep
    refine ⟨(sound_inductive D).step w l w' hsound hstep, ?_⟩
    cases l with
    | call signers e =>
        obtain ⟨-, -, hexec⟩ := call_exec hstep
        cases e with
        | claims e =>
            obtain ⟨ks, hrun⟩ := ClaimsProcessor.exec_moved hsound.orderly hexec
            exact hrun.preserves (fun _ _ _ h (hmove : _ ∧ _) => h.move hmove.2)
              hpool
        | pool e =>
            obtain ⟨s, B, hrun, hm⟩ := exec_pool_ok.mp hexec
            have hperforms := RiskPool.exec_performs hrun
            rw [hm]
            exact ⟨hperforms.sound hpool.sound,
              hperforms.hasTotal hpool.sound hpool.total⟩
        | engine e =>
            obtain ⟨s, B, -, hm⟩ := exec_engine_ok.mp hexec
            exact hpool.same (by rw [hm]; rfl)
        | oracle e =>
            obtain ⟨s, B, -, hm⟩ := exec_oracle_ok.mp hexec
            exact hpool.same (by rw [hm]; rfl)
    | tick =>
        cases hstep.2
        exact hpool
    | transfer =>
        cases hstep.2
        exact hpool.same rfl
    | mint =>
        cases hstep.2
        exact hpool.same rfl

end Pool

/-! ## Locks and policies -/

/-- The lock of every policy is as large as its coverage, and is held as long
as the policy is active. -/
def Tracks (d : Docket) : Prop :=
  ∀ id l, d.lock id = some l →
    ∃ p, d.engine.policies id = some p ∧ l.amount = p.coverageAmount ∧
      (l.released = false ↔ p.status = .active)

section Tracks

variable {now : ℕ} {engine : Address} {k : Kind} {d d' : Docket}

theorem Tracks.same (h : Tracks d) (hlock : d'.lock = d.lock)
    (hpolicies : d'.engine.policies = d.engine.policies) : Tracks d' := by
  unfold Tracks
  rw [hlock, hpolicies]
  exact h

/-- A change of the policies that ends none with a lock. -/
theorem Tracks.change {env : Env} {bk : PolicyEngine.Book.Kind}
    {b : PolicyEngine.Book} (h : Tracks d) (hsound : d.engine.Sound)
    (hchange : PolicyEngine.Book.Change env bk d.engine b)
    (hends : ∀ id, bk.Ends id → d.lock id = none) :
    Tracks { d with engine := b } := by
  intro id l hl
  obtain ⟨p, hp, hamount, hheld⟩ := h id l hl
  obtain ⟨p', hp', hcontinues⟩ := hsound.continues hchange hp
  refine ⟨p', hp', hamount.trans hcontinues.terms.coverage.symm, ?_⟩
  rcases hcontinues.status with hstatus | ⟨-, hend⟩
  · rw [hstatus, hheld]
  · rw [show d.lock id = none from hends id hend] at hl
    cases hl

/-- A policy ends and its lock is released with it. -/
theorem Tracks.ends {env : Env} {bk : PolicyEngine.Book.Kind}
    {b : PolicyEngine.Book} {policyId : ℕ} {l : CapitalLock} (h : Tracks d)
    (hsound : d.engine.Sound) (hheld : d.Holds policyId l)
    (hchange : PolicyEngine.Book.Change env bk d.engine b)
    (hends : ∀ id, bk.Ends id ↔ id = policyId) :
    Tracks { d.release policyId l with engine := b } := by
  intro id l' hl'
  by_cases hid : id = policyId
  · subst hid
    obtain ⟨p, hp, hamount, -⟩ := h id l hheld.1
    obtain ⟨p', hp', hcontinues⟩ := hsound.continues hchange hp
    have hended := hcontinues.ends ((hends id).mpr rfl)
    simp only [Docket.release, Function.update_self, Option.some.injEq] at hl'
    subst hl'
    refine ⟨p', hp', hamount.trans hcontinues.terms.coverage.symm, ?_⟩
    simp [hended]
  · simp only [Docket.release, Function.update_of_ne hid] at hl'
    obtain ⟨p, hp, hamount, hreleased⟩ := h id l' hl'
    obtain ⟨p', hp', hcontinues⟩ := hsound.continues hchange hp
    refine ⟨p', hp', hamount.trans hcontinues.terms.coverage.symm, ?_⟩
    rcases hcontinues.status with hstatus | ⟨-, hend⟩
    · rw [hstatus, hreleased]
    · exact (hid ((hends id).mp hend)).elim

theorem Tracks.move (h : Tracks d) (hsound : d.engine.Sound)
    (hmove : Move now engine k d d')
    (hinstallment : ∀ id c p, k = .installment id → d.claim id = some c →
      d.engine.policies c.policyId = some p → p.status ≠ .active) :
    Tracks d' := by
  have hclaim : ∀ {env b policyId l}, d.Holds policyId l →
      PolicyEngine.Book.Change env (.claim policyId) d.engine b →
      Tracks { d.release policyId l with engine := b } :=
    fun hheld hchange => h.ends hsound hheld hchange
      (by simp [PolicyEngine.Book.Kind.Ends, eq_comm])
  cases hmove with
  | settle _ _ _ _ hchange hheld => exact (hclaim hheld hchange).same rfl rfl
  | payout _ _ _ _ _ _ hchange hheld =>
      exact (hclaim hheld hchange).same rfl rfl
  | expire _ _ _ hchange hheld =>
      exact h.ends hsound hheld hchange
        (by simp [PolicyEngine.Book.Kind.Ends, eq_comm])
  | installment hc _ _ hheld =>
      -- a lock that is held belongs to an active policy
      obtain ⟨p, hp, -, hactive⟩ := h _ _ hheld.1
      exact (hinstallment _ _ p rfl hc hp (hactive.mp hheld.2)).elim
  | _ => exact h.same rfl rfl

end Tracks

/-- Locks are made for active policies over their coverage, and nothing but
the claims processor ends a policy with a lock or releases the lock of an
active one; no installment is collected before the policy has ended. -/
def KeepsLocks (w : World Network) : Label Entry → Prop
  | .call _ (.pool (.lockForPolicy _ policyId amount)) =>
      ∃ p, w.machine.store.engine.policies policyId = some p ∧
        p.status = .active ∧ amount = p.coverageAmount
  | .call _ (.pool (.releaseForClaim _ policyId))
  | .call _ (.pool (.releaseForExpiry _ policyId)) =>
      ∀ p, w.machine.store.engine.policies policyId = some p →
        p.status ≠ .active
  | .call _ (.engine (.cancelPolicy _ policyId _))
  | .call _ (.engine (.payClaim _ policyId))
  | .call _ (.engine (.expirePolicy _ policyId)) =>
      w.machine.store.pool.lock policyId = none
  | .call _ (.claims (.claimInstallment _ id)) =>
      ∀ c p, w.machine.store.claims.claim id = some c →
        w.machine.store.engine.policies c.policyId = some p →
        p.status ≠ .active
  | _ => True

section Runs

variable {D : Sites} {w w' : World Network} {signers : List Address}

theorem tracks_claims {e : ClaimsProcessor.Entry}
    (hG : KeepsLocks w (.call signers (.claims e)))
    (hstep : (system D).Step w (.call signers (.claims e)) w')
    (hsound : Sound (docket w.machine)) (h : Tracks (docket w.machine)) :
    Tracks (docket w'.machine) := by
  obtain ⟨-, -, hexec⟩ := call_exec hstep
  obtain ⟨ks, hrun⟩ := ClaimsProcessor.exec_moved hsound.orderly hexec
  refine (TransitionSystem.Run.preserves
    (Q := fun d => Sound d ∧ Tracks d) ?_ hrun ⟨hsound, h⟩).2
  rintro d k d' ⟨hd, htracks⟩ ⟨hadmits, hmove⟩
  refine ⟨hd.move hmove, htracks.move hd.book hmove ?_⟩
  rintro id c p rfl hc hp
  obtain ⟨rfl, claimant, rfl⟩ := hadmits
  have hguard : ∀ (c : Claim) (p : Policy), _ = some c → _ = some p →
      p.status ≠ .active := hG
  exact hguard c p hc hp

theorem tracks_engine {e : PolicyEngine.Entry}
    (hG : KeepsLocks w (.call signers (.engine e)))
    (hstep : (system D).Step w (.call signers (.engine e)) w')
    (hsound : Sound (docket w.machine)) (h : Tracks (docket w.machine)) :
    Tracks (docket w'.machine) := by
  obtain ⟨-, -, hexec⟩ := call_exec hstep
  obtain ⟨s, B, hengine, hm⟩ := exec_engine_ok.mp hexec
  have hwired : PolicyEngine.Wired w.machine.store.engine :=
    ⟨hsound.wired.token_iff, hsound.wired.admin, hsound.wired.pendingAdmin⟩
  have hends : ∀ k id, e.performs k → k.Ends id →
      w.machine.store.pool.lock id = none := by
    rintro k id hk (rfl | rfl | rfl)
    · cases e with
      | cancelPolicy =>
          obtain rfl : id = _ := hk
          exact hG
      | _ => exact hk.elim
    · cases e with
      | payClaim =>
          obtain rfl : id = _ := hk
          exact hG
      | _ => exact hk.elim
    · cases e with
      | expirePolicy =>
          obtain rfl : id = _ := hk
          exact hG
      | _ => exact hk.elim
  have hpreserved := (PolicyEngine.exec_performs hwired hengine).1.preserves
    (Q := fun b => b.Sound ∧ Tracks { docket w.machine with engine := b })
    (by
      rintro k c c' hk - hchange ⟨hc, htracks⟩
      exact ⟨hc.change hchange,
        htracks.change (d := { docket w.machine with engine := c }) hc hchange
          fun id hend => hends k id hk hend⟩)
    ⟨hsound.book, h⟩
  exact hpreserved.2.same (by rw [hm]; rfl) (by rw [hm]; rfl)

theorem tracks_pool {e : RiskPool.Entry}
    (hG : KeepsLocks w (.call signers (.pool e)))
    (hstep : (system D).Step w (.call signers (.pool e)) w')
    (h : Tracks (docket w.machine)) : Tracks (docket w'.machine) := by
  obtain ⟨-, -, hexec⟩ := call_exec hstep
  obtain ⟨s, B, hrun, hm⟩ := exec_pool_ok.mp hexec
  have hpolicies : (docket w'.machine).engine.policies =
      (docket w.machine).engine.policies := by
    rw [hm]
    rfl
  have hlocks : (docket w'.machine).lock = (RiskPool.book ⟨s, B⟩).lock := by
    rw [hm]
    rfl
  -- nothing releases the lock of an active policy
  have hrelease : ∀ {env id b}, RiskPool.Book.Change env (.release id)
      (RiskPool.book ⟨w.machine.store.pool, w.machine.bank⟩) b →
      (∀ p, w.machine.store.engine.policies id = some p →
        p.status ≠ .active) → False := by
    intro env id b hchange hended
    cases hchange with
    | release hlock hheld =>
        obtain ⟨p, hp, -, hiff⟩ := h _ _ hlock
        exact hended p hp (hiff.mp hheld)
  by_cases he : e.commits = true
  · cases e with
    | initializePool =>
        have hchange := RiskPool.initializePool_change hrun
        generalize RiskPool.book ⟨s, B⟩ = b at hchange hlocks
        cases hchange with
        | wire => exact h.same hlocks hpolicies
    | lockForPolicy _ policyId amount =>
        obtain ⟨p, hp, hactive, rfl⟩ := hG
        have hchange := RiskPool.lockForPolicy_change hrun
        generalize RiskPool.book ⟨s, B⟩ = b at hchange hlocks
        cases hchange with
        | lock hfree =>
            intro id l hl
            rw [hlocks] at hl
            rw [hpolicies]
            by_cases hid : id = policyId
            · subst hid
              simp only [Function.update_self, Option.some.injEq] at hl
              subst hl
              exact ⟨p, hp, rfl, by simp [hactive]⟩
            · simp only [Function.update_of_ne hid] at hl
              exact h id l hl
    | releaseForClaim =>
        exact (hrelease (RiskPool.releaseForClaim_change hrun) hG).elim
    | releaseForExpiry =>
        exact (hrelease (RiskPool.releaseForExpiry_change hrun) hG).elim
    | _ => cases he
  · have hsame := (RiskPool.exec_performs hrun).sameLocks (by simpa using he)
    exact h.same (hlocks.trans hsame.1) hpolicies

theorem tracks_inductive (D : Sites) :
    ((system D).restrict KeepsLocks).Inductive fun w =>
      (Sound (docket w.machine) ∧ PoolSound (docket w.machine)) ∧
        Tracks (docket w.machine) := by
  refine ((poolSound_inductive D).restrict KeepsLocks).and ?_ ?_
  · rintro ⟨now, ⟨store, B⟩⟩ ⟨hstore, -⟩ id l hl
    obtain rfl : store = Network.deployed := hstore
    cases hl
  · rintro w l w' ⟨hsound, -⟩ - h ⟨hG, hstep⟩
    cases l with
    | call signers e =>
        cases e with
        | claims e => exact tracks_claims hG hstep hsound h
        | engine e => exact tracks_engine hG hstep hsound h
        | pool e => exact tracks_pool hG hstep h
        | oracle e =>
            obtain ⟨-, -, hexec⟩ := call_exec hstep
            obtain ⟨s, B, -, hm⟩ := exec_oracle_ok.mp hexec
            exact h.same (by rw [hm]; rfl) (by rw [hm]; rfl)
    | tick =>
        cases hstep.2
        exact h
    | transfer =>
        cases hstep.2
        exact h.same rfl rfl
    | mint =>
        cases hstep.2
        exact h.same rfl rfl

/-- What is insured by policy `id`, as long as it is active. -/
def activeCoverage (s : PolicyEngine.State) (id : ℕ) : ℤ :=
  match s.policies id with
  | some p => if p.status = .active then p.coverageAmount else 0
  | none => 0

/-- In runs that keep locks and policies together, once every active policy is
locked, the locked total of the pool is the coverage of the active policies;
the lock of a policy is held exactly as long as the policy is active. -/
theorem locked_eq_active
    (hw : ((system D).restrict KeepsLocks).Reachable w)
    (hlocked : ∀ id p, w.machine.store.engine.policies id = some p →
      p.status = .active → (w.machine.store.pool.lock id).isSome) :
    w.machine.store.pool.totalLocked =
        ∑ id ∈ Finset.range w.machine.store.engine.nextPolicyId,
          activeCoverage w.machine.store.engine id ∧
      ∀ id l, w.machine.store.pool.lock id = some l →
        ∃ p, w.machine.store.engine.policies id = some p ∧
          l.amount = p.coverageAmount ∧
          (l.released = false ↔ p.status = .active) := by
  obtain ⟨⟨hsound, hpool⟩, htracks⟩ := hw.invariant (tracks_inductive D)
  refine ⟨?_, htracks⟩
  have hsame : (RiskPool.book ⟨w.machine.store.pool,
      w.machine.bank⟩).lockedFor =
      activeCoverage w.machine.store.engine := by
    funext id
    simp only [RiskPool.Book.lockedFor, RiskPool.book]
    cases hlock : w.machine.store.pool.lock id with
    | none =>
        unfold activeCoverage
        cases hp : w.machine.store.engine.policies id with
        | none => rfl
        | some p =>
            have hended : p.status ≠ .active := by
              intro hactive
              have hsome := hlocked id p hp hactive
              simp [hlock] at hsome
            simp [hended]
    | some l =>
        obtain ⟨p, hp, hamount, hheld⟩ := htracks id l hlock
        have hp' : w.machine.store.engine.policies id = some p := hp
        cases hreleased : l.released with
        | false =>
            have hactive := hheld.mp hreleased
            simp [activeCoverage, hp', hactive, hreleased, hamount]
        | true =>
            have hended : p.status ≠ .active := by
              intro hactive
              rw [hheld.mpr hactive] at hreleased
              cases hreleased
            simp [activeCoverage, hp', hended, hreleased]
  have hbeyond : ∀ id,
      id ∉ Finset.range w.machine.store.engine.nextPolicyId →
      activeCoverage w.machine.store.engine id = 0 := by
    intro id hid
    have hle : w.machine.store.engine.nextPolicyId ≤ id := by simpa using hid
    have hnone : w.machine.store.engine.policies id = none :=
      hsound.book.fresh id hle
    simp [activeCoverage, hnone]
  have htotal : HasTotal (activeCoverage w.machine.store.engine)
      w.machine.store.pool.totalLocked := hsame ▸ hpool.total
  exact (htotal.sum_eq hbeyond).symm

end Runs

namespace Scenario

/-- A policy is bought, and its capital locked. -/
def buying : Label Entry :=
  .call [holder] (.engine (.buyPolicy holder 1 1000000 365 rain usdc))

def locking : Label Entry :=
  .call [admin] (.pool (.lockForPolicy admin 1 1000000))

def bought : World Network :=
  (TransitionSystem.execute (step sites) (setUp ++ [buying]) genesis).get
    (by decide +kernel)

def covered : World Network :=
  (step sites bought locking).get (by decide +kernel)

theorem covered_reachable :
    ((system sites).restrict KeepsLocks).Reachable covered := by
  have hrun : (system sites).Run genesis (setUp ++ [buying]) bought :=
    TransitionSystem.run_of_execute (fun _ _ _ => step_sound)
      (Option.some_get _).symm
  have hbought : ((system sites).restrict KeepsLocks).Reachable bought :=
    TransitionSystem.Reachable.run (.init ⟨rfl, rfl⟩)
      (hrun.restrict (by simp [setUp, buying, KeepsLocks]))
  have hsome : (bought.machine.store.engine.policies 1).isSome = true := by
    decide +kernel
  have hstands : ∀ p, bought.machine.store.engine.policies 1 = some p →
      p.status = .active ∧ (1000000 : ℤ) = p.coverageAmount := by
    decide +kernel
  obtain ⟨p, hp⟩ := Option.isSome_iff_exists.mp hsome
  have hlocking : KeepsLocks bought locking := ⟨p, hp, hstands p hp⟩
  exact .step hbought ⟨hlocking, step_sound (Option.some_get _).symm⟩

/-- The holder gives the policy up. -/
def cancelling : Label Entry :=
  .call [holder] (.engine (.cancelPolicy holder 1 [1]))

def cancelled : World Network :=
  (step sites insured cancelling).get (by decide +kernel)

end Scenario

open Scenario in
theorem locked_eq_active_covered :
    covered.machine.store.pool.totalLocked = 1000000 ∧
      covered.machine.store.pool.totalLocked =
        ∑ id ∈ Finset.range covered.machine.store.engine.nextPolicyId,
          activeCoverage covered.machine.store.engine id := by
  have hsound := reachable_sound covered_reachable.of_restrict
  have hnext : covered.machine.store.engine.nextPolicyId = 2 := by
    decide +kernel
  refine ⟨by decide +kernel, (locked_eq_active covered_reachable ?_).1⟩
  intro id p hp _
  by_cases hid : id = 1
  · subst hid
    decide +kernel
  · exfalso
    have hnone : covered.machine.store.engine.policies id = none := by
      by_cases hzero : id = 0
      · subst hzero
        decide +kernel
      · exact hsound.book.fresh id (hnext.trans_le (by omega))
    rw [hnone] at hp
    cases hp

open Scenario in
/-- The capital of a cancelled policy stays locked. -/
theorem locked_ne_active_of_cancel :
    (system sites).Reachable cancelled ∧
      (∀ p, cancelled.machine.store.engine.policies 1 = some p →
        p.status = .cancelled) ∧
      (cancelled.machine.store.engine.policies 1).isSome ∧
      cancelled.machine.store.pool.lock 1 = some held ∧
      cancelled.machine.store.pool.totalLocked = 1000000 ∧
      ∑ id ∈ Finset.range cancelled.machine.store.engine.nextPolicyId,
        activeCoverage cancelled.machine.store.engine id = 0 :=
  ⟨.step insured_reached (step_sound (Option.some_get _).symm),
    by decide +kernel, by decide +kernel, by decide +kernel,
    by decide +kernel, by decide +kernel⟩

/-! ## Payments and deposits -/

/-- The policy can be paid, and the deposits of the pool bear the payment. -/
def Backed (env : ClaimsProcessor.Context) (m : Machine Network)
    (policyId : ℕ) (p : Policy) : Prop :=
  ∃ u m', ClaimsProcessor.releasePayout env env.engine env.pool policyId m =
      .ok (u, m') ∧
    m'.store.pool.totalDeposited =
      m.store.pool.totalDeposited - p.coverageAmount

section Payments

variable {env : ClaimsProcessor.Context} {m m' : Machine Network}
  {policyId : ℕ} {p : Policy} {u : Unit}

theorem releasePayout_deposits
    (h : ClaimsProcessor.releasePayout env env.engine env.pool policyId m =
      .ok (u, m')) :
    m'.store.pool.totalDeposited = m.store.pool.totalDeposited := by
  simp only [ClaimsProcessor.releasePayout, bind_ok,
    ClaimsProcessor.callEngine_ok, ClaimsProcessor.callPool_ok] at h
  obtain ⟨_, _, ⟨-, s, B, -, rfl⟩, -, s', B', hrelease, rfl⟩ := h
  simp [RiskPool.releaseForClaim, RiskPool.releaseLock] at hrelease
  obtain ⟨-, l, -, -, -, rfl, rfl⟩ := hrelease
  rfl

/-- No call of the claims processor changes what is deposited. -/
theorem claims_call_deposits {D : Sites} {w w' : World Network}
    {signers : List Address} {e : ClaimsProcessor.Entry}
    (hw : (system D).Reachable w)
    (hstep : (system D).Step w (.call signers (.claims e)) w') :
    w'.machine.store.pool.totalDeposited =
      w.machine.store.pool.totalDeposited := by
  obtain ⟨-, -, hexec⟩ := call_exec hstep
  obtain ⟨ks, hrun⟩ :=
    ClaimsProcessor.exec_moved (reachable_sound hw).orderly hexec
  refine TransitionSystem.Run.preserves (Q := fun d =>
    (pool d).totalDeposited = w.machine.store.pool.totalDeposited) ?_ hrun rfl
  rintro d k d' hd ⟨-, hmove⟩
  rcases move_pool hmove with hpool | ⟨_, _, -, hpool⟩
  · rw [hpool, hd]
  · rw [hpool]
    exact hd

/-- An active policy with enough capital locked is paid exactly if the engine
itself has the tokens, for contracts that know each other.  The deposits never
bear the payment, and no call of the claims processor changes them. -/
theorem payout_not_backed {D : Sites} {w : World Network}
    {signers : List Address} {l : CapitalLock} (hw : (system D).Reachable w)
    (hp : w.machine.store.engine.policies policyId = some p)
    (hactive : p.status = .active)
    (hlock : w.machine.store.pool.lock policyId = some l)
    (hheld : l.released = false) (hcovers : p.coverageAmount ≤ l.amount) :
    ¬ Backed (D.context w.now signers) w.machine policyId p ∧
      ((∃ u m', ClaimsProcessor.releasePayout (D.context w.now signers)
          D.engine D.pool policyId w.machine = .ok (u, m')) ↔
        w.machine.store.engine.claimsProcessor = some D.claims ∧
          w.machine.store.pool.IsProtocolCaller D.claims ∧
          ∃ usdc, w.machine.store.engine.usdcToken = some usdc ∧
            p.coverageAmount ≤ w.machine.bank.balance usdc D.engine) ∧
      ∀ e w', (system D).Step w (.call signers (.claims e)) w' →
        w'.machine.store.pool.totalDeposited =
          w.machine.store.pool.totalDeposited := by
  have hpos : 0 < p.coverageAmount :=
    (reachable_sound hw).book.coverage_pos policyId p hp
  refine ⟨?_, ?_, fun e w' hstep => claims_call_deposits hw hstep⟩
  · rintro ⟨u, m', hpaid, hdeposits⟩
    rw [releasePayout_deposits hpaid] at hdeposits
    omega
  · have hpay : (∃ u m', ClaimsProcessor.releasePayout
        (D.context w.now signers) D.engine D.pool policyId w.machine =
          .ok (u, m')) ↔
        CanPay (D.context w.now signers) w.machine D.pool policyId p :=
      releasePayout_succeeds hp hactive hpos
    rw [hpay]
    constructor
    · intro h
      exact ⟨h.processor, h.party, h.funded⟩
    · rintro ⟨hprocessor, hparty, hfunded⟩
      exact ⟨hprocessor, hfunded, rfl, hparty, l, hlock, by omega, hheld⟩

end Payments

namespace Scenario

/-- The engine has no tokens but the premiums it takes. -/
def barren : World Network :=
  { genesis with
    machine :=
      { genesis.machine with
        bank :=
          (Bank.mint ⟨fun _ => none, []⟩ usdc provider (10 ^ 9)).mint usdc
            holder (10 ^ 9) } }

def uncovered : World Network :=
  (TransitionSystem.execute (step sites)
    (setUp ++ purchase ++ [reading 1000000]) barren).get (by decide +kernel)

end Scenario

open Scenario in
theorem payout_not_backed_dry :
    ∃ p, dry.machine.store.engine.policies 1 = some p ∧
      ¬ Backed (sites.context dry.now [keeper]) dry.machine 1 p := by
  have hdry : (system sites).Reachable dry :=
    .step insured_reached (step_sound (Option.some_get _).symm)
  have hsome : (dry.machine.store.engine.policies 1).isSome = true := by
    decide +kernel
  have hstands : ∀ p, dry.machine.store.engine.policies 1 = some p →
      p.status = .active ∧ p.coverageAmount ≤ held.amount := by
    decide +kernel
  obtain ⟨p, hp⟩ := Option.isSome_iff_exists.mp hsome
  obtain ⟨hactive, hcovers⟩ := hstands p hp
  have hlock : dry.machine.store.pool.lock 1 = some held := by
    decide +kernel
  exact ⟨p, hp, (payout_not_backed hdry hp hactive hlock rfl hcovers).1⟩

open Scenario in
/-- The trigger is met and ten times the coverage is deposited, but the engine
has only the premium: the sweep fails.  And a policy that is paid leaves the
deposits as they were. -/
theorem uncovered_policy_not_paid :
    (system sites).Reachable uncovered ∧
      MaySweep sites uncovered [keeper] keeper 1 ∧
      (∀ p, uncovered.machine.store.engine.policies 1 = some p →
        p.status = .active ∧ p.coverageAmount = 1000000 ∧
          TriggerMet (sites.context uncovered.now [keeper])
            uncovered.machine p) ∧
      uncovered.machine.store.pool.lock 1 = some held ∧
      uncovered.machine.bank.balance usdc sites.pool = 10000000 ∧
      uncovered.machine.bank.balance usdc sites.engine = 50000 ∧
      step sites uncovered sweeping = none ∧
      (∀ u m', ClaimsProcessor.releasePayout
        (sites.context uncovered.now [keeper]) sites.engine sites.pool 1
        uncovered.machine ≠ .ok (u, m')) ∧
      filed.machine.store.pool.totalDeposited = 10000000 ∧
      (system sites).Step filed (settling none) settled ∧
      settled.machine.bank.history = payment :: filed.machine.bank.history ∧
      settled.machine.store.pool.totalDeposited = 10000000 := by
  have hreached : (system sites).Reachable uncovered :=
    TransitionSystem.Reachable.run (.init ⟨rfl, rfl⟩)
      (TransitionSystem.run_of_execute (fun _ _ _ => step_sound)
        (Option.some_get _).symm)
  have hstands : ∀ p, uncovered.machine.store.engine.policies 1 = some p →
      p.status = .active ∧ p.coverageAmount = 1000000 := by
    decide +kernel
  have hanswer : ∀ p, uncovered.machine.store.engine.policies 1 = some p →
      ((OracleVerifier.verifyTriggerFresh
        ((sites.context uncovered.now [keeper]).enter sites.oracle)
        p.oracleDataType p.oracleKey (ClaimsProcessor.triggerCondition p)
        uncovered.machine.store.claims.stalenessThreshold
        ⟨uncovered.machine.store.oracle, uncovered.machine.bank⟩).map
          Prod.fst).toOption = some true := by
    decide +kernel
  have hfails : (ClaimsProcessor.releasePayout
      (sites.context uncovered.now [keeper]) sites.engine sites.pool 1
      uncovered.machine).toOption.isNone = true := by
    decide +kernel
  refine ⟨hreached,
    ⟨by decide, by decide +kernel, by decide, by decide +kernel,
      by decide +kernel⟩,
    fun p hp => ⟨(hstands p hp).1, (hstands p hp).2,
      triggerMet_of_answer (hanswer p hp)⟩,
    by decide +kernel, by decide +kernel, by decide +kernel, ?_, ?_,
    by decide +kernel, step_sound (Option.some_get _).symm,
    by decide +kernel, by decide +kernel⟩
  · exact Option.isNone_iff_eq_none.mp (by decide +kernel)
  · intro u m' hpaid
    rw [hpaid] at hfails
    cases hfails

end Parashield.Protocol
