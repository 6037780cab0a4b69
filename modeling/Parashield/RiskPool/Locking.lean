import Parashield.RiskPool.Soundness

/-!
# Risk pool: the lock ledger

The locked total is the sum of all locks that are not released.  A policy is
locked at most once in a run, since its lock stays behind when it is released,
and released at most once.
-/

namespace Parashield.RiskPool

open Support Support.Contract Invocation Book

namespace Book

variable {env : Env} {b b' b'' : Book} {id : ℕ}

/-- Locks stay, and released locks stay released. -/
def LocksKept (b b' : Book) : Prop :=
  ∀ id l, b.lock id = some l →
    ∃ l', b'.lock id = some l' ∧ (l.released = true → l'.released = true)

theorem LocksKept.refl (b : Book) : LocksKept b b :=
  fun _ l h => ⟨l, h, id⟩

theorem LocksKept.trans (h : LocksKept b b') (h' : LocksKept b' b'') :
    LocksKept b b'' := by
  intro id l hl
  obtain ⟨l', hl', hreleased⟩ := h id l hl
  obtain ⟨l'', hl'', hreleased'⟩ := h' id l' hl'
  exact ⟨l'', hl'', hreleased' ∘ hreleased⟩

/-- A lock may be written where there was none, or over one that was not
released. -/
theorem LocksKept.update {l : CapitalLock}
    (hold : ∀ l', b.lock id = some l' → l'.released = false)
    (hlock : b'.lock = Function.update b.lock id (some l)) :
    LocksKept b b' := by
  intro i l' hl'
  by_cases hi : i = id
  · subst hi
    refine ⟨l, by rw [hlock, Function.update_self], fun h => ?_⟩
    rw [hold l' hl'] at h
    cases h
  · exact ⟨l', by rw [hlock, Function.update_of_ne hi, hl'], fun h => h⟩

theorem Change.locksKept {k : Kind} (h : Change env k b b') :
    LocksKept b b' := by
  by_cases hk : k.Commits
  · cases h with
    | wire => exact .refl _
    | lock hfree =>
        refine .update ?_ rfl
        intro l' hl'
        rw [hfree] at hl'
        cases hl'
    | release hlock hheld =>
        refine .update ?_ rfl
        intro l' hl'
        rw [hlock, Option.some.injEq] at hl'
        rwa [← hl']
    | _ => exact hk.elim
  · intro id l hl
    exact ⟨l, by rw [(h.sameLocks hk).1, hl], fun hreleased => hreleased⟩

/-- Policy `id` has been locked. -/
def Locked (b : Book) (id : ℕ) : Prop :=
  b.lock id ≠ none

/-- The lock of policy `id` has been released. -/
def Released (b : Book) (id : ℕ) : Prop :=
  ∃ l, b.lock id = some l ∧ l.released = true

theorem Locked.kept (h : LocksKept b b') (hlocked : Locked b id) :
    Locked b' id := by
  obtain ⟨l, hl⟩ := Option.ne_none_iff_exists'.mp hlocked
  obtain ⟨l', hl', -⟩ := h id l hl
  exact Option.ne_none_iff_exists'.mpr ⟨l', hl'⟩

theorem Released.kept (h : LocksKept b b') (hreleased : Released b id) :
    Released b' id := by
  obtain ⟨l, hl, hdone⟩ := hreleased
  obtain ⟨l', hl', hkeep⟩ := h id l hl
  exact ⟨l', hl', hkeep hdone⟩

theorem Change.locks {amount : ℤ} (h : Change env (.lock id amount) b b') :
    ¬ Locked b id ∧ Locked b' id := by
  cases h with
  | lock hfree => exact ⟨not_not.mpr hfree, by simp [Locked]⟩

theorem Change.releases (h : Change env (.release id) b b') :
    ¬ Released b id ∧ Released b' id := by
  cases h with
  | release hlock hheld =>
      refine ⟨?_, _, Function.update_self .., rfl⟩
      rintro ⟨l', hl', hdone⟩
      rw [hlock, Option.some.injEq] at hl'
      rw [← hl', hheld] at hdone
      cases hdone

end Book

/-! ## Calls -/

variable {env : Env} {m m' : Machine State} {b : Book}

/-- The entry point locks capital for policy `id`. -/
def Entry.locks (id : ℕ) : Entry → Bool
  | .lockForPolicy _ policyId _ => decide (policyId = id)
  | _ => false

/-- The entry point releases the lock of policy `id`. -/
def Entry.releases (id : ℕ) : Entry → Bool
  | .releaseForClaim _ policyId | .releaseForExpiry _ policyId =>
      decide (policyId = id)
  | _ => false

theorem Performs.locksKept {e : Entry} (h : Performs env m e b) :
    LocksKept (book m) b :=
  h.preserves (I := LocksKept (book m))
    (fun _ _ _ hkept hchange => hkept.trans hchange.locksKept)
    (.refl _)

theorem exec_locks {e : Entry} {id : ℕ} {u : Unit}
    (he : e.locks id = true) (h : exec env e m = .ok (u, m')) :
    ¬ Locked (book m) id ∧ Locked (book m') id := by
  cases e with
  | lockForPolicy =>
      obtain rfl := of_decide_eq_true he
      exact (lockForPolicy_change h).locks
  | _ => cases he

theorem exec_releases {e : Entry} {id : ℕ} {u : Unit}
    (he : e.releases id = true) (h : exec env e m = .ok (u, m')) :
    ¬ Released (book m) id ∧ Released (book m') id := by
  cases e with
  | releaseForClaim =>
      obtain rfl := of_decide_eq_true he
      exact (releaseForClaim_change h).releases
  | releaseForExpiry =>
      obtain rfl := of_decide_eq_true he
      exact (releaseForExpiry_change h).releases
  | _ => cases he

/-! ## Runs -/

/-- The call of an entry point with the property `p`. -/
def isCallOf (p : Entry → Bool) : Label Entry → Bool
  | .call _ e => p e
  | _ => false

theorem system_locksKept {self : Address} {w w' : World State}
    {l : Label Entry} (h : (system self).Step w l w') :
    LocksKept (book w.machine) (book w'.machine) := by
  cases h with
  | call _ hexec => exact (exec_performs hexec).locksKept
  | tick => exact .refl _
  | transfer => exact .refl _
  | mint => exact .refl _

theorem step_locks {self : Address} {w w' : World State} {l : Label Entry}
    {id : ℕ} (h : (system self).Step w l w')
    (hl : isCallOf (Entry.locks id) l = true) :
    ¬ Locked (book w.machine) id ∧ Locked (book w'.machine) id := by
  cases h with
  | call _ hexec => exact exec_locks hl hexec
  | _ => cases hl

theorem step_releases {self : Address} {w w' : World State} {l : Label Entry}
    {id : ℕ} (h : (system self).Step w l w')
    (hl : isCallOf (Entry.releases id) l = true) :
    ¬ Released (book w.machine) id ∧ Released (book w'.machine) id := by
  cases h with
  | call _ hexec => exact exec_releases hl hexec
  | _ => cases hl

/-- The locked total is the sum of all locks not released, and over a whole run
every policy is locked at most once and released at most once. -/
theorem lock_ledger_consistent {self : Address} {w₀ w : World State}
    {ls : List (Label Entry)} (hinit : (system self).Init w₀)
    (hrun : (system self).Run w₀ ls w) :
    HasTotal (book w.machine).lockedFor w.machine.store.totalLocked ∧
      ∀ id, ls.countP (isCallOf (Entry.locks id)) ≤ 1 ∧
        ls.countP (isCallOf (Entry.releases id)) ≤ 1 := by
  have htotal : (system self).Inductive fun w =>
      Sound (book w.machine) ∧
        HasTotal (book w.machine).lockedFor (book w.machine).totalLocked := by
    refine (sound_inductive self).and ?_ ?_
    · intro w hinit
      obtain ⟨now, store, bank⟩ := w
      obtain ⟨rfl, -⟩ := hinit
      exact hasTotal_of_unlocked (fun _ => rfl) rfl
    · intro w l w' hsound _ htotal hstep
      cases hstep with
      | call _ hexec => exact (exec_performs hexec).hasTotal hsound htotal
      | tick => exact htotal
      | transfer => exact htotal
      | mint => exact htotal
  have hw := (TransitionSystem.Reachable.init hinit).run hrun
  refine ⟨(hw.invariant htotal).2, fun id => ⟨?_, ?_⟩⟩
  · exact hrun.countP_le_one (fun _ _ _ hstep => step_locks hstep)
      fun _ _ _ hstep => Locked.kept (system_locksKept hstep)
  · exact hrun.countP_le_one (fun _ _ _ hstep => step_releases hstep)
      fun _ _ _ hstep => Released.kept (system_locksKept hstep)

/-! ## One policy -/

namespace Scenario

/-- Two policies are locked, and the first one is released. -/
def underwriting : List (Label Entry) :=
  [wiring, funding, .call [admin] (.lockForPolicy admin 1 300000),
    .call [admin] (.lockForPolicy admin 2 200000),
    .call [admin] (.releaseForExpiry admin 1)]

def underwritten : World State :=
  (TransitionSystem.execute (step exec pool) underwriting genesis).get
    (by decide +kernel)

end Scenario

open Scenario in
theorem lock_ledger_consistent_underwritten :
    underwritten.machine.store.totalLocked = 200000 ∧
      HasTotal (book underwritten.machine).lockedFor 200000 ∧
      underwriting.countP (isCallOf (Entry.releases 1)) ≤ 1 := by
  have hrun : (system pool).Run genesis underwriting underwritten :=
    TransitionSystem.run_of_execute (fun _ _ _ => step_sound)
      (Option.some_get _).symm
  obtain ⟨htotal, hcalls⟩ := lock_ledger_consistent ⟨rfl, rfl⟩ hrun
  have hlocked : underwritten.machine.store.totalLocked = 200000 := by
    decide +kernel
  exact ⟨hlocked, htotal.congr hlocked, (hcalls 1).2⟩

end Parashield.RiskPool
