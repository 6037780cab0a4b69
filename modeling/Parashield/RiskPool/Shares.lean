import Parashield.RiskPool.Capacity
import Parashield.RiskPool.Locking

/-!
# Risk pool: shares are conserved

The shares of all positions and the shares locked with the first deposit make
up the total, from the first deposit on.
-/

namespace Parashield.RiskPool

open Support Support.Contract Invocation Book

namespace Book

variable {env : Env} {b b' : Book}

theorem Change.mint_issued {provider : Address} {newShares : ℤ}
    {compound : Bool} (hb : Sound b)
    (h : Change env (.mint provider newShares compound) b b') :
    b'.totalShares ≠ 0 := by
  have htotal := hb.total_nonneg
  cases h with
  | mint hmints =>
      have hnew := hmints.shares_ge
      have hburned := hmints.burn_nonneg
      unfold minShares at hnew
      show b.totalShares + _ + _ ≠ 0
      omega

/-- Shares never run out. -/
theorem Change.issued {k : Kind} (hb : Sound b) (hall : AllHeld b)
    (h : Change env k b b') (hissued : b.totalShares ≠ 0) :
    b'.totalShares ≠ 0 := by
  cases k with
  | burn =>
      exact fun hzero => hissued ((h.contracted_burn hb hall).issued.mpr hzero)
  | mint => exact h.mint_issued hb
  | wire =>
      cases h with
      | wire hfresh =>
          exact absurd (hb.unwired (hb.uninitialized hfresh)).2.2.1 hissued
  | liquidate provider seized =>
      cases h with
      | @liquidate _ _ p bps _ h =>
          have hpos := h.seized_pos
          have hle := h.le_shares hb
          have howned := HasTotal.apply_le hall hb.held_nonneg provider
          rw [held_of_position h.found, outstanding, if_neg hissued] at howned
          have hrange := hb.shares_range
          unfold lockedShares at howned
          simp only [satI128, minI128, maxI128, InI128] at hrange ⊢
          omega
  | _ =>
      cases h
      exact hissued

/-- A pool whose shares are all accounted for. -/
structure Issued (b : Book) : Prop where
  sound : Sound b
  allHeld : AllHeld b
  finite : Finite b
  issued : b.totalShares ≠ 0

theorem Change.issued_of {k : Kind} (hb : Issued b) (h : Change env k b b') :
    Issued b' where
  sound := h.sound hb.sound
  allHeld := h.allHeld hb.sound hb.allHeld
  finite := h.finite hb.finite
  issued := h.issued hb.sound hb.allHeld hb.issued

/-- The positions that are stored hold all shares but the locked ones. -/
theorem Issued.conserved (hb : Issued b) :
    ∃ F : Finset Address, (∀ a, a ∈ F ↔ b.lpPosition a ≠ none) ∧
      ∑ a ∈ F, b.held a + lockedShares = b.totalShares := by
  refine ⟨hb.finite.toFinset, fun a => Set.Finite.mem_toFinset _, ?_⟩
  have hsum := HasTotal.sum_eq hb.allHeld (G := hb.finite.toFinset) (by
    intro a ha
    have hnone : b.lpPosition a = none :=
      not_not.mp (mt (Set.Finite.mem_toFinset hb.finite).mpr ha)
    simp only [held, account, hnone])
  rw [hsum, outstanding, if_neg hb.issued]
  omega

end Book

/-! ## Runs -/

/-- The entry point is a deposit. -/
def Entry.isDeposit : Entry → Bool
  | .deposit .. | .depositWithToken .. => true
  | _ => false

variable {env : Env} {m : Machine State} {b : Book}

theorem Entry.deposit_acts {e : Entry} (he : e.isDeposit = true) :
    e.mayIdle = false ∧ e.kind m.store = none := by
  cases e with
  | deposit => exact ⟨rfl, rfl⟩
  | depositWithToken => exact ⟨rfl, rfl⟩
  | _ => cases he

theorem Performs.issued_of_deposit {e : Entry} (h : Performs env m e b)
    (he : e.isDeposit = true) (hb : Sound (book m)) : b.totalShares ≠ 0 := by
  induction h with
  | deposit hsweep _ hchange =>
      exact hchange.mint_issued (sweepExpiredExits_sound hb hsweep)
  | depositWithToken _ ih => exact ih rfl
  | idle hidle =>
      rw [(Entry.deposit_acts (m := m) he).1] at hidle
      cases hidle
  | single hkind =>
      rw [(Entry.deposit_acts he).2] at hkind
      cases hkind
  | _ => cases he

theorem system_issued {self : Address} {w w' : World State} {l : Label Entry}
    (h : (system self).Step w l w') (hb : Issued (book w.machine)) :
    Issued (book w'.machine) := by
  cases h with
  | call _ hexec =>
      exact (exec_performs hexec).preserves
        (fun _ _ _ hb hchange => hchange.issued_of hb) hb
  | tick => exact hb
  | transfer => exact ⟨{ hb.sound with }, hb.allHeld, hb.finite, hb.issued⟩
  | mint => exact ⟨{ hb.sound with }, hb.allHeld, hb.finite, hb.issued⟩

/-- From the first deposit on, the shares of the stored positions and the
locked shares make up the total, and no position has fewer than none. -/
theorem shares_conserved {self : Address} {w₀ w : World State}
    {ls : List (Label Entry)} (hinit : (system self).Init w₀)
    (hrun : (system self).Run w₀ ls w)
    (hdeposit : ∃ l ∈ ls, isCallOf Entry.isDeposit l = true) :
    (∃ F : Finset Address,
        (∀ a, a ∈ F ↔ w.machine.store.lpPosition a ≠ none) ∧
        ∑ a ∈ F, (book w.machine).held a + 1000 =
          w.machine.store.totalShares) ∧
      ∀ a p, w.machine.store.lpPosition a = some p → 0 ≤ p.shares := by
  obtain ⟨l, hl, hcall⟩ := hdeposit
  obtain ⟨before, after, t, u, -, hbefore, hstep, hafter⟩ :=
    hrun.step_of_mem hl
  have ht := (TransitionSystem.Reachable.init hinit).run hbefore
  obtain ⟨hsound, hall, hfinite⟩ := ht.invariant (allHeld_inductive self)
  have hu : Issued (book u.machine) := by
    obtain ⟨hsound', hall', hfinite'⟩ :=
      (ht.step hstep).invariant (allHeld_inductive self)
    refine ⟨hsound', hall', hfinite', ?_⟩
    cases hstep with
    | call _ hexec =>
        exact (exec_performs hexec).issued_of_deposit hcall hsound
    | _ => cases hcall
  have hw : Issued (book w.machine) :=
    hafter.preserves (Q := fun v => Issued (book v.machine))
      (fun _ _ _ hv hstep => system_issued hstep hv) hu
  exact ⟨hw.conserved, fun a p hp => hw.sound.shares_nonneg hp⟩

open Scenario in
theorem shares_conserved_underwritten :
    underwritten.machine.store.totalShares = 1000000000000000 ∧
      (book underwritten.machine).held provider = 999999999999000 ∧
      ∃ F : Finset Address,
        (∀ a, a ∈ F ↔ underwritten.machine.store.lpPosition a ≠ none) ∧
        ∑ a ∈ F, (book underwritten.machine).held a + 1000 =
          underwritten.machine.store.totalShares := by
  have hrun : (system pool).Run genesis underwriting underwritten :=
    TransitionSystem.run_of_execute (fun _ _ _ => step_sound)
      (Option.some_get _).symm
  have hfunding : funding ∈ underwriting := by simp [underwriting]
  obtain ⟨hshares, -⟩ :=
    shares_conserved ⟨rfl, rfl⟩ hrun ⟨funding, hfunding, rfl⟩
  exact ⟨by decide +kernel, by decide +kernel, hshares⟩

end Parashield.RiskPool
