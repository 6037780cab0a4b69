import Parashield.RiskPool.Exits
import Parashield.RiskPool.Office

/-!
# Risk pool: the administrator's interest in the pool

Shares come to an address by a deposit or a transfer, and neither is accepted
for the administrator.  A provider can still take the administration.
-/

namespace Parashield.RiskPool

open Support Support.Contract Invocation Book

/-! ## Who receives shares -/

/-- Whose position the change adds shares to. -/
def Book.Kind.receiver : Kind → Option Address
  | .mint provider _ _ => some provider
  | .move _ recipient _ => some recipient
  | _ => none

/-- Whose position the call adds shares to. -/
def Entry.receiver : Entry → Option Address
  | .deposit provider .. | .depositWithToken provider .. => some provider
  | .transferShares _ recipient _ | .transferPosition _ recipient _ =>
      some recipient
  | _ => none

section Receiver

variable {env : Env} {m m' : Machine State} {a : Address} {e : Entry}
  {b b' : Book} {k : Kind}

theorem Book.Change.held_le (hb : Sound b) (h : Change env k b b')
    (ha : k.receiver ≠ some a) : b'.held a ≤ b.held a := by
  have hgain : k.gain a ≤ 0 := by
    cases h with
    | burn hredeems =>
        have hpos := hredeems.pos
        simp only [Kind.gain]
        split <;> omega
    | mint =>
        have hne : a ≠ _ := fun hsame => ha (congrArg some hsame.symm)
        rw [Kind.gain, if_neg hne]
    | move _ _ hpos =>
        have hne : a ≠ _ := fun hsame => ha (congrArg some hsame.symm)
        rw [Kind.gain, if_neg hne]
        split <;> omega
    | liquidate hseizes =>
        have hpos := hseizes.seized_pos
        simp only [Kind.gain]
        split <;> omega
    | _ => exact le_rfl
  have hheld := h.held_eq hb a
  omega

theorem Entry.receiver_of_kind (h : e.kind m.store = some k) :
    k.receiver = e.receiver := by
  cases e with
  | requestReinsuranceRecovery caller policyId loss answer =>
      cases answer with
      | none => cases h
      | some answer =>
          simp only [Entry.kind] at h
          split at h <;> cases h
          rfl
  | executeAdminWithdrawal =>
      obtain ⟨_, -, rfl⟩ := Option.map_eq_some_iff.mp h
      rfl
  | _ => cases h <;> rfl

theorem Sweeps.held_le {n : ℕ} (h : Sweeps env n b b') (hb : Sound b) :
    Sound b' ∧ b'.held a ≤ b.held a := by
  induction h with
  | refl => exact ⟨hb, le_rfl⟩
  | clear _ hclear ih =>
      obtain ⟨hs, hle⟩ := ih hb
      exact ⟨hclear.sound hs, (hclear.held_le hs nofun).trans hle⟩
  | burn _ hburn ih =>
      obtain ⟨hs, hle⟩ := ih hb
      exact ⟨hburn.sound hs, (hburn.held_le hs nofun).trans hle⟩

theorem sweepExpiredExits_held_le {skip : Option Address} {maxScan n : ℕ}
    (hb : Sound (book m))
    (h : sweepExpiredExits env maxScan skip m = .ok (n, m')) :
    Sound (book m') ∧ (book m').held a ≤ (book m).held a := by
  obtain ⟨_, -, hsweeps⟩ := sweepExpiredExits_sweeps h
  exact hsweeps.held_le hb

/-- A call adds shares to the position of its receiver only. -/
theorem Performs.held_le (h : Performs env m e b) (hb : Sound (book m))
    (ha : e.receiver ≠ some a) : b.held a ≤ (book m).held a := by
  induction h with
  | idle => exact le_rfl
  | single hkind hchange =>
      refine hchange.held_le hb ?_
      rwa [Entry.receiver_of_kind hkind]
  | deposit hsweep _ hchange =>
      obtain ⟨hs, hle⟩ := sweepExpiredExits_held_le hb hsweep
      exact (hchange.held_le hs ha).trans hle
  | depositWithToken _ ih => exact ih ha
  | withdraw hsweep hchange =>
      obtain ⟨hs, hle⟩ := sweepExpiredExits_held_le hb hsweep
      exact (hchange.held_le hs nofun).trans hle
  | requestExit hsweep hchange =>
      obtain ⟨hs, hle⟩ := sweepExpiredExits_held_le hb hsweep
      exact (hchange.held_le hs nofun).trans hle
  | claimExit _ hclear hburn =>
      have hs := hclear.sound hb
      exact (hburn.held_le hs nofun).trans (hclear.held_le hb nofun)
  | processExpiredExits hsweep => exact (sweepExpiredExits_held_le hb hsweep).2

/-! ## The administrator receives none -/

theorem deposit_outsider {provider : Address} {amount least minted : ℤ}
    {compound : Bool}
    (h : deposit env provider amount least compound m = .ok (minted, m')) :
    m.store.admin ≠ some provider := by
  obtain ⟨burnShares, credited, t, t₁, t₂, h⟩ := deposit_ok h
  exact h.outsider

theorem transferPosition_outsider {sender recipient : Address}
    {shares amount : ℤ}
    (h : transferPosition env sender recipient shares m = .ok (amount, m')) :
    m.store.admin ≠ some recipient := by
  obtain ⟨p, received, t, t₁, h⟩ := transferPosition_ok h
  exact h.outsider

/-- No call adds shares to the administrator's position. -/
theorem exec_outsider {u : Unit} (h : exec env e m = .ok (u, m'))
    (ha : e.receiver = some a) : m.store.admin ≠ some a := by
  cases e with
  | deposit =>
      obtain ⟨minted, h⟩ := perform_ok.mp h
      obtain rfl := Option.some.inj ha
      exact deposit_outsider h
  | depositWithToken =>
      obtain ⟨minted, h⟩ := perform_ok.mp h
      obtain rfl := Option.some.inj ha
      simp [depositWithToken] at h
      exact deposit_outsider h.2
  | transferShares =>
      obtain ⟨amount, h⟩ := perform_ok.mp h
      obtain rfl := Option.some.inj ha
      simp [transferShares] at h
      exact transferPosition_outsider h.2
  | transferPosition =>
      obtain ⟨amount, h⟩ := perform_ok.mp h
      obtain rfl := Option.some.inj ha
      exact transferPosition_outsider h
  | _ => cases ha

end Receiver

/-! ## Calls and runs -/

/-- The administrator has no shares. -/
def State.Disinterested (s : State) : Prop :=
  ∀ a p, s.admin = some a → s.lpPosition a = some p → ¬ 0 < p.shares

/-- Nobody with shares takes the administration in this call. -/
def Entry.SparesAdmin (s : State) : Entry → Prop
  | .acceptAdmin admin => ∀ p, s.lpPosition admin = some p → ¬ 0 < p.shares
  | _ => True

section Calls

variable {env : Env} {m m' : Machine State} {e : Entry}

theorem disinterested_iff (hb : Sound (book m)) : m.store.Disinterested ↔
    ∀ a, m.store.admin = some a → (book m).held a = 0 := by
  constructor
  · intro h a ha
    cases hp : m.store.lpPosition a with
    | none => rw [held, account_of_none hp]
    | some p =>
        have hnonneg := hb.shares_nonneg hp
        have hnot := h a p ha hp
        rw [held_of_position hp]
        omega
  · intro h a p ha hp hpos
    have hzero := h a ha
    rw [held_of_position hp] at hzero
    omega

/-- Only the initialization and a hand-over change the administrator. -/
theorem Act.admin_eq {o o' : Office} (h : Act env e o o')
    (hfound : ∀ admin usdcToken treasury backstop category policyEngine
      claimsProcessor, e ≠ .initializePool admin usdcToken treasury backstop
        category policyEngine claimsProcessor)
    (haccept : ∀ admin, e ≠ .acceptAdmin admin) : o'.admin = o.admin := by
  cases h with
  | found => exact absurd rfl (hfound _ _ _ _ _ _ _)
  | accept => exact absurd rfl (haccept _)
  | _ => rfl

/-- Who has no shares and receives none has none afterwards. -/
theorem exec_held_eq_zero {u : Unit} {a : Address} (hb : Sound (book m))
    (h : exec env e m = .ok (u, m')) (ha : (book m).held a = 0)
    (hreceiver : e.receiver ≠ some a) : (book m').held a = 0 := by
  have hperforms := exec_performs h
  have hle := hperforms.held_le hb hreceiver
  have hnonneg := ((hperforms.sound hb).accounts a).1
  rw [held] at hle
  exact le_antisymm (hle.trans_eq ha) hnonneg

/-- A call leaves the administrator without shares if and only if nobody with
shares takes the administration. -/
theorem exec_disinterested_iff {u : Unit} (hb : Sound (book m))
    (hm : m.store.Disinterested) (h : exec env e m = .ok (u, m')) :
    m'.store.Disinterested ↔ e.SparesAdmin m.store := by
  have hb' : Sound (book m') := (exec_performs h).sound hb
  have hact := exec_act h
  cases e with
  | initializePool =>
      refine iff_of_true ((disinterested_iff hb').mpr fun a _ => ?_) trivial
      have hfresh : (book m).initialized = false := by
        generalize ho : m.store.office = o at hact
        generalize m'.store.office = o' at hact
        cases hact with
        | rest hidle => cases hidle
        | found hfresh => exact (congrArg Office.initialized ho).trans hfresh
      have hnone := (hb.unwired (hb.uninitialized hfresh)).2.2.2.2.1 a
      refine exec_held_eq_zero hb h ?_ (by rintro ⟨⟩)
      rw [held, account_of_none hnone]
  | acceptAdmin admin =>
      have hbook : book m' = book m := (exec_setting rfl h).1
      have hposition : m'.store.lpPosition = m.store.lpPosition :=
        congrArg Book.lpPosition hbook
      have hadmin : m'.store.admin = some admin := by
        generalize m.store.office = o at hact
        generalize ho' : m'.store.office = o' at hact
        cases hact with
        | rest hidle => cases hidle
        | accept => exact congrArg Office.admin ho'
      constructor
      · intro h' p hp
        exact h' admin p hadmin (hposition ▸ hp)
      · intro hspares a p ha hp
        obtain rfl := Option.some.inj (hadmin.symm.trans ha)
        exact hspares p (hposition ▸ hp)
  | _ =>
      refine iff_of_true ((disinterested_iff hb').mpr fun a ha => ?_) trivial
      have hsame : m'.store.admin = m.store.admin :=
        hact.admin_eq (by rintro _ _ _ _ _ _ _ ⟨⟩) (by rintro _ ⟨⟩)
      rw [hsame] at ha
      refine exec_held_eq_zero hb h ((disinterested_iff hb).mp hm a ha) ?_
      exact fun hreceiver => exec_outsider h hreceiver ha

end Calls

/-- The step spares the administrator. -/
def SparesAdmin (w : World State) : Label Entry → Prop
  | .call _ e => e.SparesAdmin w.machine.store
  | _ => True

section Runs

variable {self : Address} {w w' : World State} {l : Label Entry}

theorem step_disinterested_iff (hb : Sound (book w.machine))
    (hw : w.machine.store.Disinterested) (hstep : (system self).Step w l w') :
    w'.machine.store.Disinterested ↔ SparesAdmin w l := by
  cases hstep with
  | call _ hexec => exact exec_disinterested_iff hb hw hexec
  | tick => exact iff_of_true hw trivial
  | transfer => exact iff_of_true hw trivial
  | mint => exact iff_of_true hw trivial

theorem disinterested_inductive (self : Address) :
    ((system self).restrict SparesAdmin).Inductive fun w =>
      Sound (book w.machine) ∧ w.machine.store.Disinterested := by
  refine ((sound_inductive self).restrict SparesAdmin).and ?_ ?_
  · intro w hw a p ha
    rw [show w.machine.store = State.deployed from hw.1] at ha
    cases ha
  · rintro w l w' hb - hw ⟨hspares, hstep⟩
    exact (step_disinterested_iff hb hw hstep).mpr hspares

end Runs

end Parashield.RiskPool
