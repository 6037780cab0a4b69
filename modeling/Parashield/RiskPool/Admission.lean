import Parashield.RiskPool.Intake

/-!
# Risk pool: an open pool and its deposits

Which deposits a pool that is open takes.  Shares lose their price when the
administrator withdraws all deposits while shares are outstanding; from then on
a deposit divides by zero.
-/

namespace Parashield.RiskPool

open Support Support.Contract Invocation Book

/-! ## Recorded deposits -/

namespace Book

variable {env : Env} {b b' : Book} {a : Address}

/-- The deposits recorded with the positions are within range from below. -/
def Recorded (b : Book) : Prop :=
  ∀ a p, b.lpPosition a = some p → minI128 ≤ p.deposited

theorem Recorded.le (hb : Recorded b) (a : Address) :
    minI128 ≤ b.recorded a := by
  unfold recorded
  cases h : b.lpPosition a with
  | none => exact show minI128 ≤ 0 by decide
  | some p => exact hb a p h

/-- One position replaced by another, or removed. -/
theorem Recorded.replace (hb : Recorded b) {o : Option LpPosition}
    (h : b'.lpPosition = Function.update b.lpPosition a o)
    (ho : ∀ p, o = some p → minI128 ≤ p.deposited) : Recorded b' := by
  intro x p hp
  rw [h] at hp
  by_cases hx : x = a
  · rw [hx, Function.update_self] at hp
    exact ho p hp
  · rw [Function.update_of_ne hx] at hp
    exact hb x p hp

theorem minI128_le_satI128 (x : ℤ) : minI128 ≤ satI128 x :=
  le_max_left ..

/-- Every change keeps the range, a transfer if the recipient is within. -/
theorem Change.recorded {k : Kind} (hb : Recorded b) (h : Change env k b b')
    (hk : ∀ sender recipient shares, k = .move sender recipient shares →
      ∀ p, b'.lpPosition recipient = some p → minI128 ≤ p.deposited) :
    Recorded b' := by
  cases h with
  | burn =>
      refine hb.replace rfl fun q hq => ?_
      obtain rfl := Option.some.inj hq
      exact minI128_le_satI128 _
  | @mint _ provider amount newShares _ compound _ _ _ hmints =>
      refine hb.replace rfl fun q hq => ?_
      obtain rfl := Option.some.inj hq
      have hamount := hmints.amount_ge
      have hrecorded := hb.le provider
      unfold minDeposit at hamount
      unfold Book.recorded at hrecorded
      unfold increased
      cases hp : b.lpPosition provider with
      | none =>
          show minI128 ≤ amount
          unfold minI128
          omega
      | some p =>
          simp only [hp] at hrecorded
          show minI128 ≤ (b.settled env.now p).position.deposited + amount
          rw [settled_deposited]
          omega
  | @move _ sender recipient shares amount p B =>
      have hsent : Recorded { b with
          lpPosition :=
            b.setPosition sender (b.reduced env.now p shares amount) } := by
        refine hb.replace rfl fun q hq => ?_
        obtain rfl := Option.some.inj hq
        exact minI128_le_satI128 _
      refine hsent.replace rfl fun q hq => hk sender recipient shares rfl q ?_
      exact (Function.update_self ..).trans hq
  | collect hfound =>
      refine hb.replace rfl fun q hq => ?_
      obtain rfl := Option.some.inj hq
      rw [settled_deposited]
      exact hb _ _ hfound
  | @liquidate _ provider p bps seized h =>
      refine hb.replace rfl fun q hq => ?_
      split at hq
      · cases hq
      · obtain rfl := Option.some.inj hq
        exact minI128_le_satI128 _
  | @toggle _ provider p _ hfound =>
      refine hb.replace rfl fun q hq => ?_
      obtain rfl := Option.some.inj hq
      have hsame : minI128 ≤ p.deposited := hb provider p hfound
      exact hsame
  | _ => exact hb

end Book

variable {env : Env} {m m' : Machine State} {b : Book} {e : Entry}

theorem creditTransfer_recorded {recipient : Address} {shares amount : ℤ}
    {p : LpPosition} (hamount : InI128 amount)
    (h : creditTransfer env recipient shares amount m = .ok (p, m')) :
    minI128 ≤ p.deposited := by
  cases hp : m.store.lpPosition recipient with
  | none =>
      simp [creditTransfer, hp] at h
      obtain ⟨_, _, -, debt, -, -, rfl⟩ := h
      exact hamount.1
  | some q =>
      simp [creditTransfer, hp] at h
      obtain ⟨settled, -, hdeposited, -, debt, -, -, rfl⟩ := h
      exact hdeposited.1

/-- A transfer credits the recipient within range. -/
theorem transferPosition_recorded {sender recipient : Address}
    {shares amount : ℤ} (hb : Recorded (book m))
    (h : transferPosition env sender recipient shares m = .ok (amount, m')) :
    Recorded (book m') := by
  have hchange := transferPosition_change h
  obtain ⟨p, received, t, t₁, h⟩ := transferPosition_ok h
  obtain ⟨category, u, -, hrecord⟩ := h.record
  have hreceived := creditTransfer_recorded h.range h.credit
  obtain ⟨-, B, -, hbook⟩ := creditTransfer_ok h.credit
  have hcredited : (book m').lpPosition recipient = some received := by
    rw [recordNft_book hrecord, hbook]
    exact Function.update_self ..
  refine hchange.recorded hb fun _ _ _ heq p hp => ?_
  cases heq
  obtain rfl := Option.some.inj (hcredited.symm.trans hp)
  exact hreceived

/-- Entry points that transfer a position. -/
def Entry.isTransfer : Entry → Bool
  | .transferShares .. | .transferPosition .. => true
  | _ => false

theorem Entry.kind_of_not_transfer {k : Kind} (he : e.isTransfer = false)
    (hk : e.kind m.store = some k) (sender recipient : Address) (shares : ℤ) :
    k ≠ .move sender recipient shares := by
  rintro rfl
  cases e with
  | transferShares => cases he
  | transferPosition => cases he
  | requestReinsuranceRecovery _ _ loss answer =>
      cases answer with
      | none => cases hk
      | some answer =>
          simp only [Entry.kind] at hk
          split at hk <;> cases hk
  | executeAdminWithdrawal =>
      obtain ⟨_, -, hkind⟩ := Option.map_eq_some_iff.mp hk
      cases hkind
  | _ => cases hk

theorem Sweeps.recorded {n : ℕ} {b b' : Book} (h : Sweeps env n b b')
    (hb : Recorded b) : Recorded b' := by
  induction h with
  | refl => exact hb
  | clear _ hclear ih =>
      exact hclear.recorded (ih hb) fun _ _ _ heq => by cases heq
  | burn _ hburn ih =>
      exact hburn.recorded (ih hb) fun _ _ _ heq => by cases heq

theorem sweepExpiredExits_recorded {skip : Option Address} {maxScan n : ℕ}
    (h : sweepExpiredExits env maxScan skip m = .ok (n, m'))
    (hb : Recorded (book m)) : Recorded (book m') := by
  obtain ⟨_, -, hsweeps⟩ := sweepExpiredExits_sweeps h
  exact hsweeps.recorded hb

theorem Performs.recorded (h : Performs env m e b)
    (he : e.isTransfer = false) (hb : Recorded (book m)) : Recorded b := by
  have other : ∀ {k : Kind} {b b' : Book}, Recorded b → Change env k b b' →
      (∀ sender recipient shares, k ≠ .move sender recipient shares) →
      Recorded b' := fun hb hchange hk =>
    hchange.recorded hb fun _ _ _ heq => absurd heq (hk _ _ _)
  induction h with
  | idle => exact hb
  | single hkind hchange =>
      exact other hb hchange (Entry.kind_of_not_transfer he hkind)
  | deposit hsweep _ hchange =>
      exact other (sweepExpiredExits_recorded hsweep hb) hchange nofun
  | depositWithToken _ ih => exact ih rfl
  | withdraw hsweep hchange =>
      exact other (sweepExpiredExits_recorded hsweep hb) hchange nofun
  | requestExit hsweep hchange =>
      exact other (sweepExpiredExits_recorded hsweep hb) hchange nofun
  | claimExit _ hclear hburn =>
      exact other (other hb hclear nofun) hburn nofun
  | processExpiredExits hsweep => exact sweepExpiredExits_recorded hsweep hb

theorem exec_recorded {u : Unit} (h : exec env e m = .ok (u, m'))
    (hb : Recorded (book m)) : Recorded (book m') := by
  cases e with
  | transferPosition =>
      obtain ⟨amount, h⟩ := perform_ok.mp h
      exact transferPosition_recorded hb h
  | transferShares =>
      obtain ⟨amount, h⟩ := perform_ok.mp h
      simp [transferShares] at h
      exact transferPosition_recorded hb h.2
  | _ => exact (exec_performs h).recorded rfl hb

theorem recorded_inductive (self : Address) :
    (system self).Inductive fun w => Recorded (book w.machine) where
  init w hinit := by
    obtain ⟨now, store, bank⟩ := w
    obtain ⟨rfl, -⟩ := hinit
    exact fun _ _ hp => by cases hp
  step w l w' hb hstep := by
    cases hstep with
    | call _ hexec => exact exec_recorded hexec hb
    | tick => exact hb
    | transfer => exact hb
    | mint => exact hb

/-! ## The price of a share -/

namespace Book

variable {env : Env} {b b' : Book}

/-- Redemptions leave a price where there is one, and make none. -/
theorem Contracted.priced_iff (hb : Sound b) (hb' : Sound b')
    (h : Contracted b b') : Priced b ↔ Priced b' := by
  have hissued := h.issued
  have htotal := hb'.total_nonneg
  have hpool := hb'.deposited_nonneg
  have hle := h.deposited
  unfold Priced
  constructor
  · rintro (hzero | hpos)
    · exact .inl (hissued.mp hzero)
    · refine or_iff_not_imp_left.mpr fun hnonzero => ?_
      have hshares : 0 < b'.totalShares := htotal.lt_of_ne' hnonzero
      have hworth := (mul_pos hshares hpos).trans_le h.price
      exact pos_of_mul_pos_right hworth hb.total_nonneg
  · rintro (hzero | hpos)
    · exact .inl (hissued.mpr hzero)
    · exact .inr (hpos.trans_le hle)

/-- Only a withdrawal of all deposits by the administrator leaves shares
without a price. -/
theorem Change.priced {k : Kind} (hb : Sound b) (hall : AllHeld b)
    (hfinite : Finite b) (h : Change env k b b')
    (hk : ∀ amount, k = .adminWithdraw amount → b.totalShares ≠ 0 →
      amount < b.totalDeposited) (hpriced : Priced b) : Priced b' := by
  have hpool := hb.deposited_nonneg
  by_cases hzero : b.totalShares = 0
  · cases h with
    | mint hmints =>
        have hamount := hmints.amount_ge
        unfold minDeposit at hamount
        exact .inr (by simp only; omega)
    | burn hredeems => exact absurd hzero hredeems.issued
    | liquidate hseizes =>
        have hle := (hseizes.le_shares hb).trans (hb.held_le hseizes.found)
        have hpos := hseizes.seized_pos
        omega
    | wire => exact .inl rfl
    | _ => exact .inl hzero
  · have hpos := hpriced.resolve_left hzero
    by_cases hadmin : ∃ amount, k = .adminWithdraw amount
    · obtain ⟨amount, rfl⟩ := hadmin
      have hless := hk amount rfl hzero
      cases h with
      | adminWithdraw =>
          refine .inr ?_
          simp only [satI128, minI128, maxI128]
          omega
    · have hissued : Issued b := ⟨hb, hall, hfinite, hzero⟩
      have hissued' := h.issued_of hissued
      have hprice := h.priceKept hissued fun amount heq => hadmin ⟨amount, heq⟩
      have hshares : 0 < b'.totalShares :=
        hissued'.sound.total_nonneg.lt_of_ne' hissued'.issued
      have hworth := (mul_pos hpos hshares).trans_le hprice
      exact .inr (pos_of_mul_pos_left hworth hb.total_nonneg)

/-- A book whose shares are all held and have a price. -/
structure Quoted (b : Book) : Prop where
  sound : Sound b
  allHeld : AllHeld b
  finite : Finite b
  priced : Priced b

theorem Change.quoted {k : Kind} (hb : Quoted b) (h : Change env k b b')
    (hk : ∀ amount, k = .adminWithdraw amount → b.totalShares ≠ 0 →
      amount < b.totalDeposited) : Quoted b' where
  sound := h.sound hb.sound
  allHeld := h.allHeld hb.sound hb.allHeld
  finite := h.finite hb.finite
  priced := h.priced hb.sound hb.allHeld hb.finite hk hb.priced

end Book

/-- The administrator does not withdraw all deposits while shares are
outstanding. -/
def Entry.LeavesSome (s : State) : Entry → Prop
  | .executeAdminWithdrawal _ =>
      ∀ request, s.adminWithdrawalRequest = some request →
        s.totalShares ≠ 0 → request.amount < s.totalDeposited
  | _ => True

theorem Entry.leavesSome_kind (he : e.LeavesSome m.store) {amount : ℤ}
    (hk : e.kind m.store = some (.adminWithdraw amount)) :
    (book m).totalShares ≠ 0 → amount < (book m).totalDeposited := by
  cases e with
  | executeAdminWithdrawal =>
      obtain ⟨request, hrequest, hkind⟩ := Option.map_eq_some_iff.mp hk
      cases hkind
      exact he request hrequest
  | requestReinsuranceRecovery _ _ loss answer =>
      cases answer with
      | none => cases hk
      | some answer =>
          simp only [Entry.kind] at hk
          split at hk <;> cases hk
  | _ => cases hk

theorem Sweeps.quoted {n : ℕ} {b b' : Book} (h : Sweeps env n b b')
    (hb : Quoted b) : Quoted b' := by
  induction h with
  | refl => exact hb
  | clear _ hclear ih => exact hclear.quoted (ih hb) nofun
  | burn _ hburn ih => exact hburn.quoted (ih hb) nofun

theorem sweepExpiredExits_quoted {skip : Option Address} {maxScan n : ℕ}
    (h : sweepExpiredExits env maxScan skip m = .ok (n, m'))
    (hb : Quoted (book m)) : Quoted (book m') := by
  obtain ⟨_, -, hsweeps⟩ := sweepExpiredExits_sweeps h
  exact hsweeps.quoted hb

theorem Performs.quoted (h : Performs env m e b) (he : e.LeavesSome m.store)
    (hb : Quoted (book m)) : Quoted b := by
  induction h with
  | idle => exact hb
  | single hkind hchange =>
      refine hchange.quoted hb ?_
      rintro amount rfl
      exact Entry.leavesSome_kind he hkind
  | deposit hsweep _ hchange =>
      exact hchange.quoted (sweepExpiredExits_quoted hsweep hb) nofun
  | depositWithToken _ ih => exact ih trivial
  | withdraw hsweep hchange =>
      exact hchange.quoted (sweepExpiredExits_quoted hsweep hb) nofun
  | requestExit hsweep hchange =>
      exact hchange.quoted (sweepExpiredExits_quoted hsweep hb) nofun
  | claimExit _ hclear hburn =>
      exact hburn.quoted (hclear.quoted hb nofun) nofun
  | processExpiredExits hsweep => exact sweepExpiredExits_quoted hsweep hb

/-- No step withdraws all deposits from under the shares. -/
def LeavesSome (w : World State) : Label Entry → Prop
  | .call _ e => e.LeavesSome w.machine.store
  | _ => True

theorem quoted_inductive (self : Address) :
    ((system self).restrict LeavesSome).Inductive fun w =>
      Quoted (book w.machine) where
  init w hinit := by
    obtain ⟨hsound, hall, hfinite⟩ := (allHeld_inductive self).init w hinit
    refine ⟨hsound, hall, hfinite, .inl ?_⟩
    obtain ⟨now, store, bank⟩ := w
    obtain ⟨rfl, -⟩ := hinit
    rfl
  step w l w' hb := by
    rintro ⟨hguard, hstep⟩
    cases hstep with
    | call _ hexec => exact (exec_performs hexec).quoted hguard hb
    | tick => exact hb
    | transfer => exact { hb with sound := { hb.sound with } }
    | mint => exact { hb with sound := { hb.sound with } }

/-! ## Deposits into an open pool -/

variable {skip : Option Address} {a : Address}

/-- Some valid deposit of `a`, signed by `signers`, is accepted. -/
def Takes (self : Address) (w : World State) (signers : List Address)
    (a : Address) : Prop :=
  ∃ amount least compound w', ValidDeposit amount ∧
    (system self).Step w (.call signers (.deposit a amount least compound)) w'

/-- Expired exits of others can be settled, and the pool they leave receives
the least deposit from `a`. -/
def Admits (env : Env) (a : Address) (m : Machine State) : Prop :=
  ∃ n t, sweepExpiredExits env maxAutoExitScan (some a) m = .ok (n, t) ∧
    Receives env.now a (book t).leastDeposit t

theorem takes_iff {self : Address} {w : World State} {signers : List Address}
    (hw : (system self).Reachable w)
    (hactive : w.machine.store.status = .active) (hself : self ∉ signers)
    (hsigned : a ∈ signers) (hadmin : w.machine.store.admin ≠ some a)
    (hzero : a ≠ .zero) :
    Takes self w signers a ↔
      (book w.machine).Priced ∧ Admits (callEnv self w signers) a w.machine := by
  obtain ⟨hsound, hall, -⟩ := hw.invariant (allHeld_inductive self)
  have hrecorded := hw.invariant (recorded_inductive self)
  constructor
  · rintro ⟨amount, least, compound, w', -, hstep⟩
    obtain ⟨minted, hexec⟩ := perform_ok.mp hstep.exec_eq.2
    obtain ⟨hvalid, n, t, hsweep, hbought, hreceives⟩ :=
      deposit_receives hsound hexec
    obtain ⟨_, -, hsweeps⟩ := sweepExpiredExits_sweeps hsweep
    obtain ⟨ht, -, hcontracted⟩ := hsweeps.contracted hsound hall
    obtain ⟨hpriced, hle⟩ := leastDeposit_le ht hvalid hbought
    obtain ⟨hleast, -⟩ := leastDeposit_valid ht hpriced
    have htrecorded := sweepExpiredExits_recorded hsweep hrecorded
    exact ⟨(hcontracted.priced_iff hsound ht).mpr hpriced, n, t, hsweep,
      hreceives.mono ht (htrecorded.le a) hleast.least hle⟩
  · rintro ⟨hpriced, n, t, hsweep, hreceives⟩
    obtain ⟨_, -, hsweeps⟩ := sweepExpiredExits_sweeps hsweep
    obtain ⟨ht, -, hcontracted⟩ := hsweeps.contracted hsound hall
    have htpriced := (hcontracted.priced_iff hsound ht).mp hpriced
    obtain ⟨hvalid, hbought⟩ := leastDeposit_valid ht htpriced
    have hne : a ≠ self := fun heq => hself (heq ▸ hsigned)
    obtain ⟨minted, m', hdeposit⟩ := deposit_accepted ht hzero hne hsigned
      hadmin hactive hvalid hsweep hbought hreceives
    exact ⟨_, 0, true, _, hvalid,
      .call hself (perform_ok.mpr ⟨minted, hdeposit⟩)⟩

/-- Where no exit of anybody else has expired, the pool is asked as it is. -/
theorem admits_iff_of_not_due (hdue : ¬ m.store.ExitDue env.now (some a)) :
    Admits env a m ↔ Receives env.now a (book m).leastDeposit m := by
  obtain ⟨n, cursor, hsweep⟩ := sweepExpiredExits_passes maxAutoExitScan hdue
  constructor
  · rintro ⟨n', t, hswept, h⟩
    rw [hsweep, Except.ok.injEq, Prod.mk.injEq] at hswept
    obtain ⟨rfl, rfl⟩ := hswept
    exact { h with seated := fun hnone => { h.seated hnone with } }
  · intro h
    exact ⟨n, _, hsweep,
      { h with seated := fun hnone => { h.seated hnone with } }⟩

/-- A pool that is open takes a deposit of `a` if and only if shares have a
price, expired exits can be settled, and the pool they leave receives the
least deposit that buys a share.  Shares have a price in every run in which
the administrator does not withdraw all deposits while shares are
outstanding. -/
theorem open_pool_takes_iff {self : Address} {w : World State}
    {signers : List Address} (hw : (system self).Reachable w)
    (hopen : w.machine.store.Open) (hself : self ∉ signers)
    (hsigned : a ∈ signers) (hadmin : w.machine.store.admin ≠ some a)
    (hzero : a ≠ .zero) :
    (Takes self w signers a ↔
      (w.machine.store.totalShares = 0 ∨ 0 < w.machine.store.totalDeposited) ∧
        Admits (callEnv self w signers) a w.machine) ∧
    (((system self).restrict LeavesSome).Reachable w →
      (Takes self w signers a ↔
        Admits (callEnv self w signers) a w.machine)) ∧
    (¬ w.machine.store.ExitDue w.now (some a) →
      (Admits (callEnv self w signers) a w.machine ↔
        Receives w.now a (book w.machine).leastDeposit w.machine)) := by
  have hiff := takes_iff hw hopen.active hself hsigned hadmin hzero
  refine ⟨hiff, fun hrun => ?_, fun hdue => ?_⟩
  · have hquoted := hrun.invariant (quoted_inductive self)
    exact hiff.trans (and_iff_right hquoted.priced)
  · have hidle : ¬ w.machine.store.ExitDue (callEnv self w signers).now
        (some a) := hdue
    exact admits_iff_of_not_due hidle

/-! ## A pool emptied by its administrator -/

namespace Scenario

/-- The administrator asks for all deposits, the timelock passes, and the
request is executed. -/
def emptying : List (Label Entry) :=
  [wiring, funding,
    .call [admin] (.requestAdminWithdrawal admin 1000000),
    .tick timelockSeconds,
    .call [admin] (.executeAdminWithdrawal admin)]

def emptied : World State :=
  (TransitionSystem.execute (step exec pool) emptying genesis).get
    (by decide +kernel)

/-- What `other` might deposit. -/
def topUp : Entry :=
  .deposit other 1000000 0 false

end Scenario

section Example

open Scenario

theorem earning_open : earning.machine.store.Open :=
  ⟨by decide +kernel, by decide +kernel, by decide +kernel⟩

theorem earning_receives :
    Receives earning.now other (book earning.machine).leastDeposit
      earning.machine where
  funded := ⟨usdc, by decide +kernel, by decide +kernel⟩
  categorized := by decide +kernel
  utilized := by decide +kernel
  sized := by decide +kernel
  deposited := by decide +kernel
  priced := by decide +kernel
  issued := by decide +kernel
  earning := by decide +kernel
  credited := by decide +kernel
  settles p hp := by
    have hnone : earning.machine.store.lpPosition other = none := by
      decide +kernel
    rw [hnone] at hp
    cases hp
  seated _ := ⟨by decide +kernel, by decide +kernel, by decide +kernel⟩

theorem open_pool_takes_iff_earning : Takes pool earning [other] other := by
  have hidle : ¬ earning.machine.store.ExitDue earning.now (some other) := by
    rintro ⟨idx, provider, request, -, -, -, hrequest, -⟩
    have hnone : earning.machine.store.exitReq provider = none := by
      with_unfolding_all rfl
    rw [hnone] at hrequest
    cases hrequest
  obtain ⟨htakes, -, hadmits⟩ := open_pool_takes_iff earning_reachable
    earning_open (show pool ∉ [other] by decide)
    (show other ∈ [other] by simp) (by decide +kernel) (by decide)
  exact htakes.mpr ⟨.inr (by decide +kernel), (hadmits hidle).mpr
    earning_receives⟩

/-- After the administrator has withdrawn all deposits, the pool is open and
takes no deposit of anybody. -/
theorem emptied_pool_takes_none :
    ¬ ∀ (self : Address) (w : World State), (system self).Reachable w →
      w.machine.store.Open → ∃ signers a, self ∉ signers ∧ a ∈ signers ∧
        w.machine.store.admin ≠ some a ∧ Takes self w signers a := by
  intro h
  have hinit : (system pool).Init genesis := ⟨rfl, rfl⟩
  have hrun : (system pool).Run genesis emptying emptied :=
    TransitionSystem.run_of_execute (fun _ _ _ => step_sound)
      (Option.some_get _).symm
  have hreachable := (TransitionSystem.Reachable.init hinit).run hrun
  obtain ⟨signers, a, hself, hsigned, hadmin, htakes⟩ :=
    h pool emptied hreachable
      ⟨by decide +kernel, by decide +kernel, by decide +kernel⟩
  have hzero : a ≠ .zero := by
    obtain ⟨amount, least, compound, w', -, hstep⟩ := htakes
    obtain ⟨minted, hexec⟩ := perform_ok.mp hstep.exec_eq.2
    simp [deposit, requireNotZeroAddress] at hexec
    exact hexec.1
  obtain ⟨hpriced, -⟩ := (takes_iff hreachable (by decide +kernel) hself hsigned
    hadmin hzero).mp htakes
  have hnone : ¬ (book emptied.machine).Priced := by
    rintro (hzero | hpos)
    · exact absurd hzero (by decide +kernel)
    · exact absurd hpos (by decide +kernel)
  exact hnone hpriced

example : exec (callEnv pool emptied [other]) topUp emptied.machine =
    .error (.error .overflow) :=
  failure_eq_some.mp (by decide +kernel)

end Example

end Parashield.RiskPool
