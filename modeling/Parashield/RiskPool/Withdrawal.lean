import Parashield.RiskPool.Office

/-!
# Risk pool: the guardians behind a withdrawal

The approvals of an administrator's withdrawal are counted from the request
on.  The pool does not record who approved, so a guardian that approves twice
is counted twice.
-/

namespace Parashield.RiskPool

open Support Support.Contract Invocation TransitionSystem

variable {self : Address} {s w w' : World State} {ls : List (Label Entry)}

/-! ## The count -/

/-- The approvals that count after a step, given those before it. -/
def ballot (votes : List Address) : Label Entry → List Address
  | .call _ (.requestAdminWithdrawal ..) => []
  | .call _ (.approveAdminWithdrawal guardian) => votes ++ [guardian]
  | _ => votes

/-- Who approved since the last request, one entry for each call. -/
def approvers (ls : List (Label Entry)) : List Address :=
  ls.foldl ballot []

theorem Act.ballot {env : Env} {e : Entry} {o o' : Office}
    {votes : List Address} (h : Act env e o o') (signers : List Address)
    (hcount : o.adminWithdrawalApprovals = votes.length) :
    o'.adminWithdrawalApprovals =
      (ballot votes (.call signers e)).length := by
  cases h with
  | rest he =>
      cases e with
      | requestAdminWithdrawal => cases he
      | approveAdminWithdrawal => cases he
      | _ => exact hcount
  | request => rfl
  | approve => simp [RiskPool.ballot, hcount]
  | _ => exact hcount

/-- The counter is the number of approvals since the last request. -/
theorem run_approvers {votes : List Address} (hrun : (system self).Run s ls w)
    (hs : s.machine.store.adminWithdrawalApprovals = votes.length) :
    w.machine.store.adminWithdrawalApprovals =
      (ls.foldl ballot votes).length := by
  induction hrun generalizing votes with
  | nil => exact hs
  | cons hstep _ ih =>
      refine ih ?_
      cases hstep with
      | call _ hexec => exact (exec_act hexec).ballot _ hs
      | tick => exact hs
      | transfer => exact hs
      | mint => exact hs

/-- Whoever is counted in the end was counted before or has approved. -/
theorem mem_foldl_ballot {votes : List Address} {g : Address}
    (h : g ∈ ls.foldl ballot votes) :
    g ∈ votes ∨
      ∃ signers, Label.call signers (.approveAdminWithdrawal g) ∈ ls := by
  induction ls generalizing votes with
  | nil => exact .inl h
  | cons l ls ih =>
      rcases ih h with hballot | ⟨signers, hmem⟩
      · unfold ballot at hballot
        split at hballot
        · cases hballot
        · rcases List.mem_append.mp hballot with hold | hnew
          · exact .inl hold
          · obtain rfl := List.mem_singleton.mp hnew
            exact .inr ⟨_, List.mem_cons_self⟩
        · exact .inl hballot
      · exact .inr ⟨signers, List.mem_cons_of_mem l hmem⟩

/-! ## The request -/

/-- Only a request makes a withdrawal pending that is not executed. -/
theorem Act.requests {env : Env} {e : Entry} {o o' : Office}
    {req : AdminWithdrawalRequest} (h : Act env e o o')
    (hopen : req.executed = false)
    (hbefore : o.adminWithdrawalRequest ≠ some req)
    (hafter : o'.adminWithdrawalRequest = some req) :
    ∃ admin amount, e = .requestAdminWithdrawal admin amount ∧
      req.executeAfter = env.now + timelockSeconds := by
  cases h with
  | request =>
      obtain rfl := Option.some.inj hafter
      exact ⟨_, _, rfl, rfl⟩
  | execute =>
      obtain rfl := Option.some.inj hafter
      cases hopen
  | withdraw => cases hafter
  | _ => exact absurd hafter hbefore

/-- In the run `ls` from `s`, guardian `g` approved a withdrawal. -/
def ApprovedIn (self : Address) (s : World State) (ls : List (Label Entry))
    (g : Address) : Prop :=
  ∃ before signers after v v',
    ls = before ++ .call signers (.approveAdminWithdrawal g) :: after ∧
      (system self).Run s before v ∧
      (system self).Step v (.call signers (.approveAdminWithdrawal g)) v' ∧
      g ∈ v.machine.store.guardians

/-- In the run `ls` from `s` to `w`, the withdrawal pending in `w` was
requested the timelock ago or earlier and has been pending since, and as many
different guardians as the threshold asks for have approved it. -/
def Endorsed (self : Address) (s : World State) (ls : List (Label Entry))
    (w : World State) : Prop :=
  ∃ before signers admin amount after t u,
    ls = before ++
        .call signers (.requestAdminWithdrawal admin amount) :: after ∧
      (system self).Run s before t ∧
      (system self).Step t
        (.call signers (.requestAdminWithdrawal admin amount)) u ∧
      ((system self).restrict fun v _ =>
        v.machine.store.adminWithdrawalRequest =
          w.machine.store.adminWithdrawalRequest).Run u after w ∧
      t.now + timelockSeconds ≤ w.now ∧
      ∃ gs : List Address, gs.Nodup ∧
        w.machine.store.guardianThreshold ≤ gs.length ∧
        ∀ g ∈ gs, ApprovedIn self u after g

theorem approvedIn_of_mem {signers : List Address} {g : Address}
    (hrun : (system self).Run s ls w)
    (hmem : .call signers (.approveAdminWithdrawal g) ∈ ls) :
    ApprovedIn self s ls g := by
  obtain ⟨before, after, v, v', rfl, hbefore, hstep, -⟩ :=
    hrun.step_of_mem hmem
  refine ⟨before, signers, after, v, v', rfl, hbefore, hstep, ?_⟩
  have hexec := hstep.exec_eq.2
  simp [exec, approveAdminWithdrawal] at hexec
  exact hexec.2.1

/-- If no guardian approves a withdrawal twice, it is executed only with the
approval of as many different guardians as the threshold asks for. -/
theorem executed_withdrawal_endorsed (self : Address) (s w w' : World State)
    (ls : List (Label Entry)) (signers : List Address) (admin : Address)
    (hinit : (system self).Init s) (hrun : (system self).Run s ls w)
    (hstep : (system self).Step w
      (.call signers (.executeAdminWithdrawal admin)) w')
    (hthreshold : 0 < w.machine.store.guardianThreshold)
    (honce : (approvers ls).Nodup) : Endorsed self s ls w := by
  have hexec := hstep.exec_eq.2
  simp [exec, executeAdminWithdrawal, requireAdmin] at hexec
  obtain ⟨-, -, req, hreq, hopen, hreached, hdue, -⟩ := hexec
  have hnone : s.machine.store.adminWithdrawalRequest ≠ some req := by
    rw [hinit.1]
    rintro ⟨⟩
  obtain ⟨before, l, after, t, u, rfl, hbefore, hl, ht, hu, hafter⟩ :=
    hrun.onset (P := fun v =>
      v.machine.store.adminWithdrawalRequest = some req) hnone hreq
  cases hl with
  | tick => exact absurd hu ht
  | transfer => exact absurd hu ht
  | mint => exact absurd hu ht
  | @call signers' e m' hself hexec =>
      obtain ⟨admin', amount, rfl, hsince⟩ :=
        (exec_act hexec).requests hopen ht hu
      have hcount : w.machine.store.adminWithdrawalApprovals =
          (approvers _).length := run_approvers hrun (by rw [hinit.1]; rfl)
      have hvotes : approvers (before ++
          .call signers' (.requestAdminWithdrawal admin' amount) :: after) =
          after.foldl ballot [] := by
        simp [approvers, ballot]
      refine ⟨before, signers', admin', amount, after, t, _, rfl, hbefore,
        .call hself hexec, ?_, ?_, _, honce, ?_, ?_⟩
      · rw [hreq]
        exact hafter
      · rw [hsince] at hdue
        exact hdue
      · exact (hreached hthreshold).trans_eq hcount
      · intro g hg
        rw [hvotes] at hg
        rcases mem_foldl_ballot hg with hnone | ⟨signers'', hmem⟩
        · cases hnone
        · exact approvedIn_of_mem hafter.of_restrict hmem

namespace Scenario

def guardianA : Address := .account 11
def guardianB : Address := .account 12

/-- Two guardians are appointed, and the administrator asks for tokens. -/
def requesting : List (Label Entry) :=
  [wiring, funding,
    .call [admin] (.setGuardians admin [guardianA, guardianB] 2),
    .call [admin] (.requestAdminWithdrawal admin 100)]

/-- Both guardians approve, and the timelock passes. -/
def endorsing : List (Label Entry) :=
  requesting ++
    [.call [guardianA] (.approveAdminWithdrawal guardianA),
      .call [guardianB] (.approveAdminWithdrawal guardianB),
      .tick timelockSeconds]

/-- One guardian approves twice, and the timelock passes. -/
def repeating : List (Label Entry) :=
  requesting ++
    [.call [guardianA] (.approveAdminWithdrawal guardianA),
      .call [guardianA] (.approveAdminWithdrawal guardianA),
      .tick timelockSeconds]

def executing : Label Entry :=
  .call [admin] (.executeAdminWithdrawal admin)

def endorsed : World State :=
  (execute (step exec pool) endorsing genesis).get (by decide +kernel)

def repeated : World State :=
  (execute (step exec pool) repeating genesis).get (by decide +kernel)

def withdrawn : World State :=
  (step exec pool endorsed executing).get (by decide +kernel)

def siphoned : World State :=
  (step exec pool repeated executing).get (by decide +kernel)

end Scenario

open Scenario in
theorem executed_withdrawal_endorsed_both :
    Endorsed pool genesis endorsing endorsed :=
  executed_withdrawal_endorsed pool genesis endorsed withdrawn endorsing
    [admin] admin ⟨rfl, rfl⟩
    (run_of_execute (fun _ _ _ => step_sound) (Option.some_get _).symm)
    (step_sound (Option.some_get _).symm) (by decide +kernel)
    (by decide +kernel)

open Scenario in
/-- Two approvals of one guardian execute a withdrawal that needs two
guardians. -/
theorem executed_withdrawal_not_endorsed :
    ¬ ∀ (self : Address) (s w w' : World State) (ls : List (Label Entry))
        (signers : List Address) (admin : Address),
      (system self).Init s → (system self).Run s ls w →
      (system self).Step w
        (.call signers (.executeAdminWithdrawal admin)) w' →
      0 < w.machine.store.guardianThreshold → Endorsed self s ls w := by
  intro h
  have hrun : (system pool).Run genesis repeating repeated :=
    run_of_execute (fun _ _ _ => step_sound) (Option.some_get _).symm
  obtain ⟨before, signers, admin', amount, after, t, u, hls, -, -, -, -, gs,
    hnodup, hle, happroved⟩ := h pool genesis repeated siphoned repeating
      [admin] admin ⟨rfl, rfl⟩ hrun (step_sound (Option.some_get _).symm)
      (by decide +kernel)
  have honly : ∀ g ∈ gs, g = guardianA := by
    intro g hg
    obtain ⟨before', signers', after', -, -, rfl, -⟩ := happroved g hg
    have hmem : Label.call signers' (.approveAdminWithdrawal g) ∈
        repeating := by
      rw [hls]
      simp
    simp [repeating, requesting, wiring, funding] at hmem
    exact hmem.2
  have hshort : gs.length ≤ 1 := by
    have hsub : gs ⊆ [guardianA] := fun g hg =>
      List.mem_singleton.mpr (honly g hg)
    exact (hnodup.subperm hsub).length_le
  have htwo : repeated.machine.store.guardianThreshold = 2 := by
    decide +kernel
  omega

end Parashield.RiskPool
