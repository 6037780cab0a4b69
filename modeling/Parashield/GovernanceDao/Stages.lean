import Parashield.GovernanceDao.Lifecycle

/-!
# Governance DAO: the stages of a proposal

A proposal goes from discussion through voting to its outcome, and one that
passed to its execution, which happens once, unvetoed and in its window.
-/

namespace Parashield.GovernanceDao

open Support Support.Contract Invocation

variable {self : Address} {env : Env} {s s' : State} {m m' : Machine State}
  {w w₀ w' : World State} {pid : ℕ} {p p' p'' : Proposal} {e : Entry}

/-! ## Turns -/

/-- The ways a status can change. -/
inductive ProposalStatus.Next : ProposalStatus → ProposalStatus → Prop
  | started : Next .discussion .active
  | dropped : Next .discussion .cancelled
  | passed : Next .active .passed
  | failed : Next .active .failed
  | cancelled : Next .active .cancelled
  | executed : Next .passed .executed
  | lapsed : Next .passed .expired

/-- What a call of `e` in the storage `s` does to the status of a proposal. -/
inductive Proposal.Turn (env : Env) (e : Entry) (s : State) (pid : ℕ)
    (p p' : Proposal) : Prop
  | steady : p'.status = p.status → p'.executionTime = p.executionTime →
      Turn env e s pid p p'
  | started : e = .startVoting pid → p.status = .discussion →
      p'.status = .active → Turn env e s pid p p'
  | passed {config : DaoConfig} : e.closing pid ≠ none → p.status = .active →
      p.voteEnd + finalizeDelay < env.now → s.config = some config →
      p'.status = .passed →
      p'.executionTime = env.now + config.proposalTimelock →
      Turn env e s pid p p'
  | refunded : e.closing pid ≠ none → p.status.Next p'.status →
      p'.status = .failed ∨ p'.status = .cancelled → Turn env e s pid p p'
  | lapsed {handles : Handles} {outcome : Outcome} :
      e = .execute handles outcome pid → p.status = .passed →
      p'.status = .expired → Turn env e s pid p p'
  | executed {handles : Handles} {outcome : Outcome} :
      e = .execute handles outcome pid → p.status = .passed →
      p'.status = .executed → Turn env e s pid p p'

theorem Proposal.Turn.next (h : p.Turn env e s pid p') :
    p'.status = p.status ∨ p.status.Next p'.status := by
  cases h with
  | steady hstatus _ => exact .inl hstatus
  | started _ hp hp' => exact .inr (hp ▸ hp' ▸ .started)
  | passed _ hp _ _ hp' _ => exact .inr (hp ▸ hp' ▸ .passed)
  | refunded _ hnext _ => exact .inr hnext
  | lapsed _ hp hp' => exact .inr (hp ▸ hp' ▸ .lapsed)
  | executed _ hp hp' => exact .inr (hp ▸ hp' ▸ .executed)

/-- Replacing one proposal after a turn of it. -/
theorem turn_of_update {id : ℕ} {q q' : Proposal} (hq : s.proposal id = some q)
    (hturn : q.Turn env e s id q') (hp : s.proposal pid = some p)
    (heq : s'.proposal = Function.update s.proposal id (some q')) :
    ∃ p', s'.proposal pid = some p' ∧ p.Turn env e s pid p' := by
  rw [heq]
  by_cases hid : pid = id
  · subst hid
    rw [hp, Option.some.injEq] at hq
    subst hq
    exact ⟨q', Function.update_self .., hturn⟩
  · exact ⟨p, (Function.update_of_ne hid _ _).trans hp, .steady rfl rfl⟩

theorem Change.turn (h : Change env e m m') (hm : Numbered m.store)
    (hp : m.store.proposal pid = some p) :
    ∃ p', m'.store.proposal pid = some p' ∧ p.Turn env e m.store pid p' := by
  cases h with
  | passed hclosing h =>
      obtain ⟨q, config, _, hq, hactive, hended, hconfig, -, rfl⟩ := h
      refine turn_of_update hq (.passed ?_ hactive hended hconfig rfl rfl) hp
        rfl
      rw [hclosing]
      exact nofun
  | @refunded id _ status hclosing h =>
      obtain ⟨q, _, _, _, _, hq, hopen, hdiscussed, -, -, -, rfl⟩ := h.change
      have hnext : q.status.Next status := by
        rcases hopen with hactive | hdiscussion
        · rw [hactive]
          rcases h.outcome with rfl | rfl
          · exact .failed
          · exact .cancelled
        · rw [hdiscussion, hdiscussed hdiscussion]
          exact .dropped
      have hturn : q.Turn env e m.store id { q with status := status } :=
        .refunded (by rw [hclosing]; exact nofun) hnext h.outcome
      exact turn_of_update hq hturn hp rfl
  | started heq h =>
      obtain ⟨q, _, hq, hdiscussed, -, -, -, rfl⟩ := h
      exact turn_of_update hq (.started heq hdiscussed rfl) hp rfl
  | lapsed heq h =>
      obtain ⟨q, hdue, -, rfl⟩ := h
      exact turn_of_update hdue.stored (.lapsed heq hdue.passed rfl) hp rfl
  | executed heq h =>
      obtain ⟨q, _, _, _, _, hdue, -, -, -, -, -, -, rfl⟩ := h
      exact turn_of_update hdue.stored (.executed heq hdue.passed rfl) hp rfl
  | @vetoed _ id _ _ h =>
      obtain ⟨q, _, hq, -, -, rfl⟩ := h.change
      have hturn : q.Turn env e m.store id { q with isVetoed := true } :=
        .steady rfl rfl
      exact turn_of_update hq hturn hp rfl
  | @voted voter choice ballots _ h =>
      obtain ⟨_, _, _, _, _, -, -, -, -, -, hballots, rfl⟩ := h.change
      by_cases hmem : pid ∈ ballots.map Prod.fst
      · obtain ⟨⟨id, q⟩, hb, rfl⟩ := List.mem_map.mp hmem
        obtain rfl : q = p := by
          have hstored := (h.eligible _ hb).stored
          rw [hp, Option.some.injEq] at hstored
          exact hstored.symm
        obtain ⟨weight, -, hq⟩ := hballots.proposal_of_mem h.distinct hb
        exact ⟨_, hq, .steady (q.setVotes_status _ _) (by cases choice <;> rfl)⟩
      · exact ⟨p, (hballots.proposal_of_notMem hmem).trans hp, .steady rfl rfl⟩
  | opened _ h =>
      obtain ⟨-, -, _, _, -, -, rfl⟩ := h
      have hne : pid ≠ m.store.nextProposalId := by
        have hlt := (hm.stored pid p hp).2
        omega
      exact ⟨p, (Function.update_of_ne hne _ _).trans hp, .steady rfl rfl⟩
  | aside _ hbook _ =>
      rw [hbook.proposal]
      exact ⟨p, hp, .steady rfl rfl⟩
  | initialized h =>
      obtain ⟨-, _, _, -, -, rfl⟩ := h
      exact ⟨p, hp, .steady rfl rfl⟩
  | configured h =>
      obtain ⟨-, _, -, rfl⟩ := h
      exact ⟨p, hp, .steady rfl rfl⟩
  | delegated _ _ _ heq =>
      rw [heq]
      exact ⟨p, hp, .steady rfl rfl⟩
  | revoked _ _ _ heq =>
      rw [heq]
      exact ⟨p, hp, .steady rfl rfl⟩
  | withdrawn _ h =>
      obtain ⟨_, _, -, -, rfl⟩ := h.change
      exact ⟨p, hp, .steady rfl rfl⟩

/-! ## One turn a call -/

/-- The changes of a batch of finalizations leave the configuration alone. -/
theorem Change.config_of_batch {handles : ℕ → Handles} {ids : List ℕ}
    (h : Change env (.finalizeBatch handles ids) m m') :
    m'.store.config = m.store.config := by
  rcases h.config_cases with hsame | ⟨-, _, _, heq, -⟩ | ⟨-, _, hcall, -⟩
  · exact hsame
  · cases heq
  · rcases hcall with ⟨_, heq, -⟩ | ⟨_, _, _, heq, -⟩
    · cases heq
    · cases heq

/-- A proposal that was closed in a batch is not closed again by it. -/
theorem Proposal.Turn.trans_of_batch {handles : ℕ → Handles} {ids : List ℕ}
    (hterms : p.voteEnd = p'.voteEnd)
    (h : p.Turn env (.finalizeBatch handles ids) s pid p')
    (hconfig : s'.config = s.config)
    (h' : p'.Turn env (.finalizeBatch handles ids) s' pid p'') :
    p.Turn env (.finalizeBatch handles ids) s pid p'' := by
  cases h' with
  | steady hstatus htime =>
      cases h with
      | steady hstatus' htime' =>
          exact .steady (hstatus.trans hstatus') (htime.trans htime')
      | passed hclosing hp hended hc hp' htime' =>
          exact .passed hclosing hp hended hc (hstatus.trans hp')
            (htime.trans htime')
      | refunded hclosing hnext hp' =>
          exact .refunded hclosing (hstatus ▸ hnext) (hstatus ▸ hp')
      | started heq _ _ => cases heq
      | lapsed heq _ _ => cases heq
      | executed heq _ _ => cases heq
  | passed hclosing hp hended hc hp' htime =>
      cases h with
      | steady hstatus' _ =>
          exact .passed hclosing (hstatus'.symm.trans hp) (hterms ▸ hended)
            (hconfig ▸ hc) hp' htime
      | passed _ _ _ _ hpassed _ =>
          rw [hp] at hpassed
          cases hpassed
      | refunded _ _ hclosed =>
          rw [hp] at hclosed
          rcases hclosed with hclosed | hclosed <;> cases hclosed
      | started heq _ _ => cases heq
      | lapsed heq _ _ => cases heq
      | executed heq _ _ => cases heq
  | refunded hclosing hnext hp' =>
      cases h with
      | steady hstatus' _ => exact .refunded hclosing (hstatus' ▸ hnext) hp'
      | passed _ _ _ _ hpassed _ =>
          rw [hpassed] at hnext
          rcases hp' with hp' | hp' <;> rw [hp'] at hnext <;> cases hnext
      | refunded _ _ hclosed =>
          rcases hclosed with hclosed | hclosed <;> rw [hclosed] at hnext <;>
            cases hnext
      | started heq _ _ => cases heq
      | lapsed heq _ _ => cases heq
      | executed heq _ _ => cases heq
  | started heq _ _ => cases heq
  | lapsed heq _ _ => cases heq
  | executed heq _ _ => cases heq

theorem exec_turn {u : Unit} (h : exec env e m = .ok (u, m'))
    (hm : Numbered m.store) (hp : m.store.proposal pid = some p) :
    ∃ p', m'.store.proposal pid = some p' ∧ p.Turn env e m.store pid p' := by
  by_cases he : ∃ handles ids, e = .finalizeBatch handles ids
  · obtain ⟨handles, ids, rfl⟩ := he
    have hbatch := changes_keep
      (I := fun m₁ => Numbered m₁.store ∧ m₁.store.config = m.store.config ∧
        ∃ p₁, m₁.store.proposal pid = some p₁ ∧ p.voteEnd = p₁.voteEnd ∧
          p.Turn env (.finalizeBatch handles ids) m.store pid p₁) ?_
      (exec_changes h) ⟨hm, rfl, p, hp, rfl, .steady rfl rfl⟩
    · obtain ⟨-, -, p', hp', -, hturn⟩ := hbatch
      exact ⟨p', hp', hturn⟩
    · rintro m₁ m₂ hchange ⟨hm₁, hconfig, p₁, hp₁, hend, hturn⟩
      obtain ⟨p₂, hp₂, hturn₂⟩ := hchange.turn hm₁ hp₁
      have hend₂ : p₁.voteEnd = p₂.voteEnd := by
        rcases hchange.move hm₁ hp₁ with hsame | ⟨q, hq, hmove⟩
        · rw [hp₂, Option.some.injEq] at hsame
          rw [hsame]
        · rw [hp₂, Option.some.injEq] at hq
          rw [hq, hmove.sameTerms.voteEnd]
      exact ⟨hchange.numbered hm₁, hchange.config_of_batch.trans hconfig, p₂,
        hp₂, hend.trans hend₂, hturn.trans_of_batch hend hconfig hturn₂⟩
  · push Not at he
    cases exec_single h he with
    | refl => exact ⟨p, hp, .steady rfl rfl⟩
    | single hchange => exact hchange.turn hm hp

/-- A proposal that was not there before a call is the one it creates. -/
theorem exec_created {u : Unit} (h : exec env e m = .ok (u, m'))
    (hp : m.store.proposal pid = none)
    (hp' : m'.store.proposal pid = some p') :
    ∃ (o : Opening) (config : DaoConfig), e.opening env = some o ∧
      m.store.config = some config ∧
      p' = o.proposal env m.store config := by
  by_cases he : ∃ handles ids, e = .finalizeBatch handles ids
  · obtain ⟨handles, ids, rfl⟩ := he
    have hnone : m'.store.proposal pid = none := by
      refine changes_keep (I := fun m => m.store.proposal pid = none) ?_
        (exec_changes h) hp
      intro m m' hchange hm
      rcases hchange.absent hm with hnone | ⟨_, heq, -⟩
      · exact hnone
      · cases heq
    rw [hnone] at hp'
    cases hp'
  · push Not at he
    cases exec_single h he with
    | refl =>
        rw [hp] at hp'
        cases hp'
    | single hchange =>
        obtain ⟨o, config, ho, -, hconfig, -, heq⟩ := hchange.created hp hp'
        exact ⟨o, config, ho, hconfig, heq⟩

/-- A step that creates a proposal does so under the configuration in force. -/
theorem step_created {l : Label Entry} (h : (system self).Step w l w')
    (hp : w.machine.store.proposal pid = none)
    (hp' : w'.machine.store.proposal pid = some p') :
    ∃ (signers : List Address) (o : Opening) (config : DaoConfig),
      w.machine.store.config = some config ∧
      p' = o.proposal (callEnv self w signers) w.machine.store config := by
  cases h with
  | call _ hexec =>
      obtain ⟨o, config, -, hconfig, heq⟩ := exec_created hexec hp hp'
      exact ⟨_, o, config, hconfig, heq⟩
  | tick =>
      rw [hp] at hp'
      cases hp'
  | transfer =>
      rw [hp] at hp'
      cases hp'
  | mint =>
      rw [hp] at hp'
      cases hp'

/-- A call is all that changes a status or an execution time. -/
theorem step_turn {l : Label Entry} (h : (system self).Step w l w')
    (hm : Numbered w.machine.store) (hp : w.machine.store.proposal pid = some p) :
    ∃ p', w'.machine.store.proposal pid = some p' ∧
      ((p'.status = p.status ∧ p'.executionTime = p.executionTime) ∨
        ∃ signers e, l = .call signers e ∧
          p.Turn (callEnv self w signers) e w.machine.store pid p') := by
  cases h with
  | call _ hexec =>
      obtain ⟨p', hp', hturn⟩ := exec_turn hexec hm hp
      exact ⟨p', hp', .inr ⟨_, _, rfl, hturn⟩⟩
  | tick => exact ⟨p, hp, .inl ⟨rfl, rfl⟩⟩
  | transfer => exact ⟨p, hp, .inl ⟨rfl, rfl⟩⟩
  | mint => exact ⟨p, hp, .inl ⟨rfl, rfl⟩⟩

theorem step_next {l : Label Entry} (h : (system self).Step w l w')
    (hm : Numbered w.machine.store) (hp : w.machine.store.proposal pid = some p) :
    ∃ p', w'.machine.store.proposal pid = some p' ∧
      (p'.status = p.status ∨ p.status.Next p'.status) := by
  obtain ⟨p', hp', ⟨hstatus, -⟩ | ⟨_, _, -, hturn⟩⟩ := step_turn h hm hp
  · exact ⟨p', hp', .inl hstatus⟩
  · exact ⟨p', hp', hturn.next⟩

/-! ## Vetoes -/

def State.IsVetoed (s : State) (pid : ℕ) : Prop :=
  ∃ p, s.proposal pid = some p ∧ p.isVetoed = true

theorem Proposal.Move.isVetoed (h : p.Move p') (hp : p.isVetoed = true) :
    p'.isVetoed = true := by
  cases h with
  | counted choice _ _ _ => cases choice <;> exact hp
  | vetoed _ => rfl
  | _ => exact hp

theorem step_isVetoed {l : Label Entry} (h : (system self).Step w l w')
    (hm : Numbered w.machine.store) (hveto : w.machine.store.IsVetoed pid) :
    w'.machine.store.IsVetoed pid := by
  cases h with
  | call _ hexec =>
      refine (changes_keep
        (I := fun m => Numbered m.store ∧ m.store.IsVetoed pid) ?_
        (exec_changes hexec) ⟨hm, hveto⟩).2
      rintro m m' hchange ⟨hm, p, hp, hveto⟩
      refine ⟨hchange.numbered hm, ?_⟩
      rcases hchange.move hm hp with hsame | ⟨p', hp', hmove⟩
      · exact ⟨p, hsame, hveto⟩
      · exact ⟨p', hp', hmove.isVetoed hveto⟩
  | tick => exact hveto
  | transfer => exact hveto
  | mint => exact hveto

theorem run_numbered {ls : List (Label Entry)}
    (hrun : (system self).Run w ls w') (hw : Numbered w.machine.store) :
    Numbered w'.machine.store :=
  hrun.preserves (Q := fun w => Numbered w.machine.store)
    (numbered_inductive self).step hw

/-- A veto lasts to the end of the run. -/
theorem run_isVetoed {ls : List (Label Entry)} {signers : List Address}
    {guardian : Address} {reason : Symbol}
    (hrun : (system self).Run w ls w') (hw : Numbered w.machine.store)
    (hmem : .call signers (.vetoProposal guardian pid reason) ∈ ls) :
    w'.machine.store.IsVetoed pid := by
  obtain ⟨before, after, t, u, rfl, hbefore, hstep, hafter⟩ :=
    hrun.step_of_mem hmem
  have ht := run_numbered hbefore hw
  have hu := (numbered_inductive self).step t _ u ht hstep
  have hveto : u.machine.store.IsVetoed pid := by
    obtain ⟨-, hexec⟩ := hstep.exec_eq
    obtain ⟨p, _, -, -, -, hu'⟩ := (vetoProposal_spec hexec).change
    rw [hu']
    exact ⟨_, Function.update_self .., rfl⟩
  refine (hafter.preserves (Q := fun w => Numbered w.machine.store ∧
    w.machine.store.IsVetoed pid) ?_ ⟨hu, hveto⟩).2
  rintro v l v' ⟨hv, hveto⟩ hstep
  exact ⟨(numbered_inductive self).step v l v' hv hstep,
    step_isVetoed hstep hv hveto⟩

/-! ## Execution -/

/-- The invocation of the action of a proposal at a ledger time. -/
structure Invoked where
  proposalId : ℕ
  target : Address
  function : Symbol
  args : List Val
  invokedAt : ℕ
  deriving DecidableEq

/-- The action that an accepted call invokes: an execution up to the deadline
does so, a later one closes the proposal. -/
def invoked (w : World State) : Label Entry → List Invoked
  | .call _ (.execute _ _ proposalId) =>
      match w.machine.store.proposal proposalId with
      | some p =>
          if p.executionDeadline < w.now then []
          else [⟨proposalId, p.target, p.function, p.args, w.now⟩]
      | none => []
  | _ => []

/-- An action is invoked while its proposal is due, which is executed then. -/
theorem step_invoked {l : Label Entry} {a : Invoked}
    (h : (system self).Step w l w') (ha : a ∈ invoked w l) :
    ∃ p, w.machine.store.Due w.now a.proposalId p ∧
      w.now ≤ p.executionDeadline ∧
      invoked w l = [a] ∧
      a = ⟨a.proposalId, p.target, p.function, p.args, w.now⟩ ∧
      w'.machine.store.proposal a.proposalId =
        some { p with status := .executed } := by
  unfold invoked at ha
  split at ha
  · next signers handles outcome pid =>
      obtain ⟨-, hexec⟩ := h.exec_eq
      split at ha
      · next p hp =>
          split at ha
          · cases ha
          · next hintime =>
              obtain rfl := List.mem_singleton.mp ha
              have hinvoked : invoked w
                  (.call signers (.execute handles outcome pid)) =
                    [⟨pid, p.target, p.function, p.args, w.now⟩] := by
                simp only [invoked, hp, if_neg hintime]
              rcases execute_spec hexec with ⟨q, hdue, hlate, -⟩ |
                  ⟨q, _, _, _, _, hdue, htime, -, -, -, -, -, hw'⟩
              · rw [hdue.stored, Option.some.injEq] at hp
                exact absurd (hp ▸ hlate) hintime
              · obtain rfl : q = p := by
                  rw [hdue.stored, Option.some.injEq] at hp
                  exact hp
                refine ⟨q, hdue, htime, hinvoked, rfl, ?_⟩
                rw [hw']
                exact Function.update_self ..
      · cases ha
  · cases ha

/-- What is known of the run up to an invocation: the proposal has passed, no
guardian has vetoed it, its window is open, and it was finalized at least the
timelock of that time ago. -/
structure MayInvoke (self : Address) (w₀ : World State)
    (ls : List (Label Entry)) (w : World State) (a : Invoked) : Prop where
  unvetoed : ∀ signers guardian reason,
    .call signers (.vetoProposal guardian a.proposalId reason) ∉ ls
  due : ∃ p, w.machine.store.proposal a.proposalId = some p ∧
    p.status = .passed ∧ a.target = p.target ∧ a.function = p.function ∧
    a.args = p.args ∧ p.executionTime ≤ a.invokedAt ∧
    a.invokedAt ≤ p.executionDeadline
  finalized : ∃ before l after t u q q' config, ls = before ++ l :: after ∧
    (system self).Run w₀ before t ∧ (system self).Step t l u ∧
    (system self).Run u after w ∧
    t.machine.store.proposal a.proposalId = some q ∧ q.status = .active ∧
    u.machine.store.proposal a.proposalId = some q' ∧ q'.status = .passed ∧
    t.machine.store.config = some config ∧
    t.now + config.proposalTimelock ≤ a.invokedAt

/-- The proposal has passed and is locked until `executionTime`. -/
def State.PassedUntil (s : State) (pid executionTime : ℕ) : Prop :=
  ∃ p, s.proposal pid = some p ∧ p.status = .passed ∧
    p.executionTime = executionTime

/-- A proposal gets its execution time by passing. -/
theorem step_passes {l : Label Entry} {τ : ℕ} (h : (system self).Step w l w')
    (hm : Numbered w.machine.store)
    (hbefore : ¬ w.machine.store.PassedUntil pid τ)
    (hafter : w'.machine.store.PassedUntil pid τ) :
    ∃ q q' config, w.machine.store.proposal pid = some q ∧
      q.status = .active ∧ w'.machine.store.proposal pid = some q' ∧
      q'.status = .passed ∧ w.machine.store.config = some config ∧
      w.now + config.proposalTimelock = τ := by
  obtain ⟨p', hp', hpassed, htime⟩ := hafter
  cases hp : w.machine.store.proposal pid with
  | none =>
      obtain ⟨_, o, config, -, rfl⟩ := step_created h hp hp'
      rcases ProposalStatus.isOpen_schedule config w.now with hopen | hopen <;>
        cases hpassed.symm.trans hopen
  | some p =>
      obtain ⟨q, hq, hturn⟩ := step_turn h hm hp
      obtain rfl : q = p' := by
        rw [hp', Option.some.injEq] at hq
        exact hq.symm
      rcases hturn with ⟨hstatus, hsame⟩ | ⟨signers, e, rfl, hturn⟩
      · exact absurd ⟨p, hp, hstatus ▸ hpassed, hsame ▸ htime⟩ hbefore
      · cases hturn with
        | steady hstatus hsame =>
            exact absurd ⟨p, hp, hstatus ▸ hpassed, hsame ▸ htime⟩ hbefore
        | passed _ hactive _ hconfig _ hlock =>
            exact ⟨p, q, _, rfl, hactive, hq, hpassed, hconfig,
              hlock.symm.trans htime⟩
        | started _ _ hstatus =>
            rw [hpassed] at hstatus
            cases hstatus
        | refunded _ _ hstatus =>
            rw [hpassed] at hstatus
            rcases hstatus with hstatus | hstatus <;> cases hstatus
        | lapsed _ _ hstatus =>
            rw [hpassed] at hstatus
            cases hstatus
        | executed _ _ hstatus =>
            rw [hpassed] at hstatus
            cases hstatus

theorem mayInvoke {ls : List (Label Entry)} {l : Label Entry} {a : Invoked}
    (hinit : (system self).Init w₀) (hrun : (system self).Run w₀ ls w)
    (h : (system self).Step w l w') (ha : a ∈ invoked w l) :
    MayInvoke self w₀ ls w a := by
  have hnumbered := (numbered_inductive self).init w₀ hinit
  obtain ⟨p, hdue, htime, -, heq, -⟩ := step_invoked h ha
  have hat : a.invokedAt = w.now := by rw [heq]
  have hlock : p.executionTime ≤ a.invokedAt := hat ▸ hdue.unlocked
  constructor
  case unvetoed =>
    intro signers guardian reason hmem
    obtain ⟨q, hq, hveto⟩ := run_isVetoed hrun hnumbered hmem
    rw [hdue.stored, Option.some.injEq] at hq
    subst hq
    rw [hdue.unvetoed] at hveto
    cases hveto
  case due =>
    exact ⟨p, hdue.stored, hdue.passed, by rw [heq], by rw [heq], by rw [heq],
      hlock, hat ▸ htime⟩
  case finalized =>
    have hstart : ¬ w₀.machine.store.PassedUntil a.proposalId
        p.executionTime := by
      rintro ⟨q, hq, -⟩
      rw [hinit.1] at hq
      cases hq
    obtain ⟨before, l', after, t, u, rfl, hbefore, hstep, ht, hu, hafter⟩ :=
      hrun.onset (P := fun w => w.machine.store.PassedUntil a.proposalId
        p.executionTime) hstart ⟨p, hdue.stored, hdue.passed, rfl⟩
    obtain ⟨q, q', config, hq, hactive, hq', hpassed, hconfig, hsum⟩ :=
      step_passes hstep (run_numbered hbefore hnumbered) ht hu
    exact ⟨before, l', after, t, u, q, q', config, rfl, hbefore, hstep,
      hafter.of_restrict, hq, hactive, hq', hpassed, hconfig,
      hsum.trans_le hlock⟩

/-! ## Once -/

/-- The invocations so far are of different proposals, all executed now. -/
structure InvokedOnce (s : State) (log : List Invoked) : Prop where
  distinct : (log.map Invoked.proposalId).Nodup
  executed : ∀ a ∈ log, ∃ p, s.proposal a.proposalId = some p ∧
    p.status = .executed

theorem step_invokedOnce {l : Label Entry} {log : List Invoked}
    (h : (system self).Step w l w') (hm : Numbered w.machine.store)
    (hlog : InvokedOnce w.machine.store log) :
    InvokedOnce w'.machine.store (log ++ invoked w l) := by
  have hstay : ∀ a ∈ log, ∃ p,
      w'.machine.store.proposal a.proposalId = some p ∧
        p.status = .executed := by
    intro a ha
    obtain ⟨p, hp, hexecuted⟩ := hlog.executed a ha
    obtain ⟨p', hp', hstatus | hnext⟩ := step_next h hm hp
    · exact ⟨p', hp', hstatus.trans hexecuted⟩
    · rw [hexecuted] at hnext
      cases hnext
  cases hinvoked : invoked w l with
  | nil =>
      rw [List.append_nil]
      exact ⟨hlog.distinct, hstay⟩
  | cons a rest =>
      obtain ⟨p, hdue, -, honly, -, hexecuted⟩ :=
        step_invoked h (hinvoked ▸ List.mem_cons_self)
      obtain rfl : rest = [] := (List.cons.inj (hinvoked.symm.trans honly)).2
      constructor
      · rw [List.map_append, List.nodup_append]
        refine ⟨hlog.distinct, List.nodup_singleton _, ?_⟩
        intro id hid id' hid' heq
        obtain ⟨b, hb, rfl⟩ := List.mem_map.mp hid
        obtain ⟨q, hq, hdone⟩ := hlog.executed b hb
        rw [List.map_singleton, List.mem_singleton] at hid'
        rw [heq, hid', hdue.stored, Option.some.injEq] at hq
        rw [← hq, hdue.passed] at hdone
        cases hdone
      · intro b hb
        rcases List.mem_append.mp hb with hb | hb
        · exact hstay b hb
        · obtain rfl := List.mem_singleton.mp hb
          exact ⟨_, hexecuted, rfl⟩

theorem outputs_invokedOnce {ls : List (Label Entry)} {log : List Invoked}
    (hinit : (system self).Init w₀)
    (hrun : (system self).Outputs invoked w₀ ls w log) :
    InvokedOnce w.machine.store log := by
  have hnumbered := (numbered_inductive self).init w₀ hinit
  have hstart : InvokedOnce w₀.machine.store [] := ⟨List.nodup_nil, by simp⟩
  have hend := hrun.preserves
    (Q := fun w log => Numbered w.machine.store ∧
      InvokedOnce w.machine.store log)
    (fun v l v' log hv hstep =>
      ⟨(numbered_inductive self).step v l v' hv.1 hstep,
        step_invokedOnce hstep hv.1 hv.2⟩)
    ⟨hnumbered, hstart⟩
  simpa using hend.2

/-- Along every run, a status only moves on to the next, the actions invoked
are those of different proposals, and an action is invoked only while its
proposal has passed, unvetoed, in its window and its timelock after it was
finalized. -/
theorem proposal_lifecycle {ls : List (Label Entry)} {log : List Invoked}
    (hinit : (system self).Init w₀)
    (hrun : (system self).Outputs invoked w₀ ls w log) :
    (log.map Invoked.proposalId).Nodup ∧
    ∀ l w', (system self).Step w l w' →
      (∀ pid p, w.machine.store.proposal pid = some p →
        ∃ p', w'.machine.store.proposal pid = some p' ∧
          (p'.status = p.status ∨ p.status.Next p'.status)) ∧
      ∀ a ∈ invoked w l, MayInvoke self w₀ ls w a := by
  have hnumbered := run_numbered hrun.run ((numbered_inductive self).init w₀ hinit)
  refine ⟨(outputs_invokedOnce hinit hrun).distinct, fun l w' hstep =>
    ⟨fun pid p hp => step_next hstep hnumbered hp, fun a ha => ?_⟩⟩
  exact mayInvoke hinit hrun.run hstep ha

/-! ## From the proposal to its execution -/

namespace Scenario

/-- Alice's proposal passes and is executed a day later. -/
def enacting : List (Label Entry) :=
  [launch, motion, .call [alice] (.vote alice 0 .for), .tick 605101,
    .call [] (.finalize inOrder 0), .tick 86400,
    .call [] (.execute inOrder (fun B => some (B, none)) 0)]

def enacted : World State :=
  (TransitionSystem.execute (step exec dao) enacting genesis).get
    (by decide +kernel)

/-- The pool is paused by the proposal. -/
def pausing : Invoked := ⟨0, pool, pause, [.u32 1], 1691501⟩

theorem enacted_outputs :
    (system dao).Outputs invoked genesis enacting enacted [pausing] := by
  have hrun : (system dao).Outputs invoked genesis enacting enacted
      (TransitionSystem.emit (step exec dao) invoked enacting genesis) :=
    TransitionSystem.outputs_of_execute (fun _ _ _ => step_sound)
      (Option.some_get _).symm
  have hemit : TransitionSystem.emit (step exec dao) invoked enacting
      genesis = [pausing] := by
    decide +kernel
  exact hemit ▸ hrun

end Scenario

open Scenario

theorem proposal_lifecycle_enacted :
    ([pausing].map Invoked.proposalId).Nodup ∧
    ∀ l w', (system dao).Step enacted l w' →
      (∀ pid p, enacted.machine.store.proposal pid = some p →
        ∃ p', w'.machine.store.proposal pid = some p' ∧
          (p'.status = p.status ∨ p.status.Next p'.status)) ∧
      ∀ a ∈ invoked enacted l, MayInvoke dao genesis enacting enacted a :=
  proposal_lifecycle ⟨rfl, rfl⟩ enacted_outputs

end Parashield.GovernanceDao
