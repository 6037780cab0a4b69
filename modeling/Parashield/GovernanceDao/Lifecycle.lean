import Parashield.GovernanceDao.Changes

/-!
# Governance DAO: the life of a proposal

Proposals are numbered from zero and never replaced; what a call can do to one
proposal is a `Move`.
-/

namespace Parashield.GovernanceDao

open Support Support.Contract Invocation

variable {self govToken voter : Address} {env : Env} {s s' : State}
  {m m' : Machine State} {w w' : World State} {pid : ℕ} {p p' : Proposal}
  {B : Bank} {e : Entry}

/-! ## Moves -/

/-- What one change can do to a stored proposal. -/
inductive Proposal.Move (p : Proposal) : Proposal → Prop
  | counted (choice : VoteChoice) (weight : ℤ) :
      p.status = .active → 0 < weight →
      Move p (p.setVotes choice (p.votes choice + weight))
  | vetoed : p.status ≠ .executed → Move p { p with isVetoed := true }
  | started : p.status = .discussion → Move p { p with status := .active }
  | passed (executionTime : ℕ) :
      p.status = .active →
      Move p { p with status := .passed, executionTime := executionTime }
  | refunded (status : ProposalStatus) :
      p.status.IsOpen → (p.status = .discussion → status = .cancelled) →
      status = .failed ∨ status = .cancelled →
      Move p { p with status := status }
  | lapsed : p.status = .passed → Move p { p with status := .expired }
  | executed : p.status = .passed → p.isVetoed = false →
      Move p { p with status := .executed }

/-- What never changes about a proposal. -/
structure Proposal.SameTerms (p p' : Proposal) : Prop where
  id : p'.id = p.id
  proposer : p'.proposer = p.proposer
  target : p'.target = p.target
  function : p'.function = p.function
  args : p'.args = p.args
  deposit : p'.deposit = p.deposit
  createdAt : p'.createdAt = p.createdAt
  voteEnd : p'.voteEnd = p.voteEnd
  executionDeadline : p'.executionDeadline = p.executionDeadline
  totalSupply : p'.totalSupply = p.totalSupply
  kind : p'.kind = p.kind

theorem Proposal.SameTerms.refl (p : Proposal) : p.SameTerms p :=
  ⟨rfl, rfl, rfl, rfl, rfl, rfl, rfl, rfl, rfl, rfl, rfl⟩

theorem Proposal.SameTerms.trans {p'' : Proposal} (h : p.SameTerms p')
    (h' : p'.SameTerms p'') : p.SameTerms p'' :=
  ⟨h'.id.trans h.id, h'.proposer.trans h.proposer, h'.target.trans h.target,
    h'.function.trans h.function, h'.args.trans h.args,
    h'.deposit.trans h.deposit, h'.createdAt.trans h.createdAt,
    h'.voteEnd.trans h.voteEnd,
    h'.executionDeadline.trans h.executionDeadline,
    h'.totalSupply.trans h.totalSupply, h'.kind.trans h.kind⟩

theorem ProposalStatus.isOpen_schedule (config : DaoConfig) (now : ℕ) :
    (config.schedule now).1.IsOpen := by
  unfold DaoConfig.schedule
  split
  · exact .inr rfl
  · exact .inl rfl

theorem Proposal.setVotes_status (p : Proposal) (choice : VoteChoice)
    (votes : ℤ) : (p.setVotes choice votes).status = p.status := by
  cases choice <;> rfl

theorem Proposal.Move.sameTerms (h : p.Move p') : p.SameTerms p' := by
  cases h with
  | counted choice weight =>
      cases choice <;> exact ⟨rfl, rfl, rfl, rfl, rfl, rfl, rfl, rfl, rfl, rfl,
        rfl⟩
  | _ => exact ⟨rfl, rfl, rfl, rfl, rfl, rfl, rfl, rfl, rfl, rfl, rfl⟩

/-! ## Votes on one proposal -/

theorem Swept.proposal {ds : List Address} {ws : List ℤ}
    (h : Swept env govToken voter pid B s ds ws s') :
    s'.proposal = s.proposal := by
  rw [h.upToMarks.eq]

theorem Ballots.proposal_of_notMem {choice : VoteChoice} {own lock : ℤ}
    {ballots : List (ℕ × Proposal)}
    (h : Ballots env govToken voter choice own B lock ballots s s')
    (hpid : pid ∉ ballots.map Prod.fst) :
    s'.proposal pid = s.proposal pid := by
  induction h with
  | nil => rfl
  | cons hswept _ _ _ ih =>
      rw [List.map_cons, List.mem_cons, not_or] at hpid
      rw [ih hpid.2, ← hswept.proposal]
      exact Function.update_of_ne hpid.1 _ _

/-- Each proposal of a batch gets one vote. -/
theorem Ballots.proposal_of_mem {choice : VoteChoice} {own lock : ℤ}
    {ballots : List (ℕ × Proposal)}
    (h : Ballots env govToken voter choice own B lock ballots s s')
    (hnodup : (ballots.map Prod.fst).Nodup) (hmem : (pid, p) ∈ ballots) :
    ∃ weight, 0 < weight ∧ s'.proposal pid =
      some (p.setVotes choice (p.votes choice + weight)) := by
  induction h with
  | nil => cases hmem
  | @cons s s₁ s' lock id q rest ws weight _ _ hpos hrest ih =>
      rw [List.map_cons, List.nodup_cons] at hnodup
      rcases List.mem_cons.mp hmem with heq | hmem
      · obtain ⟨rfl, rfl⟩ := Prod.mk.inj heq
        refine ⟨weight, hpos, ?_⟩
        rw [hrest.proposal_of_notMem hnodup.1]
        exact Function.update_self ..
      · exact ih hnodup.2 hmem

/-! ## One change, one proposal -/

/-- Replacing one proposal by a move of it. -/
theorem move_of_update {id : ℕ} {q q' : Proposal} (hq : s.proposal id = some q)
    (hmove : q.Move q') (hp : s.proposal pid = some p)
    (heq : s'.proposal = Function.update s.proposal id (some q')) :
    s'.proposal pid = some p ∨ ∃ p', s'.proposal pid = some p' ∧ p.Move p' := by
  rw [heq]
  by_cases hid : pid = id
  · subst hid
    rw [hp, Option.some.injEq] at hq
    subst hq
    exact .inr ⟨q', Function.update_self .., hmove⟩
  · exact .inl ((Function.update_of_ne hid _ _).trans hp)

/-- Proposal ids below the next one are taken, and nothing is there before
the first configuration. -/
structure Numbered (s : State) : Prop where
  stored : ∀ pid p, s.proposal pid = some p →
    p.id = pid ∧ pid < s.nextProposalId
  unset : s.initialized = false →
    s.admin = none ∧ s.config = none ∧ s.nextProposalId = 0

theorem Change.move (h : Change env e m m') (hm : Numbered m.store)
    (hp : m.store.proposal pid = some p) :
    m'.store.proposal pid = some p ∨
      ∃ p', m'.store.proposal pid = some p' ∧ p.Move p' := by
  cases h with
  | aside _ hbook _ =>
      rw [hbook.proposal]
      exact .inl hp
  | initialized h =>
      obtain ⟨-, _, _, -, -, rfl⟩ := h
      exact .inl hp
  | configured h =>
      obtain ⟨-, _, -, rfl⟩ := h
      exact .inl hp
  | opened _ h =>
      obtain ⟨-, -, _, _, -, -, rfl⟩ := h
      have hne : pid ≠ m.store.nextProposalId := by
        have hlt := (hm.stored pid p hp).2
        omega
      exact .inl ((Function.update_of_ne hne _ _).trans hp)
  | delegated _ _ _ heq =>
      rw [heq]
      exact .inl hp
  | revoked _ _ _ heq =>
      rw [heq]
      exact .inl hp
  | @voted voter choice ballots _ h =>
      obtain ⟨_, _, _, _, _, -, -, -, -, -, hballots, rfl⟩ := h.change
      by_cases hmem : pid ∈ ballots.map Prod.fst
      · obtain ⟨⟨id, q⟩, hb, rfl⟩ := List.mem_map.mp hmem
        have heligible := h.eligible _ hb
        obtain rfl : q = p := by
          have hstored := heligible.stored
          rw [hp, Option.some.injEq] at hstored
          exact hstored.symm
        obtain ⟨weight, hpos, hq⟩ := hballots.proposal_of_mem h.distinct hb
        exact .inr ⟨_, hq, .counted choice weight heligible.active hpos⟩
      · exact .inl ((hballots.proposal_of_notMem hmem).trans hp)
  | withdrawn _ h =>
      obtain ⟨_, _, -, -, rfl⟩ := h.change
      exact .inl hp
  | passed _ h =>
      obtain ⟨q, _, _, hq, hactive, -, -, -, rfl⟩ := h
      exact move_of_update hq (.passed _ hactive) hp rfl
  | refunded _ h =>
      obtain ⟨q, _, _, _, _, hq, hopen, hdiscussed, -, -, -, rfl⟩ := h.change
      exact move_of_update hq (.refunded _ hopen hdiscussed h.outcome) hp rfl
  | started _ h =>
      obtain ⟨q, _, hq, hdiscussed, -, -, -, rfl⟩ := h
      exact move_of_update hq (.started hdiscussed) hp rfl
  | lapsed _ h =>
      obtain ⟨q, hdue, -, rfl⟩ := h
      exact move_of_update hdue.stored (.lapsed hdue.passed) hp rfl
  | executed _ h =>
      obtain ⟨q, _, _, _, _, hdue, -, -, -, -, -, -, rfl⟩ := h
      exact move_of_update hdue.stored (.executed hdue.passed hdue.unvetoed) hp
        rfl
  | vetoed _ h =>
      obtain ⟨q, _, hq, hexecuted, -, rfl⟩ := h.change
      exact move_of_update hq (.vetoed hexecuted) hp rfl

theorem absent_of_update {id : ℕ} {q q' : Proposal}
    (hq : s.proposal id = some q) (hp : s.proposal pid = none)
    (heq : s'.proposal = Function.update s.proposal id (some q')) :
    s'.proposal pid = none := by
  have hne : pid ≠ id := by
    rintro rfl
    rw [hq] at hp
    cases hp
  rw [heq, Function.update_of_ne hne]
  exact hp

/-- Only a creation puts a proposal where there was none. -/
theorem Change.absent (h : Change env e m m')
    (hp : m.store.proposal pid = none) :
    m'.store.proposal pid = none ∨
      ∃ o, e.opening env = some o ∧ Opened env o m m' := by
  cases h with
  | opened ho h => exact .inr ⟨_, ho, h⟩
  | aside _ hbook _ =>
      rw [hbook.proposal]
      exact .inl hp
  | initialized h =>
      obtain ⟨-, _, _, -, -, rfl⟩ := h
      exact .inl hp
  | configured h =>
      obtain ⟨-, _, -, rfl⟩ := h
      exact .inl hp
  | delegated _ _ _ heq =>
      rw [heq]
      exact .inl hp
  | revoked _ _ _ heq =>
      rw [heq]
      exact .inl hp
  | @voted voter choice ballots _ h =>
      obtain ⟨_, _, _, _, _, -, -, -, -, -, hballots, rfl⟩ := h.change
      have hmem : pid ∉ ballots.map Prod.fst := by
        intro hmem
        obtain ⟨⟨id, q⟩, hb, rfl⟩ := List.mem_map.mp hmem
        have hstored := (h.eligible _ hb).stored
        rw [hp] at hstored
        cases hstored
      exact .inl ((hballots.proposal_of_notMem hmem).trans hp)
  | withdrawn _ h =>
      obtain ⟨_, _, -, -, rfl⟩ := h.change
      exact .inl hp
  | passed _ h =>
      obtain ⟨q, _, _, hq, -, -, -, -, rfl⟩ := h
      exact .inl (absent_of_update hq hp rfl)
  | refunded _ h =>
      obtain ⟨q, _, _, _, _, hq, -, -, -, -, -, rfl⟩ := h.change
      exact .inl (absent_of_update hq hp rfl)
  | started _ h =>
      obtain ⟨q, _, hq, -, -, -, -, rfl⟩ := h
      exact .inl (absent_of_update hq hp rfl)
  | lapsed _ h =>
      obtain ⟨q, hdue, -, rfl⟩ := h
      exact .inl (absent_of_update hdue.stored hp rfl)
  | executed _ h =>
      obtain ⟨q, _, _, _, _, hdue, -, -, -, -, -, -, rfl⟩ := h
      exact .inl (absent_of_update hdue.stored hp rfl)
  | vetoed _ h =>
      obtain ⟨q, _, hq, -, -, rfl⟩ := h.change
      exact .inl (absent_of_update hq hp rfl)

/-- A proposal that was not there is the one created. -/
theorem Change.created (h : Change env e m m')
    (hp : m.store.proposal pid = none)
    (hp' : m'.store.proposal pid = some p') :
    ∃ o config, e.opening env = some o ∧ Opened env o m m' ∧
      m.store.config = some config ∧ pid = m.store.nextProposalId ∧
      p' = o.proposal env m.store config := by
  rcases h.absent hp with hnone | ⟨o, ho, h⟩
  · rw [hnone] at hp'
    cases hp'
  · obtain ⟨config, B, hconfig, -, hm'⟩ := h.change
    rw [hm'] at hp'
    change Function.update m.store.proposal m.store.nextProposalId _ pid = _
      at hp'
    by_cases hid : pid = m.store.nextProposalId
    · subst hid
      rw [Function.update_self, Option.some.injEq] at hp'
      exact ⟨o, config, ho, h, hconfig, rfl, hp'.symm⟩
    · rw [Function.update_of_ne hid, hp] at hp'
      cases hp'

/-! ## Numbering -/

/-- The counter and the administration after a change. -/
structure Counted (s s' : State) : Prop where
  initialized : s'.initialized = s.initialized
  admin : s'.admin = s.admin
  config : s.admin = none → s'.config = s.config
  counter : s'.nextProposalId = s.nextProposalId ∨
    s'.nextProposalId = s.nextProposalId + 1 ∧ s.config ≠ none

theorem Counted.of_eq (hinit : s'.initialized = s.initialized)
    (hadmin : s'.admin = s.admin) (hconfig : s'.config = s.config)
    (hnext : s'.nextProposalId = s.nextProposalId) : Counted s s' :=
  ⟨hinit, hadmin, fun _ => hconfig, .inl hnext⟩

theorem Change.counter (h : Change env e m m') :
    Counted m.store m'.store ∨
      m.store.initialized = false ∧ m'.store.initialized = true := by
  cases h with
  | initialized h =>
      obtain ⟨hfresh, _, _, -, -, rfl⟩ := h
      exact .inr ⟨hfresh, rfl⟩
  | aside _ hbook _ =>
      exact .inl (.of_eq hbook.initialized hbook.admin hbook.config
        hbook.nextProposalId)
  | configured h =>
      obtain ⟨⟨admin, hadmin, -⟩, _, -, rfl⟩ := h
      refine .inl ⟨rfl, rfl, fun hnone => ?_, .inl rfl⟩
      rw [hadmin] at hnone
      cases hnone
  | opened _ h =>
      obtain ⟨-, -, config, _, hconfig, -, rfl⟩ := h
      refine .inl ⟨rfl, rfl, fun _ => rfl, .inr ⟨rfl, ?_⟩⟩
      rw [hconfig]
      exact nofun
  | delegated _ _ _ heq => exact .inl (heq ▸ .of_eq rfl rfl rfl rfl)
  | revoked _ _ _ heq => exact .inl (heq ▸ .of_eq rfl rfl rfl rfl)
  | voted _ h =>
      obtain ⟨_, _, _, _, _, -, -, -, -, -, hballots, rfl⟩ := h.change
      rw [hballots.upToVotes.eq]
      exact .inl (.of_eq rfl rfl rfl rfl)
  | withdrawn _ h =>
      obtain ⟨_, _, -, -, rfl⟩ := h.change
      exact .inl (.of_eq rfl rfl rfl rfl)
  | passed _ h =>
      obtain ⟨_, _, _, -, -, -, -, -, rfl⟩ := h
      exact .inl (.of_eq rfl rfl rfl rfl)
  | refunded _ h =>
      obtain ⟨_, _, _, _, _, -, -, -, -, -, -, rfl⟩ := h.change
      exact .inl (.of_eq rfl rfl rfl rfl)
  | started _ h =>
      obtain ⟨_, _, -, -, -, -, -, rfl⟩ := h
      exact .inl (.of_eq rfl rfl rfl rfl)
  | lapsed _ h =>
      obtain ⟨_, -, -, rfl⟩ := h
      exact .inl (.of_eq rfl rfl rfl rfl)
  | executed _ h =>
      obtain ⟨_, _, _, _, _, -, -, -, -, -, -, -, rfl⟩ := h
      exact .inl (.of_eq rfl rfl rfl rfl)
  | vetoed _ h =>
      obtain ⟨_, _, -, -, -, rfl⟩ := h.change
      exact .inl (.of_eq rfl rfl rfl rfl)

theorem Change.numbered (h : Change env e m m') (hm : Numbered m.store) :
    Numbered m'.store := by
  rcases h.counter with hcount | ⟨hfresh, hset⟩
  · refine ⟨fun pid p' hp' => ?_, fun hunset => ?_⟩
    · cases hp : m.store.proposal pid with
      | none =>
          obtain ⟨o, config, -, hopened, -, rfl, rfl⟩ := h.created hp hp'
          obtain ⟨_, _, -, -, rfl⟩ := hopened.change
          exact ⟨rfl, Nat.lt_succ_self _⟩
      | some p =>
          obtain ⟨hid, hlt⟩ := hm.stored pid p hp
          have hid' : p'.id = pid := by
            rcases h.move hm hp with hsame | ⟨q, hq, hmove⟩
            · rw [hp', Option.some.injEq] at hsame
              rw [hsame, hid]
            · rw [hp', Option.some.injEq] at hq
              rw [hq, hmove.sameTerms.id, hid]
          have hle := hcount.counter
          exact ⟨hid', by omega⟩
    · rw [hcount.initialized] at hunset
      obtain ⟨hadmin, hconfig, hnext⟩ := hm.unset hunset
      refine ⟨hcount.admin.trans hadmin, (hcount.config hadmin).trans hconfig,
        ?_⟩
      rcases hcount.counter with hsame | ⟨-, hsome⟩
      · exact hsame.trans hnext
      · exact absurd hconfig hsome
  · obtain ⟨-, hconfig, hnext⟩ := hm.unset hfresh
    refine ⟨fun pid p' hp' => ?_, fun hunset => ?_⟩
    · cases hp : m.store.proposal pid with
      | none =>
          obtain ⟨_, config, -, -, hsome, -⟩ := h.created hp hp'
          rw [hconfig] at hsome
          cases hsome
      | some p =>
          have hlt := (hm.stored pid p hp).2
          omega
    · rw [hset] at hunset
      cases hunset

theorem exec_numbered {u : Unit} (h : exec env e m = .ok (u, m'))
    (hm : Numbered m.store) : Numbered m'.store :=
  changes_keep (I := fun m => Numbered m.store) (fun _ _ => Change.numbered)
    (exec_changes h) hm

theorem numbered_deployed : Numbered State.deployed where
  stored pid p hp := by
    rw [show State.deployed.proposal pid = none from rfl] at hp
    cases hp
  unset _ := ⟨rfl, rfl, rfl⟩

theorem numbered_inductive (self : Address) :
    (system self).Inductive fun w => Numbered w.machine.store where
  init w hw := by
    rw [hw.1]
    exact numbered_deployed
  step w l w' h hstep := by
    cases hstep with
    | call _ hexec => exact exec_numbered hexec h
    | tick => exact h
    | transfer => exact h
    | mint => exact h

/-! ## Terms -/

/-- The proposal `pid` has the terms of `p`. -/
def State.HasTerms (s : State) (pid : ℕ) (p : Proposal) : Prop :=
  ∃ p', s.proposal pid = some p' ∧ p.SameTerms p'

theorem exec_hasTerms {u : Unit} {p₀ : Proposal}
    (h : exec env e m = .ok (u, m')) (hm : Numbered m.store)
    (hp : m.store.HasTerms pid p₀) : m'.store.HasTerms pid p₀ := by
  refine (changes_keep
    (I := fun m => Numbered m.store ∧ m.store.HasTerms pid p₀) ?_
    (exec_changes h) ⟨hm, hp⟩).2
  rintro m m' hchange ⟨hm, p, hp, hterms⟩
  refine ⟨hchange.numbered hm, ?_⟩
  rcases hchange.move hm hp with hsame | ⟨p', hp', hmove⟩
  · exact ⟨p, hsame, hterms⟩
  · exact ⟨p', hp', hterms.trans hmove.sameTerms⟩

/-- A proposal keeps its terms along every run. -/
theorem run_hasTerms {ls : List (Label Entry)}
    (hrun : (system self).Run w ls w') (hw : Numbered w.machine.store)
    (hp : w.machine.store.proposal pid = some p) :
    w'.machine.store.HasTerms pid p := by
  refine (hrun.preserves (Q := fun w => Numbered w.machine.store ∧
    w.machine.store.HasTerms pid p) ?_ ⟨hw, p, hp, .refl p⟩).2
  rintro v l v' ⟨hv, hterms⟩ hstep
  refine ⟨(numbered_inductive self).step v l v' hv hstep, ?_⟩
  cases hstep with
  | call _ hexec => exact exec_hasTerms hexec hv hterms
  | tick => exact hterms
  | transfer => exact hterms
  | mint => exact hterms

end Parashield.GovernanceDao
