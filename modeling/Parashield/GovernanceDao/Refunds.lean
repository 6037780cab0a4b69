import Parashield.GovernanceDao.Custody

/-!
# Governance DAO: refunds

Every token the DAO pays out is reported by an event: a withdrawn lock, or the
refund of a deposit.  No deposit is refunded twice, and none by more than was
deposited.
-/

namespace Parashield.GovernanceDao

open Support Support.Contract Invocation

variable {self token voter : Address} {env : Env} {s s' : State}
  {m m' : Machine State} {w w' : World State} {pid : ℕ} {p p' : Proposal}
  {B B' : Bank} {e : Entry} {ev : Event}

/-! ## What events report -/

/-- The proposal whose deposit is refunded at the event. -/
def Event.refunded : Event → Option ℕ
  | .proposalFinalized pid .failed => some pid
  | .depositReclaimed pid _ _ => some pid
  | .proposalCancelled pid => some pid
  | .proposalDepositRefunded pid _ _ _ _ _ => some pid
  | _ => none

/-- The transfer by `dao` that goes with the event. -/
def State.payout (token dao : Address) (s : State) : Event → Option Transfer
  | .tokensWithdrawn _ voter amount => some ⟨token, dao, voter, amount.toNat⟩
  | .proposalFinalized pid .failed =>
      (s.proposal pid).map fun p => ⟨token, dao, p.proposer, p.deposit.toNat⟩
  | .depositReclaimed _ proposer amount =>
      some ⟨token, dao, proposer, amount.toNat⟩
  | .proposalCancelled pid =>
      (s.proposal pid).map fun p => ⟨token, dao, p.proposer, p.deposit.toNat⟩
  | .proposalDepositRefunded _ proposer _ _ refundAmount _ =>
      some ⟨token, dao, proposer, refundAmount.toNat⟩
  | _ => none

/-- The transfers of positive amounts among those that go with `events`. -/
def State.payouts (token dao : Address) (s : State) (events : List Event) :
    List Transfer :=
  (events.filterMap (s.payout token dao)).filter fun t => 0 < t.amount

theorem State.payouts_append (events events' : List Event) :
    s.payouts token self (events ++ events') =
      s.payouts token self events ++ s.payouts token self events' := by
  simp [State.payouts]

theorem State.payouts_congr {events : List Event}
    (h : ∀ ev ∈ events, s'.payout token self ev = s.payout token self ev) :
    s'.payouts token self events = s.payouts token self events := by
  rw [State.payouts, List.filterMap_congr h, State.payouts]

/-- Nothing is paid at the event. -/
def Event.IsFree : Event → Prop
  | .proposalCreated .. | .voteCast .. | .delegationUsed ..
  | .proposalFinalized _ .passed | .proposalExpired .. | .proposalExecuted ..
  | .discussionPeriodEnded .. | .proposalVetoed .. => True
  | _ => False

theorem Event.IsFree.refunded (h : ev.IsFree) : ev.refunded = none := by
  unfold Event.IsFree at h
  split at h
  all_goals first | rfl | exact h.elim

theorem Event.IsFree.payout (h : ev.IsFree) (s : State) :
    s.payout token self ev = none := by
  unfold Event.IsFree at h
  split at h
  all_goals first | rfl | exact h.elim

/-! ## What transfers pay -/

theorem payments_of_ne {sender recipient : Address} {amount : ℤ}
    (h : B.transfer token sender recipient amount = some B')
    (hne : sender ≠ self) : payments self B' = payments self B := by
  unfold payments
  rw [Bank.transfer_history h, List.filter_cons_of_neg (by simp [hne])]

theorem payments_transfer {recipient : Address} {amount : ℤ}
    (h : B.transfer token self recipient amount = some B') :
    payments self B' =
      [(⟨token, self, recipient, amount.toNat⟩ : Transfer)].filter
          (fun t => 0 < t.amount) ++ payments self B := by
  unfold payments
  rw [Bank.transfer_history h]
  by_cases hpos : 0 < amount.toNat
  · rw [List.filter_cons_of_pos (by simpa using hpos),
      List.filter_cons_of_pos (by simpa using hpos)]
    rfl
  · rw [List.filter_cons_of_neg (by simpa using hpos),
      List.filter_cons_of_neg (by simpa using hpos)]
    rfl

/-! ## One change -/

/-- The event refunds the proposer of `pid`, by no more than was deposited. -/
def State.RefundsWithin (token dao : Address) (s : State) (pid : ℕ)
    (ev : Event) : Prop :=
  ∃ p t, s.proposal pid = some p ∧ ¬ p.status.IsPending ∧
    s.payout token dao ev = some t ∧ t.recipient = p.proposer ∧
    (t.amount : ℤ) ≤ p.deposit

/-- A change pays what its events `news` report.  A refund settles a deposit
that was pending. -/
structure Reported (token dao : Address) (news : List Event)
    (m m' : Machine State) : Prop where
  events : m'.store.events = news ++ m.store.events
  paid : payments dao m'.bank =
    m'.store.payouts token dao news ++ payments dao m.bank
  once : (news.filterMap Event.refunded).Nodup
  refunds : ∀ ev ∈ news, ∀ pid, ev.refunded = some pid →
    (∃ p, m.store.proposal pid = some p ∧ p.status.IsPending) ∧
      m'.store.RefundsWithin token dao pid ev

theorem Reported.free {events : List Event}
    (hevents : m'.store.events = events ++ m.store.events)
    (hfree : ∀ ev ∈ events, ev.IsFree)
    (hpaid : payments self m'.bank = payments self m.bank) :
    Reported token self events m m' := by
  have hrefunded : events.filterMap Event.refunded = [] :=
    List.filterMap_eq_nil_iff.mpr fun ev hev => (hfree ev hev).refunded
  have hpayout : events.filterMap (m'.store.payout token self) = [] :=
    List.filterMap_eq_nil_iff.mpr fun ev hev => (hfree ev hev).payout _
  refine ⟨hevents, ?_, ?_, fun ev hev pid hpid => ?_⟩
  · rw [State.payouts, hpayout, hpaid]
    rfl
  · rw [hrefunded]
    exact List.nodup_nil
  · rw [(hfree ev hev).refunded] at hpid
    cases hpid

theorem Reported.silent (hevents : m'.store.events = m.store.events)
    (hpaid : payments self m'.bank = payments self m.bank) :
    Reported token self [] m m' :=
  .free hevents (by simp) hpaid

theorem Swept.events {govToken : Address} {ds : List Address} {ws : List ℤ}
    (h : Swept env govToken voter pid B s ds ws s') :
    ∃ events, s'.events = events ++ s.events ∧ ∀ ev ∈ events, ev.IsFree := by
  induction h with
  | nil => exact ⟨[], rfl, by simp⟩
  | skip _ _ ih => exact ih
  | @count s s' delegator _ _ weight _ _ _ _ ih =>
      obtain ⟨events, heq, hfree⟩ := ih
      refine ⟨events ++ [.delegationUsed pid voter delegator weight], ?_, ?_⟩
      · rw [heq, List.append_assoc]
        rfl
      · rw [List.forall_mem_append, List.forall_mem_singleton]
        exact ⟨hfree, trivial⟩

theorem Ballots.events {govToken : Address} {choice : VoteChoice}
    {own lock : ℤ} {ballots : List (ℕ × Proposal)}
    (h : Ballots env govToken voter choice own B lock ballots s s') :
    ∃ events, s'.events = events ++ s.events ∧ ∀ ev ∈ events, ev.IsFree := by
  induction h with
  | nil => exact ⟨[], rfl, by simp⟩
  | @cons s s₁ s' lock id q rest ws weight hswept _ _ _ ih =>
      obtain ⟨swept, hs₁, hswept⟩ := hswept.events
      obtain ⟨later, hs', hlater⟩ := ih
      refine ⟨later ++ .voteCast id voter choice weight :: swept, ?_, ?_⟩
      · rw [hs', State.voted, hs₁, List.append_assoc]
        rfl
      · rw [List.forall_mem_append, List.forall_mem_cons]
        exact ⟨hlater, trivial, hswept⟩

/-- An event that reports the refund of a closed proposal. -/
theorem Reported.closed {amount : ℤ} (free : List Event)
    (hfree : ∀ ev ∈ free, ev.IsFree) (hrefunded : ev.refunded = some pid)
    (hp : m.store.proposal pid = some p) (hpending : p.status.IsPending)
    (hp' : m'.store.proposal pid = some p') (hsettled : ¬ p'.status.IsPending)
    (hterms : p.SameTerms p') (hle : amount ≤ p.deposit) (hpos : 0 ≤ p.deposit)
    (hpayout : m'.store.payout token self ev =
      some ⟨token, self, p.proposer, amount.toNat⟩)
    (hevents : m'.store.events = free ++ ev :: m.store.events)
    (hpaid : payments self m'.bank =
      [(⟨token, self, p.proposer, amount.toNat⟩ : Transfer)].filter
          (fun t => 0 < t.amount) ++ payments self m.bank) :
    Reported token self (free ++ [ev]) m m' := by
  have hnone : free.filterMap Event.refunded = [] :=
    List.filterMap_eq_nil_iff.mpr fun ev hev => (hfree ev hev).refunded
  have hunpaid : free.filterMap (m'.store.payout token self) = [] :=
    List.filterMap_eq_nil_iff.mpr fun ev hev => (hfree ev hev).payout _
  refine ⟨?_, ?_, ?_, ?_⟩
  · rw [hevents, List.append_assoc]
    rfl
  · rw [State.payouts, List.filterMap_append, hunpaid, List.nil_append,
      List.filterMap_cons_some hpayout, List.filterMap_nil, hpaid]
  · rw [List.filterMap_append, hnone, List.nil_append,
      List.filterMap_cons_some hrefunded, List.filterMap_nil]
    exact List.nodup_singleton _
  · rw [List.forall_mem_append, List.forall_mem_singleton]
    refine ⟨fun ev hev qid hqid => ?_, fun qid hqid => ?_⟩
    · rw [(hfree ev hev).refunded] at hqid
      cases hqid
    · rw [hrefunded, Option.some.injEq] at hqid
      subst hqid
      refine ⟨⟨p, hp, hpending⟩, p', _, hp', hsettled, hpayout,
        hterms.proposer.symm, ?_⟩
      rw [hterms.deposit]
      change (amount.toNat : ℤ) ≤ p.deposit
      omega

theorem Executed.reported {outcome : Outcome}
    (h : Executed env outcome pid m m') (hspares : outcome.Spares env.self)
    (hm : Custody token env.self m) :
    ∃ news, Reported token env.self news m m' := by
  obtain ⟨p, _, bps, B₁, B, hdue, -, -, houtcome, -, hbps, hrefund, rfl⟩ := h
  have hpending : p.status.IsPending := .inr (.inr hdue.passed)
  have hdeposit := hm.nonneg (.inr pid)
  rw [State.owed_of_pending hdue.stored hpending] at hdeposit
  have hspared := hspares.payments _ _ _ houtcome
  have hpaid : payments env.self B =
      [(⟨token, env.self, p.proposer, (p.refundAmount bps).toNat⟩ :
          Transfer)].filter (fun t => 0 < t.amount) ++
        payments env.self m.bank := by
    rcases hrefund with ⟨-, config, hconfig, hB⟩ | ⟨hnone, rfl⟩
    · obtain rfl := hm.same_token config hconfig
      rw [payments_transfer hB, hspared]
    · have hzero : ¬ 0 < (p.refundAmount bps).toNat := by omega
      rw [List.filter_cons_of_neg (by simpa using hzero), List.filter_nil,
        List.nil_append, hspared]
  exact ⟨_, .closed [.proposalExecuted pid p.proposer p.target p.function
    env.now] (by simp [Event.IsFree]) rfl hdue.stored hpending
    (Function.update_self ..)
    (show ¬ ProposalStatus.executed.IsPending by decide)
    (Proposal.Move.executed hdue.passed hdue.unvetoed).sameTerms
    (p.refundAmount_le hdeposit hbps) hdeposit rfl rfl hpaid⟩

theorem Refunded.reported {handles : Handles} {status : ProposalStatus}
    (h : Refunded env handles pid status m m')
    (hm : Custody token env.self m) :
    ∃ news, Reported token env.self news m m' := by
  obtain ⟨p, config, turnout, ev, B, hp, hopen, hdiscussed, hconfig, hev, hB,
    rfl⟩ := h.change
  obtain rfl := hm.same_token config hconfig
  have hpos := (Bank.transfer_eq_some hB).1
  have hsettled : ¬ status.IsPending := by
    rcases h.outcome with rfl | rfl
    · decide
    · decide
  have hp' : (m.store.closed handles pid p { p with status := status } turnout
      ev).proposal pid = some { p with status := status } :=
    Function.update_self ..
  have hrefunded : ev.refunded = some pid := by
    rcases hev with rfl | rfl | rfl
    · rfl
    · rfl
    · rfl
  have hpayout : (m.store.closed handles pid p { p with status := status } turnout
      ev).payout config.govToken env.self ev =
        some ⟨config.govToken, env.self, p.proposer, p.deposit.toNat⟩ := by
    rcases hev with rfl | rfl | rfl
    · simp only [State.payout, hp', Option.map_some]
    · rfl
    · simp only [State.payout, hp', Option.map_some]
  exact ⟨_, .closed [] (by simp) hrefunded hp hopen.isPending hp' hsettled
    (Proposal.Move.refunded status hopen hdiscussed h.outcome).sameTerms le_rfl
    hpos hpayout rfl (payments_transfer hB)⟩

/-- Every change reports what it pays. -/
theorem Change.reported (h : Change env e m m') (hself : env.self ∉ env.signers)
    (he : e.Standard token env.self) (hm : Custody token env.self m) :
    ∃ news, Reported token env.self news m m' := by
  cases h with
  | aside _ hbook hbank => exact ⟨[], .silent hbook.events (by rw [hbank])⟩
  | initialized h =>
      obtain ⟨-, _, _, -, -, rfl⟩ := h
      exact ⟨[], .silent rfl rfl⟩
  | configured h =>
      obtain ⟨-, _, -, rfl⟩ := h
      exact ⟨[], .silent rfl rfl⟩
  | @opened o _ h =>
      obtain ⟨-, hsigned, config, B, -, hB, rfl⟩ := h
      have hne : o.proposer ≠ env.self := fun heq => hself (heq ▸ hsigned)
      exact ⟨[.proposalCreated m.store.nextProposalId o.proposer o.target
        o.function], .free rfl (by simp [Event.IsFree])
        (payments_of_ne hB hne)⟩
  | delegated _ _ _ heq =>
      rw [heq]
      exact ⟨[], .silent rfl rfl⟩
  | revoked _ _ _ heq =>
      rw [heq]
      exact ⟨[], .silent rfl rfl⟩
  | @voted voter _ _ _ h =>
      obtain ⟨config, _, B, _, s, -, -, -, hB, -, hballots, rfl⟩ := h.change
      have hne : voter ≠ env.self := fun heq => hself (heq ▸ h.signed)
      obtain ⟨news, hevents, hfree⟩ := hballots.events
      exact ⟨news, .free hevents hfree (payments_of_ne hB hne)⟩
  | @withdrawn voter pid _ h =>
      obtain ⟨config, B, hconfig, hB, rfl⟩ := h.change
      obtain rfl := hm.same_token config hconfig
      refine ⟨[.tokensWithdrawn pid voter
        (m.store.lockedBalance (pid, voter))], rfl, payments_transfer hB, ?_,
        ?_⟩
      · exact List.nodup_nil
      · rw [List.forall_mem_singleton]
        rintro _ ⟨⟩
  | @passed pid _ _ h =>
      obtain ⟨_, _, _, -, -, -, -, -, rfl⟩ := h
      exact ⟨[.proposalFinalized pid .passed],
        .free rfl (by simp [Event.IsFree]) rfl⟩
  | refunded _ h => exact h.reported hm
  | @started pid _ h =>
      obtain ⟨_, _, -, -, -, -, -, rfl⟩ := h
      exact ⟨[.discussionPeriodEnded pid],
        .free rfl (by simp [Event.IsFree]) rfl⟩
  | @lapsed pid _ _ _ h =>
      obtain ⟨_, -, -, rfl⟩ := h
      exact ⟨[.proposalExpired pid], .free rfl (by simp [Event.IsFree]) rfl⟩
  | executed heq h =>
      subst heq
      exact h.reported he hm
  | @vetoed guardian pid _ _ h =>
      obtain ⟨_, reason, -, -, -, rfl⟩ := h.change
      exact ⟨[.proposalVetoed pid guardian reason],
        .free rfl (by simp [Event.IsFree]) rfl⟩

/-! ## Runs -/

/-- What was paid is what the events report, and deposits were refunded once
at most, within what was deposited. -/
structure Refunds (token dao : Address) (m : Machine State) : Prop where
  paid : payments dao m.bank = m.store.payouts token dao m.store.events
  once : (m.store.events.filterMap Event.refunded).Nodup
  within : ∀ ev ∈ m.store.events, ∀ pid, ev.refunded = some pid →
    m.store.RefundsWithin token dao pid ev

theorem Proposal.Move.settled (h : p.Move p') (hp : ¬ p.status.IsPending) :
    ¬ p'.status.IsPending := by
  cases h with
  | counted choice weight hactive =>
      exact absurd (.inr (.inl hactive)) hp
  | vetoed => exact hp
  | started hdiscussed => exact absurd (.inl hdiscussed) hp
  | passed _ hactive => exact absurd (.inr (.inl hactive)) hp
  | refunded _ hopen => exact absurd hopen.isPending hp
  | lapsed hpassed => exact absurd (.inr (.inr hpassed)) hp
  | executed hpassed => exact absurd (.inr (.inr hpassed)) hp

/-- The transfer that goes with an event stays the same as long as the terms
of its proposal do. -/
theorem State.payout_congr
    (h : ∀ pid, ev.refunded = some pid → ∃ p p',
      s.proposal pid = some p ∧ s'.proposal pid = some p' ∧ p.SameTerms p') :
    s'.payout token self ev = s.payout token self ev := by
  cases ev with
  | proposalFinalized pid status =>
      cases status with
      | failed =>
          obtain ⟨p, p', hp, hp', hterms⟩ := h pid rfl
          simp only [State.payout, hp, hp', Option.map_some, hterms.proposer,
            hterms.deposit]
      | _ => rfl
  | proposalCancelled pid =>
      obtain ⟨p, p', hp, hp', hterms⟩ := h pid rfl
      simp only [State.payout, hp, hp', Option.map_some, hterms.proposer,
        hterms.deposit]
  | _ => rfl

/-- A settled deposit stays settled, on the same terms. -/
theorem Change.settled (h : Change env e m m') (hm : Numbered m.store)
    (hp : m.store.proposal pid = some p) (hsettled : ¬ p.status.IsPending) :
    ∃ p', m'.store.proposal pid = some p' ∧ p.SameTerms p' ∧
      ¬ p'.status.IsPending := by
  rcases h.move hm hp with hsame | ⟨p', hp', hmove⟩
  · exact ⟨p, hsame, .refl p, hsettled⟩
  · exact ⟨p', hp', hmove.sameTerms, hmove.settled hsettled⟩

theorem Change.refunds (h : Change env e m m') (hself : env.self ∉ env.signers)
    (he : e.Standard token env.self) (hnew : Numbered m.store)
    (hm : Custody token env.self m) (hr : Refunds token env.self m) :
    Refunds token env.self m' := by
  obtain ⟨news, hnews⟩ := h.reported hself he hm
  have hsame : ∀ ev ∈ m.store.events,
      m'.store.payout token env.self ev = m.store.payout token env.self ev := by
    intro ev hev
    refine State.payout_congr fun pid hpid => ?_
    obtain ⟨p, _, hp, hsettled, -⟩ := hr.within ev hev pid hpid
    obtain ⟨p', hp', hterms, -⟩ := h.settled hnew hp hsettled
    exact ⟨p, p', hp, hp', hterms⟩
  refine ⟨?_, ?_, ?_⟩
  · rw [hnews.paid, hnews.events, State.payouts_append,
      State.payouts_congr hsame, hr.paid]
  · rw [hnews.events, List.filterMap_append]
    refine List.Nodup.append hnews.once hr.once
      fun pid hpid hold => ?_
    -- a deposit refunded before is settled, one refunded now was pending
    obtain ⟨ev, hev, hrefunded⟩ := List.mem_filterMap.mp hpid
    obtain ⟨ev', hev', hrefunded'⟩ := List.mem_filterMap.mp hold
    obtain ⟨⟨p, hp, hpending⟩, -⟩ := hnews.refunds ev hev pid hrefunded
    obtain ⟨p', _, hp', hsettled, -⟩ := hr.within ev' hev' pid hrefunded'
    rw [hp, Option.some.injEq] at hp'
    exact hsettled (hp' ▸ hpending)
  · rw [hnews.events, List.forall_mem_append]
    refine ⟨fun ev hev pid hpid => (hnews.refunds ev hev pid hpid).2,
      fun ev hev pid hpid => ?_⟩
    obtain ⟨p, t, hp, hsettled, hpayout, hrecipient, hle⟩ :=
      hr.within ev hev pid hpid
    obtain ⟨p', hp', hterms, hsettled'⟩ := h.settled hnew hp hsettled
    exact ⟨p', t, hp', hsettled', (hsame ev hev).trans hpayout,
      hrecipient.trans hterms.proposer.symm, hterms.deposit.symm ▸ hle⟩

theorem step_refunds {l : Label Entry} (hguard : Standard token self l)
    (hstep : (system self).Step w l w') (hw : Numbered w.machine.store)
    (hcustody : Custody token self w.machine)
    (h : Refunds token self w.machine) : Refunds token self w'.machine := by
  cases hstep with
  | @call signers e m' hself hexec =>
      refine (changes_keep (I := fun m => (Numbered m.store ∧
        Custody token self m) ∧ Refunds token self m) ?_
        (exec_changes hexec) ⟨⟨hw, hcustody⟩, h⟩).2
      rintro m m' hchange ⟨⟨hm, hcustody⟩, hr⟩
      exact ⟨⟨hchange.numbered hm,
        hchange.custody hself hguard hm hcustody⟩,
        hchange.refunds hself hguard hm hcustody hr⟩
  | tick => exact h
  | transfer hsender hB =>
      exact ⟨(payments_of_ne hB hsender).trans h.paid, h.once, h.within⟩
  | mint => exact ⟨h.paid, h.once, h.within⟩

theorem refunds_inductive (token self : Address) :
    ((system self).restrict fun _ l => Standard token self l).Inductive
      fun w => (Numbered w.machine.store ∧ Custody token self w.machine) ∧
        Refunds token self w.machine := by
  refine (custody_inductive token self).and (fun w hw => ?_)
    fun w l w' hw _ h hstep =>
      step_refunds hstep.1 hstep.2 hw.1 hw.2 h
  have hstore : w.machine.store = .deployed := hw.1
  have hhistory : w.machine.bank.history = [] := hw.2
  refine ⟨?_, ?_, ?_⟩
  · rw [payments, hhistory, hstore]
    rfl
  · rw [hstore]
    exact List.nodup_nil
  · rw [hstore]
    exact nofun

/-! ## Executed proposals -/

theorem executed_of_update {id : ℕ} {q' : Proposal}
    (heq : s'.proposal = Function.update s.proposal id (some q'))
    (hq' : q'.status ≠ .executed) (hp' : s'.proposal pid = some p')
    (hexecuted : p'.status = .executed) : s.proposal pid = some p' := by
  rw [heq] at hp'
  by_cases hid : pid = id
  · subst hid
    rw [Function.update_self, Option.some.injEq] at hp'
    exact absurd (hp' ▸ hexecuted) hq'
  · rwa [Function.update_of_ne hid] at hp'

/-- Only an execution makes a proposal executed. -/
theorem Change.executes (h : Change env e m m')
    (hp' : m'.store.proposal pid = some p')
    (hexecuted : p'.status = .executed) :
    m.store.proposal pid = some p' ∨
      ∃ handles outcome, e = .execute handles outcome pid ∧
        Executed env outcome pid m m' := by
  cases h with
  | aside _ hbook _ => exact .inl (hbook.proposal ▸ hp')
  | initialized h =>
      obtain ⟨-, _, _, -, -, rfl⟩ := h
      exact .inl hp'
  | configured h =>
      obtain ⟨-, _, -, rfl⟩ := h
      exact .inl hp'
  | @opened o _ h =>
      obtain ⟨-, -, config, _, -, -, rfl⟩ := h
      have hopen := ProposalStatus.isOpen_schedule config env.now
      have hne : (o.proposal env m.store config).status ≠ .executed := by
        change (config.schedule env.now).1 ≠ .executed
        rcases hopen with h | h
        · rw [h]
          exact nofun
        · rw [h]
          exact nofun
      exact .inl (executed_of_update rfl hne hp' hexecuted)
  | delegated _ _ _ heq =>
      rw [heq] at hp'
      exact .inl hp'
  | revoked _ _ _ heq =>
      rw [heq] at hp'
      exact .inl hp'
  | @voted voter choice ballots _ h =>
      obtain ⟨_, _, _, _, s, -, -, -, -, -, hballots, rfl⟩ := h.change
      by_cases hmem : pid ∈ ballots.map Prod.fst
      · obtain ⟨⟨id, q⟩, hb, rfl⟩ := List.mem_map.mp hmem
        obtain ⟨weight, -, hq⟩ := hballots.proposal_of_mem h.distinct hb
        have hactive := (h.eligible _ hb).active
        obtain rfl := Option.some.inj (hp'.symm.trans hq)
        rw [Proposal.setVotes_status, hactive] at hexecuted
        cases hexecuted
      · exact .inl ((hballots.proposal_of_notMem hmem).symm.trans hp')
  | withdrawn _ h =>
      obtain ⟨_, _, -, -, rfl⟩ := h.change
      exact .inl hp'
  | passed _ h =>
      obtain ⟨_, _, _, -, -, -, -, -, rfl⟩ := h
      refine .inl (executed_of_update rfl ?_ hp' hexecuted)
      exact nofun
  | refunded _ h =>
      obtain ⟨_, _, _, _, _, -, -, -, -, -, -, rfl⟩ := h.change
      refine .inl (executed_of_update rfl ?_ hp' hexecuted)
      rcases h.outcome with rfl | rfl
      · exact nofun
      · exact nofun
  | started _ h =>
      obtain ⟨_, _, -, -, -, -, -, rfl⟩ := h
      refine .inl (executed_of_update rfl ?_ hp' hexecuted)
      exact nofun
  | lapsed _ h =>
      obtain ⟨_, -, -, rfl⟩ := h
      refine .inl (executed_of_update rfl ?_ hp' hexecuted)
      exact nofun
  | @executed id handles outcome heq h =>
      by_cases hid : pid = id
      · subst hid
        exact .inr ⟨handles, outcome, heq, h⟩
      · obtain ⟨_, _, _, _, _, -, -, -, -, -, -, -, rfl⟩ := h
        exact .inl ((Function.update_of_ne hid _ _).symm.trans hp')
  | vetoed _ h =>
      obtain ⟨q, _, hq, hunexecuted, -, rfl⟩ := h.change
      refine .inl (executed_of_update rfl ?_ hp' hexecuted)
      exact hunexecuted

/-- The step executes the proposal and refunds the part of its deposit that
the target reports as completed, rounded down. -/
structure RefundsCompleted (token dao : Address) (pid : ℕ) (w : World State)
    (l : Label Entry) (w' : World State) : Prop where
  change : ∃ signers handles outcome p B result ev,
    l = .call signers (.execute handles outcome pid) ∧
    w.machine.store.proposal pid = some p ∧
    outcome w.machine.bank = some (B, result) ∧
    ev ∈ w'.machine.store.events ∧ ev.refunded = some pid ∧
    w'.machine.store.payout token dao ev = some
      { token := token
        sender := dao
        recipient := p.proposer
        amount := (p.deposit * (result.getD 10000 : ℕ) / 10000).toNat }

theorem step_executes {l : Label Entry} (hstep : (system self).Step w l w')
    (hcustody : Custody token self w.machine)
    (hp' : w'.machine.store.proposal pid = some p')
    (hexecuted : p'.status = .executed) :
    w.machine.store.proposal pid = some p' ∨
      RefundsCompleted token self pid w l w' := by
  cases hstep with
  | @call signers e m' hself hexec =>
      by_cases he : ∃ handles outcome, e = .execute handles outcome pid
      · obtain ⟨handles, outcome, rfl⟩ := he
        rcases execute_spec hexec with hlapsed | hfulfilled
        · obtain ⟨_, -, -, rfl⟩ := hlapsed
          refine .inl (executed_of_update rfl ?_ hp' hexecuted)
          exact nofun
        · obtain ⟨p, result, bps, B₁, _, hdue, -, -, houtcome, rfl, -, -,
            rfl⟩ := hfulfilled
          have hdeposit := hcustody.nonneg (.inr pid)
          rw [State.owed_of_pending hdue.stored (.inr (.inr hdue.passed))]
            at hdeposit
          refine .inr ⟨signers, handles, outcome, p, B₁, result, _, rfl,
            hdue.stored, houtcome, List.mem_cons_of_mem _ List.mem_cons_self,
            rfl, ?_⟩
          rw [State.payout, p.refundAmount_eq hdeposit]
      · refine .inl (changes_keep (I := fun m => ∀ q,
          m.store.proposal pid = some q → q.status = .executed →
            w.machine.store.proposal pid = some q) ?_ (exec_changes hexec)
          (fun _ hq _ => hq) p' hp' hexecuted)
        intro m₁ m₂ hchange hkept q hq hqexecuted
        rcases hchange.executes hq hqexecuted with hsame | ⟨_, _, heq, -⟩
        · exact hkept q hsame hqexecuted
        · exact absurd ⟨_, _, heq⟩ he
  | tick => exact .inl hp'
  | transfer => exact .inl hp'
  | mint => exact .inl hp'

/-- As long as the token stays the same and targets spare the DAO, it has all
locked tokens and all pending deposits, and a deposit is refunded once at most,
within what was deposited, and at its execution as far as it was completed. -/
theorem governance_tokens_covered
    (hw : ((system self).restrict fun _ l => Standard token self l).Reachable
      w) :
    (∀ (F : Finset (ℕ × Address)) (G : Finset ℕ),
      ∑ k ∈ F, w.machine.store.lockedBalance k +
          ∑ pid ∈ G, w.machine.store.escrow pid ≤
        w.machine.bank.balance token self) ∧
    Refunds token self w.machine ∧
    ∀ l w' pid p', (system self).Step w l w' →
      w'.machine.store.proposal pid = some p' → p'.status = .executed →
      w.machine.store.proposal pid = some p' ∨
        RefundsCompleted token self pid w l w' := by
  obtain ⟨⟨-, hcustody⟩, hrefunds⟩ :=
    hw.invariant (refunds_inductive token self)
  refine ⟨fun F G => ?_, hrefunds, fun l w' pid p' hstep hp' hexecuted =>
    step_executes hstep hcustody hp' hexecuted⟩
  have hsum := hcustody.capped (F.disjSum G)
  rwa [Finset.sum_disjSum] at hsum

/-! ## A half completed proposal -/

namespace Scenario

/-- Alice's proposal passes and is executed, and the target reports half of it
as completed. -/
def halving : List (Label Entry) :=
  [launch, motion, .call [alice] (.vote alice 0 .for), .tick 605101,
    .call [] (.finalize inOrder 0), .tick 86400,
    .call [] (.execute inOrder (fun B => some (B, some 5000)) 0)]

def halved : World State :=
  (TransitionSystem.execute (step exec dao) halving genesis).get
    (by decide +kernel)

theorem halved_reachable :
    ((system dao).restrict fun _ l => Standard shield dao l).Reachable
      halved := by
  have hrun : (system dao).Run genesis halving halved :=
    TransitionSystem.run_of_execute (fun _ _ _ => step_sound)
      (Option.some_get _).symm
  have hspares : Outcome.Spares (fun B => some (B, some 5000)) dao :=
    ⟨fun B B' _ h _ => by cases h; exact le_rfl,
      fun B B' _ h => by cases h; rfl⟩
  have hgenesis : ((system dao).restrict fun _ l =>
      Standard shield dao l).Reachable genesis := .init ⟨rfl, rfl⟩
  refine hgenesis.run (hrun.restrict ?_)
  simp only [halving, List.forall_mem_cons, List.not_mem_nil, false_imp_iff,
    implies_true, and_true]
  exact ⟨fun _ => rfl, fun _ => trivial, fun _ => trivial, fun _ => trivial,
    fun _ => trivial, fun _ => trivial, fun _ => hspares⟩

end Scenario

open Scenario

theorem governance_tokens_covered_halved :
    Refunds shield dao halved.machine ∧
      payments dao halved.machine.bank = [⟨shield, dao, alice, 5⟩] ∧
      halved.machine.store.lockedBalance (0, alice) = 490 :=
  ⟨(governance_tokens_covered halved_reachable).2.1, by decide +kernel,
    by decide +kernel⟩

end Parashield.GovernanceDao
