import Parashield.GovernanceDao.Lifecycle
import Parashield.Support.Yield

/-!
# Governance DAO: custody

The tokens of the DAO: what voters have locked and the deposits of pending
proposals are always there, as long as the token stays the same and no executed
target moves them.
-/

namespace Parashield.GovernanceDao

open Support Support.Contract Invocation

variable {self token dao voter : Address} {env : Env} {s s' : State}
  {m m' : Machine State} {w w' : World State} {pid : ℕ} {p p' : Proposal}
  {B B' : Bank} {e : Entry}

/-! ## What the DAO owes -/

/-- The deposit of a proposal with this status has not been decided on. -/
def ProposalStatus.IsPending (status : ProposalStatus) : Prop :=
  status = .discussion ∨ status = .active ∨ status = .passed

instance (status : ProposalStatus) : Decidable status.IsPending :=
  inferInstanceAs (Decidable (_ ∨ _ ∨ _))

def Proposal.escrow (p : Proposal) : ℤ :=
  if p.status.IsPending then p.deposit else 0

def State.escrow (s : State) (pid : ℕ) : ℤ :=
  match s.proposal pid with
  | some p => p.escrow
  | none => 0

/-- The locks of voters and the deposits in escrow. -/
def State.owed (s : State) : (ℕ × Address) ⊕ ℕ → ℤ :=
  Sum.elim s.lockedBalance s.escrow

theorem ProposalStatus.IsOpen.isPending {status : ProposalStatus}
    (h : status.IsOpen) : status.IsPending := by
  rcases h with h | h
  · exact .inr (.inl h)
  · exact .inl h

theorem Proposal.escrow_of_pending (h : p.status.IsPending) :
    p.escrow = p.deposit :=
  if_pos h

theorem Proposal.escrow_of_settled (h : ¬ p.status.IsPending) : p.escrow = 0 :=
  if_neg h

theorem State.escrow_of_stored (hp : s.proposal pid = some p) :
    s.escrow pid = p.escrow := by
  rw [State.escrow, hp]

theorem State.escrow_congr (h : s'.proposal = s.proposal) :
    s'.escrow = s.escrow := by
  funext pid
  rw [State.escrow, h, State.escrow]

theorem State.owed_congr (hlocks : s'.lockedBalance = s.lockedBalance)
    (hproposals : s'.proposal = s.proposal) : s'.owed = s.owed := by
  rw [State.owed, hlocks, State.escrow_congr hproposals, State.owed]

theorem State.escrow_update
    (heq : s'.proposal = Function.update s.proposal pid (some p')) :
    s'.escrow = Function.update s.escrow pid p'.escrow := by
  funext qid
  unfold State.escrow
  rw [heq]
  by_cases hq : qid = pid
  · subst hq
    simp
  · simp [hq]

/-- An update of one proposal updates its escrow. -/
theorem State.owed_update (hlocks : s'.lockedBalance = s.lockedBalance)
    (heq : s'.proposal = Function.update s.proposal pid (some p')) :
    s'.owed = Function.update s.owed (.inr pid) p'.escrow := by
  rw [State.owed, hlocks, State.escrow_update heq, State.owed,
    Sum.update_elim_inr]

theorem State.owed_of_pending (hp : s.proposal pid = some p)
    (h : p.status.IsPending) : s.owed (.inr pid) = p.deposit :=
  (State.escrow_of_stored hp).trans (Proposal.escrow_of_pending h)

/-- An update that keeps the escrow of a proposal keeps all debts. -/
theorem State.owed_amended (hp : s.proposal pid = some p)
    (hlocks : s'.lockedBalance = s.lockedBalance)
    (heq : s'.proposal = Function.update s.proposal pid (some p'))
    (hsame : p'.escrow = p.escrow) : s'.owed = s.owed := by
  have hold : s.owed (.inr pid) = p.escrow := State.escrow_of_stored hp
  rw [State.owed_update hlocks heq, hsame, ← hold, Function.update_eq_self]

/-- An update of one lock, with the escrow the same. -/
theorem State.owed_lock {k : ℕ × Address} {lock : ℤ}
    (hlocks : s'.lockedBalance = Function.update s.lockedBalance k lock)
    (hescrow : s'.escrow = s.escrow) :
    s'.owed = Function.update s.owed (.inl k) lock := by
  rw [State.owed, hlocks, hescrow, State.owed, Sum.update_elim_inl]

/-! ## Refunds of executed proposals -/

/-- The refund is the completed part of the deposit, rounded down. -/
theorem Proposal.refundAmount_eq (p : Proposal) (hpos : 0 ≤ p.deposit)
    (bps : ℕ) : p.refundAmount bps = p.deposit * bps / 10000 := by
  have hrem : 0 ≤ p.deposit % 10000 := Int.emod_nonneg _ (by decide)
  have hsplit : p.deposit * bps =
      p.deposit % 10000 * bps + p.deposit / 10000 * bps * 10000 := by
    have h := Int.emod_add_mul_ediv p.deposit 10000
    calc p.deposit * bps
        = (p.deposit % 10000 + 10000 * (p.deposit / 10000)) * bps := by rw [h]
      _ = p.deposit % 10000 * bps + p.deposit / 10000 * bps * 10000 := by ring
  unfold Proposal.refundAmount
  rw [Int.tdiv_eq_ediv_of_nonneg hpos, Int.tmod_eq_emod_of_nonneg hpos,
    Int.tdiv_eq_ediv_of_nonneg (by positivity), hsplit,
    Int.add_mul_ediv_right _ _ (by decide)]
  ring

theorem Proposal.refundAmount_le (p : Proposal) (hpos : 0 ≤ p.deposit)
    {bps : ℕ} (hbps : bps ≤ 10000) : p.refundAmount bps ≤ p.deposit := by
  rw [p.refundAmount_eq hpos]
  refine Int.ediv_le_of_le_mul (by decide) ?_
  have hle : (bps : ℤ) ≤ 10000 := by exact_mod_cast hbps
  exact mul_le_mul_of_nonneg_left hle hpos

/-! ## Steps in keeping with the assumptions -/

/-- The transfers of positive amounts by `dao`, newest first. -/
def payments (dao : Address) (B : Bank) : List Transfer :=
  B.history.filter fun t => t.sender = dao ∧ 0 < t.amount

/-- The target does not move the tokens of `dao`. -/
structure Outcome.Spares (outcome : Outcome) (dao : Address) : Prop where
  balance : ∀ B B' result, outcome B = some (B', result) → ∀ token,
    B.balance token dao ≤ B'.balance token dao
  payments : ∀ B B' result, outcome B = some (B', result) →
    payments dao B' = payments dao B

/-- The call keeps the governance token, and targets spare the DAO. -/
def Entry.Standard (token dao : Address) : Entry → Prop
  | .initializeDao _ config | .updateConfig _ config =>
      config.govToken = token
  | .execute _ outcome _ => outcome.Spares dao
  | _ => True

def Standard (token dao : Address) : Label Entry → Prop
  | .call _ e => e.Standard token dao
  | _ => True

/-- The token is the same, and the DAO has all it owes. -/
structure Custody (token dao : Address) (m : Machine State) : Prop where
  same_token : ∀ config, m.store.config = some config →
    config.govToken = token
  nonneg : ∀ k, 0 ≤ m.store.owed k
  capped : Capped m.store.owed (m.bank.balance token dao)

/-- One debt changes by no more than the balance. -/
theorem Custody.update {k : (ℕ × Address) ⊕ ℕ} {v : ℤ}
    (h : Custody token dao m)
    (htoken : m'.store.config = m.store.config)
    (howed : m'.store.owed = Function.update m.store.owed k v) (hv : 0 ≤ v)
    (hbalance : m.bank.balance token dao + (v - m.store.owed k) ≤
      m'.bank.balance token dao) : Custody token dao m' where
  same_token := htoken ▸ h.same_token
  nonneg k' := by
    rw [howed]
    by_cases hk : k' = k
    · rw [hk, Function.update_self]
      exact hv
    · rw [Function.update_of_ne hk]
      exact h.nonneg k'
  capped := by
    rw [howed]
    exact (h.capped.update k hv).mono hbalance

theorem Custody.congr (h : Custody token dao m)
    (htoken : m'.store.config = m.store.config)
    (howed : m'.store.owed = m.store.owed)
    (hbalance : m.bank.balance token dao ≤ m'.bank.balance token dao) :
    Custody token dao m' where
  same_token := htoken ▸ h.same_token
  nonneg := howed ▸ h.nonneg
  capped := howed ▸ h.capped.mono (Int.ofNat_le.mpr hbalance)

/-- A deposit is paid out or kept. -/
theorem Custody.settle (h : Custody token dao m)
    (hp : m.store.proposal pid = some p) (hpending : p.status.IsPending)
    (hsettled : ¬ p'.status.IsPending)
    (htoken : m'.store.config = m.store.config)
    (hlocks : m'.store.lockedBalance = m.store.lockedBalance)
    (heq : m'.store.proposal = Function.update m.store.proposal pid (some p'))
    (hbalance : (m.bank.balance token dao : ℤ) - p.deposit ≤
      m'.bank.balance token dao) : Custody token dao m' := by
  refine h.update (k := .inr pid) htoken (State.owed_update hlocks heq) ?_ ?_
  · rw [Proposal.escrow_of_settled hsettled]
  · rw [Proposal.escrow_of_settled hsettled, State.owed_of_pending hp hpending]
    omega

/-! ## One change -/

theorem Proposal.setVotes_escrow (p : Proposal) (choice : VoteChoice)
    (votes : ℤ) : (p.setVotes choice votes).escrow = p.escrow := by
  cases choice <;> rfl

/-- A vote locks `lock` and leaves all deposits alone. -/
theorem Ballots.owed {govToken : Address} {choice : VoteChoice}
    {own lock bound : ℤ} {ballots : List (ℕ × Proposal)}
    (h : Ballots env govToken voter choice own B lock ballots s s')
    (hnodup : (ballots.map Prod.fst).Nodup)
    (hstored : ∀ b ∈ ballots, s.proposal b.1 = some b.2) (hlock : 0 ≤ lock)
    (hnonneg : ∀ k, 0 ≤ s.owed k) (hcapped : Capped s.owed bound) :
    (∀ k, 0 ≤ s'.owed k) ∧ Capped s'.owed (bound + lock) := by
  induction h generalizing bound with
  | nil => exact ⟨hnonneg, hcapped.mono (by omega)⟩
  | @cons s s₁ s' lock id q rest ws weight hswept _ _ _ ih =>
      rw [List.map_cons, List.nodup_cons] at hnodup
      have hmarks := hswept.upToMarks
      have howed₁ : s₁.owed = s.owed := by
        refine State.owed_congr ?_ hswept.proposal
        rw [hmarks.eq]
      have hq : s₁.proposal id = some q := by
        rw [hswept.proposal]
        exact hstored _ List.mem_cons_self
      have hescrow : (s₁.voted id q ⟨voter, choice, weight⟩ lock).escrow =
          s₁.escrow := by
        rw [State.escrow_update (s := s₁) rfl, Proposal.setVotes_escrow,
          ← State.escrow_of_stored hq, Function.update_eq_self]
      have howed : (s₁.voted id q ⟨voter, choice, weight⟩ lock).owed =
          Function.update s.owed (.inl (id, voter)) lock := by
        rw [State.owed_lock (s := s₁) rfl hescrow, howed₁]
      have hold := hnonneg (.inl (id, voter))
      have hstored₁ : ∀ b ∈ rest,
          (s₁.voted id q ⟨voter, choice, weight⟩ lock).proposal b.1 =
            some b.2 := by
        intro b hb
        have hne : b.1 ≠ id := by
          rintro rfl
          exact hnodup.1 (List.mem_map.mpr ⟨b, hb, rfl⟩)
        have hb' := hstored b (List.mem_cons_of_mem _ hb)
        rw [← hswept.proposal] at hb'
        exact (Function.update_of_ne hne _ _).trans hb'
      have hnonneg₁ : ∀ k,
          0 ≤ (s₁.voted id q ⟨voter, choice, weight⟩ lock).owed k := by
        intro k
        rw [howed]
        by_cases hk : k = .inl (id, voter)
        · rw [hk, Function.update_self]
          exact hlock
        · rw [Function.update_of_ne hk]
          exact hnonneg k
      have hcapped₁ : Capped
          (s₁.voted id q ⟨voter, choice, weight⟩ lock).owed (bound + lock) := by
        rw [howed]
        exact (hcapped.update _ hlock).mono (by omega)
      simpa using ih hnodup.2 hstored₁ le_rfl hnonneg₁ hcapped₁

theorem DaoConfig.capped_pos (config : DaoConfig) {balance : ℤ}
    (h : 0 < balance) : 0 < config.capped balance := by
  unfold DaoConfig.capped
  split
  · omega
  · exact h

theorem Change.custody (h : Change env e m m') (hself : env.self ∉ env.signers)
    (he : e.Standard token env.self) (hnew : Numbered m.store)
    (hm : Custody token env.self m) : Custody token env.self m' := by
  cases h with
  | aside _ hbook hbank =>
      exact hm.congr hbook.config
        (State.owed_congr hbook.lockedBalance hbook.proposal) (by rw [hbank])
  | initialized h =>
      obtain ⟨-, _, config, rfl, -, rfl⟩ := h
      refine ⟨?_, hm.nonneg, hm.capped⟩
      rintro _ ⟨⟩
      exact he
  | configured h =>
      obtain ⟨-, config, hconfig, rfl⟩ := h
      refine ⟨?_, hm.nonneg, hm.capped⟩
      rintro _ ⟨⟩
      rcases hconfig with ⟨_, rfl, -⟩ | ⟨_, _, old, rfl, hold, rfl⟩
      · exact he
      · exact hm.same_token old hold
  | @opened o _ h =>
      obtain ⟨-, hsigned, config, B, hconfig, hB, rfl⟩ := h
      obtain rfl := hm.same_token config hconfig
      have hne : o.proposer ≠ env.self := fun heq => hself (heq ▸ hsigned)
      have hfree : m.store.owed (.inr m.store.nextProposalId) = 0 := by
        cases hp : m.store.proposal m.store.nextProposalId with
        | none => simp [State.owed, State.escrow, hp]
        | some p => exact absurd (hnew.stored _ p hp).2 (lt_irrefl _)
      have hpending : (o.proposal env m.store config).status.IsPending :=
        (ProposalStatus.isOpen_schedule config env.now).isPending
      have hescrow := Proposal.escrow_of_pending hpending
      have hpos := (Bank.transfer_eq_some hB).1
      have hpaid := Bank.transfer_balance_recipient hB hne
      refine hm.update (k := .inr m.store.nextProposalId) rfl
        (State.owed_update rfl rfl) (hescrow ▸ hpos) ?_
      rw [hfree, hescrow]
      change (m.bank.balance config.govToken env.self : ℤ) + _ ≤
        (B.balance config.govToken env.self : ℤ)
      omega
  | delegated _ _ _ heq =>
      rw [heq]
      exact hm.congr rfl (State.owed_congr rfl rfl) le_rfl
  | revoked _ _ _ heq =>
      rw [heq]
      exact hm.congr rfl (State.owed_congr rfl rfl) le_rfl
  | @voted voter _ ballots _ h =>
      obtain ⟨config, capped, B, _, s, hconfig, hpos, rfl, hB, -, hballots,
        rfl⟩ := h.change
      obtain rfl := hm.same_token config hconfig
      have hne : voter ≠ env.self := fun heq => hself (heq ▸ h.signed)
      have hpaid := Bank.transfer_balance_recipient hB hne
      obtain ⟨hnonneg, hcapped⟩ := hballots.owed h.distinct
        (fun b hb => (h.eligible b hb).stored) (config.capped_pos hpos).le
        hm.nonneg hm.capped
      refine ⟨?_, hnonneg, hcapped.mono hpaid.ge⟩
      rw [hballots.upToVotes.eq]
      exact hm.same_token
  | @withdrawn voter pid _ h =>
      obtain ⟨config, B, hconfig, hB, rfl⟩ := h.change
      obtain rfl := hm.same_token config hconfig
      have hpaid := Bank.balance_sub_le_transfer hB
      refine hm.update (k := .inl (pid, voter)) rfl
        (State.owed_lock rfl (State.escrow_congr rfl)) le_rfl ?_
      change (m.bank.balance config.govToken env.self : ℤ) +
        (0 - m.store.lockedBalance (pid, voter)) ≤
          (B.balance config.govToken env.self : ℤ)
      omega
  | @passed pid _ _ h =>
      obtain ⟨p, config, _, hp, hactive, -, -, -, rfl⟩ := h
      refine hm.congr rfl (State.owed_amended hp rfl rfl ?_) le_rfl
      rw [Proposal.escrow_of_pending (.inr (.inl hactive))]
      exact Proposal.escrow_of_pending (.inr (.inr rfl))
  | refunded _ h =>
      obtain ⟨p, config, _, _, B, hp, hopen, -, hconfig, -, hB, rfl⟩ := h.change
      obtain rfl := hm.same_token config hconfig
      have hpaid := Bank.balance_sub_le_transfer hB
      refine hm.settle hp hopen.isPending ?_ rfl rfl rfl hpaid
      rcases h.outcome with rfl | rfl
      · exact show ¬ ProposalStatus.failed.IsPending by decide
      · exact show ¬ ProposalStatus.cancelled.IsPending by decide
  | started _ h =>
      obtain ⟨p, _, hp, hdiscussed, -, -, -, rfl⟩ := h
      refine hm.congr rfl (State.owed_amended hp rfl rfl ?_) le_rfl
      rw [Proposal.escrow_of_pending (.inl hdiscussed)]
      exact Proposal.escrow_of_pending (.inr (.inl rfl))
  | @lapsed pid _ _ _ h =>
      obtain ⟨p, hdue, -, rfl⟩ := h
      have hpending : p.status.IsPending := .inr (.inr hdue.passed)
      have hdeposit := hm.nonneg (.inr pid)
      rw [State.owed_of_pending hdue.stored hpending] at hdeposit
      exact hm.settle hdue.stored hpending
        (show ¬ ProposalStatus.expired.IsPending by decide) rfl rfl rfl
        (sub_le_self _ hdeposit)
  | @executed pid _ _ heq h =>
      obtain ⟨p, _, bps, B₁, B, hdue, -, -, houtcome, -, hbps, hrefund, rfl⟩ :=
        h
      have hpending : p.status.IsPending := .inr (.inr hdue.passed)
      have hdeposit := hm.nonneg (.inr pid)
      rw [State.owed_of_pending hdue.stored hpending] at hdeposit
      have hle := p.refundAmount_le hdeposit hbps
      have hspared : m.bank.balance token env.self ≤
          B₁.balance token env.self := by
        subst heq
        exact he.balance _ _ _ houtcome token
      have hleft : (m.bank.balance token env.self : ℤ) - p.deposit ≤
          B.balance token env.self := by
        rcases hrefund with ⟨hpos, config, hconfig, hB⟩ | ⟨-, rfl⟩
        · obtain rfl := hm.same_token config hconfig
          have hpaid := Bank.balance_sub_le_transfer hB
          omega
        · omega
      exact hm.settle hdue.stored hpending
        (show ¬ ProposalStatus.executed.IsPending by decide) rfl rfl rfl hleft
  | vetoed _ h =>
      obtain ⟨p, _, hp, -, -, rfl⟩ := h.change
      exact hm.congr rfl (State.owed_amended hp rfl rfl rfl) le_rfl

/-! ## Runs -/

theorem step_custody {l : Label Entry} (hguard : Standard token self l)
    (hstep : (system self).Step w l w') (hw : Numbered w.machine.store)
    (h : Custody token self w.machine) : Custody token self w'.machine := by
  cases hstep with
  | @call signers e m' hself hexec =>
      refine (changes_keep
        (I := fun m => Numbered m.store ∧ Custody token self m) ?_
        (exec_changes hexec) ⟨hw, h⟩).2
      rintro m m' hchange ⟨hm, hcustody⟩
      exact ⟨hchange.numbered hm, hchange.custody hself hguard hm hcustody⟩
  | tick => exact h
  | transfer hsender hB =>
      exact h.congr rfl rfl
        (Bank.balance_le_transfer hB (Ne.symm hsender) token)
  | mint => exact h.congr rfl rfl (Bank.balance_le_mint _ _ _ _ _ _)

theorem custody_inductive (token self : Address) :
    ((system self).restrict fun _ l => Standard token self l).Inductive
      fun w => Numbered w.machine.store ∧ Custody token self w.machine := by
  refine ((numbered_inductive self).restrict _).and (fun w hw => ?_)
    fun w l w' hw _ h hstep => step_custody hstep.1 hstep.2 hw h
  have hstore : w.machine.store = .deployed := hw.1
  have hzero : w.machine.store.owed = fun _ => 0 := by
    funext k
    rw [hstore]
    cases k with
    | inl => rfl
    | inr => rfl
  refine ⟨?_, ?_, ?_⟩
  · rw [hstore]
    exact nofun
  · rw [hzero]
    exact fun _ => le_rfl
  · intro F
    rw [hzero, Finset.sum_const_zero]
    exact Int.natCast_nonneg _

end Parashield.GovernanceDao
