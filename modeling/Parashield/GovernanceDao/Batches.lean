import Parashield.GovernanceDao.Refunds
import Parashield.GovernanceDao.Tally
import Parashield.GovernanceDao.VotingPeriod

/-!
# Governance DAO: the custody of batches

A batch of votes locks the tokens of the voter once, on its first proposal.
They stay as long as that proposal is Active, and no longer.
-/

namespace Parashield.GovernanceDao

open Support Support.Contract Invocation

variable {self token govToken voter : Address} {env : Env} {s s' : State}
  {m m' : Machine State} {w w' w₀ w₁ w₂ : World State} {pid first : ℕ}
  {rest : List ℕ} {B : Bank} {e : Entry} {choice : VoteChoice} {amount : ℤ}

/-! ## Locks -/

/-- The votes of a batch lock tokens of the voter on its proposals only. -/
theorem Ballots.lockedBalance_of_ne {own lock : ℤ}
    {ballots : List (ℕ × Proposal)}
    (h : Ballots env govToken voter choice own B lock ballots s s')
    {k : ℕ × Address} (hk : k.1 ∈ ballots.map Prod.fst → k.2 ≠ voter) :
    s'.lockedBalance k = s.lockedBalance k := by
  induction h with
  | nil => rfl
  | @cons s s₁ s' lock id q rest ws weight hswept _ _ _ ih =>
      have hne : k ≠ (id, voter) := by
        rintro rfl
        exact hk List.mem_cons_self rfl
      have hsame : s₁.lockedBalance = s.lockedBalance := by
        rw [hswept.upToMarks.eq]
      rw [ih fun hmem => hk (List.mem_cons_of_mem _ hmem)]
      exact (Function.update_of_ne hne _ _).trans (congrFun hsame k)

/-- The first proposal of a batch has the lock. -/
theorem Ballots.lockedBalance_head {own lock : ℤ} {b : ℕ × Proposal}
    {ballots : List (ℕ × Proposal)}
    (h : Ballots env govToken voter choice own B lock (b :: ballots) s s')
    (hnodup : ((b :: ballots).map Prod.fst).Nodup) :
    s'.lockedBalance (b.1, voter) = lock := by
  rw [List.map_cons, List.nodup_cons] at hnodup
  cases h with
  | cons _ _ _ hrest =>
      rw [hrest.lockedBalance_of_ne fun hmem => absurd hmem hnodup.1]
      exact Function.update_self ..

theorem Ballots.lockedBalance_of_zero {own lock : ℤ}
    {ballots : List (ℕ × Proposal)}
    (h : Ballots env govToken voter choice own B lock ballots s s')
    (hlock : lock = 0) (hnodup : (ballots.map Prod.fst).Nodup) :
    ∀ b ∈ ballots, s'.lockedBalance (b.1, voter) = 0 := by
  induction h with
  | nil => simp
  | cons hswept hweight hpos hrest ih =>
      subst hlock
      refine List.forall_mem_cons.mpr
        ⟨(Ballots.cons hswept hweight hpos hrest).lockedBalance_head hnodup, ?_⟩
      rw [List.map_cons, List.nodup_cons] at hnodup
      exact ih rfl hnodup.2

/-- The other proposals of a batch have no tokens locked. -/
theorem Ballots.lockedBalance_tail {own lock : ℤ} {b : ℕ × Proposal}
    {ballots : List (ℕ × Proposal)}
    (h : Ballots env govToken voter choice own B lock (b :: ballots) s s')
    (hnodup : ((b :: ballots).map Prod.fst).Nodup) :
    ∀ b' ∈ ballots, s'.lockedBalance (b'.1, voter) = 0 := by
  rw [List.map_cons, List.nodup_cons] at hnodup
  cases h with
  | cons _ _ _ hrest => exact hrest.lockedBalance_of_zero rfl hnodup.2

/-- Only votes and withdrawals touch locks. -/
theorem Change.locks (h : Change env e m m') :
    m'.store.lockedBalance = m.store.lockedBalance ∨
      (∃ voter choice ballots,
        e.voting = some (voter, ballots.map Prod.fst, choice) ∧
          Voted env voter choice ballots m m') ∨
      ∃ voter pid, e = .withdrawTokens voter pid ∧
        Withdrawn env voter pid m m' := by
  cases h with
  | voted he h => exact .inr (.inl ⟨_, _, _, he, h⟩)
  | withdrawn he h => exact .inr (.inr ⟨_, _, he, h⟩)
  | aside _ hbook _ => exact .inl hbook.lockedBalance
  | initialized h =>
      obtain ⟨-, _, _, -, -, rfl⟩ := h
      exact .inl rfl
  | configured h =>
      obtain ⟨-, _, -, rfl⟩ := h
      exact .inl rfl
  | opened _ h =>
      obtain ⟨_, _, -, -, rfl⟩ := h.change
      exact .inl rfl
  | delegated _ _ _ heq => exact .inl (heq ▸ rfl)
  | revoked _ _ _ heq => exact .inl (heq ▸ rfl)
  | passed _ h =>
      obtain ⟨_, _, _, -, -, -, -, -, rfl⟩ := h
      exact .inl rfl
  | refunded _ h =>
      obtain ⟨_, _, _, _, _, -, -, -, -, -, -, rfl⟩ := h.change
      exact .inl rfl
  | started _ h =>
      obtain ⟨_, _, -, -, -, -, -, rfl⟩ := h
      exact .inl rfl
  | lapsed _ h =>
      obtain ⟨_, -, -, rfl⟩ := h
      exact .inl rfl
  | executed _ h =>
      obtain ⟨_, _, _, _, _, -, -, -, -, -, -, -, rfl⟩ := h
      exact .inl rfl
  | vetoed _ h =>
      obtain ⟨_, _, -, -, -, rfl⟩ := h.change
      exact .inl rfl

theorem exec_locks {u : Unit} (h : exec env e m = .ok (u, m')) :
    m'.store.lockedBalance = m.store.lockedBalance ∨
      (∃ voter choice ballots,
        e.voting = some (voter, ballots.map Prod.fst, choice) ∧
          Voted env voter choice ballots m m') ∨
      ∃ voter pid, e = .withdrawTokens voter pid ∧
        Withdrawn env voter pid m m' := by
  by_cases he : ∃ handles ids, e = .finalizeBatch handles ids
  · obtain ⟨handles, ids, rfl⟩ := he
    refine .inl (changes_keep
      (I := fun m₁ => m₁.store.lockedBalance = m.store.lockedBalance) ?_
      (exec_changes h) rfl)
    intro m₁ m₂ hchange hm₁
    rcases hchange.locks with hlocks | ⟨_, _, _, heq, -⟩ | ⟨_, _, heq, -⟩
    · exact hlocks.trans hm₁
    · cases heq
    · cases heq
  · push Not at he
    cases exec_single h he with
    | refl => exact .inl rfl
    | single hchange => exact hchange.locks

/-- The tokens locked with a record leave by a withdrawal only. -/
theorem step_lock {l : Label Entry} (h : (system self).Step w l w')
    (hvoted : w.machine.store.voteRecord (pid, voter) ≠ none) :
    w'.machine.store.lockedBalance (pid, voter) =
        w.machine.store.lockedBalance (pid, voter) ∨
      ∃ signers, l = .call signers (.withdrawTokens voter pid) ∧
        Withdrawn (callEnv self w signers) voter pid w.machine w'.machine := by
  cases h with
  | @call signers _ m' _ hexec =>
      rcases exec_locks hexec with hlocks | ⟨v, choice, ballots, -, hv⟩ |
          ⟨v, id, rfl, hwithdrawn⟩
      · exact .inl (congrFun hlocks _)
      · obtain ⟨_, _, _, _, _, -, -, -, -, -, hballots, rfl⟩ := hv.change
        refine .inl (hballots.lockedBalance_of_ne fun hmem heq => ?_)
        obtain ⟨b, hb, hpid⟩ := List.mem_map.mp hmem
        have hunvoted := (hv.eligible b hb).unvoted
        rw [hpid, ← heq] at hunvoted
        exact hvoted hunvoted
      · by_cases hkey : (pid, voter) = (id, v)
        · obtain ⟨rfl, rfl⟩ := Prod.mk.inj hkey
          exact .inr ⟨signers, rfl, hwithdrawn⟩
        · obtain ⟨_, _, -, -, rfl⟩ := hwithdrawn.change
          exact .inl (Function.update_of_ne hkey _ _)
  | tick => exact .inl rfl
  | transfer => exact .inl rfl
  | mint => exact .inl rfl

/-! ## Batches -/

/-- The first proposal is Active as long as any other of the batch is. -/
def State.Outlasts (s : State) (first : ℕ) (rest : List ℕ) : Prop :=
  ∀ pid ∈ rest, s.IsActive pid → s.IsActive first

/-- No withdrawal by `voter` on a proposal of the batch has an effect. -/
def Retained (self voter : Address) (ids : List ℕ) (w : World State) : Prop :=
  ∀ pid ∈ ids, ∀ signers w', (system self).Step w
    (.call signers (.withdrawTokens voter pid)) w' → w' = w

/-- The batch on `first` and `rest` by `voter` took `amount` into custody. -/
structure InBatch (voter : Address) (first : ℕ) (rest : List ℕ) (amount : ℤ)
    (s : State) : Prop where
  recorded : ∀ pid ∈ first :: rest, s.voteRecord (pid, voter) ≠ none
  begun : ∀ pid ∈ first :: rest,
    ∃ p, s.proposal pid = some p ∧ p.status ≠ .discussion
  shared : ∀ pid ∈ rest, s.lockedBalance (pid, voter) = 0
  locked : (∃ pid ∈ first :: rest, s.IsActive pid) →
    s.lockedBalance (first, voter) = amount

/-- What a batch of votes takes into custody. -/
theorem step_voteBatch {signers : List Address}
    (h : (system self).Step w₀
      (.call signers (.voteBatch voter (first :: rest) choice)) w₁)
    (ht : Tallied w₀.machine.store) :
    voter ≠ self ∧ ∃ config amount, w₀.machine.store.config = some config ∧
      0 < amount ∧
      w₀.machine.bank.transfer config.govToken voter self amount =
        some w₁.machine.bank ∧
      InBatch voter first rest amount w₁.machine.store := by
  obtain ⟨hself, hexec⟩ := h.exec_eq
  obtain ⟨ballots, hids, hvoted⟩ := voteBatch_spec hexec
  have hrecords := (hvoted.tallied ht).2
  have hdistinct := hvoted.distinct
  obtain ⟨config, _, B, _, s, hconfig, hpos, rfl, hB, -, hballots, hmachine⟩ :=
    hvoted.change
  obtain ⟨b, ballots, rfl⟩ : ∃ b tail, ballots = b :: tail := by
    cases ballots with
    | nil => cases hids
    | cons b tail => exact ⟨b, tail, rfl⟩
  obtain ⟨rfl, rfl⟩ := List.cons.inj hids
  have hstore : w₁.machine.store = s := congrArg Machine.store hmachine
  have hbank : w₁.machine.bank = B := congrArg Machine.bank hmachine
  refine ⟨fun heq => hself (heq ▸ hvoted.signed), config, _, hconfig,
    config.capped_pos hpos, hbank ▸ hB, ?_⟩
  rw [hstore]
  have hmem : ∀ pid ∈ b.1 :: ballots.map Prod.fst, ∃ b' ∈ b :: ballots,
      b'.1 = pid := fun pid hpid => List.mem_map.mp hpid
  refine ⟨fun pid hpid => ?_, fun pid hpid => ?_, fun pid hpid => ?_,
    fun _ => hballots.lockedBalance_head hdistinct⟩
  · obtain ⟨b', hb', rfl⟩ := hmem pid hpid
    obtain ⟨_, -, hrecord⟩ := hrecords
    have hrecord' := hrecord b' hb'
    rw [State.Records, hstore] at hrecord'
    rw [hrecord']
    exact Option.some_ne_none _
  · obtain ⟨b', hb', rfl⟩ := hmem pid hpid
    obtain ⟨weight, -, hp⟩ := hballots.proposal_of_mem hdistinct hb'
    refine ⟨_, hp, ?_⟩
    rw [Proposal.setVotes_status, (hvoted.eligible b' hb').active]
    rintro ⟨⟩
  · obtain ⟨b', hb', rfl⟩ := List.mem_map.mp hpid
    exact hballots.lockedBalance_tail hdistinct b' hb'

/-- A proposal whose voting has begun does not become Active again. -/
theorem step_active {l : Label Entry} {p : Proposal}
    (h : (system self).Step w l w') (hm : Numbered w.machine.store)
    (hp : w.machine.store.proposal pid = some p)
    (hbegun : p.status ≠ .discussion)
    (hactive : w'.machine.store.IsActive pid) :
    w.machine.store.IsActive pid := by
  obtain ⟨p', hp', hnext⟩ := step_next h hm hp
  obtain ⟨q, hq, hstatus⟩ := hactive
  obtain rfl := Option.some.inj (hp'.symm.trans hq)
  rcases hnext with hsame | hnext
  · exact ⟨p, hp, hsame.symm.trans hstatus⟩
  · rw [hstatus] at hnext
    cases hold : p.status with
    | discussion => exact absurd hold hbegun
    | _ =>
        rw [hold] at hnext
        cases hnext

theorem step_begun {l : Label Entry} {p : Proposal}
    (h : (system self).Step w l w') (hm : Numbered w.machine.store)
    (hp : w.machine.store.proposal pid = some p)
    (hbegun : p.status ≠ .discussion) :
    ∃ p', w'.machine.store.proposal pid = some p' ∧
      p'.status ≠ .discussion := by
  obtain ⟨p', hp', hsame | hnext⟩ := step_next h hm hp
  · exact ⟨p', hp', hsame ▸ hbegun⟩
  · refine ⟨p', hp', fun heq => ?_⟩
    rw [heq] at hnext
    generalize p.status = status at hnext
    cases hnext

/-- Tokens of a batch stay locked by any step as long as the first proposal of
the batch is Active while another one is. -/
theorem InBatch.step {l : Label Entry}
    (h : InBatch voter first rest amount w.machine.store)
    (hstep : (system self).Step w l w') (hm : Numbered w.machine.store)
    (ht : Tallied w.machine.store)
    (houtlasts : w.machine.store.Outlasts first rest) :
    InBatch voter first rest amount w'.machine.store := by
  refine ⟨fun pid hpid => ?_, fun pid hpid => ?_, fun pid hpid => ?_, ?_⟩
  · obtain ⟨r, hr⟩ := Option.ne_none_iff_exists'.mp (h.recorded pid hpid)
    rw [(step_records hstep hm ht pid voter r).1 hr]
    exact nofun
  · obtain ⟨p, hp, hbegun⟩ := h.begun pid hpid
    exact step_begun hstep hm hp hbegun
  · have hzero := h.shared pid hpid
    rcases step_lock hstep (h.recorded pid (List.mem_cons_of_mem _ hpid)) with
      heq | ⟨_, -, hwithdrawn⟩
    · exact heq.trans hzero
    · exact absurd hwithdrawn.locked (by omega)
  · rintro ⟨pid, hpid, hactive'⟩
    obtain ⟨p, hp, hbegun⟩ := h.begun pid hpid
    have hactive := step_active hstep hm hp hbegun hactive'
    have hfirst : w.machine.store.IsActive first := by
      rcases List.mem_cons.mp hpid with rfl | hpid
      · exact hactive
      · exact houtlasts pid hpid hactive
    rcases step_lock hstep (h.recorded first List.mem_cons_self) with
      heq | ⟨_, -, hwithdrawn⟩
    · exact heq.trans (h.locked ⟨pid, hpid, hactive⟩)
    · obtain ⟨q, hq, hclosed⟩ := hwithdrawn.inactive
      obtain ⟨q', hq', hopen⟩ := hfirst
      obtain rfl := Option.some.inj (hq.symm.trans hq')
      exact absurd hopen hclosed

theorem InBatch.run {ls : List (Label Entry)}
    (h : InBatch voter first rest amount w₁.machine.store)
    (hrun : ((system self).restrict fun w _ =>
      w.machine.store.Outlasts first rest).Run w₁ ls w₂)
    (hm : Numbered w₁.machine.store) (ht : Tallied w₁.machine.store) :
    InBatch voter first rest amount w₂.machine.store := by
  have hend := hrun.preserves (Q := fun w => (Numbered w.machine.store ∧
    Tallied w.machine.store) ∧ InBatch voter first rest amount
      w.machine.store) ?_ ⟨⟨hm, ht⟩, h⟩
  · exact hend.2
  · rintro w l w' ⟨hw, hbatch⟩ ⟨houtlasts, hstep⟩
    exact ⟨(tallied_inductive self).step w l w' hw hstep,
      hbatch.step hstep hw.1 hw.2 houtlasts⟩

/-! ## Withdrawals -/

/-- A lock on a closed proposal can be withdrawn if the DAO has the tokens. -/
theorem exists_withdrawTokens {p : Proposal} {config : DaoConfig}
    (hsigned : voter ∈ env.signers) (hp : m.store.proposal pid = some p)
    (hclosed : p.status ≠ .active)
    (hlocked : 0 < m.store.lockedBalance (pid, voter))
    (hconfig : m.store.config = some config)
    (hfunds : m.store.lockedBalance (pid, voter) ≤
      m.bank.balance config.govToken env.self) :
    ∃ m', withdrawTokens env voter pid m = .ok ((), m') ∧
      m'.store.lockedBalance (pid, voter) = 0 := by
  have haffords : m.bank.Affords config.govToken env.self
      (m.store.lockedBalance (pid, voter)) := by
    cases hL : m.bank.ledger config.govToken with
    | none =>
        simp only [Bank.balance, hL] at hfunds
        omega
    | some L =>
        simp only [Bank.balance, hL] at hfunds
        exact ⟨L, hL, hfunds⟩
  obtain ⟨B, hB⟩ : ∃ B, m.bank.transfer config.govToken env.self voter
      (m.store.lockedBalance (pid, voter)) = some B :=
    Bank.exists_transfer_iff_affords.mpr ⟨hlocked.le, haffords⟩
  have hpos : ¬ m.store.lockedBalance (pid, voter) ≤ 0 := by omega
  refine ⟨⟨{ m.store with
      lockedBalance := Function.update m.store.lockedBalance (pid, voter) 0
      events :=
        .tokensWithdrawn pid voter (m.store.lockedBalance (pid, voter)) ::
          m.store.events }, B⟩, ?_, Function.update_self ..⟩
  simp [withdrawTokens, storeLock, publish, hsigned, hp, hclosed, hpos,
    hconfig, hB]

theorem Change.config_kept (h : Change env e m m')
    (hconfig : m.store.config ≠ none) : m'.store.config ≠ none := by
  rcases h.config_cases with hsame | ⟨-, _, _, -, -, rfl⟩ | ⟨-, _, -, rfl⟩
  · rw [hsame]
    exact hconfig
  · exact nofun
  · exact nofun

theorem step_config_kept {l : Label Entry} (h : (system self).Step w l w')
    (hconfig : w.machine.store.config ≠ none) :
    w'.machine.store.config ≠ none := by
  cases h with
  | call _ hexec =>
      exact changes_keep (I := fun m => m.store.config ≠ none)
        (fun _ _ hchange => hchange.config_kept) (exec_changes hexec) hconfig
  | tick => exact hconfig
  | transfer => exact hconfig
  | mint => exact hconfig

/-- While the first proposal is Active, nothing of the batch is withdrawn. -/
theorem InBatch.retained (h : InBatch voter first rest amount w.machine.store)
    (hfirst : w.machine.store.IsActive first) :
    Retained self voter (first :: rest) w := by
  intro pid hpid signers w' hstep
  obtain ⟨hself, hexec⟩ := hstep.exec_eq
  rcases withdrawTokens_spec hexec with ⟨-, heq⟩ | hwithdrawn
  · rw [heq] at hexec
    exact hstep.unique (.call hself hexec)
  · rcases List.mem_cons.mp hpid with rfl | hpid
    · obtain ⟨q, hq, hclosed⟩ := hwithdrawn.inactive
      obtain ⟨q', hq', hopen⟩ := hfirst
      obtain rfl := Option.some.inj (hq.symm.trans hq')
      exact absurd hopen hclosed
    · exact absurd hwithdrawn.locked (by rw [h.shared pid hpid]; decide)

/-- Once the first proposal is closed, the lock can be withdrawn. -/
theorem InBatch.released (h : InBatch voter first rest amount w.machine.store)
    (hw : Custody token self w.machine) (hself : voter ≠ self)
    (hconfig : w.machine.store.config ≠ none)
    (hlocked : w.machine.store.lockedBalance (first, voter) = amount)
    (hamount : 0 < amount) (hclosed : ¬ w.machine.store.IsActive first) :
    ¬ Retained self voter (first :: rest) w := by
  intro hretained
  obtain ⟨config, hconfig⟩ := Option.ne_none_iff_exists'.mp hconfig
  obtain ⟨p, hp, -⟩ := h.begun first List.mem_cons_self
  have hfunds : w.machine.store.lockedBalance (first, voter) ≤
      w.machine.bank.balance config.govToken self := by
    rw [hw.same_token config hconfig]
    exact hw.capped.apply_le (.inl (first, voter))
  have hsigned : voter ∈ (callEnv self w [voter]).signers :=
    List.mem_singleton_self voter
  obtain ⟨m', hexec, hzero⟩ := exists_withdrawTokens hsigned hp
    (fun hactive => hclosed ⟨p, hp, hactive⟩) (hlocked ▸ hamount) hconfig hfunds
  have hsame := hretained first List.mem_cons_self [voter] _
    (.call (by simpa using Ne.symm hself) hexec)
  have hstore : m'.store = w.machine.store :=
    congrArg (fun w => w.machine.store) hsame
  rw [hstore, hlocked] at hzero
  omega

/-- The tokens that a batch of votes took into custody stay locked in every
run in which the first proposal of the batch is Active as long as another one
is.  While a proposal of the batch is Active no withdrawal on the batch has an
effect, and the DAO has the tokens as long as the governance token is the same
and targets spare it; then the tokens can be withdrawn as soon as the first
proposal is closed. -/
theorem batch_custody_lasts {signers : List Address} {ls : List (Label Entry)}
    (hw : (system self).Reachable w₀)
    (hbatch : (system self).Step w₀
      (.call signers (.voteBatch voter (first :: rest) choice)) w₁)
    (hrun : ((system self).restrict fun w _ =>
      w.machine.store.Outlasts first rest).Run w₁ ls w₂)
    (hactive : ∃ pid ∈ first :: rest, w₂.machine.store.IsActive pid) :
    ∃ config amount, w₀.machine.store.config = some config ∧ 0 < amount ∧
      w₀.machine.bank.transfer config.govToken voter self amount =
        some w₁.machine.bank ∧
      w₂.machine.store.lockedBalance (first, voter) = amount ∧
      (w₂.machine.store.Outlasts first rest →
        Retained self voter (first :: rest) w₂) ∧
      ∀ token, ((system self).restrict fun _ l =>
        Standard token self l).Reachable w₂ →
        amount ≤ w₂.machine.bank.balance token self ∧
          (Retained self voter (first :: rest) w₂ →
            w₂.machine.store.Outlasts first rest) := by
  obtain ⟨hm, ht⟩ := hw.invariant (tallied_inductive self)
  obtain ⟨hself, config, amount, hconfig, hamount, htransfer, hbatched⟩ :=
    step_voteBatch hbatch ht
  have hstep := (tallied_inductive self).step w₀ _ w₁ ⟨hm, ht⟩ hbatch
  have hend := hbatched.run hrun hstep.1 hstep.2
  have hlocked := hend.locked hactive
  refine ⟨config, amount, hconfig, hamount, htransfer, hlocked, ?_,
    fun token hstandard => ?_⟩
  · intro houtlasts
    obtain ⟨pid, hpid, hpid_active⟩ := hactive
    rcases List.mem_cons.mp hpid with rfl | hpid
    · exact hend.retained hpid_active
    · exact hend.retained (houtlasts pid hpid hpid_active)
  · obtain ⟨-, hcustody⟩ := hstandard.invariant (custody_inductive token self)
    have hconfig₂ : w₂.machine.store.config ≠ none := by
      refine hrun.of_restrict.preserves (fun _ _ _ h hstep =>
        step_config_kept hstep h) (step_config_kept hbatch ?_)
      rw [hconfig]
      exact nofun
    refine ⟨?_, fun hretained pid hpid hpid_active => ?_⟩
    · rw [← hlocked]
      exact hcustody.capped.apply_le (.inl (first, voter))
    · by_contra hclosed
      exact hend.released hcustody hself hconfig₂ hlocked hamount hclosed
        hretained

/-! ## Tokens voted twice -/

namespace Scenario

def dave : Address := .account 5

/-- Bob proposes something else a day after Alice. -/
def preparing : List (Label Entry) :=
  [launch, motion, .tick 100000,
    .call [bob] (.createProposal inOrder bob [78] pool pause [.u32 2]
      [1, 2, 3, 4, 5])]

def prepared : World State :=
  (TransitionSystem.execute (step exec dao) preparing genesis).get
    (by decide +kernel)

def bundling : Label Entry := .call [alice] (.voteBatch alice [0, 1] .for)

def bundled : World State :=
  (step exec dao prepared bundling).get (by decide +kernel)

def lingering : World State :=
  (step exec dao bundled (.tick 100)).get (by decide +kernel)

/-- Alice's proposal is finalized, and her tokens go on to Dave, who votes the
other way on Bob's. -/
def recycling : List (Label Entry) :=
  [.tick 505101, .call [] (.finalize inOrder 0),
    .call [alice] (.withdrawTokens alice 0), .transfer shield alice dave 490,
    .call [dave] (.vote dave 1 .against)]

def recycled : World State :=
  (TransitionSystem.execute (step exec dao) recycling bundled).get
    (by decide +kernel)

theorem prepared_reachable : (system dao).Reachable prepared :=
  TransitionSystem.reachable_of_execute (fun _ _ _ => step_sound) ⟨rfl, rfl⟩
    (Option.some_get _).symm

theorem bundled_step : (system dao).Step prepared bundling bundled :=
  step_sound (Option.some_get _).symm

end Scenario

open Scenario

/-- Before the second proposal is closed, the tokens of Alice count once for it
and once against it. -/
theorem batch_custody_ends_early :
    (system dao).Reachable prepared ∧
      (system dao).Step prepared bundling bundled ∧
      (system dao).Run bundled recycling recycled ∧
      recycled.machine.store.IsActive 1 ∧
      recycled.machine.store.lockedBalance (0, alice) = 0 ∧
      recycled.machine.store.voteRecord (1, alice) =
        some ⟨alice, .for, 490⟩ ∧
      recycled.machine.store.voteRecord (1, dave) =
        some ⟨dave, .against, 490⟩ :=
  ⟨prepared_reachable, bundled_step,
    TransitionSystem.run_of_execute (fun _ _ _ => step_sound)
      (Option.some_get _).symm,
    State.isActive_iff.mpr (by decide +kernel), by decide +kernel,
    by decide +kernel, by decide +kernel⟩

theorem batch_custody_lasts_lingering :
    ∃ amount : ℤ, 0 < amount ∧
      lingering.machine.store.lockedBalance (0, alice) = amount ∧
      Retained dao alice [0, 1] lingering := by
  have hboth : ∀ w : World State,
      (w.machine.store.proposal 0).map Proposal.status = some .active →
        w.machine.store.Outlasts 0 [1] :=
    fun w hactive pid _ _ => State.isActive_iff.mpr hactive
  have hrun : ((system dao).restrict fun w _ =>
      w.machine.store.Outlasts 0 [1]).Run bundled [.tick 100] lingering :=
    .cons ⟨hboth bundled (by decide +kernel),
      step_sound (Option.some_get _).symm⟩ (.nil _)
  obtain ⟨_, amount, -, hpos, -, hlocked, hretained, -⟩ :=
    batch_custody_lasts prepared_reachable bundled_step hrun
      ⟨0, List.mem_cons_self, State.isActive_iff.mpr (by decide +kernel)⟩
  exact ⟨amount, hpos, hlocked, hretained (hboth lingering (by decide +kernel))⟩

end Parashield.GovernanceDao
