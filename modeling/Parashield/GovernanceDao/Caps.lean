import Parashield.GovernanceDao.Lending

/-!
# Governance DAO: the cap on the weight of a vote

The cap is meant for the weight that one address casts on a proposal.  It is
applied to the voter's own tokens only, before what its delegators lend is
added: a vote stays within the cap exactly if there is room for both.
-/

namespace Parashield.GovernanceDao

open Support Support.Contract Invocation

variable {self voter : Address} {env : Env} {m m' : Machine State}
  {w w' : World State} {pid : ℕ} {c : ℤ} {ids : List ℕ}
  {config : DaoConfig} {choice : VoteChoice} {ballots : List (ℕ × Proposal)}

/-- The vote of `voter` on `ids` carries at most `c`, in its records and in
every tally. -/
structure WithinCap (c : ℤ) (voter : Address) (ids : List ℕ)
    (w w' : World State) : Prop where
  records : ∀ pid ∈ ids, ∀ r,
    w'.machine.store.voteRecord (pid, voter) = some r → r.weight ≤ c
  tallies : ∀ pid ∈ ids, ∀ p p', w.machine.store.proposal pid = some p →
    w'.machine.store.proposal pid = some p' →
      ∀ choice, p'.votes choice - p.votes choice ≤ c

/-- At most `c` tokens of `voter` go into custody. -/
structure TakesAtMost (c : ℤ) (voter : Address) (w w' : World State) :
    Prop where
  balance : ∀ token, (w.machine.bank.balance token voter : ℤ) -
    w'.machine.bank.balance token voter ≤ c
  locks : ∀ k, w'.machine.store.lockedBalance k =
      w.machine.store.lockedBalance k ∨
    w'.machine.store.lockedBalance k ≤ c

/-- The voter's own part and the lent parts fit below the cap, or the cap is
the largest number there is. -/
def HasRoom (config : DaoConfig) (w : World State) (pid : ℕ)
    (voter : Address) : Prop :=
  maxI128 ≤ config.voteWeightCap ∨
    ownPart w.machine w.now config voter +
      (lentParts w.machine w.now config pid voter).sum ≤ config.voteWeightCap

/-! ## One vote -/

theorem capped_le (hcap : 0 < config.voteWeightCap) (balance : ℤ) :
    config.capped balance ≤ config.voteWeightCap := by
  rw [DaoConfig.capped, if_pos hcap]
  exact Int.min_le_right balance config.voteWeightCap

/-- The first proposal of a batch gets the lock, the others none. -/
theorem Ballots.lock_cases {govToken : Address} {own lock : ℤ} {B : Bank}
    {s s' : State}
    (h : Ballots env govToken voter choice own B lock ballots s s')
    (hids : (ballots.map Prod.fst).Nodup) (k : ℕ × Address) :
    s'.lockedBalance k = s.lockedBalance k ∨ s'.lockedBalance k = lock ∨
      s'.lockedBalance k = 0 := by
  by_cases hown : k.1 ∈ ballots.map Prod.fst ∧ k.2 = voter
  · obtain ⟨hmem, rfl⟩ := hown
    cases ballots with
    | nil => cases hmem
    | cons b rest =>
        rcases List.mem_cons.mp hmem with hfirst | hrest
        · rw [show k = (b.1, k.2) from Prod.ext hfirst rfl]
          exact .inr (.inl (h.lockedBalance_head hids))
        · obtain ⟨b', hb', hid⟩ := List.mem_map.mp hrest
          rw [show k = (b'.1, k.2) from Prod.ext hid.symm rfl]
          exact .inr (.inr (h.lockedBalance_tail hids b' hb'))
  · exact .inl (h.lockedBalance_of_ne fun hmem hvoter => hown ⟨hmem, hvoter⟩)

theorem Voted.locks_le (h : Voted env voter choice ballots m m')
    (hconfig : m.store.config = some config)
    (hcap : 0 < config.voteWeightCap) (k : ℕ × Address) :
    m'.store.lockedBalance k = m.store.lockedBalance k ∨
      m'.store.lockedBalance k ≤ config.voteWeightCap := by
  obtain ⟨config', _, _, _, _, hconfig', -, rfl, -, -, hballots, rfl⟩ :=
    h.change
  obtain rfl := Option.some.inj (hconfig'.symm.trans hconfig)
  rcases hballots.lock_cases h.distinct k with hsame | hlock | hzero
  · exact .inl hsame
  · exact .inr (hlock.trans_le (capped_le hcap _))
  · exact .inr (hzero.trans_le (Int.le_of_lt hcap))

theorem Voted.takes (h : Voted env voter choice ballots m m')
    (hself : env.self ∉ env.signers) (hconfig : m.store.config = some config)
    (hcap : 0 < config.voteWeightCap) (token : Address) :
    (m.bank.balance token voter : ℤ) - m'.bank.balance token voter ≤
      config.voteWeightCap := by
  obtain ⟨config', _, B, _, _, hconfig', -, rfl, hB, -, -, rfl⟩ := h.change
  obtain rfl := Option.some.inj (hconfig'.symm.trans hconfig)
  show (m.bank.balance token voter : ℤ) - B.balance token voter ≤ _
  by_cases htoken : token = config'.govToken
  · subst htoken
    have hne : voter ≠ env.self := fun heq => hself (heq ▸ h.signed)
    have hpaid := Bank.transfer_balance_sender hB hne
    have hle := capped_le hcap (m.bank.balance config'.govToken voter)
    omega
  · rw [Bank.transfer_balance_of_ne hB (.inl htoken), Int.sub_self]
    exact Int.le_of_lt hcap

/-- The weight is at most the cap if there is room. -/
theorem weight_le_iff (hw : w.machine.store.Weighs) :
    satI128 (ownPart w.machine w.now config voter +
        satSum (lentParts w.machine w.now config pid voter)) ≤
        config.voteWeightCap ↔
      HasRoom config w pid voter := by
  rw [satI128_add_satSum (ownPart_nonneg hw) (lentParts_nonneg hw), HasRoom]
  omega

theorem carried_nonneg (hw : w.machine.store.Weighs) :
    0 ≤ satI128 (ownPart w.machine w.now config voter +
      satSum (lentParts w.machine w.now config pid voter)) := by
  have hown : 0 ≤ ownPart w.machine w.now config voter := ownPart_nonneg hw
  have hlent : 0 ≤ (lentParts w.machine w.now config pid voter).sum :=
    List.sum_nonneg (lentParts_nonneg hw)
  have hmax : (0 : ℤ) ≤ maxI128 := by decide
  rw [satI128_add_satSum hown (lentParts_nonneg hw)]
  omega

theorem votes_setVotes_le {p : Proposal} {weight : ℤ} (hpos : 0 ≤ weight)
    (c : VoteChoice) :
    (p.setVotes choice (p.votes choice + weight)).votes c - p.votes c ≤
      weight := by
  rw [Proposal.setVotes_votes]
  by_cases hc : c = choice
  · subst hc
    simp
  · simpa [hc] using hpos

theorem Voted.within_iff {signers : List Address} {m' : Machine State}
    (h : Voted (callEnv self w signers) voter choice ballots w.machine m')
    (hd : Delegations self w.machine.store) (hw : w.machine.store.Weighs)
    (hconfig : w.machine.store.config = some config) :
    WithinCap config.voteWeightCap voter (ballots.map Prod.fst) w
        { w with machine := m' } ↔
      ∀ pid ∈ ballots.map Prod.fst, HasRoom config w pid voter := by
  have hcarries := h.carries hd hconfig
  constructor
  · intro hwithin pid hpid
    obtain ⟨b, hb, rfl⟩ := List.mem_map.mp hpid
    rw [← weight_le_iff hw]
    exact hwithin.records b.1 hpid _ (hcarries b hb).record
  · intro hroom
    refine ⟨fun pid hpid r hr => ?_, fun pid hpid p p' hp hp' c => ?_⟩
    · obtain ⟨b, hb, rfl⟩ := List.mem_map.mp hpid
      obtain rfl := Option.some.inj ((hcarries b hb).record.symm.trans hr)
      exact (weight_le_iff hw).mpr (hroom b.1 hpid)
    · obtain ⟨b, hb, rfl⟩ := List.mem_map.mp hpid
      obtain rfl := Option.some.inj (hp.symm.trans (h.eligible b hb).stored)
      obtain rfl := Option.some.inj ((hcarries b hb).tally.symm.trans hp')
      have hle := (weight_le_iff hw).mpr (hroom b.1 hpid)
      exact (votes_setVotes_le (carried_nonneg hw) c).trans hle

/-! ## Runs -/

/-- The cap is `c`, and a vote has room on each of its proposals. -/
def KeepsRoom (c : ℤ) (w : World State) (l : Label Entry) : Prop :=
  ∃ config, w.machine.store.config = some config ∧
    config.voteWeightCap = c ∧
    ∀ signers e voter ids choice, l = .call signers e →
      e.voting = some (voter, ids, choice) →
      ∀ pid ∈ ids, HasRoom config w pid voter

/-- Since `w`, votes have carried at most `c` each, and no lock is larger. -/
structure CappedSince (c : ℤ) (w w' : World State) : Prop where
  records : ∀ pid v r, w'.machine.store.voteRecord (pid, v) = some r →
    w.machine.store.voteRecord (pid, v) = some r ∨ r.weight ≤ c
  locks : ∀ k, w'.machine.store.lockedBalance k ≤
    max (w.machine.store.lockedBalance k) c

theorem CappedSince.refl (c : ℤ) (w : World State) : CappedSince c w w where
  records _ _ _ hr := .inl hr
  locks k := Int.le_max_left (w.machine.store.lockedBalance k) c

theorem CappedSince.trans {w'' : World State} (h : CappedSince c w w')
    (h' : CappedSince c w' w'') : CappedSince c w w'' where
  records pid v r hr := by
    rcases h'.records pid v r hr with hold | hle
    · exact h.records pid v r hold
    · exact .inr hle
  locks k := by
    have hfirst := h.locks k
    have hsecond := h'.locks k
    omega

theorem Voted.cappedSince {signers : List Address} {m' : Machine State}
    (h : Voted (callEnv self w signers) voter choice ballots w.machine m')
    (hwithin : WithinCap c voter (ballots.map Prod.fst) w
      { w with machine := m' })
    (hlocks : ∀ k, m'.store.lockedBalance k =
      w.machine.store.lockedBalance k ∨ m'.store.lockedBalance k ≤ c) :
    CappedSince c w { w with machine := m' } where
  records pid v r hr := by
    by_cases hown : pid ∈ ballots.map Prod.fst ∧ v = voter
    · obtain ⟨hpid, rfl⟩ := hown
      exact .inr (hwithin.records pid hpid r hr)
    · obtain ⟨_, _, _, _, _, -, -, -, -, -, hballots, rfl⟩ := h.change
      have hsame := hballots.voteRecord_of_ne (k := (pid, v))
        fun hmem heq => hown ⟨hmem, heq⟩
      exact .inl (hsame.symm.trans hr)
  locks k := by
    show m'.store.lockedBalance k ≤ _
    rcases hlocks k with hsame | hle
    · rw [hsame]
      exact Int.le_max_left (w.machine.store.lockedBalance k) c
    · omega

/-- Steps that do not vote only release locks. -/
theorem step_capped {l : Label Entry} (hc : 0 < c)
    (hw : (system self).Reachable w) (hroom : KeepsRoom c w l)
    (h : (system self).Step w l w') : CappedSince c w w' := by
  have hd := hw.invariant (delegations_inductive self)
  have hweighs := hw.invariant (weighs_inductive self)
  have hm := hw.invariant (numbered_inductive self)
  obtain ⟨config, hconfig, rfl, hroom⟩ := hroom
  have hquiet : w'.machine.store.voteRecord = w.machine.store.voteRecord →
      (∀ k, w'.machine.store.lockedBalance k =
        w.machine.store.lockedBalance k ∨
          w'.machine.store.lockedBalance k = 0) →
      CappedSince config.voteWeightCap w w' := by
    intro hrecords hlocks
    refine ⟨fun pid v r hr => .inl (hrecords ▸ hr), fun k => ?_⟩
    rcases hlocks k with hsame | hzero
    · omega
    · omega
  cases h with
  | @call signers e m' hself hexec =>
      rcases exec_records hexec hm with ⟨hrecords, -⟩ |
          ⟨voter, choice, ballots, hvoting, hvoted⟩
      · refine hquiet hrecords fun k => ?_
        rcases exec_locks hexec with hlocks |
            ⟨voter, choice, ballots, -, hvoted⟩ | ⟨voter, pid, -, hwithdrawn⟩
        · exact .inl (congrFun hlocks k)
        · have hcarries := hvoted.carries hd hconfig
          obtain ⟨b, hb⟩ := List.exists_mem_of_ne_nil _ hvoted.nonempty
          have hrecord := (hcarries b hb).record
          rw [hrecords, (hvoted.eligible b hb).unvoted] at hrecord
          cases hrecord
        · obtain ⟨_, _, -, -, rfl⟩ := hwithdrawn.change
          by_cases hk : k = (pid, voter)
          · subst hk
            exact .inr (Function.update_self ..)
          · exact .inl (Function.update_of_ne hk _ _)
      · have hwithin := (hvoted.within_iff hd hweighs hconfig).mpr
          (hroom signers e voter _ choice rfl hvoting)
        exact hvoted.cappedSince hwithin (hvoted.locks_le hconfig hc)
  | tick => exact hquiet rfl fun _ => .inl rfl
  | transfer => exact hquiet rfl fun _ => .inl rfl
  | mint => exact hquiet rfl fun _ => .inl rfl

/-- While the cap is `c` and every vote has room, votes carry at most `c`.  A
single vote takes at most `c` into custody in any case, and carries at most
`c` exactly if there is room on each of its proposals. -/
theorem vote_cap_iff (self : Address) {c : ℤ} (hc : 0 < c) :
    (∀ w ls w', (system self).Reachable w →
      ((system self).restrict (KeepsRoom c)).Run w ls w' →
        CappedSince c w w') ∧
    ∀ w signers e w' voter ids choice config, (system self).Reachable w →
      w.machine.store.config = some config → config.voteWeightCap = c →
      e.voting = some (voter, ids, choice) →
      (system self).Step w (.call signers e) w' →
        TakesAtMost c voter w w' ∧
          (WithinCap c voter ids w w' ↔
            ∀ pid ∈ ids, HasRoom config w pid voter) := by
  constructor
  · intro w ls w' hw hrun
    refine (hrun.preserves (Q := fun v => (system self).Reachable v ∧
      CappedSince c w v) ?_ ⟨hw, .refl c w⟩).2
    rintro v l v' ⟨hv, hcapped⟩ ⟨hroom, hstep⟩
    exact ⟨hv.step hstep, hcapped.trans (step_capped hc hv hroom hstep)⟩
  · rintro w signers e w' voter ids choice config hw hconfig rfl hvoting hstep
    have hd := hw.invariant (delegations_inductive self)
    have hweighs := hw.invariant (weighs_inductive self)
    cases hstep with
    | call hself hexec =>
        obtain ⟨ballots, rfl, hvoted⟩ := voted_of_voting hvoting hexec
        exact ⟨⟨hvoted.takes hself hconfig hc, hvoted.locks_le hconfig hc⟩,
          hvoted.within_iff hd hweighs hconfig⟩

/-! ## A cap of 100 tokens -/

namespace Scenario

def limitedConfig : DaoConfig := { Scenario.config with voteWeightCap := 100 }

def limiting : Label Entry := .call [admin] (.updateConfig admin limitedConfig)

def limited : World State :=
  (step exec dao proposed limiting).get (by decide +kernel)

def aliceVotes : Label Entry := .call [alice] (.vote alice 0 .for)

/-- Alice votes with 500 tokens. -/
def moderate : World State :=
  (step exec dao limited aliceVotes).get (by decide +kernel)

/-- Bob delegates his 300 tokens to Carol. -/
def backing : List (Label Entry) :=
  [limiting, .call [bob] (.delegate bob carol)]

def backed : World State :=
  (TransitionSystem.execute (step exec dao) backing proposed).get
    (by decide +kernel)

def overweight : World State :=
  (step exec dao backed carolVotes).get (by decide +kernel)

theorem limited_reachable : (system dao).Reachable limited :=
  proposed_reachable.step (step_sound (Option.some_get _).symm)

theorem backed_reachable : (system dao).Reachable backed := by
  have hrun : (system dao).Run proposed backing backed :=
    TransitionSystem.run_of_execute (fun _ _ _ => step_sound)
      (Option.some_get _).symm
  exact proposed_reachable.run hrun

end Scenario

open Scenario

theorem vote_cap_iff_moderate :
    TakesAtMost 100 alice limited moderate ∧
      WithinCap 100 alice [0] limited moderate := by
  have hstep : (system dao).Step limited aliceVotes moderate :=
    step_sound (Option.some_get _).symm
  have hroom : ∀ pid ∈ [0], HasRoom limitedConfig limited pid alice := by
    simp only [List.mem_singleton, forall_eq]
    exact .inr (by decide +kernel)
  obtain ⟨htakes, hiff⟩ := (vote_cap_iff dao (c := 100) (by decide)).2 limited
    [alice] (.vote alice 0 .for) moderate alice [0] .for limitedConfig
    limited_reachable (by decide +kernel) rfl rfl hstep
  exact ⟨htakes, hiff.mpr hroom⟩

/-- Carol's record holds her 200 tokens up to the cap of 100, and Bob's 300
without a limit. -/
theorem delegated_vote_exceeds_cap :
    (system dao).Reachable backed ∧
      backed.machine.store.config = some limitedConfig ∧
      (system dao).Step backed carolVotes overweight ∧
      overweight.machine.store.voteRecord (0, carol) =
        some ⟨carol, .against, 400⟩ ∧
      ¬ WithinCap 100 carol [0] backed overweight := by
  have hrecord : overweight.machine.store.voteRecord (0, carol) =
      some ⟨carol, .against, 400⟩ := by
    decide +kernel
  refine ⟨backed_reachable, by decide +kernel,
    step_sound (Option.some_get _).symm, hrecord, fun h => ?_⟩
  have hle := h.records 0 (List.mem_singleton_self 0) _ hrecord
  exact absurd hle (by decide)

end Parashield.GovernanceDao
