import Parashield.GovernanceDao.Finalizing
import Parashield.GovernanceDao.Quorum

/-!
# Governance DAO: the pass rule

A proposal passes with enough partisan votes and a large enough share of them.
A majority of at most one half lets a tie pass, and products of a large supply
do not fit.
-/

namespace Parashield.GovernanceDao

open Support Support.Contract Invocation

variable {self : Address} {env : Env} {s : State} {m m' t : Machine State}
  {pid : ℕ} {p : Proposal} {config : DaoConfig}
  {quorumBps majorityBps : ℕ} {supply : ℤ}

/-! ## The rule -/

/-- The votes on the proposal are at most its supply. -/
structure Proposal.WithinSupply (p : Proposal) : Prop where
  votesFor : 0 ≤ p.votesFor
  votesAgainst : 0 ≤ p.votesAgainst
  votesAbstain : 0 ≤ p.votesAbstain
  total : p.votesFor + p.votesAgainst + p.votesAbstain ≤ p.totalSupply

/-- Some partisan votes, as many as the quorum asks for, and the majority of
them for the proposal. -/
structure Proposal.MeetsRule (p : Proposal) (quorumBps majorityBps : ℕ) :
    Prop where
  partisan : 0 < p.votesFor + p.votesAgainst
  quorum : p.totalSupply * quorumBps / 10000 ≤ p.votesFor + p.votesAgainst
  majority : majorityBps * (p.votesFor + p.votesAgainst) ≤ p.votesFor * 10000

/-- With a supply that leaves room for the products nothing overflows. -/
theorem Proposal.WithinSupply.fits (h : p.WithinSupply)
    (hsupply : p.totalSupply * 10000 ≤ maxI128)
    (hquorum : quorumBps ≤ maxQuorumBps) :
    InI128 (p.totalSupply * quorumBps) ∧ InI128 (p.votesFor * 10000) ∧
      p.Addable := by
  obtain ⟨hfor, hagainst, habstain, htotal⟩ := h
  have hsupply_nonneg : 0 ≤ p.totalSupply := by omega
  have hneeded_nonneg : 0 ≤ p.totalSupply * quorumBps :=
    Int.mul_nonneg hsupply_nonneg (Int.natCast_nonneg _)
  unfold maxQuorumBps at hquorum
  have hneeded_le : p.totalSupply * quorumBps ≤ p.totalSupply * 10000 :=
    Int.mul_le_mul_of_nonneg_left (by omega) hsupply_nonneg
  unfold maxI128 at hsupply
  exact ⟨⟨by omega, by omega⟩, ⟨by omega, by omega⟩,
    ⟨by omega, by omega⟩, ⟨by omega, by omega⟩⟩

/-- Without overflow the rounded share decides as the exact one does. -/
theorem Proposal.WithinSupply.passes_iff (h : p.WithinSupply)
    (hneeded : InI128 (p.totalSupply * quorumBps))
    (hshare : InI128 (p.votesFor * 10000)) :
    p.passes quorumBps majorityBps ↔ p.MeetsRule quorumBps majorityBps := by
  obtain ⟨hfor, hagainst, habstain, htotal⟩ := h
  have hneeded_nonneg : 0 ≤ p.totalSupply * quorumBps :=
    Int.mul_nonneg (by omega) (Int.natCast_nonneg _)
  unfold Proposal.passes
  rw [quorumNeeded, if_pos hneeded, Int.tdiv_eq_ediv_of_nonneg hneeded_nonneg]
  constructor
  · rintro ⟨hne, hreached, hmajority⟩
    have hpos : 0 < p.votesFor + p.votesAgainst := by omega
    rw [forBps, if_pos ⟨hpos, hshare⟩,
      Int.tdiv_eq_ediv_of_nonneg (by omega)] at hmajority
    exact ⟨hpos, hreached, (Int.le_ediv_iff_mul_le hpos).mp hmajority⟩
  · rintro ⟨hpos, hreached, hmajority⟩
    refine ⟨by omega, hreached, ?_⟩
    rw [forBps, if_pos ⟨hpos, hshare⟩, Int.tdiv_eq_ediv_of_nonneg (by omega)]
    exact (Int.le_ediv_iff_mul_le hpos).mpr hmajority

/-- A majority of more than one half needs more votes for than against. -/
theorem Proposal.MeetsRule.against_lt_for
    (h : p.MeetsRule quorumBps majorityBps) (hmajority : 5000 < majorityBps) :
    p.votesAgainst < p.votesFor := by
  obtain ⟨hpos, -, hshare⟩ := h
  have hhalf : (5001 : ℤ) * (p.votesFor + p.votesAgainst) ≤
      majorityBps * (p.votesFor + p.votesAgainst) :=
    Int.mul_le_mul_of_nonneg_right (by omega) hpos.le
  omega

/-- The proposal with `k` more votes for it. -/
def Proposal.addFor (p : Proposal) (k : ℤ) : Proposal :=
  { p with votesFor := p.votesFor + k }

/-- More votes for a proposal that passes leave it passing. -/
theorem Proposal.MeetsRule.add_for {k : ℤ}
    (h : p.MeetsRule quorumBps majorityBps) (hagainst : 0 ≤ p.votesAgainst)
    (hk : 0 ≤ k) :
    (p.addFor k).MeetsRule quorumBps majorityBps := by
  obtain ⟨hpos, hreached, hshare⟩ := h
  -- a majority of more than all votes is never reached
  have hmajority : (majorityBps : ℤ) ≤ 10000 := by
    by_contra hmore
    have hall : (10001 : ℤ) * (p.votesFor + p.votesAgainst) ≤
        majorityBps * (p.votesFor + p.votesAgainst) :=
      Int.mul_le_mul_of_nonneg_right (by omega) hpos.le
    omega
  have hextra : (majorityBps : ℤ) * k ≤ 10000 * k :=
    Int.mul_le_mul_of_nonneg_right hmajority hk
  refine ⟨?_, ?_, ?_⟩
  · change 0 < p.votesFor + k + p.votesAgainst
    omega
  · change _ ≤ p.votesFor + k + p.votesAgainst
    exact hreached.trans (by omega)
  · change (majorityBps : ℤ) * (p.votesFor + k + p.votesAgainst) ≤
      (p.votesFor + k) * 10000
    have hsum : (majorityBps : ℤ) * (p.votesFor + k + p.votesAgainst) =
        majorityBps * (p.votesFor + p.votesAgainst) + majorityBps * k := by
      rw [← Int.mul_add]
      congr 1
      omega
    omega

/-! ## All tallies -/

/-- `p` has votes within its supply and is decided under `config`. -/
structure DecidedBy (config : DaoConfig) (env : Env) (pid : ℕ) (p : Proposal)
    (m t m' : Machine State) : Prop where
  decides : ∃ e, Decides env pid m t m' e
  config : t.store.config = some config
  checked : t.store.Checked
  stored : t.store.proposal pid = some p
  tally : p.WithinSupply

/-- Under `config`, the pass rule decides the proposals created under the
supply `supply`, whatever their votes. -/
structure PassRule (config : DaoConfig) (supply : ℤ) : Prop where
  batch : ∀ env handles ids m m' pid,
    exec env (.finalizeBatch handles ids) m = .ok ((), m') → pid ∈ ids →
      ∃ t, Decides env pid m t m' (.finalizeBatch handles ids)
  fits : ∀ (s : State) (p : Proposal), s.config = some config → s.Checked →
    p.WithinSupply → p.totalSupply = supply →
      InI128 (supply * (s.effectiveQuorum config).quorumBps) ∧
      InI128 (p.votesFor * 10000) ∧ p.Addable
  decided : ∀ env pid p m t m', DecidedBy config env pid p m t m' →
    p.totalSupply = supply →
      (m'.store.IsPassed pid ↔ p.MeetsRule
        (t.store.effectiveQuorum config).quorumBps config.majorityBps)
  strict : ∀ env pid p m t m', DecidedBy config env pid p m t m' →
    p.totalSupply = supply → m'.store.IsPassed pid →
      p.votesAgainst < p.votesFor
  monotone : ∀ env pid p m t m' n u n' k, DecidedBy config env pid p m t m' →
    DecidedBy config env pid (p.addFor k) n u n' →
    p.totalSupply = supply → 0 ≤ k →
    u.store = { t.store with proposal := u.store.proposal } →
    m'.store.IsPassed pid → n'.store.IsPassed pid

/-- The supply leaves room for the products, and a tie is no majority, if there
can be one and can be passed at all. -/
def DaoConfig.RulesOut (config : DaoConfig) (supply : ℤ) : Prop :=
  supply ≤ 0 ∨ supply * 10000 ≤ maxI128 ∧
    (5000 < config.majorityBps ∨ supply = 1 ∧ 0 < config.majorityBps ∨
      2 ^ 64 ≤ finalizeDelay + 1 + config.proposalTimelock)

theorem State.Checked.quorum_le (hs : s.Checked)
    (hconfig : s.config = some config) :
    (s.effectiveQuorum config).quorumBps ≤ maxQuorumBps := by
  have hmax := (hs.config config hconfig).quorumBps_le
  rcases s.quorumAfter_cases (h := s.participation) hmax with
      heq | ⟨avg, hon, -, -, heq⟩
  · exact heq.trans_le hmax
  · exact heq.trans_le (Nat.max_le.mpr
      ⟨(Nat.sub_le _ _).trans hmax, hs.floor_le hon⟩)

theorem DaoConfig.RulesOut.room (hrules : config.RulesOut supply)
    (h : p.WithinSupply) (hsupply : p.totalSupply = supply) :
    p.totalSupply * 10000 ≤ maxI128 := by
  obtain ⟨hfor, hagainst, habstain, htotal⟩ := h
  rcases hrules with hnone | ⟨hroom, -⟩
  · unfold maxI128
    omega
  · rw [hsupply]
    exact hroom

theorem DecidedBy.isPassed_iff (h : DecidedBy config env pid p m t m')
    (hrules : config.RulesOut supply) (hsupply : p.totalSupply = supply) :
    m'.store.IsPassed pid ↔ p.MeetsRule
      (t.store.effectiveQuorum config).quorumBps config.majorityBps := by
  obtain ⟨e, hdecides⟩ := h.decides
  rw [hdecides.isPassed_iff h.config h.stored, State.Approves]
  obtain ⟨hneeded, hshare, -⟩ := h.tally.fits (hrules.room h.tally hsupply)
    (h.checked.quorum_le h.config)
  exact h.tally.passes_iff hneeded hshare

theorem DecidedBy.against_lt_for (h : DecidedBy config env pid p m t m')
    (hrules : config.RulesOut supply) (hsupply : p.totalSupply = supply)
    (hpassed : m'.store.IsPassed pid) : p.votesAgainst < p.votesFor := by
  have hmeets := (h.isPassed_iff hrules hsupply).mp hpassed
  obtain ⟨hfor, hagainst, habstain, htotal⟩ := h.tally
  have hpos := hmeets.partisan
  rcases hrules with hnone | ⟨-, hmajority | ⟨hone, hmajority⟩ | hnever⟩
  · omega
  · exact hmeets.against_lt_for hmajority
  · -- the only vote is a vote for
    have hshare := hmeets.majority
    have hsingle : p.votesFor + p.votesAgainst = 1 := by omega
    rw [hsingle] at hshare
    omega
  · obtain ⟨e, hdecides⟩ := h.decides
    have hlt := hdecides.timelock_lt h.config h.stored hpassed
    omega

theorem DaoConfig.RulesOut.passRule (hrules : config.RulesOut supply) :
    PassRule config supply where
  batch _ _ _ _ _ _ := decides_of_mem
  fits s p hconfig hs htally hsupply := by
    have hfits := htally.fits (hrules.room htally hsupply)
      (hs.quorum_le hconfig)
    rw [hsupply] at hfits
    exact hfits
  decided _ _ _ _ _ _ h hsupply := h.isPassed_iff hrules hsupply
  strict _ _ _ _ _ _ h hsupply := h.against_lt_for hrules hsupply
  monotone env pid p m t m' n u n' k h h' hsupply hk hstore hpassed := by
    have hmeets := (h.isPassed_iff hrules hsupply).mp hpassed
    have hquorum : u.store.effectiveQuorum config =
        t.store.effectiveQuorum config := by
      rw [hstore]
      rfl
    refine (h'.isPassed_iff hrules hsupply).mpr ?_
    rw [hquorum]
    exact hmeets.add_for h.tally.votesAgainst hk

/-! ## A trial vote -/

/-- An Active proposal with the given votes whose voting has ended. -/
def trial (supply votesFor votesAgainst : ℤ) : Proposal where
  id := 0
  proposer := .zero
  title := []
  target := .zero
  function := ⟨[]⟩
  args := []
  deposit := 0
  status := .active
  votesFor := votesFor
  votesAgainst := votesAgainst
  votesAbstain := 0
  createdAt := 0
  voteEnd := 0
  executionTime := 0
  executionDeadline := 0
  totalSupply := supply
  kind := .standard
  impactAnalysis := []
  isVetoed := false

/-- The quorum has decayed to the least one. -/
def trialState (config : DaoConfig) (p : Proposal) : State :=
  { State.deployed with
    config := some config
    quorumDecay := ⟨true, minQuorumBps, 1, 1⟩
    participation := ⟨[0], 1⟩
    proposal := fun _ => some p }

def trialEnv : Env := ⟨finalizeDelay + 1, .zero, []⟩

theorem trialState_checked (hvalid : config.Valid) :
    (trialState config p).Checked where
  config c hc := by
    obtain rfl := Option.some.inj hc
    exact hvalid
  floor_ge := Nat.le_refl _
  floor_le _ := show minQuorumBps ≤ maxQuorumBps by decide
  steps _ := Nat.one_ne_zero

theorem trialState_quorum (hvalid : config.Valid) :
    ((trialState config p).effectiveQuorum config).quorumBps =
      minQuorumBps := by
  have hmin := hvalid.quorumBps_ge
  have hpos : 0 < config.quorumBps := Nat.lt_of_lt_of_le (by decide) hmin
  have hrelaxed := State.quorumAfter_of_lt (s := trialState config p)
    (h := ⟨[0], 1⟩) rfl (average_singleton 0 1) hpos hvalid.quorumBps_le
  refine Eq.trans hrelaxed ?_
  simp [relaxedBps, trialState]

/-- A trial whose votes suffice passes. -/
theorem trial_passes {votesFor votesAgainst : ℤ} (hvalid : config.Valid)
    (htimelock : finalizeDelay + 1 + config.proposalTimelock < 2 ^ 64)
    (htally : (trial supply votesFor votesAgainst).WithinSupply)
    (hadd : (trial supply votesFor votesAgainst).Addable)
    (hpasses : (trial supply votesFor votesAgainst).passes minQuorumBps
      config.majorityBps) :
    ∃ m t m', DecidedBy config trialEnv 0 (trial supply votesFor votesAgainst)
      m t m' ∧ m'.store.IsPassed 0 := by
  let m : Machine State :=
    ⟨trialState config (trial supply votesFor votesAgainst),
      ⟨fun _ => none, []⟩⟩
  have happroves : m.store.Approves config
      (trial supply votesFor votesAgainst) := by
    change Proposal.passes _ ((trialState config _).effectiveQuorum
      config).quorumBps _
    rw [trialState_quorum hvalid]
    exact hpasses
  have hfinalized : Finalized trialEnv (fun _ => 0) 0 m _ :=
    ⟨_, config, ⟨rfl, rfl, show 0 + finalizeDelay < 2 ^ 64 by decide,
      show 0 + finalizeDelay < finalizeDelay + 1 by decide⟩, rfl, hadd,
      .passed happroves htimelock rfl⟩
  exact ⟨m, m, _, ⟨⟨_, .alone (finalize_iff.mpr hfinalized) rfl⟩, rfl,
    trialState_checked hvalid, rfl, htally⟩, _, State.closed_proposal, rfl⟩

/-- A tie passes under a majority of at most one half. -/
theorem tie_passes (htwo : 2 ≤ supply) (hroom : supply * 10000 ≤ maxI128)
    (hmajority : majorityBps ≤ 5000) :
    (trial supply (supply / 2) (supply / 2)).passes minQuorumBps
      majorityBps := by
  unfold maxI128 at hroom
  have hneeded : InI128 (supply * minQuorumBps) := by
    unfold minQuorumBps
    exact ⟨by omega, by omega⟩
  have hshare : InI128 (supply / 2 * 10000) := ⟨by omega, by omega⟩
  have hpos : 0 < supply / 2 + supply / 2 := by omega
  refine ⟨hpos.ne', ?_, ?_⟩
  · change quorumNeeded supply minQuorumBps ≤ supply / 2 + supply / 2
    have hnonneg : 0 ≤ supply * (minQuorumBps : ℤ) := by
      unfold minQuorumBps
      omega
    rw [quorumNeeded, if_pos hneeded, Int.tdiv_eq_ediv_of_nonneg hnonneg]
    unfold minQuorumBps
    omega
  · change (majorityBps : ℤ) ≤ forBps (supply / 2) (supply / 2 + supply / 2)
    rw [forBps, if_pos ⟨hpos, hshare⟩,
      Int.tdiv_eq_ediv_of_nonneg (by omega)]
    refine (Int.le_ediv_iff_mul_le hpos).mpr ?_
    have hhalf : (majorityBps : ℤ) * (supply / 2 + supply / 2) ≤
        5000 * (supply / 2 + supply / 2) :=
      Int.mul_le_mul_of_nonneg_right (by omega) hpos.le
    omega

/-- The single vote is a vote against. -/
theorem minority_passes : (trial 1 0 1).passes minQuorumBps 0 := by
  decide

theorem trial_within {votes votes' : ℤ} (h : 0 ≤ votes) (h' : 0 ≤ votes')
    (hle : votes + votes' ≤ supply) :
    (trial supply votes votes').WithinSupply :=
  ⟨h, h', Int.le_refl 0, by simpa [trial] using hle⟩

theorem trial_addable {votes votes' : ℤ}
    (hvotes : 0 ≤ votes + votes' ∧ votes + votes' ≤ supply)
    (hroom : supply * 10000 ≤ maxI128) :
    (trial supply votes votes').Addable := by
  unfold maxI128 at hroom
  have hfit : InI128 (votes + votes') := ⟨by omega, by omega⟩
  exact ⟨hfit, by simpa [trial] using hfit⟩

theorem PassRule.rulesOut (h : PassRule config supply)
    (hvalid : config.Valid) : config.RulesOut supply := by
  by_cases hnone : supply ≤ 0
  · exact .inl hnone
  have hall := (h.fits (trialState config (trial supply supply 0))
    (trial supply supply 0) rfl (trialState_checked hvalid)
    (trial_within (by omega) (Int.le_refl 0) (by omega)) rfl).2.1
  have hroom : supply * 10000 ≤ maxI128 := by
    have hlt := hall.2
    change supply * 10000 < 2 ^ 127 at hlt
    unfold maxI128
    omega
  refine .inr ⟨hroom, ?_⟩
  by_contra hneither
  obtain ⟨hmajority, hneither⟩ := not_or.mp hneither
  obtain ⟨hsingle, hsoon⟩ := not_or.mp hneither
  have htimelock := Nat.not_le.mp hsoon
  by_cases hone : supply = 1
  · subst hone
    have hzero : config.majorityBps = 0 := by omega
    obtain ⟨m, t, m', hdecided, hpassed⟩ := trial_passes hvalid htimelock
      (trial_within (Int.le_refl 0) (by decide) (by decide))
      (trial_addable ⟨by decide, by decide⟩ hroom)
      (hzero ▸ minority_passes)
    exact absurd (h.strict _ _ _ _ _ _ hdecided rfl hpassed) (by decide)
  · have hhalf : 0 ≤ supply / 2 := by omega
    obtain ⟨m, t, m', hdecided, hpassed⟩ := trial_passes hvalid htimelock
      (trial_within hhalf hhalf (by omega))
      (trial_addable ⟨by omega, by omega⟩ hroom)
      (tie_passes (by omega) hroom (by omega))
    exact absurd (h.strict _ _ _ _ _ _ hdecided rfl hpassed)
      (Int.lt_irrefl (supply / 2))

/-- Under a valid configuration the rule decides exactly if the supply leaves
room for the products and more than one half is asked for, apart from supplies
without a tie and timelocks that nothing passes under. -/
theorem pass_rule_iff (hvalid : config.Valid) (supply : ℤ) :
    PassRule config supply ↔ config.RulesOut supply :=
  ⟨fun h => h.rulesOut hvalid, DaoConfig.RulesOut.passRule⟩

/-! ## A tie -/

namespace Scenario

def even : DaoConfig := { Scenario.config with majorityBps := 5000 }

/-- Alice votes for and Bob against, both with 300. -/
def tying : List (Label Entry) :=
  [.call [admin] (.initializeDao admin even), motion,
    .transfer shield alice carol 190, .call [alice] (.vote alice 0 .for),
    .call [bob] (.vote bob 0 .against), .tick 605101]

def tied : World State :=
  (TransitionSystem.execute (step exec dao) tying genesis).get
    (by decide +kernel)

def tieBroken : World State :=
  (step exec dao tied (.call [] (.finalize inOrder 0))).get
    (by decide +kernel)

theorem tied_reachable : (system dao).Reachable tied := by
  have hrun : (system dao).Run genesis tying tied :=
    TransitionSystem.run_of_execute (fun _ _ _ => step_sound)
      (Option.some_get _).symm
  have hgenesis : (system dao).Reachable genesis := .init ⟨rfl, rfl⟩
  exact hgenesis.run hrun

theorem tieBroken_step : (system dao).Step tied
    (.call [] (.finalize inOrder 0)) tieBroken :=
  step_sound (Option.some_get _).symm

def tiedMotion : Proposal :=
  (tied.machine.store.proposal 0).get (by decide +kernel)

end Scenario

open Scenario

theorem pass_rule_iff_plain : PassRule Scenario.config 1000 :=
  (pass_rule_iff ⟨by decide, by decide, by decide, by decide⟩ 1000).mpr
    (.inr ⟨by decide, .inl (by decide)⟩)

/-- A tie passes under an accepted configuration. -/
theorem tie_is_passed :
    even.Valid ∧ (system dao).Reachable tied ∧
    tied.machine.store.proposal 0 = some tiedMotion ∧
    tiedMotion.votesFor = tiedMotion.votesAgainst ∧
    (system dao).Step tied (.call [] (.finalize inOrder 0)) tieBroken ∧
    tieBroken.machine.store.IsPassed 0 ∧ ¬ PassRule even 1000 := by
  have hpassed : tieBroken.machine.store.IsPassed 0 :=
    ⟨(tieBroken.machine.store.proposal 0).get (by decide +kernel),
      (Option.some_get _).symm, by decide +kernel⟩
  have hstored : tied.machine.store.proposal 0 = some tiedMotion :=
    (Option.some_get _).symm
  refine ⟨⟨by decide, by decide, by decide, by decide⟩, tied_reachable, hstored,
    by decide +kernel, tieBroken_step, hpassed, fun h => ?_⟩
  have hdecided : DecidedBy even (callEnv dao tied []) 0 tiedMotion
      tied.machine tied.machine tieBroken.machine :=
    ⟨⟨_, .alone tieBroken_step.exec_eq.2 rfl⟩, by decide +kernel,
      tied_reachable.invariant (checked_inductive dao), hstored,
      ⟨by decide +kernel, by decide +kernel, by decide +kernel,
        by decide +kernel⟩⟩
  exact absurd (h.strict _ _ _ _ _ _ hdecided (by decide +kernel) hpassed)
    (by decide +kernel)

end Parashield.GovernanceDao
