import Parashield.GovernanceDao.Finalizing
import Parashield.GovernanceDao.Quorum

/-!
# Governance DAO: pruning the turnout history

Anyone may cut the history to its newest entries, which moves the average
turnout and with it the quorum.  Nothing comes of it exactly if the quorum is
neither relaxed now nor after any such cut.
-/

namespace Parashield.GovernanceDao

open Support Support.Contract Invocation

variable {self : Address} {env : Env} {s : State} {m m' : Machine State}
  {w w' : World State} {pid k : ℕ} {config : DaoConfig} {recent : List ℕ}

/-! ## Prunings -/

def IsPruning : Label Entry → Prop
  | .call _ (.pruneParticipationHistory _) => True
  | _ => False

/-- The storage with the newest `k` entries of the history. -/
def State.pruned (s : State) (k : ℕ) : State :=
  { s with
    participation :=
      { s.participation with recentBps := latest k s.participation.recentBps } }

theorem latest_latest {α : Type} (j k : ℕ) (xs : List α) :
    latest j (latest k xs) = latest (min j k) xs := by
  simp only [latest, List.drop_drop, List.length_drop]
  congr 1
  omega

theorem State.pruned_pruned (s : State) (j k : ℕ) :
    (s.pruned k).pruned j = s.pruned (min j k) := by
  simp only [State.pruned, latest_latest]

theorem step_pruning_iff {signers : List Address} {maxEntries : ℕ} :
    (system self).Step w (.call signers (.pruneParticipationHistory maxEntries))
        w' ↔
      self ∉ signers ∧ w' = { w with machine :=
        ⟨w.machine.store.pruned (min maxEntries maxParticipationWindow),
          w.machine.bank⟩ } := by
  constructor
  · intro hstep
    cases hstep with
    | call hself hexec =>
        simp only [exec, pruneParticipationHistory, update_ok] at hexec
        rw [hexec]
        exact ⟨hself, rfl⟩
  · rintro ⟨hself, rfl⟩
    exact .call hself (by simp [exec, pruneParticipationHistory, State.pruned])

/-- Prunings leave the history as it is or cut it to some window. -/
theorem run_prunings {ls : List (Label Entry)}
    (hls : ∀ l ∈ ls, IsPruning l) (hrun : (system self).Run w ls w') :
    w' = w ∨ ∃ k ≤ maxParticipationWindow, w' = { w with machine :=
      ⟨w.machine.store.pruned k, w.machine.bank⟩ } := by
  induction hrun with
  | nil w => exact .inl rfl
  | @cons w t w' l ls hstep _ ih =>
      obtain ⟨hl, hrest⟩ := List.forall_mem_cons.mp hls
      cases l with
      | call signers e =>
          cases e with
          | pruneParticipationHistory maxEntries =>
              obtain ⟨-, rfl⟩ := step_pruning_iff.mp hstep
              have hle := Nat.min_le_right maxEntries maxParticipationWindow
              rcases ih hrest with rfl | ⟨j, hj, rfl⟩
              · exact .inr ⟨_, hle, rfl⟩
              · refine .inr ⟨min j (min maxEntries maxParticipationWindow),
                  (Nat.min_le_left _ _).trans hj, ?_⟩
                rw [State.pruned_pruned]
          | _ => exact hl.elim
      | _ => exact hl.elim

/-! ## The quorum -/

/-- With the turnouts `recent` the decay gives another quorum than the
configured one: the floor is above it, or is below it and the shortfall makes
up a whole step. -/
def State.Shifts (s : State) (config : DaoConfig) (recent : List ℕ) : Prop :=
  s.quorumDecay.enabled = true ∧ recent ≠ [] ∧
    recent.sum / recent.length < config.quorumBps ∧
    (config.quorumBps < s.quorumDecay.floorBps ∨
      s.quorumDecay.floorBps < config.quorumBps ∧
        recent.sum / recent.length + s.quorumDecay.decayPerPeriodBps ≤
          config.quorumBps)

theorem relaxedBps_eq_iff {decay : QuorumDecayConfig} {base avg : ℕ}
    (hsteps : decay.decayPerPeriodBps ≠ 0) (hlt : avg < base) :
    relaxedBps decay base avg = base ↔
      ¬ (base < decay.floorBps ∨ decay.floorBps < base ∧
        avg + decay.decayPerPeriodBps ≤ base) := by
  have hmax : max decay.decayPerPeriodBps 1 = decay.decayPerPeriodBps := by
    omega
  have hle := reduction_le decay (base - avg)
  unfold relaxedBps
  rw [hmax] at hle ⊢
  by_cases hwhole : avg + decay.decayPerPeriodBps ≤ base
  · have hone : 1 ≤ (base - avg) / decay.decayPerPeriodBps :=
      (Nat.one_le_div_iff (Nat.pos_of_ne_zero hsteps)).mpr (by omega)
    have hreduced : decay.decayPerPeriodBps ≤
        (base - avg) / decay.decayPerPeriodBps * decay.decayPerPeriodBps :=
      Nat.le_mul_of_pos_left _ hone
    omega
  · have hnone : (base - avg) / decay.decayPerPeriodBps = 0 :=
      Nat.div_eq_of_lt (by omega)
    rw [hnone]
    omega

theorem State.Checked.quorumAfter_eq_iff (hs : s.Checked)
    (hvalid : config.Valid) {total : ℕ} :
    s.quorumAfter config ⟨recent, total⟩ = config.quorumBps ↔
      ¬ s.Shifts config recent := by
  by_cases hidle : s.quorumDecay.enabled = false ∨ recent = []
  · have haverage : s.quorumDecay.enabled = false ∨
        (⟨recent, total⟩ : ParticipationHistory).average = none :=
      hidle.imp_right fun hnil => if_pos hnil
    refine iff_of_true (State.quorumAfter_of_idle haverage) ?_
    rintro ⟨hon, hne, -⟩
    rcases hidle with hoff | hnil
    · rw [hoff] at hon
      cases hon
    · exact hne hnil
  · obtain ⟨hon, hne⟩ := not_or.mp hidle
    rw [Bool.not_eq_false] at hon
    have havg : (⟨recent, total⟩ : ParticipationHistory).average =
        some (recent.sum / recent.length) := if_neg hne
    by_cases hle : config.quorumBps ≤ recent.sum / recent.length
    · refine iff_of_true (State.quorumAfter_of_le havg hle) ?_
      rintro ⟨-, -, hlt, -⟩
      exact absurd hle (Nat.not_le.mpr hlt)
    · have hlt := Nat.not_le.mp hle
      rw [State.quorumAfter_of_lt hon havg hlt hvalid.quorumBps_le,
        relaxedBps_eq_iff (hs.steps hon) hlt, State.Shifts]
      simp only [hon, hne, hlt, ne_eq, not_false_iff, true_and]

/-! ## The outcome -/

/-- A finalization of `pid` is accepted and leaves it in `status`. -/
def Settles (env : Env) (pid : ℕ) (m : Machine State)
    (status : ProposalStatus) : Prop :=
  ∃ handles m' p, exec env (.finalize handles pid) m = .ok ((), m') ∧
    m'.store.proposal pid = some p ∧ p.status = status

/-- Only the quorum matters for the outcome. -/
theorem Settles.pruned {status : ProposalStatus} {h : ParticipationHistory}
    (hconfig : m.store.config = some config)
    (hquorum : m.store.quorumAfter config h =
      (m.store.effectiveQuorum config).quorumBps)
    (hsettles : Settles env pid m status) :
    Settles env pid ⟨{ m.store with participation := h }, m.bank⟩ status := by
  obtain ⟨handles, m', p', hexec, hp', hstatus⟩ := hsettles
  obtain ⟨p, c, hp, hc, hadd, hconcluded⟩ := finalize_iff.mp hexec
  obtain rfl := Option.some.inj (hconfig.symm.trans hc)
  have happroves : State.Approves { m.store with participation := h } config
      p ↔ m.store.Approves config p := by
    change p.passes (m.store.quorumAfter config h) config.majorityBps ↔
      p.passes (m.store.effectiveQuorum config).quorumBps config.majorityBps
    rw [hquorum]
  cases hconcluded with
  | passed hpass hfit heq =>
      rw [heq] at hp'
      exact ⟨handles, _, p', finalize_iff.mpr ⟨p, config,
        ⟨hp.stored, hp.active, hp.bounded, hp.delayed⟩, hconfig, hadd,
        .passed (happroves.mpr hpass) hfit rfl⟩, hp', hstatus⟩
  | failed hfail hB heq =>
      rw [heq] at hp'
      exact ⟨handles, _, p', finalize_iff.mpr ⟨p, config,
        ⟨hp.stored, hp.active, hp.bounded, hp.delayed⟩, hconfig, hadd,
        .failed (mt happroves.mp hfail) hB rfl⟩, hp', hstatus⟩

/-- No prunings from here change the quorum in force, or how a proposal is
settled. -/
def PruneProof (self : Address) (w : World State) (config : DaoConfig) :
    Prop :=
  ∀ ls w', (∀ l ∈ ls, IsPruning l) → (system self).Run w ls w' →
    (w'.machine.store.effectiveQuorum config).quorumBps =
      (w.machine.store.effectiveQuorum config).quorumBps ∧
    ∀ env pid status, Settles env pid w'.machine status ↔
      Settles env pid w.machine status

theorem pruneProof_of_quorum (hconfig : w.machine.store.config = some config)
    (hquorum : ∀ j ≤ maxParticipationWindow,
      ((w.machine.store.pruned j).effectiveQuorum config).quorumBps =
        (w.machine.store.effectiveQuorum config).quorumBps) :
    PruneProof self w config := by
  intro ls w' hls hrun
  rcases run_prunings hls hrun with rfl | ⟨j, hj, rfl⟩
  · exact ⟨rfl, fun _ _ _ => Iff.rfl⟩
  · refine ⟨hquorum j hj, fun env pid status => ⟨fun h => ?_, ?_⟩⟩
    · exact h.pruned (m := ⟨w.machine.store.pruned j, w.machine.bank⟩)
        (h := w.machine.store.participation) hconfig (hquorum j hj).symm
    · exact Settles.pruned hconfig (hquorum j hj)

/-- Outsiders cannot move the quorum exactly if neither the history nor any of
its newest parts that a pruning can leave shifts it from the configured
one. -/
theorem prune_proof_iff (hw : (system self).Reachable w)
    (hconfig : w.machine.store.config = some config) :
    PruneProof self w config ↔
      ¬ w.machine.store.Shifts config
        w.machine.store.participation.recentBps ∧
      ∀ j ≤ maxParticipationWindow, ¬ w.machine.store.Shifts config
        (latest j w.machine.store.participation.recentBps) := by
  have hs := hw.invariant (checked_inductive self)
  have hvalid := hs.config config hconfig
  have hnow : (w.machine.store.effectiveQuorum config).quorumBps =
      config.quorumBps ↔ ¬ w.machine.store.Shifts config
        w.machine.store.participation.recentBps :=
    hs.quorumAfter_eq_iff hvalid
  have hlater : ∀ j, ((w.machine.store.pruned j).effectiveQuorum
      config).quorumBps = config.quorumBps ↔ ¬ w.machine.store.Shifts config
        (latest j w.machine.store.participation.recentBps) :=
    fun j => hs.quorumAfter_eq_iff hvalid
  have hempty : ¬ w.machine.store.Shifts config
      (latest 0 w.machine.store.participation.recentBps) := by
    rintro ⟨-, hne, -⟩
    exact hne (by simp [latest])
  constructor
  · intro hproof
    have hquorum : ∀ j ≤ maxParticipationWindow,
        ((w.machine.store.pruned j).effectiveQuorum config).quorumBps =
          (w.machine.store.effectiveQuorum config).quorumBps := by
      intro j hj
      have hstep : (system self).Step w
          (.call [] (.pruneParticipationHistory j)) { w with machine :=
            ⟨w.machine.store.pruned j, w.machine.bank⟩ } := by
        refine step_pruning_iff.mpr ⟨List.not_mem_nil, ?_⟩
        rw [Nat.min_eq_left hj]
      exact (hproof _ _ (by simp [IsPruning]) (.cons hstep (.nil _))).1
    -- with nothing left of the history the quorum is the configured one
    have hbase := (hquorum 0 (Nat.zero_le _)).symm.trans
      ((hlater 0).mpr hempty)
    exact ⟨hnow.mp hbase, fun j hj =>
      (hlater j).mp ((hquorum j hj).trans hbase)⟩
  · rintro ⟨hkept, hcut⟩
    exact pruneProof_of_quorum hconfig fun j hj =>
      ((hlater j).mpr (hcut j hj)).trans (hnow.mpr hkept).symm

/-! ## A vote in the balance -/

namespace Scenario

/-- After a vote without turnout Bob proposes, and Alice votes with 350 of the
400 tokens that the configured quorum asks for. -/
def balancing : List (Label Entry) :=
  [.transfer shield alice carol 150,
    .call [bob] (.createProposal inOrder bob [78] pool pause [.u32 2]
      [1, 2, 3, 4, 5]),
    .call [alice] (.vote alice 1 .for), .tick 605101]

def balanced : World State :=
  (TransitionSystem.execute (step exec dao) balancing slackened).get
    (by decide +kernel)

/-- Anyone forgets the turnout. -/
def forgetting : Label Entry := .call [] (.pruneParticipationHistory 0)

def forgotten : World State :=
  (step exec dao balanced forgetting).get (by decide +kernel)

def settling (w : World State) : Option (World State) :=
  step exec dao w (.call [] (.finalize inOrder 1))

def countedBefore : World State := (settling balanced).get (by decide +kernel)

def countedAfter : World State := (settling forgotten).get (by decide +kernel)

theorem balanced_reachable : (system dao).Reachable balanced := by
  have hrun : (system dao).Run slackened balancing balanced :=
    TransitionSystem.run_of_execute (fun _ _ _ => step_sound)
      (Option.some_get _).symm
  exact slackened_reachable.of_restrict.run hrun

theorem forgotten_step : (system dao).Step balanced forgetting forgotten :=
  step_sound (Option.some_get _).symm

theorem settling_step {w w' : World State} (h : settling w = some w') :
    (system dao).Step w (.call [] (.finalize inOrder 1)) w' :=
  step_sound h

end Scenario

open Scenario

theorem prune_proof_iff_proposed : PruneProof dao proposed Scenario.config := by
  refine (prune_proof_iff proposed_reachable (by decide +kernel)).mpr ?_
  have hoff : proposed.machine.store.quorumDecay.enabled ≠ true := by
    decide +kernel
  exact ⟨fun h => hoff h.1, fun _ _ h => hoff h.1⟩

/-- The proposal passes, or fails after a call of anyone. -/
theorem pruning_moves_quorum :
    (system dao).Reachable balanced ∧
    (system dao).Step balanced forgetting forgotten ∧
    (balanced.machine.store.effectiveQuorum demanding).quorumBps = 3000 ∧
    (forgotten.machine.store.effectiveQuorum demanding).quorumBps = 4000 ∧
    (system dao).Step balanced (.call [] (.finalize inOrder 1))
      countedBefore ∧
    (countedBefore.machine.store.proposal 1).map Proposal.status =
      some .passed ∧
    (system dao).Step forgotten (.call [] (.finalize inOrder 1))
      countedAfter ∧
    (countedAfter.machine.store.proposal 1).map Proposal.status =
      some .failed ∧
    ¬ PruneProof dao balanced demanding := by
  have hbefore : (balanced.machine.store.effectiveQuorum
      demanding).quorumBps = 3000 := by
    decide +kernel
  have hafter : (forgotten.machine.store.effectiveQuorum
      demanding).quorumBps = 4000 := by
    decide +kernel
  refine ⟨balanced_reachable, forgotten_step, hbefore, hafter,
    settling_step (Option.some_get _).symm, by decide +kernel,
    settling_step (Option.some_get _).symm, by decide +kernel, fun h => ?_⟩
  have hsame := (h [forgetting] forgotten (by simp [forgetting, IsPruning])
    (.cons forgotten_step (.nil _))).1
  rw [hbefore, hafter] at hsame
  cases hsame

end Parashield.GovernanceDao
