import Parashield.GovernanceDao.Delegation
import Parashield.Support.Failure

/-!
# Governance DAO: expired delegations

`get_delegate` and `is_delegation_expired` know the expiry of a delegation, but
the votes do not look at it: an expired delegation goes on until it is revoked.
-/

namespace Parashield.GovernanceDao

open Support Support.Contract Invocation

variable {self govToken voter d : Address} {env : Env} {s s' : State}
  {m m' : Machine State} {w w' : World State} {pid : ℕ} {B : Bank}

/-! ## What a vote counts -/

/-- Events are only added. -/
theorem Swept.events_suffix {ds : List Address} {ws : List ℤ}
    (h : Swept env govToken voter pid B s ds ws s') :
    s.events <:+ s'.events := by
  induction h with
  | nil => exact List.suffix_refl _
  | skip _ _ ih => exact ih
  | count _ _ _ _ ih => exact (List.suffix_cons _ _).trans ih

theorem Ballots.events_suffix {choice : VoteChoice} {own lock : ℤ}
    {ballots : List (ℕ × Proposal)}
    (h : Ballots env govToken voter choice own B lock ballots s s') :
    s.events <:+ s'.events := by
  induction h with
  | nil => exact List.suffix_refl _
  | cons hswept _ _ _ ih =>
      exact (hswept.events_suffix.trans (List.suffix_cons _ _)).trans ih

/-- A sweep for one proposal marks nobody in another. -/
theorem Swept.delegatedVote_of_ne {ds : List Address} {ws : List ℤ}
    (h : Swept env govToken voter pid B s ds ws s') {other : ℕ}
    (hne : other ≠ pid) (a : Address) :
    s'.delegatedVote (other, a) = s.delegatedVote (other, a) := by
  induction h with
  | nil => rfl
  | skip _ _ ih => exact ih
  | count _ _ _ _ ih =>
      rw [ih]
      exact Function.update_of_ne (by simp [hne]) _ _

theorem UpToMarks.timeWeighted (h : UpToMarks s s') (now : ℕ) (a : Address)
    (balance : ℤ) : s'.timeWeighted now a balance =
      s.timeWeighted now a balance := by
  rw [h.eq]
  rfl

/-- Every delegator with a balance that is not marked yet is counted. -/
theorem Swept.counts {ds : List Address} {ws : List ℤ}
    (h : Swept env govToken voter pid B s ds ws s') (hd : d ∈ ds)
    (hunmarked : s.delegatedVote (pid, d) = false)
    (hpos : 0 < B.balance govToken d) :
    ∃ new, s'.events = new ++ s.events ∧
      .delegationUsed pid voter d
        (s.timeWeighted env.now d (B.balance govToken d)) ∈ new := by
  induction h with
  | nil => cases hd
  | @skip s s' a ds ws hskip _ ih =>
      rcases List.mem_cons.mp hd with rfl | hd
      · rcases hskip with hzero | hmarked
        · omega
        · rw [hunmarked] at hmarked
          cases hmarked
      · exact ih hd hunmarked
  | @count s s' a ds ws weight _ _ hweight hrest ih =>
      by_cases ha : d = a
      · subst ha
        obtain ⟨new, hnew⟩ := hrest.events_suffix
        refine ⟨new ++ [.delegationUsed pid voter d weight], ?_, ?_⟩
        · rw [← hnew]
          simp [State.marked]
        · simp [hweight]
      · have hstill : (s.marked pid voter a weight).delegatedVote (pid, d) =
            false := by
          rw [← hunmarked]
          exact Function.update_of_ne (by simp [ha]) _ _
        obtain ⟨new, hnew, hmem⟩ := ih (by simpa [ha] using hd) hstill
        refine ⟨new ++ [.delegationUsed pid voter a weight], ?_, ?_⟩
        · rw [hnew]
          simp [State.marked]
        · exact List.mem_append_left _ hmem

/-- So it is on every proposal of a batch. -/
theorem Ballots.counts {choice : VoteChoice} {own lock : ℤ}
    {ballots : List (ℕ × Proposal)}
    (h : Ballots env govToken voter choice own B lock ballots s s')
    (hnodup : (ballots.map Prod.fst).Nodup) (hpid : pid ∈ ballots.map Prod.fst)
    (hd : d ∈ s.delegators voter)
    (hunmarked : s.delegatedVote (pid, d) = false)
    (hpos : 0 < B.balance govToken d) :
    ∃ new, s'.events = new ++ s.events ∧
      .delegationUsed pid voter d
        (s.timeWeighted env.now d (B.balance govToken d)) ∈ new := by
  induction h with
  | nil => cases hpid
  | @cons s s₁ s' lock id p rest ws weight hswept _ _ hrest ih =>
      rw [List.map_cons, List.nodup_cons] at hnodup
      by_cases hid : pid = id
      · subst hid
        obtain ⟨first, hfirst, hmem⟩ := hswept.counts hd hunmarked hpos
        obtain ⟨later, hlater⟩ := hrest.events_suffix
        refine ⟨later ++ [.voteCast pid voter choice weight] ++ first, ?_, ?_⟩
        · rw [← hlater]
          simp [State.voted, hfirst]
        · exact List.mem_append_right _ hmem
      · have hsame := hswept.upToMarks
        have hstill : (s₁.voted id p ⟨voter, choice, weight⟩
            lock).delegatedVote (pid, d) = false := by
          rw [← hunmarked]
          exact hswept.delegatedVote_of_ne hid d
        have hd' : d ∈ (s₁.voted id p ⟨voter, choice, weight⟩
            lock).delegators voter := by
          have hlists : s₁.delegators = s.delegators := by rw [hsame.eq]
          show d ∈ s₁.delegators voter
          rw [hlists]
          exact hd
        obtain ⟨new, hnew, hmem⟩ :=
          ih hnodup.2 (by simpa [hid] using hpid) hd' hstill
        obtain ⟨first, hfirst⟩ := hswept.events_suffix
        refine ⟨new ++ [.voteCast id voter choice weight] ++ first, ?_, ?_⟩
        · rw [hnew]
          simp [State.voted, hfirst]
        · rw [show (s₁.voted id p ⟨voter, choice, weight⟩ lock).timeWeighted
            env.now d _ = s.timeWeighted env.now d _ from
              hsame.timeWeighted env.now d _] at hmem
          exact List.mem_append_left _ (List.mem_append_left _ hmem)

/-- An accepted vote counts every delegator of the voter that holds tokens and
was not counted before. -/
theorem Voted.counts {choice : VoteChoice} {ballots : List (ℕ × Proposal)}
    (h : Voted env voter choice ballots m m') (hgraph : m.store.Graph)
    (hself : d ≠ env.self) (hd : m.store.delegateOf d = some voter)
    (hpid : pid ∈ ballots.map Prod.fst)
    (hunmarked : m.store.delegatedVote (pid, d) = false)
    {config : DaoConfig} (hconfig : m.store.config = some config)
    (hpos : 0 < m.bank.balance config.govToken d) :
    ∃ new, m'.store.events = new ++ m.store.events ∧
      .delegationUsed pid voter d (m.store.timeWeighted env.now d
        (m.bank.balance config.govToken d)) ∈ new := by
  obtain ⟨config', _, B, Bc, _, hconfig', -, -, hB, hBc, hballots, rfl⟩ :=
    h.change
  obtain rfl : config = config' := by
    rw [hconfig, Option.some.injEq] at hconfig'
    exact hconfig'
  have hvoter : d ≠ voter := by
    rintro rfl
    exact hgraph.delegate_ne d hd
  have hbalance : Bc.balance config.govToken d =
      m.bank.balance config.govToken d := by
    rcases hBc with rfl | rfl
    · rfl
    · exact Bank.transfer_balance_of_ne hB (.inr ⟨hvoter, hself⟩)
  have hmem := (hgraph.mem_iff d voter).mpr hd
  rw [← hbalance] at hpos ⊢
  exact hballots.counts h.distinct hpid hmem hunmarked hpos

/-! ## The DAO itself delegates to nobody -/

theorem Change.self_undelegated {e : Entry} (h : Change env e m m')
    (hself : env.self ∉ env.signers)
    (hnone : m.store.delegateOf env.self = none) :
    m'.store.delegateOf env.self = none := by
  rcases h.delegation with ⟨hof, -, -⟩ |
      ⟨delegator, delegate, expiry, hsigned, -, rfl⟩ |
      ⟨delegator, hsigned, -, rfl⟩
  · rw [hof]
    exact hnone
  · have hne : env.self ≠ delegator := fun h => hself (h ▸ hsigned)
    exact (Function.update_of_ne hne _ _).trans hnone
  · have hne : env.self ≠ delegator := fun h => hself (h ▸ hsigned)
    exact (Function.update_of_ne hne _ _).trans hnone

/-- The delegations as voting relies on them. -/
structure Delegations (dao : Address) (s : State) : Prop where
  graph : s.Graph
  self_undelegated : s.delegateOf dao = none

theorem delegations_inductive (self : Address) :
    (system self).Inductive fun w => Delegations self w.machine.store where
  init w hw := hw.1 ▸ ⟨graph_deployed, rfl⟩
  step w l w' h hstep := by
    cases hstep with
    | @call signers e m' hself hexec =>
        refine changes_keep (I := fun m => Delegations self m.store)
          (fun m m' hc hd => ?_) (exec_changes hexec) h
        exact ⟨hc.graph hd.graph,
          hc.self_undelegated hself hd.self_undelegated⟩
    | tick => exact h
    | transfer => exact h
    | mint => exact h

/-! ## After the expiry -/

/-- The delegation of `d` is over: no vote of another adds weight of `d`, the
query names exactly the voter that has `d` among its delegators, and `d` is
not turned away from a vote because of a delegation. -/
structure DelegationOver (dao : Address) (w : World State) (d : Address) :
    Prop where
  uncounted : ∀ signers e voter ids choice w' new,
    e.voting = some (voter, ids, choice) →
    (system dao).Step w (.call signers e) w' →
    w'.machine.store.events = new ++ w.machine.store.events →
    ∀ pid weight, .delegationUsed pid voter d weight ∈ new → weight = 0
  agrees : ∀ a, w.machine.store.getDelegate w.now d = some a ↔
    d ∈ w.machine.store.delegators a
  admitted : ∀ signers pid p choice, d ∈ signers →
    w.machine.store.Eligible w.now d pid p →
    exec (callEnv dao w signers) (.vote d pid choice) w.machine ≠
      .error (.error .weightAlreadyCounted)

/-- A delegator is turned away from voting itself. -/
theorem vote_of_delegated {p : Proposal} {choice : VoteChoice}
    {config : DaoConfig} (hsigned : d ∈ env.signers)
    (heligible : m.store.Eligible env.now d pid p)
    (hconfig : m.store.config = some config)
    (hdelegated : m.store.delegateOf d ≠ none) :
    vote env d pid choice m = .error (.error .weightAlreadyCounted) := by
  have hballot : requireBallot env d pid m = .ok (p, m) := by
    simp [requireBallot, heligible.stored, heligible.active, heligible.voting,
      heligible.unvoted]
  have hauth : (requireAuth env d : Call Unit) m = .ok ((), m) :=
    requireAuth_ok.mpr ⟨hsigned, rfl⟩
  have hload : loadConfig .trap m = .ok (config, m) :=
    loadConfig_ok.mpr ⟨hconfig, rfl⟩
  have hdenied : ensureNotDelegated d m =
      .error (.error .weightAlreadyCounted) := by
    have hs : (load : Call State) m = .ok (m.store, m) :=
      load_ok.mpr ⟨rfl, rfl⟩
    rw [ensureNotDelegated, bind_of_ok hs]
    exact require_of_not hdelegated
  rw [vote, bind_of_ok hauth, bind_of_ok hballot, bind_of_ok hload]
  exact bind_of_error hdenied

/-- What a delegator that the query reports as free still meets. -/
structure StillDelegated (dao : Address) (w : World State) (d voter : Address) :
    Prop where
  delegate : w.machine.store.delegateOf d = some voter
  listed : d ∈ w.machine.store.delegators voter
  reported : w.machine.store.getDelegate w.now d = none
  counted : ∀ signers e ids choice w' pid config,
    e.voting = some (voter, ids, choice) →
    (system dao).Step w (.call signers e) w' → pid ∈ ids →
    w.machine.store.delegatedVote (pid, d) = false →
    w.machine.store.config = some config →
    0 < w.machine.bank.balance config.govToken d →
    ∃ new, w'.machine.store.events = new ++ w.machine.store.events ∧
      .delegationUsed pid voter d (w.machine.store.timeWeighted w.now d
        (w.machine.bank.balance config.govToken d)) ∈ new
  refused : ∀ signers pid p choice config, d ∈ signers →
    w.machine.store.Eligible w.now d pid p →
    w.machine.store.config = some config →
    exec (callEnv dao w signers) (.vote d pid choice) w.machine =
      .error (.error .weightAlreadyCounted)

/-- A call that votes is counted as a vote. -/
theorem voted_of_voting {e : Entry} {u : Unit} {choice : VoteChoice}
    {ids : List ℕ} (hvoting : e.voting = some (voter, ids, choice))
    (h : exec env e m = .ok (u, m')) :
    ∃ ballots, ballots.map Prod.fst = ids ∧
      Voted env voter choice ballots m m' := by
  cases e with
  | vote a id c =>
      obtain ⟨rfl, rfl, rfl⟩ : a = voter ∧ [id] = ids ∧ c = choice := by
        simpa [Entry.voting] using hvoting
      obtain ⟨p, hvoted⟩ := vote_spec h
      exact ⟨_, rfl, hvoted⟩
  | voteBatch a list c =>
      obtain ⟨rfl, rfl, rfl⟩ : a = voter ∧ list = ids ∧ c = choice := by
        simpa [Entry.voting] using hvoting
      exact voteBatch_spec h
  | _ => cases hvoting

theorem stillDelegated {d : Address} (hd : Delegations self w.machine.store)
    (hexpired : w.machine.store.isDelegationExpired w.now d = true) :
    ∃ voter, StillDelegated self w d voter := by
  have hexpiry : w.machine.store.delegationExpiry d ≠ none := by
    intro hnone
    rw [State.isDelegationExpired, hnone] at hexpired
    cases hexpired
  have hsome : w.machine.store.delegateOf d ≠ none :=
    fun hnone => hexpiry ((hd.graph.expiry_iff d).mpr hnone)
  obtain ⟨voter, hvoter⟩ := Option.ne_none_iff_exists'.mp hsome
  refine ⟨voter, hvoter, (hd.graph.mem_iff d voter).mpr hvoter, ?_, ?_, ?_⟩
  · rw [State.getDelegate, hexpired]
    rfl
  · intro signers e ids choice w' pid config hvoting hstep hpid hunmarked
      hconfig hpos
    obtain ⟨hself, hexec⟩ := hstep.exec_eq
    obtain ⟨ballots, rfl, hvoted⟩ := voted_of_voting hvoting hexec
    have hne : d ≠ self := by
      rintro rfl
      exact hsome hd.self_undelegated
    exact hvoted.counts hd.graph hne hvoter hpid hunmarked hconfig hpos
  · intro signers pid p choice config hsigned heligible hconfig
    exact vote_of_delegated hsigned heligible hconfig hsome

/-- In every reachable state, a delegation that has expired but was not revoked
still counts: the query reports none, but the delegate's votes add the
delegator's weight and the delegator's own votes are refused. -/
theorem expired_delegation_counts {d : Address}
    (hw : (system self).Reachable w)
    (hexpired : w.machine.store.isDelegationExpired w.now d = true) :
    ¬ DelegationOver self w d ∧ ∃ voter, StillDelegated self w d voter := by
  obtain ⟨voter, hstill⟩ :=
    stillDelegated (hw.invariant (delegations_inductive self)) hexpired
  refine ⟨fun hover => ?_, voter, hstill⟩
  have hreported := (hover.agrees voter).mpr hstill.listed
  rw [hstill.reported] at hreported
  cases hreported

/-! ## A delegation of a minute -/

namespace Scenario

/-- Bob delegates to Carol for a minute, which passes. -/
def entrusting : List (Label Entry) :=
  [.call [bob] (.delegateWithExpiry bob carol 60), .tick 61]

def lapsed : World State :=
  (TransitionSystem.execute (step exec dao) entrusting proposed).get
    (by decide +kernel)

def carolVotes : Label Entry := .call [carol] (.vote carol 0 .against)

def counted : World State :=
  (step exec dao lapsed carolVotes).get (by decide +kernel)

theorem lapsed_reachable : (system dao).Reachable lapsed := by
  have hrun : (system dao).Run proposed entrusting lapsed :=
    TransitionSystem.run_of_execute (fun _ _ _ => step_sound)
      (Option.some_get _).symm
  have hgenesis : (system dao).Reachable genesis := .init ⟨rfl, rfl⟩
  exact (hgenesis.run proposed_run).run hrun

end Scenario

open Scenario

theorem expired_delegation_counts_lapsed :
    ¬ DelegationOver dao lapsed bob ∧
      ∃ voter, StillDelegated dao lapsed bob voter :=
  expired_delegation_counts lapsed_reachable (by decide +kernel)

/-- Carol's vote carries Bob's 300 tokens after the delegation has expired, and
Bob cannot vote them. -/
theorem expired_delegation_counted :
    ((system dao).Reachable lapsed ∧
      lapsed.machine.store.isDelegationExpired lapsed.now bob = true ∧
      lapsed.machine.store.getDelegate lapsed.now bob = none) ∧
    (system dao).Step lapsed carolVotes counted ∧
    ((counted.machine.store.voteRecord (0, carol)).map VoteRecord.weight) =
      some 500 ∧
    step exec dao lapsed (.call [bob] (.vote bob 0 .for)) matches none := by
  refine ⟨⟨lapsed_reachable, ?_, ?_⟩, step_sound (Option.some_get _).symm, ?_,
    ?_⟩
  all_goals decide +kernel

end Parashield.GovernanceDao
