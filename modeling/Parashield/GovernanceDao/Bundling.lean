import Parashield.GovernanceDao.Lending

/-!
# Governance DAO: batches of votes

A batch of votes counts on each of its proposals what a vote on that proposal
alone would count.  It is accepted exactly if each of these votes is, and takes
the tokens of one of them into custody.
-/

namespace Parashield.GovernanceDao

open Support Support.Contract Invocation

variable {self govToken voter : Address} {env : Env} {s s' : State}
  {m m' : Machine State} {w w' v : World State} {pid : ℕ} {p : Proposal}
  {B : Bank} {choice : VoteChoice} {config : DaoConfig} {own lock : ℤ}
  {ballots : List (ℕ × Proposal)} {ids : List ℕ} {u : Unit}

/-! ## The weight of a ballot -/

/-- The weight of a vote with the own weight `own` and what is lent to it. -/
def ballotWeight (m : Machine State) (now : ℕ) (govToken voter : Address)
    (own : ℤ) (pid : ℕ) : ℤ :=
  satI128 (own + satSum ((m.store.delegators voter).map
    (m.store.lends now govToken m.bank pid)))

/-- A vote of that weight can be counted on `p`. -/
structure Countable (p : Proposal) (choice : VoteChoice) (weight : ℤ) :
    Prop where
  positive : 0 < weight
  fits : InI128 (p.votes choice + weight)

theorem countDelegator_total (env : Env) (govToken voter : Address) (pid : ℕ)
    (d : Address) (m : Machine State) :
    ∃ r, countDelegator env govToken voter pid d m = .ok r := by
  by_cases hskip : (m.bank.balance govToken d : ℤ) ≤ 0 ∨
      m.store.delegatedVote (pid, d) = true
  · refine ⟨(0, m), bind_ok.mpr ⟨m, m, get_ok.mpr ⟨rfl, rfl⟩, ?_⟩⟩
    exact ite_ok.mpr (.inl ⟨hskip, pure_ok.mpr ⟨rfl, rfl⟩⟩)
  · refine ⟨(m.store.timeWeighted env.now d (m.bank.balance govToken d),
      ⟨m.store.marked pid voter d
        (m.store.timeWeighted env.now d (m.bank.balance govToken d)),
        m.bank⟩), bind_ok.mpr ⟨m, m, get_ok.mpr ⟨rfl, rfl⟩, ?_⟩⟩
    refine ite_ok.mpr (.inr ⟨hskip, ?_⟩)
    simp only [publish, bind_ok, update_ok, pure_ok]
    exact ⟨(), _, rfl, (), _, rfl, trivial, rfl⟩

theorem countDelegators_total (env : Env) (govToken voter : Address) (pid : ℕ)
    (ds : List Address) (m : Machine State) :
    ∃ r, collect ds (countDelegator env govToken voter pid) m = .ok r := by
  induction ds generalizing m with
  | nil => exact ⟨([], m), rfl⟩
  | cons d ds ih =>
      obtain ⟨⟨x, m₁⟩, hfirst⟩ :=
        countDelegator_total env govToken voter pid d m
      obtain ⟨⟨xs, m₂⟩, hrest⟩ := ih m₁
      refine ⟨(x :: xs, m₂), ?_⟩
      simp only [collect, bind_ok, pure_ok]
      exact ⟨x, m₁, hfirst, xs, m₂, hrest, rfl, rfl⟩

/-- Counting the weight of a ballot fails only if there is none. -/
theorem voteWeight_iff (env : Env) (govToken : Address) (pid : ℕ) (own : ℤ)
    (hds : (m.store.delegators voter).Nodup) {x : ℤ} :
    (∃ m', voteWeight env govToken voter pid own m = .ok (x, m')) ↔
      x = ballotWeight m env.now govToken voter own pid ∧ 0 < x := by
  constructor
  · rintro ⟨m', h⟩
    obtain ⟨hpos, -, ws, hx, hswept⟩ := voteWeight_swept h
    rw [hswept.weights_eq hds] at hx
    exact ⟨hx, hpos⟩
  · rintro ⟨rfl, hpos⟩
    obtain ⟨⟨ws, m'⟩, hws⟩ := countDelegators_total env govToken voter pid
      (m.store.delegators voter) m
    have hweights := (countDelegators_swept hws).2.weights_eq hds
    have hweight : ballotWeight m env.now govToken voter own pid =
        satI128 (own + satSum ws) := by
      rw [hweights]
      rfl
    rw [hweight] at hpos ⊢
    simp only [voteWeight, collectDelegatedWeight, bind_ok, load_ok, ensure_ok,
      pure_ok]
    exact ⟨m', _, _, ⟨_, _, ⟨rfl, rfl⟩, ws, _, hws, rfl, rfl⟩, (), _,
      ⟨hpos, rfl⟩, rfl, rfl⟩

theorem tally_iff {x : ℤ} :
    (∃ q m', p.tally choice x m = .ok (q, m')) ↔
      InI128 (p.votes choice + x) := by
  simp only [Proposal.tally, bind_ok, i128_ok, pure_ok]
  constructor
  · rintro ⟨_, _, _, _, ⟨hfits, -, -⟩, -, -⟩
    exact hfits
  · intro hfits
    exact ⟨_, _, _, _, ⟨hfits, rfl, rfl⟩, rfl, rfl⟩

/-! ## The second pass of a batch -/

theorem tallyBallot_iff (lock : ℤ)
    (hds : (m.store.delegators voter).Nodup) :
    (∃ m', tallyBallot env govToken voter choice own lock pid p m =
        .ok ((), m')) ↔
      Countable p choice (ballotWeight m env.now govToken voter own pid) := by
  simp only [tallyBallot, storeLock, storeVote, storeProposal, publish,
    bind_ok, update_ok]
  constructor
  · rintro ⟨_, weight, m₁, hweight, q, m₂, htally, -⟩
    obtain ⟨rfl, hpos⟩ :=
      (voteWeight_iff env govToken pid own hds).mp ⟨m₁, hweight⟩
    exact ⟨hpos, tally_iff.mp ⟨q, m₂, htally⟩⟩
  · rintro ⟨hpos, hfits⟩
    obtain ⟨m₁, hweight⟩ :=
      (voteWeight_iff env govToken pid own hds).mpr ⟨rfl, hpos⟩
    obtain ⟨q, m₂, htally⟩ := tally_iff (m := m₁).mpr hfits
    exact ⟨_, _, m₁, hweight, q, m₂, htally, (), _, rfl, (), _, rfl, (), _,
      rfl, rfl⟩

/-- A ballot on one proposal leaves the weight of a ballot on another. -/
theorem ballotWeight_other {q : Proposal} {id : ℕ}
    (h : tallyBallot env govToken voter choice own lock id q m =
      .ok (u, m')) (hne : pid ≠ id) :
    ballotWeight m' env.now govToken voter own pid =
      ballotWeight m env.now govToken voter own pid := by
  obtain ⟨hbank, ws, weight, s₁, hswept, -, -, hstore⟩ := tallyBallot_ok h
  have hlists : m'.store.delegators = m.store.delegators := by
    rw [hstore]
    show s₁.delegators = _
    rw [hswept.upToMarks.eq]
  have hlent : ∀ d, m'.store.lends env.now govToken m'.bank pid d =
      m.store.lends env.now govToken m.bank pid d := by
    intro d
    rw [hbank, hstore]
    exact hswept.lends_other hne d
  rw [ballotWeight, hlists, List.map_congr_left fun d _ => hlent d,
    ballotWeight]

theorem tallyBatch_iff (lock : ℤ)
    (hds : (m.store.delegators voter).Nodup)
    (hids : (ballots.map Prod.fst).Nodup) :
    (∃ m', tallyBatch env govToken voter choice own lock ballots m =
        .ok ((), m')) ↔
      ∀ b ∈ ballots, Countable b.2 choice
        (ballotWeight m env.now govToken voter own b.1) := by
  induction ballots generalizing m lock with
  | nil =>
      simp only [List.not_mem_nil, false_implies, implies_true, iff_true]
      exact ⟨m, pure_ok.mpr ⟨rfl, rfl⟩⟩
  | cons b ballots ih =>
      obtain ⟨id, q⟩ := b
      rw [List.map_cons, List.nodup_cons] at hids
      have hrest : ∀ m₁, tallyBallot env govToken voter choice own lock id q m =
          .ok ((), m₁) →
          ((∃ m', tallyBatch env govToken voter choice own 0 ballots m₁ =
              .ok ((), m')) ↔
            ∀ b ∈ ballots, Countable b.2 choice
              (ballotWeight m env.now govToken voter own b.1)) := by
        intro m₁ hfirst
        obtain ⟨-, ws, weight, s₁, hswept, -, -, hstore⟩ :=
          tallyBallot_ok hfirst
        have hlists : m₁.store.delegators = m.store.delegators := by
          rw [hstore]
          show s₁.delegators = _
          rw [hswept.upToMarks.eq]
        rw [ih 0 (by rwa [hlists]) hids.2]
        refine forall₂_congr fun b hb => ?_
        have hne : b.1 ≠ id :=
          fun heq => hids.1 (List.mem_map.mpr ⟨b, hb, heq⟩)
        rw [ballotWeight_other hfirst hne]
      rw [List.forall_mem_cons, ← tallyBallot_iff lock hds]
      simp only [tallyBatch, bind_ok]
      constructor
      · rintro ⟨m', _, m₁, hfirst, hlast⟩
        exact ⟨⟨m₁, hfirst⟩, (hrest m₁ hfirst).mp ⟨m', hlast⟩⟩
      · rintro ⟨⟨m₁, hfirst⟩, hall⟩
        obtain ⟨m', hlast⟩ := (hrest m₁ hfirst).mpr hall
        exact ⟨m', (), m₁, hfirst, hlast⟩

/-! ## When votes are accepted -/

/-- The voter may vote at all: it has its own weight to give, and its tokens
can be taken into custody. -/
structure MayVote (env : Env) (voter : Address) (config : DaoConfig)
    (m : Machine State) : Prop where
  signed : voter ∈ env.signers
  undelegated : m.store.delegateOf voter = none
  configured : m.store.config = some config
  holds : 0 < (m.bank.balance config.govToken voter : ℤ)
  custody : ∃ B, m.bank.transfer config.govToken voter env.self
    (config.capped (m.bank.balance config.govToken voter)) = some B

/-- A vote of `voter` can be counted on the proposal `pid`. -/
def Takes (env : Env) (voter : Address) (choice : VoteChoice)
    (config : DaoConfig) (m : Machine State) (pid : ℕ) : Prop :=
  ∃ p, m.store.Eligible env.now voter pid p ∧
    Countable p choice (ballotWeight m env.now config.govToken voter
      (ownPart m env.now config voter) pid)

theorem requireBallot_iff : (requireBallot env voter pid m = .ok (p, m)) ↔
    m.store.proposal pid = some p ∧ p.status = .active ∧
      env.now ≤ p.voteEnd ∧ m.store.voteRecord (pid, voter) = none := by
  refine ⟨fun h => ?_, ?_⟩
  · obtain ⟨hp, hactive, hvoting, hunvoted, -⟩ := requireBallot_ok h
    exact ⟨hp, hactive, hvoting, hunvoted⟩
  · rintro ⟨hp, hactive, hvoting, hunvoted⟩
    simp only [requireBallot, bind_ok, loadProposal_ok, ensure_ok, load_ok,
      pure_ok]
    exact ⟨p, m, ⟨hp, rfl⟩, (), m, ⟨by rw [hactive]; decide, rfl⟩, (), m,
      ⟨hactive, rfl⟩, (), m, ⟨hvoting, rfl⟩, m.store, m, ⟨rfl, rfl⟩, (), m,
      ⟨hunvoted, rfl⟩, rfl, rfl⟩

theorem ownWeight_iff :
    ownWeight govToken voter m = .ok (m.bank.balance govToken voter, m) ↔
      0 < (m.bank.balance govToken voter : ℤ) := by
  refine ⟨fun h => (ownWeight_ok h).2.1, fun hpos => ?_⟩
  simp only [ownWeight, bind_ok, get_ok, ensure_ok, pure_ok]
  exact ⟨m, m, ⟨rfl, rfl⟩, (), m, ⟨hpos, rfl⟩, rfl, rfl⟩

theorem vote_iff (env : Env) (pid : ℕ) (choice : VoteChoice)
    (hds : (m.store.delegators voter).Nodup) :
    (∃ m', vote env voter pid choice m = .ok ((), m')) ↔
      ∃ config, MayVote env voter config m ∧
        Takes env voter choice config m pid := by
  simp only [vote, ensureNotDelegated, ensureNotCounted, storeLock, storeVote,
    storeProposal, publish, bind_ok, requireAuth_ok, loadConfig_ok, load_ok,
    ensure_ok, transferToken_ok, update_ok]
  constructor
  · rintro ⟨_, _, _, ⟨hsigned, rfl⟩, p, _, hballot, config, _, ⟨hconfig, rfl⟩,
      _, _, ⟨_, _, ⟨rfl, rfl⟩, hfree, rfl⟩, _, _,
      ⟨_, _, ⟨rfl, rfl⟩, huncounted, rfl⟩, own, _, hown, _, _, ⟨rfl, rfl⟩,
      weight, m₁, hweight, _, _, ⟨-, B, hB, rfl⟩, _, _, rfl, q, m₂, htally, -⟩
    obtain ⟨hp, hactive, hvoting, hunvoted, rfl⟩ := requireBallot_ok hballot
    obtain ⟨rfl, hpos, rfl⟩ := ownWeight_ok hown
    obtain ⟨-, hbank, -⟩ := voteWeight_swept hweight
    obtain ⟨rfl, hwpos⟩ := (voteWeight_iff _ _ _ _ hds).mp ⟨m₁, hweight⟩
    rw [hbank] at hB
    exact ⟨config, ⟨hsigned, hfree, hconfig, hpos, B, hB⟩, p,
      ⟨hp, hactive, hvoting, hunvoted, huncounted⟩, hwpos,
      tally_iff.mp ⟨q, m₂, htally⟩⟩
  · rintro ⟨config, ⟨hsigned, hfree, hconfig, hpos, B, hB⟩, p, helig, hwpos,
      hfits⟩
    have hballot := requireBallot_iff.mpr
      ⟨helig.stored, helig.active, helig.voting, helig.unvoted⟩
    obtain ⟨m₁, hweight⟩ := (voteWeight_iff env config.govToken pid _
      hds).mpr ⟨rfl, hwpos⟩
    obtain ⟨-, hbank, -⟩ := voteWeight_swept hweight
    obtain ⟨q, m₂, htally⟩ := tally_iff.mpr hfits
    exact ⟨_, (), _, ⟨hsigned, rfl⟩, p, _, hballot, config, _, ⟨hconfig, rfl⟩,
      (), _, ⟨_, _, ⟨rfl, rfl⟩, hfree, rfl⟩, (), _,
      ⟨_, _, ⟨rfl, rfl⟩, helig.uncounted, rfl⟩, _, _, ownWeight_iff.mpr hpos,
      _, _, ⟨rfl, rfl⟩, _, m₁, hweight, (), _,
      ⟨.inr hsigned, B, by rw [hbank]; exact hB, rfl⟩, (), _, rfl, q, m₂,
      htally, (), _, rfl, (), _, rfl, rfl⟩

theorem requireBatchBallots_iff :
    (∃ ps, collect ids (requireBatchBallot env voter) m = .ok (ps, m)) ↔
      ∀ id ∈ ids, ∃ p, m.store.Eligible env.now voter id p := by
  constructor
  · rintro ⟨ps, h⟩ id hid
    obtain ⟨-, hids, hall⟩ := requireBatchBallots_ok h
    rw [← hids] at hid
    obtain ⟨b, hb, rfl⟩ := List.mem_map.mp hid
    exact ⟨b.2, hall b hb⟩
  · intro hall
    induction ids with
    | nil => exact ⟨[], rfl⟩
    | cons id ids ih =>
        obtain ⟨⟨p, helig⟩, hrest⟩ := List.forall_mem_cons.mp hall
        obtain ⟨ps, hps⟩ := ih hrest
        have hballot := requireBallot_iff.mpr
          ⟨helig.stored, helig.active, helig.voting, helig.unvoted⟩
        refine ⟨p :: ps, ?_⟩
        simp only [collect, requireBatchBallot, ensureNotCounted, bind_ok,
          load_ok, ensure_ok, pure_ok]
        exact ⟨p, m, ⟨p, m, hballot, (), m,
          ⟨_, _, ⟨rfl, rfl⟩, helig.uncounted, rfl⟩, rfl, rfl⟩, ps, m, hps,
          rfl, rfl⟩

/-- The tokens of the voter going into custody leave the weight of its
ballots. -/
theorem Delegations.ballotWeight_eq {amount : ℤ}
    (hd : Delegations self m.store)
    (hB : m.bank.transfer govToken voter self amount = some B) (now : ℕ) :
    ballotWeight ⟨m.store, B⟩ now govToken voter own pid =
      ballotWeight m now govToken voter own pid := by
  have hlent : ∀ d ∈ m.store.delegators voter,
      m.store.lends now govToken B pid d =
        m.store.lends now govToken m.bank pid d := by
    intro d hmem
    rw [State.lends, hd.delegator_balance hB (.inr rfl) hmem, State.lends]
  show satI128 (own + satSum ((m.store.delegators voter).map
    (m.store.lends now govToken B pid))) = _
  rw [List.map_congr_left hlent, ballotWeight]

theorem voteBatch_iff (voter : Address) (ids : List ℕ) (choice : VoteChoice)
    (hd : Delegations env.self m.store) :
    (∃ m', voteBatch env voter ids choice m = .ok ((), m')) ↔
      ids ≠ [] ∧ ids.Nodup ∧ ∃ config, MayVote env voter config m ∧
        ∀ pid ∈ ids, Takes env voter choice config m pid := by
  have hds := hd.graph.nodup voter
  simp only [voteBatch, ensureNotDelegated, bind_ok, requireAuth_ok,
    loadConfig_ok, ensure_ok, load_ok, transferToken_ok]
  constructor
  · rintro ⟨m', _, _, ⟨hsigned, rfl⟩, _, _, ⟨hne, rfl⟩, _, _, ⟨hnodup, rfl⟩, _,
      _, ⟨_, _, ⟨rfl, rfl⟩, hfree, rfl⟩, config, _, ⟨hconfig, rfl⟩, ps, _,
      hballots, own, _, hown, _, _, ⟨rfl, rfl⟩, _, _, ⟨-, B, hB, rfl⟩, htally⟩
    obtain ⟨rfl, hids, helig⟩ := requireBatchBallots_ok hballots
    obtain ⟨rfl, hpos, rfl⟩ := ownWeight_ok hown
    refine ⟨hne, hnodup, config, ⟨hsigned, hfree, hconfig, hpos, B, hB⟩, ?_⟩
    have hall := (tallyBatch_iff (m := ⟨_, B⟩) _ hds
      (hids.symm ▸ hnodup)).mp ⟨m', htally⟩
    intro id hid
    rw [← hids] at hid
    obtain ⟨b, hb, rfl⟩ := List.mem_map.mp hid
    have hcount := hall b hb
    rw [hd.ballotWeight_eq hB] at hcount
    exact ⟨b.2, helig b hb, hcount⟩
  · rintro ⟨hne, hnodup, config, ⟨hsigned, hfree, hconfig, hpos, B, hB⟩, hall⟩
    obtain ⟨ps, hballots⟩ := requireBatchBallots_iff.mpr fun id hid =>
      (hall id hid).imp fun _ h => h.1
    obtain ⟨-, hids, helig⟩ := requireBatchBallots_ok hballots
    have hcount : ∀ b ∈ ids.zip ps, Countable b.2 choice
        (ballotWeight ⟨m.store, B⟩ env.now config.govToken voter
          (ownPart m env.now config voter) b.1) := by
      intro b hb
      have hmem : b.1 ∈ ids := hids ▸ List.mem_map.mpr ⟨b, hb, rfl⟩
      obtain ⟨p, hp, hcount⟩ := hall b.1 hmem
      obtain rfl := Option.some.inj
        (hp.stored.symm.trans (helig b hb).stored)
      rw [hd.ballotWeight_eq hB]
      exact hcount
    obtain ⟨m', htally⟩ := (tallyBatch_iff (m := ⟨m.store, B⟩)
      (config.capped (m.bank.balance config.govToken voter)) hds
      (hids.symm ▸ hnodup)).mpr hcount
    exact ⟨m', (), _, ⟨hsigned, rfl⟩, (), _, ⟨hne, rfl⟩, (), _,
      ⟨hnodup, rfl⟩, (), _, ⟨_, _, ⟨rfl, rfl⟩, hfree, rfl⟩, config, _,
      ⟨hconfig, rfl⟩, ps, _, hballots, _, _, ownWeight_iff.mpr hpos, _, _,
      ⟨rfl, rfl⟩, (), _, ⟨.inr hsigned, B, hB, rfl⟩, htally⟩

/-! ## What they leave -/

/-- Both storages have the same proposal `pid`, the same votes on it and the
same holders counted in it. -/
structure State.AgreesOn (s s' : State) (pid : ℕ) : Prop where
  proposal : s.proposal pid = s'.proposal pid
  records : ∀ a, s.voteRecord (pid, a) = s'.voteRecord (pid, a)
  counted : ∀ a, s.delegatedVote (pid, a) = s'.delegatedVote (pid, a)

/-- A delegator is marked if it was or if it holds tokens. -/
theorem Swept.marks_iff {ds : List Address} {ws : List ℤ}
    (h : Swept env govToken voter pid B s ds ws s') (a : Address) :
    s'.delegatedVote (pid, a) = true ↔ s.delegatedVote (pid, a) = true ∨
      a ∈ ds ∧ 0 < B.balance govToken a := by
  induction h with
  | nil => simp
  | @skip s s' d ds ws hskip _ ih =>
      rw [ih, List.mem_cons]
      constructor
      · rintro (hold | ⟨hmem, hpos⟩)
        · exact .inl hold
        · exact .inr ⟨.inr hmem, hpos⟩
      · rintro (hold | ⟨rfl | hmem, hpos⟩)
        · exact .inl hold
        · rcases hskip with hzero | hmarked
          · omega
          · exact .inl hmarked
        · exact .inr ⟨hmem, hpos⟩
  | @count s s' d ds ws weight hpos hunmarked _ _ ih =>
      have hmark : (s.marked pid voter d weight).delegatedVote (pid, a) = true ↔
          a = d ∨ s.delegatedVote (pid, a) = true := by
        simp [State.marked, Function.update_apply]
      rw [ih, hmark, List.mem_cons]
      constructor
      · rintro ((rfl | hold) | ⟨hmem, hpos⟩)
        · exact .inr ⟨.inl rfl, hpos⟩
        · exact .inl hold
        · exact .inr ⟨.inr hmem, hpos⟩
      · rintro (hold | ⟨rfl | hmem, hpos⟩)
        · exact .inl (.inr hold)
        · exact .inl (.inl rfl)
        · exact .inr ⟨hmem, hpos⟩

/-- A vote on other proposals leaves the marks of this one. -/
theorem Ballots.delegatedVote_of_notMem
    (h : Ballots env govToken voter choice own B lock ballots s s')
    (hpid : pid ∉ ballots.map Prod.fst) (a : Address) :
    s'.delegatedVote (pid, a) = s.delegatedVote (pid, a) := by
  induction h with
  | nil => rfl
  | cons hswept _ _ _ ih =>
      rw [List.map_cons, List.mem_cons, not_or] at hpid
      rw [ih hpid.2]
      exact hswept.delegatedVote_of_ne hpid.1 a

theorem Ballots.marks_iff
    (h : Ballots env govToken voter choice own B lock ballots s s')
    (hids : (ballots.map Prod.fst).Nodup) (hpid : pid ∈ ballots.map Prod.fst)
    (a : Address) :
    s'.delegatedVote (pid, a) = true ↔ s.delegatedVote (pid, a) = true ∨
      a ∈ s.delegators voter ∧ 0 < B.balance govToken a := by
  induction h with
  | nil => cases hpid
  | @cons s s₁ s' lock id q rest ws weight hswept _ _ hrest ih =>
      rw [List.map_cons, List.nodup_cons] at hids
      rcases List.mem_cons.mp hpid with rfl | hmem
      · rw [hrest.delegatedVote_of_notMem hids.1]
        exact hswept.marks_iff a
      · have hne : pid ≠ id := fun heq => hids.1 (heq ▸ hmem)
        have hlists : (s₁.voted id q ⟨voter, choice, weight⟩ lock).delegators =
            s.delegators := by
          show s₁.delegators = _
          rw [hswept.upToMarks.eq]
        have hmarks : (s₁.voted id q ⟨voter, choice, weight⟩
            lock).delegatedVote (pid, a) = s.delegatedVote (pid, a) :=
          hswept.delegatedVote_of_ne hne a
        rw [ih hids.2 hmem, hlists, hmarks]

/-- What a vote leaves on one of its proposals depends on nothing but the state
it is cast in. -/
theorem Voted.agreesOn {ballots' : List (ℕ × Proposal)} {n n' : Machine State}
    (h : Voted env voter choice ballots m n)
    (h' : Voted env voter choice ballots' m n')
    (hd : Delegations env.self m.store) (hpid : pid ∈ ballots.map Prod.fst)
    (hpid' : pid ∈ ballots'.map Prod.fst) :
    n.bank = n'.bank ∧ n.store.AgreesOn n'.store pid := by
  obtain ⟨config, _, B, Bc, s, hconfig, -, rfl, hB, hBc, hballots, rfl⟩ :=
    h.change
  obtain ⟨config', _, B', Bc', s', hconfig', -, rfl, hB', hBc', hballots',
    rfl⟩ := h'.change
  obtain rfl := Option.some.inj (hconfig.symm.trans hconfig')
  obtain rfl := Option.some.inj (hB.symm.trans hB')
  have hcarries := h.carries hd hconfig
  have hcarries' := h'.carries hd hconfig
  obtain ⟨b, hb, rfl⟩ := List.mem_map.mp hpid
  obtain ⟨b', hb', hid⟩ := List.mem_map.mp hpid'
  have hstored := (h'.eligible b' hb').stored
  have hcarried' := hcarries' b' hb'
  rw [hid] at hstored hcarried'
  obtain heq := Option.some.inj (hstored.symm.trans (h.eligible b hb).stored)
  rw [heq] at hcarried'
  refine ⟨rfl, (hcarries b hb).tally.trans hcarried'.tally.symm, fun a => ?_,
    fun a => ?_⟩
  · by_cases ha : a = voter
    · rw [ha]
      exact (hcarries b hb).record.trans hcarried'.record.symm
    · show s.voteRecord (b.1, a) = s'.voteRecord (b.1, a)
      rw [hballots.voteRecord_of_ne fun _ heq => ha heq,
        hballots'.voteRecord_of_ne fun _ heq => ha heq]
  · have hbalance : a ∈ m.store.delegators voter →
        Bc.balance config.govToken a = Bc'.balance config.govToken a := by
      intro hmem
      rw [hd.delegator_balance hB hBc hmem, hd.delegator_balance hB hBc' hmem]
    rw [Bool.eq_iff_iff]
    show s.delegatedVote (b.1, a) = true ↔ s'.delegatedVote (b.1, a) = true
    rw [hballots.marks_iff h.distinct hpid,
      hballots'.marks_iff h'.distinct hpid']
    refine or_congr Iff.rfl (and_congr_right fun hmem => ?_)
    rw [hbalance hmem]

/-- All of a batch has in custody what a vote on one of its proposals has. -/
theorem Voted.locked_sum {b : ℕ × Proposal} {rest : List (ℕ × Proposal)}
    (h : Voted env voter choice (b :: rest) m m') (hconfig :
      m.store.config = some config) :
    ((b :: rest).map fun b => m'.store.lockedBalance (b.1, voter)).sum =
      config.capped (m.bank.balance config.govToken voter) := by
  obtain ⟨config', _, B, Bc, s, hconfig', -, rfl, -, -, hballots, rfl⟩ :=
    h.change
  obtain rfl := Option.some.inj (hconfig.symm.trans hconfig')
  have hzero : (rest.map fun b => s.lockedBalance (b.1, voter)).sum = 0 := by
    refine List.sum_eq_zero fun x hx => ?_
    obtain ⟨b', hb', rfl⟩ := List.mem_map.mp hx
    exact hballots.lockedBalance_tail h.distinct b' hb'
  rw [List.map_cons, List.sum_cons, hballots.lockedBalance_head h.distinct,
    hzero, Int.add_zero]

/-- A batch is accepted if a vote on each of its proposals would be. -/
theorem voteBatch_accepted_iff (hw : (system self).Reachable w)
    (signers : List Address) (voter : Address) (ids : List ℕ)
    (choice : VoteChoice) :
    (∃ w', (system self).Step w
        (.call signers (.voteBatch voter ids choice)) w') ↔
      ids ≠ [] ∧ ids.Nodup ∧ ∀ pid ∈ ids, ∃ v, (system self).Step w
        (.call signers (.vote voter pid choice)) v := by
  have hd := hw.invariant (delegations_inductive self)
  have hdao : Delegations (callEnv self w signers).self w.machine.store := hd
  have hbatch := voteBatch_iff voter ids choice hdao
  have hvote := fun pid => vote_iff (callEnv self w signers) pid choice
    (hd.graph.nodup voter)
  constructor
  · rintro ⟨w', hstep⟩
    obtain ⟨hself, hexec⟩ := hstep.exec_eq
    obtain ⟨hne, hnodup, config, hmay, htakes⟩ := hbatch.mp ⟨_, hexec⟩
    refine ⟨hne, hnodup, fun pid hpid => ?_⟩
    obtain ⟨m', hm'⟩ := (hvote pid).mpr ⟨config, hmay, htakes pid hpid⟩
    exact ⟨_, .call hself hm'⟩
  · rintro ⟨hne, hnodup, hall⟩
    obtain ⟨first, hfirst⟩ := List.exists_mem_of_ne_nil ids hne
    obtain ⟨v, hstep⟩ := hall first hfirst
    obtain ⟨hself, hexec⟩ := hstep.exec_eq
    obtain ⟨config, hmay, -⟩ := (hvote first).mp ⟨_, hexec⟩
    have htakes : ∀ pid ∈ ids, Takes (callEnv self w signers) voter choice
        config w.machine pid := by
      intro pid hpid
      obtain ⟨v', hstep'⟩ := hall pid hpid
      obtain ⟨config', hmay', htakes⟩ :=
        (hvote pid).mp ⟨_, hstep'.exec_eq.2⟩
      obtain rfl := Option.some.inj
        (hmay.configured.symm.trans hmay'.configured)
      exact htakes
    obtain ⟨m', hm'⟩ := hbatch.mpr ⟨hne, hnodup, config, hmay, htakes⟩
    exact ⟨_, .call hself hm'⟩

/-- In every reachable state a batch of votes is accepted exactly if it names
different proposals, at least one, and a vote on each of them alone would be
accepted.  It then leaves each of its proposals as that vote would, takes into
custody what that vote would take, and leaves all other proposals alone. -/
theorem batch_votes_agree (hw : (system self).Reachable w)
    (signers : List Address) (voter : Address) (ids : List ℕ)
    (choice : VoteChoice) :
    ((∃ w', (system self).Step w
        (.call signers (.voteBatch voter ids choice)) w') ↔
      ids ≠ [] ∧ ids.Nodup ∧ ∀ pid ∈ ids, ∃ v, (system self).Step w
        (.call signers (.vote voter pid choice)) v) ∧
      ∀ w', (system self).Step w
          (.call signers (.voteBatch voter ids choice)) w' →
        (∀ pid ∈ ids, ∀ v, (system self).Step w
            (.call signers (.vote voter pid choice)) v →
          w'.machine.bank = v.machine.bank ∧
          w'.machine.store.AgreesOn v.machine.store pid ∧
          (ids.map fun id => w'.machine.store.lockedBalance (id, voter)).sum =
            v.machine.store.lockedBalance (pid, voter)) ∧
        ∀ pid ∉ ids, w'.machine.store.AgreesOn w.machine.store pid := by
  have hd := hw.invariant (delegations_inductive self)
  refine ⟨voteBatch_accepted_iff hw signers voter ids choice,
    fun w' hstep => ?_⟩
  obtain ⟨ballots, rfl, hvoted⟩ := voteBatch_spec hstep.exec_eq.2
  obtain ⟨config, _, _, _, _, hconfig, -⟩ := hvoted.change
  refine ⟨fun pid hpid v hv => ?_, fun pid hpid => ?_⟩
  · obtain ⟨p, hsingle⟩ := vote_spec hv.exec_eq.2
    obtain ⟨hbank, hagrees⟩ := hvoted.agreesOn hsingle hd hpid
      (List.mem_singleton_self pid)
    refine ⟨hbank, hagrees, ?_⟩
    have hone := hsingle.locked_sum hconfig
    rw [List.map_singleton, List.sum_singleton] at hone
    rw [hone, List.map_map]
    cases ballots with
    | nil => cases hpid
    | cons b rest => exact hvoted.locked_sum hconfig
  · obtain ⟨_, _, _, _, s, -, -, -, -, -, hballots, heq⟩ := hvoted.change
    rw [heq]
    exact ⟨hballots.proposal_of_notMem hpid,
      fun a => hballots.voteRecord_of_ne fun hmem => absurd hmem hpid,
      hballots.delegatedVote_of_notMem hpid⟩

open Scenario in
/-- Alice's batch on two proposals, against her vote on either. -/
theorem batch_votes_agree_bundled :
    ∃ v v', (system dao).Step prepared
        (.call [alice] (.vote alice 0 .for)) v ∧
      (system dao).Step prepared (.call [alice] (.vote alice 1 .for)) v' ∧
      bundled.machine.bank = v.machine.bank ∧
      bundled.machine.bank = v'.machine.bank := by
  obtain ⟨haccepted, hleft⟩ :=
    batch_votes_agree prepared_reachable [alice] alice [0, 1] .for
  obtain ⟨-, -, hvotes⟩ := haccepted.mp ⟨bundled, bundled_step⟩
  have hbank := (hleft bundled bundled_step).1
  obtain ⟨v, hv⟩ := hvotes 0 (by decide)
  obtain ⟨v', hv'⟩ := hvotes 1 (by decide)
  exact ⟨v, v', hv, hv', (hbank 0 (by decide) v hv).1,
    (hbank 1 (by decide) v' hv').1⟩

end Parashield.GovernanceDao
