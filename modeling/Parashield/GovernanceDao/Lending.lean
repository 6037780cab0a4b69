import Parashield.GovernanceDao.Batches
import Parashield.GovernanceDao.Expiry
import Parashield.GovernanceDao.Weights

/-!
# Governance DAO: what a vote carries

A vote carries the weight of the voter's own tokens, up to the cap, and what
every delegator lends that is not counted on the proposal yet.
-/

namespace Parashield.GovernanceDao

open Support Support.Contract Invocation

variable {govToken voter : Address} {env : Env} {s s' : State}
  {m m' : Machine State} {pid : ℕ} {p : Proposal} {B : Bank}
  {choice : VoteChoice} {ballots : List (ℕ × Proposal)} {own lock : ℤ}

/-! ## Saturating sums -/

/-- Weights that are not negative add up, at most to the largest number. -/
theorem satSum_eq {ws : List ℤ} (hws : ∀ x ∈ ws, 0 ≤ x) :
    satSum ws = min ws.sum maxI128 := by
  suffices h : ∀ total : ℤ, 0 ≤ total → total ≤ maxI128 →
      ws.foldl (fun total w => satI128 (total + w)) total =
        min (total + ws.sum) maxI128 by
    have hsum := h 0 (Int.le_refl 0) (by decide)
    rwa [Int.zero_add] at hsum
  induction ws with
  | nil =>
      intro total _ hle
      simpa using hle
  | cons x ws ih =>
      intro total hnonneg hle
      obtain ⟨hx, hrest⟩ := List.forall_mem_cons.mp hws
      have hsat : satI128 (total + x) = min (total + x) maxI128 := by
        unfold satI128 minI128 maxI128
        omega
      have hsum : 0 ≤ ws.sum := List.sum_nonneg hrest
      rw [List.foldl_cons, hsat, ih hrest _ (by omega) (by omega),
        List.sum_cons]
      omega

/-- The voter's weight and the lent weights together. -/
theorem satI128_add_satSum {x : ℤ} {ws : List ℤ} (hx : 0 ≤ x)
    (hws : ∀ y ∈ ws, 0 ≤ y) :
    satI128 (x + satSum ws) = min (x + ws.sum) maxI128 := by
  have hsum : 0 ≤ ws.sum := List.sum_nonneg hws
  rw [satSum_eq hws]
  unfold satI128 minI128 maxI128
  omega

/-! ## The delegators -/

/-- What `d` lends to a vote on `pid`: nothing if it is counted already. -/
def State.lends (s : State) (now : ℕ) (govToken : Address) (B : Bank)
    (pid : ℕ) (d : Address) : ℤ :=
  if s.delegatedVote (pid, d) = true then 0
  else s.timeWeighted now d (B.balance govToken d)

theorem State.timeWeighted_zero (s : State) (now : ℕ) (a : Address) :
    s.timeWeighted now a 0 = 0 := by
  unfold State.timeWeighted
  exact if_pos (.inr (Int.le_refl 0))

/-- Every delegator adds what it lends. -/
theorem Swept.weights_eq {ds : List Address} {ws : List ℤ}
    (h : Swept env govToken voter pid B s ds ws s') (hds : ds.Nodup) :
    ws = ds.map (s.lends env.now govToken B pid) := by
  induction h with
  | nil => rfl
  | @skip s s' d ds ws hskip _ ih =>
      rw [List.nodup_cons] at hds
      have hnothing : s.lends env.now govToken B pid d = 0 := by
        rcases hskip with hzero | hmarked
        · rw [State.lends, hzero, Int.natCast_zero, s.timeWeighted_zero,
            ite_self]
        · exact if_pos hmarked
      rw [List.map_cons, hnothing, ih hds.2]
  | @count s s' d ds ws weight hpos hunmarked hweight hrest ih =>
      rw [List.nodup_cons] at hds
      have hlent : s.lends env.now govToken B pid d = weight := by
        rw [State.lends, hunmarked, hweight]
        exact if_neg Bool.false_ne_true
      have hothers : ∀ a ∈ ds, (s.marked pid voter d weight).lends env.now
          govToken B pid a = s.lends env.now govToken B pid a := by
        intro a ha
        have hne : (pid, a) ≠ (pid, d) := by
          rintro ⟨⟩
          exact hds.1 ha
        show (if Function.update s.delegatedVote (pid, d) true (pid, a) = true
          then _ else _) = _
        rw [Function.update_of_ne hne]
        rfl
      rw [List.map_cons, hlent, ih hds.2, List.map_congr_left hothers]

/-- A vote on one proposal leaves what is lent to another. -/
theorem Swept.lends_other {ds : List Address} {ws : List ℤ} {other : ℕ}
    (h : Swept env govToken voter pid B s ds ws s') (hne : other ≠ pid)
    (d : Address) : s'.lends env.now govToken B other d =
      s.lends env.now govToken B other d := by
  rw [State.lends, h.delegatedVote_of_ne hne, h.upToMarks.timeWeighted]
  rfl

/-! ## The ballots -/

/-- A vote with the weight `weight` is counted on `p`. -/
structure State.Carries (s : State) (pid : ℕ) (p : Proposal) (voter : Address)
    (choice : VoteChoice) (weight : ℤ) : Prop where
  record : s.voteRecord (pid, voter) = some ⟨voter, choice, weight⟩
  tally : s.proposal pid =
    some (p.setVotes choice (p.votes choice + weight))

theorem Ballots.carries
    (h : Ballots env govToken voter choice own B lock ballots s s')
    (hds : (s.delegators voter).Nodup) (hids : (ballots.map Prod.fst).Nodup) :
    ∀ b ∈ ballots, s'.Carries b.1 b.2 voter choice
      (satI128 (own + satSum ((s.delegators voter).map
        (s.lends env.now govToken B b.1)))) := by
  induction h with
  | nil => simp
  | @cons s s₁ s' lock id q rest ws weight hswept hweight _ hrest ih =>
      rw [List.map_cons, List.nodup_cons] at hids
      rw [hswept.weights_eq hds] at hweight
      have hsame : s₁.delegators = s.delegators := by rw [hswept.upToMarks.eq]
      have hlater := ih (by
        show (s₁.delegators voter).Nodup
        rwa [hsame]) hids.2
      refine List.forall_mem_cons.mpr ⟨⟨?_, ?_⟩, fun b hb => ?_⟩
      · rw [hrest.voteRecord_of_ne fun hmem => absurd hmem hids.1, ← hweight]
        exact Function.update_self ..
      · rw [hrest.proposal_of_notMem hids.1, ← hweight]
        exact Function.update_self ..
      · have hne : b.1 ≠ id :=
          fun heq => hids.1 (List.mem_map.mpr ⟨b, hb, heq⟩)
        have hlent : ∀ d, (s₁.voted id q ⟨voter, choice, weight⟩ lock).lends
            env.now govToken B b.1 d = s.lends env.now govToken B b.1 d :=
          fun d => hswept.lends_other hne d
        have hds₁ : (s₁.voted id q ⟨voter, choice, weight⟩ lock).delegators
            voter = s.delegators voter := congrFun hsame voter
        have hb' := hlater b hb
        rwa [hds₁, List.map_congr_left fun d _ => hlent d] at hb'

/-! ## Votes -/

/-- The weight of the voter's own tokens. -/
def ownPart (m : Machine State) (now : ℕ) (config : DaoConfig)
    (voter : Address) : ℤ :=
  m.store.timeWeighted now voter
    (config.capped (m.bank.balance config.govToken voter))

/-- What the delegators of `voter` lend to its vote on `pid`. -/
def lentParts (m : Machine State) (now : ℕ) (config : DaoConfig) (pid : ℕ)
    (voter : Address) : List ℤ :=
  (m.store.delegators voter).map
    (m.store.lends now config.govToken m.bank pid)

/-- The delegators are neither the voter nor the DAO. -/
theorem Delegations.delegator_ne {dao d : Address} (h : Delegations dao s)
    (hmem : d ∈ s.delegators voter) : d ≠ voter ∧ d ≠ dao := by
  have hdelegate := (h.graph.mem_iff d voter).mp hmem
  constructor
  · rintro rfl
    exact h.graph.delegate_ne d hdelegate
  · rintro rfl
    rw [h.self_undelegated] at hdelegate
    cases hdelegate

/-- The voter's tokens going into custody leave the balances of its delegators
alone. -/
theorem Delegations.delegator_balance {dao d : Address} {B' Bc : Bank}
    {amount : ℤ} (h : Delegations dao s)
    (hB : B.transfer govToken voter dao amount = some B')
    (hBc : Bc = B ∨ Bc = B') (hmem : d ∈ s.delegators voter) :
    Bc.balance govToken d = B.balance govToken d := by
  rcases hBc with rfl | rfl
  · rfl
  · exact Bank.transfer_balance_of_ne hB (.inr (h.delegator_ne hmem))

theorem Voted.carries (h : Voted env voter choice ballots m m')
    (hd : Delegations env.self m.store) {config : DaoConfig}
    (hconfig : m.store.config = some config) :
    ∀ b ∈ ballots, m'.store.Carries b.1 b.2 voter choice
      (satI128 (ownPart m env.now config voter +
        satSum (lentParts m env.now config b.1 voter))) := by
  obtain ⟨config', _, B, Bc, _, hconfig', -, rfl, hB, hBc, hballots, rfl⟩ :=
    h.change
  obtain rfl := Option.some.inj (hconfig'.symm.trans hconfig)
  intro b hb
  have hlent : (m.store.delegators voter).map
      (m.store.lends env.now config'.govToken Bc b.1) =
        lentParts m env.now config' b.1 voter := by
    refine List.map_congr_left fun d hmem => ?_
    rw [State.lends, hd.delegator_balance hB hBc hmem]
    rfl
  have hcarries := hballots.carries (hd.graph.nodup voter) h.distinct b hb
  rwa [hlent] at hcarries

/-! ## The parts are not negative -/

theorem State.Weighs.lends_nonneg (h : s.Weighs) {now : ℕ} (d : Address) :
    0 ≤ s.lends now govToken B pid d := by
  unfold State.lends
  split
  · exact Int.le_refl 0
  · exact (h.bounds (Int.natCast_nonneg _)).1

theorem lentParts_nonneg (h : m.store.Weighs) {now : ℕ} {config : DaoConfig} :
    ∀ x ∈ lentParts m now config pid voter, 0 ≤ x := by
  intro x hx
  obtain ⟨d, -, rfl⟩ := List.mem_map.mp hx
  exact h.lends_nonneg d

theorem DaoConfig.capped_nonneg (config : DaoConfig) {balance : ℤ}
    (h : 0 ≤ balance) : 0 ≤ config.capped balance := by
  unfold DaoConfig.capped
  split
  · omega
  · exact h

theorem ownPart_nonneg (h : m.store.Weighs) {now : ℕ} {config : DaoConfig} :
    0 ≤ ownPart m now config voter :=
  (h.bounds (config.capped_nonneg (Int.natCast_nonneg _))).1

end Parashield.GovernanceDao
