import Parashield.GovernanceDao.Lending

/-!
# Governance DAO: what is counted of whom

Every vote record holds the weight of the voter and of those who delegate to
it.  Told apart, they say how much of each address is counted on a proposal.
-/

namespace Parashield.GovernanceDao

open Support Support.Contract Invocation

variable {token govToken dao voter a : Address} {env : Env} {s s' : State}
  {m m' : Machine State} {pid : ℕ} {p : Proposal} {B : Bank}
  {choice : VoteChoice} {ballots : List (ℕ × Proposal)} {tallied lock : ℤ}

/-! ## Own and lent weight -/

/-- The weight of the record of `a`. -/
def State.recorded (s : State) (pid : ℕ) (a : Address) : ℤ :=
  match s.voteRecord (pid, a) with
  | some r => r.weight
  | none => 0

/-- The weight of `a` itself in its record. -/
def State.own (s : State) (pid : ℕ) (a : Address) : ℤ :=
  s.recorded pid a - (s.contributions pid a).sum

/-- The weight of `a` in the record of its delegate. -/
def State.lent (s : State) (pid : ℕ) (a : Address) : ℤ :=
  ((s.uses.filter fun u => u.proposalId = pid ∧ u.delegator = a).map
    Use.weight).sum

/-- The tokens in the custody of the DAO for `a`. -/
def State.custody (s : State) (a : Address) : ℤ :=
  ∑ pid ∈ Finset.range s.nextProposalId, s.lockedBalance (pid, a)

def Proposal.cast (p : Proposal) : ℤ :=
  p.votesFor + p.votesAgainst + p.votesAbstain

theorem Proposal.cast_congr {p' : Proposal} (h : p'.votes = p.votes) :
    p'.cast = p.cast := by
  have hfor := congrFun h .for
  have hagainst := congrFun h .against
  have habstain := congrFun h .abstain
  simp only [Proposal.votes] at hfor hagainst habstain
  rw [Proposal.cast, hfor, hagainst, habstain, Proposal.cast]

/-- Without a record nothing of `a` itself is counted. -/
theorem Tallied.own_eq_zero (h : Tallied s)
    (hunvoted : s.voteRecord (pid, a) = none) : s.own pid a = 0 := by
  have hempty : s.contributions pid a = [] := by
    rw [State.contributions, List.map_eq_nil_iff, List.filter_eq_nil_iff]
    intro u hu hmem
    obtain ⟨hpid, hdelegate⟩ := of_decide_eq_true hmem
    have hrecord := h.recorded u hu
    rw [hpid, hdelegate] at hrecord
    exact hrecord hunvoted
  rw [State.own, hempty, State.recorded, hunvoted]
  rfl

theorem lent_eq_zero
    (hunlent : ∀ u ∈ s.uses, ¬ (u.proposalId = pid ∧ u.delegator = a)) :
    s.lent pid a = 0 := by
  rw [State.lent, List.filter_eq_nil_iff.mpr]
  · rfl
  · intro u hu hmem
    exact hunlent u hu (of_decide_eq_true hmem)

/-- Nothing is counted on a proposal that is not there. -/
theorem Tallied.uncounted (h : Tallied s) (hnone : s.proposal pid = none)
    (a : Address) : s.own pid a = 0 ∧ s.lent pid a = 0 := by
  refine ⟨h.own_eq_zero (h.unopened pid a hnone), lent_eq_zero ?_⟩
  rintro u hu ⟨rfl, -⟩
  exact h.recorded u hu (h.unopened u.proposalId u.delegate hnone)

/-- A list summed in parts, one for each value of `f`. -/
theorem sum_fibers {α κ : Type*} [DecidableEq κ] (us : List α) (f : α → κ)
    (g : α → ℤ) {S : Finset κ} (hS : ∀ u ∈ us, f u ∈ S) :
    ∑ k ∈ S, ((us.filter fun u => f u = k).map g).sum = (us.map g).sum := by
  induction us with
  | nil => simp
  | cons u us ih =>
      rw [List.forall_mem_cons] at hS
      have hsplit : ∀ k ∈ S,
          (((u :: us).filter fun v => f v = k).map g).sum =
            (if k = f u then g u else 0) +
              ((us.filter fun v => f v = k).map g).sum := by
        intro k _
        by_cases hk : f u = k
        · simp [hk]
        · simp [hk, Ne.symm hk]
      rw [Finset.sum_congr rfl hsplit, Finset.sum_add_distrib, ih hS.2,
        Finset.sum_ite_eq', if_pos hS.1, List.map_cons, List.sum_cons]

/-- The votes on a proposal are the weights counted of each address. -/
theorem Tallied.cast_eq (h : Tallied s)
    (hp : s.proposal pid = some p) :
    ∃ H : Finset Address,
      p.cast = ∑ a ∈ H, (s.own pid a + s.lent pid a) ∧
      ∀ a ∈ H, s.voteRecord (pid, a) ≠ none ∨
        ∃ u ∈ s.uses, u.proposalId = pid ∧ u.delegator = a := by
  obtain ⟨voters, hvoters, hsum⟩ := h.sums pid p hp
  let us := s.uses.filter fun u => u.proposalId = pid
  let H := voters ∪ (us.map Use.delegator).toFinset
  have hus : ∀ u ∈ us, u ∈ s.uses ∧ u.proposalId = pid := by
    intro u hu
    obtain ⟨hmem, hpid⟩ := List.mem_filter.mp hu
    exact ⟨hmem, of_decide_eq_true hpid⟩
  have hrecorded : p.cast = ∑ a ∈ H, s.recorded pid a := by
    have hchoices : ∀ v, s.recorded pid v =
        s.weightFor pid .for v + s.weightFor pid .against v +
          s.weightFor pid .abstain v := by
      intro v
      unfold State.recorded State.weightFor
      cases s.voteRecord (pid, v) with
      | none => rfl
      | some r =>
          obtain ⟨_, choice, weight⟩ := r
          cases choice <;> simp
    have hoff : ∀ v ∈ H, v ∉ voters → s.recorded pid v = 0 := by
      intro v _ hv
      rw [hvoters, not_not] at hv
      rw [State.recorded, hv]
    rw [← Finset.sum_subset Finset.subset_union_left hoff,
      Finset.sum_congr rfl fun v _ => hchoices v, Finset.sum_add_distrib,
      Finset.sum_add_distrib, ← hsum, ← hsum, ← hsum]
    rfl
  have hcontributed : ∑ a ∈ H, (s.contributions pid a).sum =
      (us.map Use.weight).sum := by
    rw [← sum_fibers us Use.delegate Use.weight (S := H)]
    · refine Finset.sum_congr rfl fun a _ => ?_
      rw [State.contributions, List.filter_filter]
      simp [Bool.and_comm]
    · intro u hu
      refine Finset.mem_union_left _ ((hvoters u.delegate).mpr ?_)
      have hrecord := h.recorded u (hus u hu).1
      rwa [(hus u hu).2] at hrecord
  have hlent : ∑ a ∈ H, s.lent pid a = (us.map Use.weight).sum := by
    rw [← sum_fibers us Use.delegator Use.weight (S := H)]
    · refine Finset.sum_congr rfl fun a _ => ?_
      rw [State.lent, List.filter_filter]
      simp [Bool.and_comm]
    · intro u hu
      refine Finset.mem_union_right _ (List.mem_toFinset.mpr ?_)
      exact List.mem_map_of_mem hu
  refine ⟨H, ?_, fun a ha => ?_⟩
  · rw [hrecorded, Finset.sum_add_distrib, hlent]
    simp only [State.own, Finset.sum_sub_distrib, hcontributed]
    ring
  · rcases Finset.mem_union.mp ha with ha | ha
    · exact .inl ((hvoters a).mp ha)
    · obtain ⟨u, hu, rfl⟩ := List.mem_map.mp (List.mem_toFinset.mp ha)
      exact .inr ⟨u, (hus u hu).1, (hus u hu).2, rfl⟩

/-! ## What a vote changes -/

theorem own_congr (hrecord : s'.voteRecord = s.voteRecord)
    (huses : s'.uses = s.uses) (pid : ℕ) (a : Address) :
    s'.own pid a = s.own pid a := by
  rw [State.own, State.recorded, hrecord, State.contributions, huses,
    State.own, State.recorded, State.contributions]

theorem lent_congr (huses : s'.uses = s.uses) (pid : ℕ) (a : Address) :
    s'.lent pid a = s.lent pid a := by
  rw [State.lent, huses, State.lent]

/-- A vote counts nothing for the records of others. -/
theorem own_append {us : List Use} (huses : s'.uses = s.uses ++ us)
    (hrecord : s'.voteRecord (pid, a) = s.voteRecord (pid, a))
    (hus : ∀ u ∈ us, ¬ (u.proposalId = pid ∧ u.delegate = a)) :
    s'.own pid a = s.own pid a := by
  rw [State.own, State.recorded, hrecord, contributions_append huses hus,
    State.own, State.recorded]

/-- Of the record of a vote, the weight `x` at most is the voter's own. -/
theorem State.Records.own_le {x : ℤ} (h : s.Records pid voter choice x)
    (hx : 0 ≤ x) (hws : ∀ y ∈ s.contributions pid voter, 0 ≤ y) :
    s.own pid voter ≤ x := by
  have hsum := satI128_add_satSum hx hws
  rw [State.own, State.recorded, h]
  show satI128 (x + satSum (s.contributions pid voter)) -
    (s.contributions pid voter).sum ≤ x
  omega

/-- A list without repeated keys has one entry under the key of `x`. -/
theorem filter_eq_singleton {α κ : Type*} [DecidableEq κ] {f : α → κ}
    {xs : List α} {x : α} (hnodup : (xs.map f).Nodup) (hx : x ∈ xs) :
    (xs.filter fun y => f y = f x) = [x] := by
  induction xs with
  | nil => cases hx
  | cons y ys ih =>
      rw [List.map_cons, List.nodup_cons] at hnodup
      rcases List.mem_cons.mp hx with rfl | hx
      · have hrest : (ys.filter fun y => f y = f x) = [] := by
          rw [List.filter_eq_nil_iff]
          intro y hy heq
          exact hnodup.1 (List.mem_map.mpr ⟨y, hy, of_decide_eq_true heq⟩)
        rw [List.filter_cons_of_pos (by simp), hrest]
      · have hne : f y ≠ f x := fun heq =>
          hnodup.1 (heq ▸ List.mem_map_of_mem hx)
        rw [List.filter_cons_of_neg (by simpa using hne), ih hnodup.2 hx]

/-- Nobody is counted twice, so a vote adds all that `a` lends or nothing. -/
theorem lent_append {us : List Use} (huses : s'.uses = s.uses ++ us)
    (honce : (s'.uses.map fun u => (u.proposalId, u.delegator)).Nodup)
    (pid : ℕ) (a : Address) :
    s'.lent pid a = s.lent pid a ∨
      ∃ u ∈ us, u.proposalId = pid ∧ u.delegator = a ∧
        s'.lent pid a = u.weight := by
  by_cases hcounted : ∃ u ∈ us, u.proposalId = pid ∧ u.delegator = a
  · obtain ⟨u, hu, rfl, rfl⟩ := hcounted
    have hmem : u ∈ s'.uses := by
      rw [huses]
      exact List.mem_append_right _ hu
    have hone := filter_eq_singleton honce hmem
    simp only [Prod.mk.injEq] at hone
    refine .inr ⟨u, hu, rfl, rfl, ?_⟩
    rw [State.lent, hone, List.map_cons, List.map_nil, List.sum_singleton]
  · have hnone : (us.filter fun u => u.proposalId = pid ∧ u.delegator = a) =
        [] := by
      rw [List.filter_eq_nil_iff]
      intro u hu hmem
      exact hcounted ⟨u, hu, of_decide_eq_true hmem⟩
    rw [State.lent, huses, List.filter_append, hnone, List.append_nil]
    exact .inl rfl

theorem Swept.lent_bounds {ds : List Address} {ws : List ℤ}
    (h : Swept env govToken voter pid B s ds ws s') (hw : s.Weighs) :
    ∀ u ∈ s'.uses, u ∈ s.uses ∨ u.delegator ∈ ds ∧ 0 ≤ u.weight ∧
      u.weight ≤ B.balance govToken u.delegator := by
  induction h with
  | nil => exact fun u hu => .inl hu
  | skip _ _ ih =>
      intro u hu
      refine (ih hw u hu).imp_right fun hnew => ?_
      exact ⟨List.mem_cons_of_mem _ hnew.1, hnew.2⟩
  | @count s s' d ds ws weight _ _ hweight _ ih =>
      intro u hu
      rcases ih ⟨hw.ramps, hw.aged⟩ u hu with hold | hnew
      · rw [marked_uses, List.mem_append, List.mem_singleton] at hold
        rcases hold with hold | rfl
        · exact .inl hold
        · refine .inr ⟨List.mem_cons_self, ?_⟩
          show 0 ≤ weight ∧ weight ≤ (B.balance govToken d : ℤ)
          rw [hweight]
          exact hw.bounds (Int.natCast_nonneg _)
      · exact .inr ⟨List.mem_cons_of_mem _ hnew.1, hnew.2⟩

/-- Who is counted by a vote lends at most its balance. -/
theorem Ballots.lent_bounds
    (h : Ballots env govToken voter choice tallied B lock ballots s s')
    (hw : s.Weighs) :
    ∀ u ∈ s'.uses, u ∈ s.uses ∨ u.delegator ∈ s.delegators voter ∧
      0 ≤ u.weight ∧ u.weight ≤ B.balance govToken u.delegator := by
  induction h with
  | nil => exact fun u hu => .inl hu
  | @cons s s₁ s' lock id q rest ws weight hswept _ _ _ ih =>
      intro u hu
      have hsame := hswept.upToMarks.eq
      have hw₁ : s₁.Weighs := by
        rw [hsame]
        exact ⟨hw.ramps, hw.aged⟩
      have hdelegators : s₁.delegators = s.delegators := by rw [hsame]
      rcases ih ⟨hw₁.ramps, hw₁.aged⟩ u hu with hold | hnew
      · rw [voted_uses] at hold
        exact hswept.lent_bounds hw u hold
      · rw [← hdelegators]
        exact .inr hnew

/-! ## Custody -/

theorem custody_add {x : ℤ} (hnext : s'.nextProposalId = s.nextProposalId)
    (hpid : pid < s.nextProposalId)
    (hlocks : ∀ q, s'.lockedBalance (q, a) =
      s.lockedBalance (q, a) + if q = pid then x else 0) :
    s'.custody a = s.custody a + x := by
  rw [State.custody, hnext, Finset.sum_congr rfl fun q _ => hlocks q,
    Finset.sum_add_distrib, Finset.sum_ite_eq',
    if_pos (Finset.mem_range.mpr hpid), State.custody]

/-- A new proposal has nothing in custody. -/
theorem custody_congr (hlocks : s'.lockedBalance = s.lockedBalance)
    (hnext : s.nextProposalId ≤ s'.nextProposalId)
    (hfree : ∀ q, s.nextProposalId ≤ q → s.lockedBalance (q, a) = 0) :
    s'.custody a = s.custody a := by
  rw [State.custody, hlocks]
  symm
  refine Finset.sum_subset (Finset.range_subset_range.mpr hnext) ?_
  intro q _ hq
  rw [Finset.mem_range, not_lt] at hq
  exact hfree q hq

end Parashield.GovernanceDao
