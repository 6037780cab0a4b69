import Mathlib.Algebra.BigOperators.Group.Finset.Basic
import Parashield.GovernanceDao.Stages

/-!
# Governance DAO: tallies

The three tallies of a proposal are the sums of the weights of its vote
records.  A record contains the voter's own weight and that of the delegators
its events name, each of which is in one record of the proposal at most.
-/

namespace Parashield.GovernanceDao

open Support Support.Contract Invocation

variable {self govToken voter : Address} {env : Env} {s s' s₁ : State}
  {m m' : Machine State} {w w' : World State} {pid : ℕ} {p p' : Proposal}
  {B : Bank} {e : Entry}

/-! ## Delegated weight in records -/

/-- The weight of `delegator` is counted in the record of `delegate`. -/
structure Use where
  proposalId : ℕ
  delegate : Address
  delegator : Address
  weight : ℤ

def Event.use : Event → Option Use
  | .delegationUsed pid delegate delegator weight =>
      some ⟨pid, delegate, delegator, weight⟩
  | _ => none

/-- All delegated weight counted so far, oldest first. -/
def State.uses (s : State) : List Use :=
  s.events.reverse.filterMap Event.use

/-- The delegated weight in the record of `voter` on `pid`. -/
def State.contributions (s : State) (pid : ℕ) (voter : Address) : List ℤ :=
  (s.uses.filter fun u => u.proposalId = pid ∧ u.delegate = voter).map
    Use.weight

theorem uses_of_events (news : List Event)
    (h : s'.events = news ++ s.events) :
    s'.uses = s.uses ++ news.reverse.filterMap Event.use := by
  rw [State.uses, h, List.reverse_append, List.filterMap_append, State.uses]

theorem uses_of_silent (news : List Event)
    (h : s'.events = news ++ s.events) (hnews : ∀ ev ∈ news, ev.use = none) :
    s'.uses = s.uses := by
  rw [uses_of_events news h, List.filterMap_eq_nil_iff.mpr, List.append_nil]
  intro ev hev
  exact hnews ev (List.mem_reverse.mp hev)

theorem marked_uses {delegator : Address} {weight : ℤ} :
    (s.marked pid voter delegator weight).uses =
      s.uses ++ [⟨pid, voter, delegator, weight⟩] :=
  uses_of_events [.delegationUsed pid voter delegator weight] rfl

theorem satI128_of_range {x : ℤ} (h : InI128 x) : satI128 x = x := by
  obtain ⟨hmin, hmax⟩ := h
  unfold satI128 minI128 maxI128
  omega

theorem satI128_range (x : ℤ) : InI128 (satI128 x) := by
  unfold satI128 minI128 maxI128 InI128
  omega

/-- The delegators counted by one sweep: none was marked before, all are
afterwards. -/
structure SweptUses (pid : ℕ) (voter : Address) (s s' : State)
    (us : List Use) : Prop where
  uses : s'.uses = s.uses ++ us
  ballot : ∀ u ∈ us, u.proposalId = pid ∧ u.delegate = voter
  fresh : ∀ u ∈ us, s.delegatedVote (pid, u.delegator) = false
  marked : ∀ u ∈ us, s'.delegatedVote (pid, u.delegator) = true
  kept : ∀ k, s.delegatedVote k = true → s'.delegatedVote k = true
  distinct : (us.map Use.delegator).Nodup

/-- What a sweep adds up are the weights of the delegators it counts. -/
theorem Swept.sweptUses {ds : List Address} {ws : List ℤ}
    (h : Swept env govToken voter pid B s ds ws s') :
    ∃ us, SweptUses pid voter s s' us ∧
      ∀ total, InI128 total →
        ws.foldl (fun total w => satI128 (total + w)) total =
          (us.map Use.weight).foldl (fun total w => satI128 (total + w))
            total := by
  induction h with
  | nil s =>
      exact ⟨[], ⟨by simp, by simp, by simp, by simp, fun _ hk => hk,
        List.nodup_nil⟩, fun _ _ => rfl⟩
  | skip _ _ ih =>
      obtain ⟨us, hus, hsum⟩ := ih
      refine ⟨us, hus, fun total htotal => ?_⟩
      rw [List.foldl_cons, add_zero, satI128_of_range htotal]
      exact hsum total htotal
  | @count s s' d ds ws weight _ hunmarked _ _ ih =>
      obtain ⟨us, hus, hsum⟩ := ih
      have hd : (s.marked pid voter d weight).delegatedVote (pid, d) = true :=
        Function.update_self ..
      have hne : ∀ u ∈ us, u.delegator ≠ d := by
        intro u hu heq
        have hfresh := hus.fresh u hu
        rw [heq, hd] at hfresh
        cases hfresh
      refine ⟨⟨pid, voter, d, weight⟩ :: us, ?_, fun total _ => ?_⟩
      · constructor
        · rw [hus.uses, marked_uses, List.append_assoc]
          rfl
        · exact List.forall_mem_cons.mpr ⟨⟨rfl, rfl⟩, hus.ballot⟩
        · refine List.forall_mem_cons.mpr ⟨hunmarked, fun u hu => ?_⟩
          rw [← hus.fresh u hu]
          exact (Function.update_of_ne (by simp [hne u hu]) _ _).symm
        · exact List.forall_mem_cons.mpr ⟨hus.kept _ hd, hus.marked⟩
        · intro k hk
          refine hus.kept k ?_
          by_cases hkey : k = (pid, d)
          · exact hkey ▸ hd
          · exact (Function.update_of_ne hkey _ _).trans hk
        · rw [List.map_cons, List.nodup_cons]
          refine ⟨fun hmem => ?_, hus.distinct⟩
          obtain ⟨u, hu, heq⟩ := List.mem_map.mp hmem
          exact hne u hu heq
      · rw [List.foldl_cons, List.map_cons, List.foldl_cons]
        exact hsum _ (satI128_range _)

/-! ## Tallies -/

/-- What the record of `voter` adds to the tally of `choice`. -/
def State.weightFor (s : State) (pid : ℕ) (choice : VoteChoice)
    (voter : Address) : ℤ :=
  match s.voteRecord (pid, voter) with
  | some r => if r.choice = choice then r.weight else 0
  | none => 0

/-- The tallies of `p` are those of the records on `pid`. -/
def State.Sums (s : State) (pid : ℕ) (p : Proposal) : Prop :=
  ∃ voters : Finset Address,
    (∀ v, v ∈ voters ↔ s.voteRecord (pid, v) ≠ none) ∧
      ∀ choice, p.votes choice = ∑ v ∈ voters, s.weightFor pid choice v

/-- The tallies mirror the records, and the events mirror the marks. -/
structure Tallied (s : State) : Prop where
  sums : ∀ pid p, s.proposal pid = some p → s.Sums pid p
  filed : ∀ pid v r, s.voteRecord (pid, v) = some r → r.voter = v
  unopened : ∀ pid v, s.proposal pid = none → s.voteRecord (pid, v) = none
  marked : ∀ u ∈ s.uses, s.delegatedVote (u.proposalId, u.delegator) = true
  recorded : ∀ u ∈ s.uses, s.voteRecord (u.proposalId, u.delegate) ≠ none
  once : (s.uses.map fun u => (u.proposalId, u.delegator)).Nodup

theorem tallied_deployed : Tallied State.deployed where
  sums _ _ h := by cases h
  filed _ _ _ h := by cases h
  unopened _ _ _ := rfl
  marked _ h := by cases h
  recorded _ h := by cases h
  once := List.nodup_nil

/-- Votes and records are as before; a proposal may be closed or renamed. -/
structure SameTally (s s' : State) : Prop where
  votes : ∀ pid, (s'.proposal pid).map Proposal.votes =
    (s.proposal pid).map Proposal.votes
  voteRecord : s'.voteRecord = s.voteRecord
  delegatedVote : s'.delegatedVote = s.delegatedVote
  uses : s'.uses = s.uses

theorem Tallied.same (h : Tallied s) (hsame : SameTally s s') : Tallied s' where
  sums pid p' hp' := by
    have hvotes := hsame.votes pid
    rw [hp', Option.map_some] at hvotes
    obtain ⟨p, hp, hpp'⟩ := Option.map_eq_some_iff.mp hvotes.symm
    obtain ⟨voters, hvoters, hsum⟩ := h.sums pid p hp
    refine ⟨voters, by rw [hsame.voteRecord]; exact hvoters, fun choice => ?_⟩
    rw [← hpp', hsum choice]
    refine Finset.sum_congr rfl fun v _ => ?_
    rw [State.weightFor, State.weightFor, hsame.voteRecord]
  filed := by
    rw [hsame.voteRecord]
    exact h.filed
  unopened pid v hp' := by
    have hvotes := hsame.votes pid
    rw [hp', Option.map_none] at hvotes
    rw [hsame.voteRecord]
    exact h.unopened pid v (Option.map_eq_none_iff.mp hvotes.symm)
  marked := by
    rw [hsame.uses, hsame.delegatedVote]
    exact h.marked
  recorded := by
    rw [hsame.uses, hsame.voteRecord]
    exact h.recorded
  once := by
    rw [hsame.uses]
    exact h.once

/-! ## Votes -/

theorem Proposal.setVotes_votes (p : Proposal) (choice c : VoteChoice)
    (votes : ℤ) : (p.setVotes choice votes).votes c =
      if c = choice then votes else p.votes c := by
  cases choice <;> cases c <;> rfl

section Ballot

variable {choice : VoteChoice} {weight own lock : ℤ} {us : List Use}
  {ballots : List (ℕ × Proposal)}

theorem voted_uses : (s.voted pid p ⟨voter, choice, weight⟩ lock).uses =
    s.uses :=
  uses_of_silent [.voteCast pid voter choice weight] rfl (by simp [Event.use])

theorem voted_weightFor {id : ℕ} {v : Address} {c : VoteChoice}
    (hne : (id, v) ≠ (pid, voter)) :
    (s.voted pid p ⟨voter, choice, weight⟩ lock).weightFor id c v =
      s.weightFor id c v := by
  have hrecord : (s.voted pid p ⟨voter, choice, weight⟩ lock).voteRecord
      (id, v) = s.voteRecord (id, v) :=
    Function.update_of_ne hne _ _
  rw [State.weightFor, hrecord, State.weightFor]

/-- The new record adds its weight to the tally of its choice. -/
theorem sums_voted (hsums : ∀ id q, s.proposal id = some q → s.Sums id q)
    (hp : s.proposal pid = some p)
    (hunvoted : s.voteRecord (pid, voter) = none) {id : ℕ} {q : Proposal}
    (hq : (s.voted pid p ⟨voter, choice, weight⟩ lock).proposal id = some q) :
    (s.voted pid p ⟨voter, choice, weight⟩ lock).Sums id q := by
  change Function.update s.proposal pid _ id = some q at hq
  by_cases hid : id = pid
  · subst hid
    rw [Function.update_self, Option.some.injEq] at hq
    obtain ⟨voters, hvoters, hsum⟩ := hsums id p hp
    have hfresh : voter ∉ voters := by
      rw [hvoters]
      exact not_not_intro hunvoted
    refine ⟨insert voter voters, fun v => ?_, fun c => ?_⟩
    · rw [Finset.mem_insert, hvoters]
      show _ ↔ Function.update s.voteRecord (id, voter) _ (id, v) ≠ none
      by_cases hv : v = voter
      · simp [hv]
      · simp [hv]
    · have hown : (s.voted id p ⟨voter, choice, weight⟩ lock).weightFor id c
          voter = if choice = c then weight else 0 := by
        have hrecord : (s.voted id p ⟨voter, choice, weight⟩ lock).voteRecord
            (id, voter) = some ⟨voter, choice, weight⟩ :=
          Function.update_self ..
        rw [State.weightFor, hrecord]
      have hothers : ∑ v ∈ voters,
          (s.voted id p ⟨voter, choice, weight⟩ lock).weightFor id c v =
            ∑ v ∈ voters, s.weightFor id c v := by
        refine Finset.sum_congr rfl fun v hv => voted_weightFor ?_
        rintro heq
        exact hfresh ((Prod.mk.inj heq).2 ▸ hv)
      rw [Finset.sum_insert hfresh, hown, hothers, ← hsum c, ← hq,
        Proposal.setVotes_votes]
      by_cases hc : c = choice
      · rw [if_pos hc, if_pos hc.symm, hc]
        exact add_comm _ _
      · rw [if_neg hc, if_neg (Ne.symm hc), zero_add]
  · rw [Function.update_of_ne hid] at hq
    obtain ⟨voters, hvoters, hsum⟩ := hsums id q hq
    have hne : ∀ v, (id, v) ≠ (pid, voter) := fun v heq =>
      hid (Prod.mk.inj heq).1
    refine ⟨voters, fun v => ?_, fun c => ?_⟩
    · rw [hvoters]
      show _ ↔ Function.update s.voteRecord (pid, voter) _ (id, v) ≠ none
      rw [Function.update_of_ne (hne v)]
    · rw [hsum c]
      exact Finset.sum_congr rfl fun v _ => (voted_weightFor (hne v)).symm

/-- A sweep adds no record and counts nobody twice. -/
theorem Tallied.swept (h : Tallied s) (hsame : UpToMarks s s₁)
    (hus : SweptUses pid voter s s₁ us) :
    (∀ id q, s₁.proposal id = some q → s₁.Sums id q) ∧
      (∀ u ∈ s₁.uses, s₁.delegatedVote (u.proposalId, u.delegator) = true) ∧
      (s₁.uses.map fun u => (u.proposalId, u.delegator)).Nodup := by
  have hproposal : s₁.proposal = s.proposal := by rw [hsame.eq]
  have hrecord : s₁.voteRecord = s.voteRecord := by rw [hsame.eq]
  refine ⟨fun id q hq => ?_, fun u hu => ?_, ?_⟩
  · obtain ⟨voters, hvoters, hsum⟩ := h.sums id q (hproposal ▸ hq)
    refine ⟨voters, by rw [hrecord]; exact hvoters, fun c => ?_⟩
    rw [hsum c]
    refine Finset.sum_congr rfl fun v _ => ?_
    rw [State.weightFor, State.weightFor, hrecord]
  · rw [hus.uses, List.mem_append] at hu
    rcases hu with hu | hu
    · exact hus.kept _ (h.marked u hu)
    · rw [(hus.ballot u hu).1]
      exact hus.marked u hu
  · rw [hus.uses, List.map_append, List.nodup_append]
    refine ⟨h.once, ?_, ?_⟩
    · refine List.Nodup.of_map Prod.snd ?_
      rw [List.map_map]
      exact hus.distinct
    · intro k hk k' hk' heq
      obtain ⟨u, hu, rfl⟩ := List.mem_map.mp hk
      obtain ⟨u', hu', rfl⟩ := List.mem_map.mp hk'
      have hmarked := h.marked u hu
      rw [heq, (hus.ballot u' hu').1, hus.fresh u' hu'] at hmarked
      cases hmarked

theorem Tallied.ballot (h : Tallied s) (hsame : UpToMarks s s₁)
    (hus : SweptUses pid voter s s₁ us) (hp : s.proposal pid = some p)
    (hunvoted : s.voteRecord (pid, voter) = none) :
    Tallied (s₁.voted pid p ⟨voter, choice, weight⟩ lock) := by
  obtain ⟨hsums, hmarked, honce⟩ := h.swept hsame hus
  have hproposal : s₁.proposal = s.proposal := by rw [hsame.eq]
  have hrecord : s₁.voteRecord = s.voteRecord := by rw [hsame.eq]
  have hkey : ∀ k, (s₁.voted pid p ⟨voter, choice, weight⟩ lock).voteRecord k =
      if k = (pid, voter) then some ⟨voter, choice, weight⟩
      else s.voteRecord k := by
    intro k
    rw [← hrecord]
    exact Function.update_apply ..
  constructor
  case sums =>
    exact fun id q hq => sums_voted hsums (hproposal ▸ hp) (hrecord ▸ hunvoted) hq
  case filed =>
    intro id v r hr
    rw [hkey] at hr
    split at hr
    · next heq =>
        obtain rfl := Option.some.inj hr
        exact (Prod.mk.inj heq).2.symm
    · exact h.filed id v r hr
  case unopened =>
    intro id v hnone
    change Function.update s₁.proposal pid _ id = none at hnone
    by_cases hid : id = pid
    · rw [hid, Function.update_self] at hnone
      cases hnone
    · rw [Function.update_of_ne hid, hproposal] at hnone
      rw [hkey, if_neg fun heq => hid (Prod.mk.inj heq).1]
      exact h.unopened id v hnone
  case marked =>
    rw [voted_uses]
    exact hmarked
  case recorded =>
    intro u hu
    rw [voted_uses, hus.uses, List.mem_append] at hu
    rw [hkey]
    split
    · exact nofun
    · next hne =>
        rcases hu with hu | hu
        · exact h.recorded u hu
        · exact absurd (Prod.ext (hus.ballot u hu).1 (hus.ballot u hu).2) hne
  case once =>
    rw [voted_uses]
    exact honce

/-! ### Batches -/

/-- The votes of a batch add records of the voter on its proposals only. -/
theorem Ballots.voteRecord_of_ne
    (h : Ballots env govToken voter choice own B lock ballots s s')
    {k : ℕ × Address} (hk : k.1 ∈ ballots.map Prod.fst → k.2 ≠ voter) :
    s'.voteRecord k = s.voteRecord k := by
  induction h with
  | nil => rfl
  | @cons s s₁ s' lock id q rest ws weight hswept _ _ _ ih =>
      have hne : k ≠ (id, voter) := by
        rintro rfl
        exact hk List.mem_cons_self rfl
      have hsame : s₁.voteRecord = s.voteRecord := by
        rw [hswept.upToMarks.eq]
      rw [ih fun hmem => hk (List.mem_cons_of_mem _ hmem)]
      exact (Function.update_of_ne hne _ _).trans (congrFun hsame k)

theorem Ballots.uses
    (h : Ballots env govToken voter choice own B lock ballots s s') :
    ∃ us : List Use, s'.uses = s.uses ++ us ∧
      ∀ u ∈ us, u.proposalId ∈ ballots.map Prod.fst ∧ u.delegate = voter := by
  induction h with
  | nil => exact ⟨[], by simp, by simp⟩
  | @cons s s₁ s' lock id q rest ws weight hswept _ _ _ ih =>
      obtain ⟨us, hus, -⟩ := hswept.sweptUses
      obtain ⟨later, hlater, hballot⟩ := ih
      refine ⟨us ++ later, ?_, fun u hu => ?_⟩
      · rw [hlater, voted_uses, hus.uses, List.append_assoc]
      · rcases List.mem_append.mp hu with hu | hu
        · obtain ⟨hpid, hvoter⟩ := hus.ballot u hu
          exact ⟨hpid ▸ List.mem_cons_self, hvoter⟩
        · exact ⟨List.mem_cons_of_mem _ (hballot u hu).1, (hballot u hu).2⟩

/-- What is counted for others leaves a record alone. -/
theorem contributions_append {id : ℕ}
    (h : s'.uses = s.uses ++ us)
    (hus : ∀ u ∈ us, ¬ (u.proposalId = id ∧ u.delegate = voter)) :
    s'.contributions id voter = s.contributions id voter := by
  have hnone : us.filter (fun u => u.proposalId = id ∧ u.delegate = voter) =
      [] := by
    rw [List.filter_eq_nil_iff]
    intro u hu
    simpa using hus u hu
  rw [State.contributions, h, List.filter_append, hnone, List.append_nil,
    State.contributions]

/-- A record on `pid` with the weight `own` of the voter and what its
delegators contribute. -/
def State.Records (s : State) (pid : ℕ) (voter : Address)
    (choice : VoteChoice) (own : ℤ) : Prop :=
  s.voteRecord (pid, voter) = some ⟨voter, choice,
    satI128 (own + satSum (s.contributions pid voter))⟩

/-- Before the vote, the record of the voter contains nothing. -/
theorem Tallied.filter_uses_append (h : Tallied s)
    (hunvoted : s.voteRecord (pid, voter) = none)
    (hus : ∀ u ∈ us, u.proposalId = pid ∧ u.delegate = voter) :
    (s.uses ++ us).filter (fun u => u.proposalId = pid ∧ u.delegate = voter) =
      us := by
  have hnone : s.uses.filter
      (fun u => u.proposalId = pid ∧ u.delegate = voter) = [] := by
    rw [List.filter_eq_nil_iff]
    intro u hu hmem
    have hrecord := h.recorded u hu
    obtain ⟨hpid, hvoter⟩ := of_decide_eq_true hmem
    rw [hpid, hvoter] at hrecord
    exact hrecord hunvoted
  rw [List.filter_append, hnone, List.nil_append, List.filter_eq_self]
  intro u hu
  exact decide_eq_true (hus u hu)

theorem Ballots.tallied
    (h : Ballots env govToken voter choice own B lock ballots s s')
    (ht : Tallied s) (hnodup : (ballots.map Prod.fst).Nodup)
    (heligible : ∀ b ∈ ballots, s.proposal b.1 = some b.2 ∧
      s.voteRecord (b.1, voter) = none) :
    Tallied s' ∧ ∀ b ∈ ballots, s'.Records b.1 voter choice own := by
  induction h with
  | nil => exact ⟨ht, by simp⟩
  | @cons s s₁ s' lock id q rest ws weight hswept hweight _ hrest ih =>
      obtain ⟨us, hus, hsum⟩ := hswept.sweptUses
      rw [List.map_cons, List.nodup_cons] at hnodup
      rw [List.forall_mem_cons] at heligible
      obtain ⟨⟨hq, hunvoted⟩, heligible⟩ := heligible
      have hsame := hswept.upToMarks
      have hproposal : s₁.proposal = s.proposal := by rw [hsame.eq]
      have hrecord : s₁.voteRecord = s.voteRecord := by rw [hsame.eq]
      have hothers : ∀ b ∈ rest, b.1 ≠ id := by
        rintro b hb rfl
        exact hnodup.1 (List.mem_map.mpr ⟨b, hb, rfl⟩)
      obtain ⟨htallied, hrecords⟩ := ih (ht.ballot hsame hus hq hunvoted)
        hnodup.2 (fun b hb => ⟨
          (Function.update_of_ne (hothers b hb) _ _).trans
            (hproposal ▸ (heligible b hb).1),
          (Function.update_of_ne (by simp [hothers b hb]) _ _).trans
            (hrecord ▸ (heligible b hb).2)⟩)
      refine ⟨htallied, List.forall_mem_cons.mpr ⟨?_, hrecords⟩⟩
      have hown : s'.voteRecord (id, voter) = some ⟨voter, choice, weight⟩ := by
        rw [hrest.voteRecord_of_ne fun hmem => absurd hmem hnodup.1]
        exact Function.update_self ..
      have hcontributions : s'.contributions id voter = us.map Use.weight := by
        obtain ⟨later, hlater, hballot⟩ := hrest.uses
        have hids : ∀ u ∈ later,
            ¬ (u.proposalId = id ∧ u.delegate = voter) := by
          rintro u hu ⟨rfl, -⟩
          exact hnodup.1 (hballot u hu).1
        rw [contributions_append hlater hids, State.contributions,
          voted_uses, hus.uses, ht.filter_uses_append hunvoted hus.ballot]
      have htotal : satSum ws = satSum (us.map Use.weight) :=
        hsum 0 (by decide)
      rw [State.Records, hown, hcontributions, hweight, htotal]

end Ballot

/-! ## Calls that do not vote -/

theorem Proposal.votes_congr (hfor : p'.votesFor = p.votesFor)
    (hagainst : p'.votesAgainst = p.votesAgainst)
    (habstain : p'.votesAbstain = p.votesAbstain) : p'.votes = p.votes := by
  funext choice
  cases choice
  · exact hfor
  · exact hagainst
  · exact habstain

theorem sameTally_of_update {q q' : Proposal} (news : List Event)
    (hq : s.proposal pid = some q)
    (hproposal : s'.proposal = Function.update s.proposal pid (some q'))
    (hvotes : q'.votes = q.votes)
    (hrecord : s'.voteRecord = s.voteRecord)
    (hmarks : s'.delegatedVote = s.delegatedVote)
    (hevents : s'.events = news ++ s.events)
    (hnews : ∀ ev ∈ news, ev.use = none) : SameTally s s' where
  votes id := by
    rw [hproposal]
    by_cases hid : id = pid
    · rw [hid, Function.update_self, hq, Option.map_some, Option.map_some,
        hvotes]
    · rw [Function.update_of_ne hid]
  voteRecord := hrecord
  delegatedVote := hmarks
  uses := uses_of_silent news hevents hnews

theorem sameTally_of_eq (news : List Event)
    (hproposal : s'.proposal = s.proposal)
    (hrecord : s'.voteRecord = s.voteRecord)
    (hmarks : s'.delegatedVote = s.delegatedVote)
    (hevents : s'.events = news ++ s.events)
    (hnews : ∀ ev ∈ news, ev.use = none) : SameTally s s' where
  votes id := by rw [hproposal]
  voteRecord := hrecord
  delegatedVote := hmarks
  uses := uses_of_silent news hevents hnews

/-- Only votes touch the tallies; a creation starts new ones. -/
theorem Change.tally (h : Change env e m m') :
    SameTally m.store m'.store ∨
      (∃ o, e.opening env = some o ∧ Opened env o m m') ∨
      ∃ voter choice ballots,
        e.voting = some (voter, ballots.map Prod.fst, choice) ∧
          Voted env voter choice ballots m m' := by
  cases h with
  | opened ho h => exact .inr (.inl ⟨_, ho, h⟩)
  | voted he h => exact .inr (.inr ⟨_, _, _, he, h⟩)
  | aside _ hbook _ =>
      exact .inl (sameTally_of_eq [] hbook.proposal hbook.voteRecord
        hbook.delegatedVote hbook.events (by simp))
  | initialized h =>
      obtain ⟨-, _, _, -, -, rfl⟩ := h
      exact .inl (sameTally_of_eq [] rfl rfl rfl rfl (by simp))
  | configured h =>
      obtain ⟨-, _, -, rfl⟩ := h
      exact .inl (sameTally_of_eq [] rfl rfl rfl rfl (by simp))
  | delegated _ _ _ heq =>
      exact .inl (heq ▸ sameTally_of_eq [] rfl rfl rfl rfl (by simp))
  | revoked _ _ _ heq =>
      exact .inl (heq ▸ sameTally_of_eq [] rfl rfl rfl rfl (by simp))
  | @withdrawn voter pid _ h =>
      obtain ⟨_, _, -, -, rfl⟩ := h.change
      exact .inl (sameTally_of_eq [.tokensWithdrawn pid voter _] rfl
        rfl rfl rfl (by simp [Event.use]))
  | passed _ h =>
      obtain ⟨q, _, _, hq, -, -, -, -, rfl⟩ := h
      exact .inl (sameTally_of_update [_] hq rfl
        (q.votes_congr rfl rfl rfl) rfl rfl rfl (by simp [Event.use]))
  | refunded _ h =>
      obtain ⟨q, _, _, ev, _, hq, -, -, -, hev, -, rfl⟩ := h.change
      have hsilent : ev.use = none := by
        rcases hev with rfl | rfl | rfl <;> rfl
      exact .inl (sameTally_of_update [ev] hq rfl
        (q.votes_congr rfl rfl rfl) rfl rfl rfl (by simp [hsilent]))
  | started _ h =>
      obtain ⟨q, _, hq, -, -, -, -, rfl⟩ := h
      exact .inl (sameTally_of_update [_] hq rfl
        (q.votes_congr rfl rfl rfl) rfl rfl rfl (by simp [Event.use]))
  | lapsed _ h =>
      obtain ⟨q, hdue, -, rfl⟩ := h
      exact .inl (sameTally_of_update [_] hdue.stored
        rfl (q.votes_congr rfl rfl rfl) rfl rfl rfl (by simp [Event.use]))
  | executed _ h =>
      obtain ⟨q, _, _, _, _, hdue, -, -, -, -, -, -, rfl⟩ := h
      exact .inl (sameTally_of_update [_, _] hdue.stored
        rfl (q.votes_congr rfl rfl rfl) rfl rfl rfl (by simp [Event.use]))
  | vetoed _ h =>
      obtain ⟨q, _, hq, -, -, rfl⟩ := h.change
      exact .inl (sameTally_of_update [_] hq rfl
        (q.votes_congr rfl rfl rfl) rfl rfl rfl (by simp [Event.use]))

/-! ## Every change -/

/-- A new proposal has no votes and no records. -/
theorem Tallied.opened {o : Opening} (h : Tallied m.store)
    (hm : Numbered m.store) (hopened : Opened env o m m') :
    Tallied m'.store := by
  obtain ⟨config, B, -, -, rfl⟩ := hopened.change
  have hfree : m.store.proposal m.store.nextProposalId = none := by
    by_contra hsome
    obtain ⟨q, hq⟩ := Option.ne_none_iff_exists'.mp hsome
    exact lt_irrefl _ (hm.stored _ q hq).2
  have huses : (o.store env m.store config).uses = m.store.uses :=
    uses_of_silent
      [.proposalCreated m.store.nextProposalId o.proposer o.target
        o.function] rfl (by simp [Event.use])
  constructor
  case sums =>
    intro pid p hp
    change Function.update m.store.proposal _ _ pid = some p at hp
    by_cases hid : pid = m.store.nextProposalId
    · rw [hid, Function.update_self, Option.some.injEq] at hp
      refine ⟨∅, fun v => ?_, fun choice => ?_⟩
      · show _ ↔ m.store.voteRecord (pid, v) ≠ none
        simp [hid, h.unopened _ v hfree]
      · rw [← hp, Finset.sum_empty]
        cases choice <;> rfl
    · rw [Function.update_of_ne hid] at hp
      exact h.sums pid p hp
  case filed => exact h.filed
  case unopened =>
    intro pid v hnone
    change Function.update m.store.proposal _ _ pid = none at hnone
    by_cases hid : pid = m.store.nextProposalId
    · exact hid ▸ h.unopened _ v hfree
    · rw [Function.update_of_ne hid] at hnone
      exact h.unopened pid v hnone
  case marked =>
    rw [huses]
    exact h.marked
  case recorded =>
    rw [huses]
    exact h.recorded
  case once =>
    rw [huses]
    exact h.once

/-- A vote files the voter's records and leaves all else in order. -/
theorem Voted.tallied {choice : VoteChoice} {ballots : List (ℕ × Proposal)}
    (h : Voted env voter choice ballots m m') (ht : Tallied m.store) :
    Tallied m'.store ∧ ∃ config, m.store.config = some config ∧
      ∀ b ∈ ballots, m'.store.Records b.1 voter choice
        (m.store.timeWeighted env.now voter
          (config.capped (m.bank.balance config.govToken voter))) := by
  obtain ⟨config, _, _, _, _, hconfig, -, rfl, -, -, hballots, rfl⟩ := h.change
  obtain ⟨htallied, hrecords⟩ := hballots.tallied ht h.distinct fun b hb =>
    ⟨(h.eligible b hb).stored, (h.eligible b hb).unvoted⟩
  exact ⟨htallied, config, hconfig, hrecords⟩

theorem Change.tallied (h : Change env e m m') (hm : Numbered m.store)
    (ht : Tallied m.store) : Tallied m'.store := by
  rcases h.tally with hsame | ⟨o, -, hopened⟩ | ⟨_, _, _, -, hvoted⟩
  · exact ht.same hsame
  · exact ht.opened hm hopened
  · exact (hvoted.tallied ht).1

theorem tallied_inductive (self : Address) :
    (system self).Inductive fun w =>
      Numbered w.machine.store ∧ Tallied w.machine.store := by
  refine (numbered_inductive self).and (fun w hw => ?_)
    (fun w l w' hm _ ht hstep => ?_)
  · rw [hw.1]
    exact tallied_deployed
  · cases hstep with
    | call _ hexec =>
        refine (changes_keep
          (I := fun m => Numbered m.store ∧ Tallied m.store) ?_
          (exec_changes hexec) ⟨hm, ht⟩).2
        exact fun m m' hchange h =>
          ⟨hchange.numbered h.1, hchange.tallied h.1 h.2⟩
    | tick => exact ht
    | transfer => exact ht
    | mint => exact ht

/-! ## One call -/

/-- A call that is no vote leaves all records and tallies alone. -/
theorem exec_records {a : Unit} (h : exec env e m = .ok (a, m'))
    (hm : Numbered m.store) :
    (m'.store.voteRecord = m.store.voteRecord ∧
        ∀ pid p, m.store.proposal pid = some p →
          ∃ p', m'.store.proposal pid = some p' ∧ p'.votes = p.votes) ∨
      ∃ voter choice ballots,
        e.voting = some (voter, ballots.map Prod.fst, choice) ∧
          Voted env voter choice ballots m m' := by
  have hsame : ∀ {s s' : State}, SameTally s s' → ∀ pid p,
      s.proposal pid = some p →
        ∃ p', s'.proposal pid = some p' ∧ p'.votes = p.votes := by
    intro s s' hsame pid p hp
    have hvotes := hsame.votes pid
    rw [hp, Option.map_some] at hvotes
    exact Option.map_eq_some_iff.mp hvotes
  by_cases he : ∃ handles ids, e = .finalizeBatch handles ids
  · obtain ⟨handles, ids, rfl⟩ := he
    refine .inl (changes_keep
      (I := fun m₁ => m₁.store.voteRecord = m.store.voteRecord ∧
        ∀ pid p, m.store.proposal pid = some p →
          ∃ p', m₁.store.proposal pid = some p' ∧ p'.votes = p.votes) ?_
      (exec_changes h) ⟨rfl, fun pid p hp => ⟨p, hp, rfl⟩⟩)
    rintro m₁ m₂ hchange ⟨hrecord, hvotes⟩
    rcases hchange.tally with htally | ⟨_, heq, -⟩ | ⟨_, _, _, heq, -⟩
    · refine ⟨htally.voteRecord.trans hrecord, fun pid p hp => ?_⟩
      obtain ⟨p₁, hp₁, heq⟩ := hvotes pid p hp
      obtain ⟨p₂, hp₂, heq'⟩ := hsame htally pid p₁ hp₁
      exact ⟨p₂, hp₂, heq'.trans heq⟩
    · cases heq
    · cases heq
  · push Not at he
    cases exec_single h he with
    | refl => exact .inl ⟨rfl, fun pid p hp => ⟨p, hp, rfl⟩⟩
    | single hchange =>
        rcases hchange.tally with htally | ⟨o, -, hopened⟩ |
            ⟨voter, choice, ballots, hvoting, hvoted⟩
        · exact .inl ⟨htally.voteRecord, hsame htally⟩
        · obtain ⟨_, _, -, -, rfl⟩ := hopened.change
          refine .inl ⟨rfl, fun pid p hp => ⟨p, ?_, rfl⟩⟩
          have hne : pid ≠ m.store.nextProposalId := by
            have hlt := (hm.stored pid p hp).2
            omega
          exact (Function.update_of_ne hne _ _).trans hp
        · exact .inr ⟨voter, choice, ballots, hvoting, hvoted⟩

/-- The record `r` of `voter` on `pid` was made in the step from `w` to `w'`:
it holds the weight of the voter's own tokens, up to the cap, and of the
delegators counted for it, and no record holds the voter as a delegator. -/
structure RecordedBy (w w' : World State) (pid : ℕ) (voter : Address)
    (r : VoteRecord) : Prop where
  weight : ∃ config, w.machine.store.config = some config ∧
    r.weight = satI128 (w.machine.store.timeWeighted w.now voter
      (config.capped (w.machine.bank.balance config.govToken voter)) +
        satSum (w'.machine.store.contributions pid voter))
  uncounted : ∀ u ∈ w.machine.store.uses,
    ¬ (u.proposalId = pid ∧ u.delegator = voter)

/-- A vote leaves the records of others alone and makes its own anew. -/
theorem Voted.record {signers : List Address} {choice : VoteChoice}
    {ballots : List (ℕ × Proposal)}
    (h : Voted (callEnv self w signers) voter choice ballots w.machine m')
    (ht : Tallied w.machine.store) (pid : ℕ) (v : Address) (r : VoteRecord) :
    (w.machine.store.voteRecord (pid, v) = some r →
        m'.store.voteRecord (pid, v) = some r) ∧
      (w.machine.store.voteRecord (pid, v) = none →
        m'.store.voteRecord (pid, v) = some r →
          RecordedBy w { w with machine := m' } pid v r) := by
  by_cases hown : pid ∈ ballots.map Prod.fst ∧ v = voter
  · obtain ⟨hmem, rfl⟩ := hown
    obtain ⟨b, hb, rfl⟩ := List.mem_map.mp hmem
    have heligible := h.eligible b hb
    constructor
    · intro hsome
      rw [heligible.unvoted] at hsome
      cases hsome
    · intro _ hsome
      obtain ⟨-, config, hconfig, hrecords⟩ := h.tallied ht
      have hrecord := hrecords b hb
      rw [State.Records, hsome, Option.some.injEq] at hrecord
      refine ⟨⟨config, hconfig, ?_⟩, fun u hu heq => ?_⟩
      · rw [hrecord]
        rfl
      · have hmarked := ht.marked u hu
        rw [heq.1, heq.2, heligible.uncounted] at hmarked
        cases hmarked
  · have hsame : m'.store.voteRecord (pid, v) =
        w.machine.store.voteRecord (pid, v) := by
      obtain ⟨_, _, _, _, _, -, -, -, -, -, hballots, rfl⟩ := h.change
      exact hballots.voteRecord_of_ne fun hmem heq => hown ⟨hmem, heq⟩
    rw [hsame]
    refine ⟨id, fun hnone hsome => ?_⟩
    rw [hnone] at hsome
    cases hsome

/-- Records are made by votes and stay as they are. -/
theorem step_records {l : Label Entry} (h : (system self).Step w l w')
    (hm : Numbered w.machine.store) (ht : Tallied w.machine.store) (pid : ℕ)
    (v : Address) (r : VoteRecord) :
    (w.machine.store.voteRecord (pid, v) = some r →
        w'.machine.store.voteRecord (pid, v) = some r) ∧
      (w.machine.store.voteRecord (pid, v) = none →
        w'.machine.store.voteRecord (pid, v) = some r →
          RecordedBy w w' pid v r) := by
  have hstill : w'.machine.store.voteRecord = w.machine.store.voteRecord →
      (w.machine.store.voteRecord (pid, v) = some r →
          w'.machine.store.voteRecord (pid, v) = some r) ∧
        (w.machine.store.voteRecord (pid, v) = none →
          w'.machine.store.voteRecord (pid, v) = some r →
            RecordedBy w w' pid v r) := by
    intro heq
    rw [heq]
    refine ⟨id, fun hnone hsome => ?_⟩
    rw [hnone] at hsome
    cases hsome
  cases h with
  | call _ hexec =>
      rcases exec_records hexec hm with ⟨heq, -⟩ |
          ⟨voter, choice, ballots, -, hvoted⟩
      · exact hstill heq
      · exact hvoted.record ht pid v r
  | tick => exact hstill rfl
  | transfer => exact hstill rfl
  | mint => exact hstill rfl

/-! ## After the vote -/

theorem ProposalStatus.Next.closed {status status' : ProposalStatus}
    (h : status.Next status') (hclosed : ¬ status.IsOpen) :
    ¬ status'.IsOpen := by
  cases h with
  | started => exact absurd (.inr rfl) hclosed
  | dropped => exact absurd (.inr rfl) hclosed
  | passed => exact absurd (.inl rfl) hclosed
  | failed => exact absurd (.inl rfl) hclosed
  | cancelled => exact absurd (.inl rfl) hclosed
  | executed => rintro (h | h) <;> cases h
  | lapsed => rintro (h | h) <;> cases h

namespace Scenario

/-- Bob's weight goes into Carol's record, and Alice votes the other way. -/
def swaying : List (Label Entry) :=
  [launch, motion, .call [bob] (.delegate bob carol),
    .call [carol] (.vote carol 0 .against), .call [alice] (.vote alice 0 .for)]

def swayed : World State :=
  (TransitionSystem.execute (step exec dao) swaying genesis).get
    (by decide +kernel)

end Scenario

open Scenario

example : swayed.machine.store.contributions 0 carol = [300] := by
  decide +kernel

end Parashield.GovernanceDao
