import Parashield.GovernanceDao.Lifecycle
import Parashield.Support.Index

/-!
# Governance DAO: one open proposal for an action

The content index names the open proposal for an action, as long as equal
actions are hashed alike and no expiry clears the entry of a newer proposal.
-/

namespace Parashield.GovernanceDao

open Support Support.Contract Invocation

variable {self : Address} {env : Env} {s s' : State} {m m' : Machine State}
  {w : World State} {e : Entry} {pid : ℕ} {p p' : Proposal}

/-! ## Actions -/

/-- What a proposal does when it is executed. -/
structure Action where
  target : Address
  function : Symbol
  args : List Val
  deriving DecidableEq, Repr

def Action.hash (a : Action) (handles : Handles) : ContentHash :=
  proposalContentHash handles a.target a.function a.args

def Proposal.action (p : Proposal) : Action :=
  ⟨p.target, p.function, p.args⟩

def Opening.action (o : Opening) : Action :=
  ⟨o.target, o.function, o.args⟩

theorem Proposal.SameTerms.action (h : p.SameTerms p') :
    p'.action = p.action := by
  simp only [Proposal.action, h.target, h.function, h.args]

/-- No two open proposals have the same action. -/
def State.NoDuplicates (s : State) : Prop :=
  ∀ pid qid p q, s.proposal pid = some p → s.proposal qid = some q →
    p.status.IsOpen → q.status.IsOpen → p.action = q.action → pid = qid

/-! ## The index -/

/-- What an action is hashed to, whichever call hashes it. -/
abbrev Naming := Action → ContentHash

section Naming

variable {name : Naming}

/-- The content hash under which an open proposal is indexed. -/
def Proposal.openHash (name : Naming) (p : Proposal) : Option ContentHash :=
  if p.status.IsOpen then some (name p.action) else none

def State.openHash (name : Naming) (s : State) (pid : ℕ) :
    Option ContentHash :=
  (s.proposal pid).bind (Proposal.openHash name)

/-- The index finds exactly the open proposals. -/
def Tracked (name : Naming) (s : State) : Prop :=
  Mirrors s.activeProposalHash fun pid hash => s.openHash name pid = some hash

theorem Proposal.openHash_of_open (hopen : p.status.IsOpen) :
    p.openHash name = some (name p.action) :=
  if_pos hopen

theorem Proposal.openHash_of_closed (hclosed : ¬ p.status.IsOpen) :
    p.openHash name = none :=
  if_neg hclosed

theorem State.openHash_of_stored (hp : s.proposal pid = some p) :
    s.openHash name pid = p.openHash name := by
  rw [State.openHash, hp, Option.bind_some]

/-- An update of one proposal updates its hash. -/
theorem State.openHash_update
    (heq : s'.proposal = Function.update s.proposal pid (some p')) :
    s'.openHash name =
      Function.update (s.openHash name) pid (p'.openHash name) := by
  funext qid
  unfold State.openHash
  rw [heq]
  by_cases hq : qid = pid
  · subst hq
    simp
  · simp [hq]

theorem State.openHash_congr (heq : s'.proposal = s.proposal) :
    s'.openHash name = s.openHash name := by
  funext qid
  rw [State.openHash, heq, State.openHash]

/-- An update that leaves status and action alone keeps the hash. -/
theorem State.openHash_amended (hp : s.proposal pid = some p)
    (heq : s'.proposal = Function.update s.proposal pid (some p'))
    (hsame : p'.openHash name = p.openHash name) :
    s'.openHash name = s.openHash name := by
  rw [State.openHash_update heq, hsame, ← State.openHash_of_stored hp,
    Function.update_eq_self]

theorem Tracked.congr (h : Tracked name s)
    (hindex : s'.activeProposalHash = s.activeProposalHash)
    (hopen : s'.openHash name = s.openHash name) : Tracked name s' := by
  unfold Tracked
  rw [hindex, hopen]
  exact h

theorem Tracked.noDuplicates (h : Tracked name s) : s.NoDuplicates := by
  intro pid qid p q hp hq hpopen hqopen haction
  refine h.unique (k := name p.action) ?_ ?_
  · rw [State.openHash_of_stored hp, Proposal.openHash_of_open hpopen]
  · rw [State.openHash_of_stored hq, Proposal.openHash_of_open hqopen, haction]

/-- A hash without an open proposal is free. -/
theorem Tracked.free (h : Tracked name s) {hash : ContentHash}
    (hfresh : s.NotProposed hash) : s.activeProposalHash hash = none := by
  cases hindex : s.activeProposalHash hash with
  | none => rfl
  | some pid =>
      have hopen : s.openHash name pid = some hash := (h hash pid).mp hindex
      cases hp : s.proposal pid with
      | none => simp [State.openHash, hp] at hopen
      | some p =>
          have hclosed := hfresh pid p hindex hp
          rw [State.openHash_of_stored hp,
            Proposal.openHash_of_closed hclosed] at hopen
          cases hopen

/-! ## What the calls hash -/

/-- The call hashes the actions of the proposals it creates or closes as
`name` does. -/
structure Entry.HashesAs (e : Entry) (name : Naming) (env : Env)
    (s : State) : Prop where
  opening : ∀ o, e.opening env = some o → o.hash = name o.action
  closing : ∀ pid handles p, e.closing pid = some handles →
    s.proposal pid = some p → p.action.hash handles = name p.action

/-- The call lets no proposal expire while another proposal hashed alike is
open. -/
def Entry.SparesNewer (e : Entry) (name : Naming) (env : Env)
    (s : State) : Prop :=
  ∀ handles outcome pid p qid q, e = .execute handles outcome pid →
    s.Due env.now pid p → p.executionDeadline < env.now →
    s.proposal qid = some q → q.status.IsOpen →
    name q.action ≠ name p.action

theorem Entry.SparesNewer.of_ne
    (he : ∀ handles outcome pid, e ≠ .execute handles outcome pid) :
    e.SparesNewer name env s :=
  fun handles outcome pid _ _ _ hexecute =>
    absurd hexecute (he handles outcome pid)

theorem Proposal.setVotes_action (p : Proposal) (choice : VoteChoice)
    (votes : ℤ) : (p.setVotes choice votes).action = p.action := by
  cases choice <;> rfl

theorem Voted.openHash {voter : Address} {choice : VoteChoice}
    {ballots : List (ℕ × Proposal)} (h : Voted env voter choice ballots m m') :
    m'.store.openHash name = m.store.openHash name := by
  funext pid
  obtain ⟨_, _, _, _, _, -, -, -, -, -, hballots, rfl⟩ := h.change
  by_cases hmem : pid ∈ ballots.map Prod.fst
  · obtain ⟨⟨pid, p⟩, hb, rfl⟩ := List.mem_map.mp hmem
    obtain ⟨weight, -, hq⟩ := hballots.proposal_of_mem h.distinct hb
    rw [State.openHash_of_stored hq,
      State.openHash_of_stored (h.eligible _ hb).stored, Proposal.openHash,
      Proposal.openHash, Proposal.setVotes_status, Proposal.setVotes_action]
  · rw [State.openHash, hballots.proposal_of_notMem hmem, State.openHash]

/-- A proposal created under a free hash is indexed. -/
theorem Opened.tracked {o : Opening} (h : Opened env o m m')
    (hm : Numbered m.store) (hname : o.hash = name o.action)
    (ht : Tracked name m.store) : Tracked name m'.store := by
  have hfree := ht.free h.fresh
  obtain ⟨config, _, -, -, rfl⟩ := h.change
  have hnew : m.store.openHash name m.store.nextProposalId = none := by
    cases hp : m.store.proposal m.store.nextProposalId with
    | none => rw [State.openHash, hp, Option.bind_none]
    | some p => exact absurd (hm.stored _ p hp).2 (lt_irrefl _)
  have hopen : (o.proposal env m.store config).openHash name =
      some o.hash := by
    rw [hname]
    exact Proposal.openHash_of_open
      (ProposalStatus.isOpen_schedule config env.now)
  have hupdate : (o.store env m.store config).openHash name =
      Function.update (m.store.openHash name) m.store.nextProposalId
        ((o.proposal env m.store config).openHash name) :=
    State.openHash_update rfl
  have hinsert := Mirrors.insert_key ht hfree hnew
  unfold Tracked
  rw [hupdate, hopen]
  exact hinsert

/-- An open proposal that is closed leaves the index. -/
theorem Tracked.closed {handles : Handles} {turnout : ParticipationHistory}
    {event : Event} (ht : Tracked name s) (hp : s.proposal pid = some p)
    (hname : p.action.hash handles = name p.action)
    (hopen : p.status.IsOpen) (hclosed : ¬ p'.status.IsOpen) :
    Tracked name (s.closed handles pid p p' turnout event) := by
  have hkey : s.openHash name pid = some (name p.action) := by
    rw [State.openHash_of_stored hp, Proposal.openHash_of_open hopen]
  have hupdate : (s.closed handles pid p p' turnout event).openHash name =
      Function.update (s.openHash name) pid (p'.openHash name) :=
    State.openHash_update rfl
  have hremove := Mirrors.remove_key ht hkey
  rw [← hname] at hremove
  unfold Tracked
  rw [hupdate, Proposal.openHash_of_closed hclosed]
  exact hremove

/-- An expiry clears an entry that is free already. -/
theorem Lapsed.tracked {handles : Handles} (h : Lapsed env handles pid m m')
    (hname : ∀ p, m.store.proposal pid = some p →
      p.action.hash handles = name p.action)
    (hspares : ∀ p qid q, m.store.Due env.now pid p →
      p.executionDeadline < env.now → m.store.proposal qid = some q →
      q.status.IsOpen → name q.action ≠ name p.action)
    (ht : Tracked name m.store) : Tracked name m'.store := by
  obtain ⟨p, hdue, hlate, rfl⟩ := h
  have hpassed : ¬ p.status.IsOpen := by
    rw [hdue.passed]
    decide
  refine ht.congr ?_ (State.openHash_amended hdue.stored rfl ?_)
  · change Function.update m.store.activeProposalHash (p.action.hash handles)
      none = _
    rw [hname p hdue.stored]
    refine Function.update_eq_self_iff.mpr (Eq.symm ?_)
    refine ht.free fun qid q hqid hq hopen => ?_
    have hfound : m.store.openHash name qid = some (name p.action) :=
      (ht _ _).mp hqid
    rw [State.openHash_of_stored hq, Proposal.openHash_of_open hopen,
      Option.some.injEq] at hfound
    exact hspares p qid q hdue hlate hq hopen hfound
  · rw [Proposal.openHash_of_closed hpassed]
    exact Proposal.openHash_of_closed
      (show ¬ ProposalStatus.expired.IsOpen by decide)

theorem Change.tracked (h : Change env e m m') (hm : Numbered m.store)
    (hname : e.HashesAs name env m.store)
    (hspares : e.SparesNewer name env m.store)
    (ht : Tracked name m.store) : Tracked name m'.store := by
  cases h with
  | aside _ hbook _ =>
      exact ht.congr hbook.activeProposalHash
        (State.openHash_congr hbook.proposal)
  | initialized h =>
      obtain ⟨-, _, _, -, -, rfl⟩ := h
      exact ht
  | configured h =>
      obtain ⟨-, _, -, rfl⟩ := h
      exact ht
  | opened ho h => exact h.tracked hm (hname.opening _ ho) ht
  | delegated _ _ _ heq =>
      rw [heq]
      exact ht
  | revoked _ _ _ heq =>
      rw [heq]
      exact ht
  | voted _ h =>
      refine ht.congr ?_ h.openHash
      obtain ⟨_, _, _, _, _, -, -, -, -, -, hballots, rfl⟩ := h.change
      rw [hballots.upToVotes.eq]
  | withdrawn _ h =>
      obtain ⟨_, _, -, -, rfl⟩ := h.change
      exact ht
  | passed hclosing h =>
      obtain ⟨p, _, _, hp, hactive, -, -, -, rfl⟩ := h
      exact ht.closed hp (hname.closing _ _ p hclosing hp) (.inl hactive)
        (show ¬ ProposalStatus.passed.IsOpen by decide)
  | refunded hclosing h =>
      obtain ⟨p, _, _, _, _, hp, hopen, -, -, -, -, rfl⟩ := h.change
      refine ht.closed hp (hname.closing _ _ p hclosing hp) hopen ?_
      rcases h.outcome with rfl | rfl
      · exact show ¬ ProposalStatus.failed.IsOpen by decide
      · exact show ¬ ProposalStatus.cancelled.IsOpen by decide
  | started _ h =>
      obtain ⟨p, _, hp, hdiscussed, -, -, -, rfl⟩ := h
      refine ht.congr rfl (State.openHash_amended hp rfl ?_)
      rw [Proposal.openHash_of_open (.inr hdiscussed)]
      exact Proposal.openHash_of_open (.inl rfl)
  | @lapsed pid handles outcome he h =>
      subst he
      exact h.tracked
        (fun p hp => hname.closing pid handles p (if_pos rfl) hp)
        (fun p qid q => hspares handles outcome pid p qid q rfl) ht
  | executed _ h =>
      obtain ⟨p, _, _, _, _, hdue, -, -, -, -, -, -, rfl⟩ := h
      have hpassed : ¬ p.status.IsOpen := by
        rw [hdue.passed]
        decide
      refine ht.congr rfl (State.openHash_amended hdue.stored rfl ?_)
      rw [Proposal.openHash_of_closed hpassed]
      exact Proposal.openHash_of_closed
        (show ¬ ProposalStatus.executed.IsOpen by decide)
  | vetoed _ h =>
      obtain ⟨p, _, hp, -, -, rfl⟩ := h.change
      exact ht.congr rfl (State.openHash_amended hp rfl rfl)

/-! ## Runs -/

/-- No change creates a proposal that the same call closes, and the actions of
stored proposals stay. -/
theorem Change.hashesAs (h : Change env e m m') (hm : Numbered m.store)
    (hname : e.HashesAs name env m.store) :
    e.HashesAs name env m'.store := by
  refine ⟨hname.opening, fun pid handles p' hclosing hp' => ?_⟩
  cases hp : m.store.proposal pid with
  | none =>
      obtain ⟨o, _, ho, -⟩ := h.created hp hp'
      cases e with
      | createProposal => cases hclosing
      | createProposalFromTemplate => cases hclosing
      | proposeUpgrade => cases hclosing
      | _ => cases ho
  | some p =>
      have hp_named := hname.closing pid handles p hclosing hp
      rcases h.move hm hp with hsame | ⟨q, hq, hmove⟩
      · rw [hp', Option.some.injEq] at hsame
        rw [hsame]
        exact hp_named
      · rw [hp', Option.some.injEq] at hq
        rw [hq, hmove.sameTerms.action]
        exact hp_named

theorem exec_tracked {u : Unit} (h : exec env e m = .ok (u, m'))
    (hm : Numbered m.store) (hname : e.HashesAs name env m.store)
    (hspares : e.SparesNewer name env m.store)
    (ht : Tracked name m.store) : Tracked name m'.store := by
  by_cases he : ∃ handles outcome pid, e = .execute handles outcome pid
  · -- an execution is one change, from the state the guard speaks of
    obtain ⟨handles, outcome, pid, rfl⟩ := he
    rcases execute_spec h with hlapsed | hexecuted
    · exact (Change.lapsed rfl hlapsed).tracked hm hname hspares ht
    · exact (Change.executed rfl hexecuted).tracked hm hname hspares ht
  · have hspares' : ∀ s, e.SparesNewer name env s := fun s =>
      .of_ne fun handles outcome pid hexecute =>
        he ⟨handles, outcome, pid, hexecute⟩
    have hkept := changes_keep
      (I := fun m => Numbered m.store ∧ e.HashesAs name env m.store ∧
        Tracked name m.store)
      (fun m m' hchange ⟨hm, hname, ht⟩ => ⟨hchange.numbered hm,
        hchange.hashesAs hm hname,
        hchange.tracked hm hname (hspares' m.store) ht⟩)
      (exec_changes h) ⟨hm, hname, ht⟩
    exact hkept.2.2

/-- Every call hashes equal actions alike, and no expiry clears the entry of
a newer proposal. -/
def KeepsIndex (name : Naming) (self : Address) (w : World State) :
    Label Entry → Prop
  | .call signers e =>
      e.HashesAs name (callEnv self w signers) w.machine.store ∧
        e.SparesNewer name (callEnv self w signers) w.machine.store
  | _ => True

theorem KeepsIndex.of_initializeDao {signers : List Address} {admin : Address}
    {config : DaoConfig} :
    KeepsIndex name self w (.call signers (.initializeDao admin config)) := by
  refine ⟨⟨fun o ho => ?_, fun pid handles p hclosing _ => ?_⟩, .of_ne nofun⟩
  · cases ho
  · cases hclosing

/-- A creation only has to hash its own action. -/
theorem KeepsIndex.of_createProposal {signers : List Address}
    {handles : Handles} {proposer target : Address} {title impact : Bytes}
    {function : Symbol} {args : List Val}
    (hname : proposalContentHash handles target function args =
      name ⟨target, function, args⟩) :
    KeepsIndex name self w (.call signers (.createProposal handles proposer
      title target function args impact)) := by
  refine ⟨⟨fun o ho => ?_, fun pid handles p hclosing _ => ?_⟩, .of_ne nofun⟩
  · obtain rfl := Option.some.inj ho
    exact hname
  · cases hclosing

theorem tracked_inductive (name : Naming) (self : Address) :
    ((system self).restrict (KeepsIndex name self)).Inductive fun w =>
      Numbered w.machine.store ∧ Tracked name w.machine.store := by
  refine ((numbered_inductive self).restrict _).and (fun w hw => ?_)
    fun w l w' hm _ ht hstep => ?_
  · have hstore : w.machine.store = .deployed := hw.1
    rw [hstore]
    exact Mirrors.empty.congr fun _ _ => by
      simp [State.openHash, State.deployed]
  · obtain ⟨hguard, hstep⟩ := hstep
    cases hstep with
    | call _ hexec => exact exec_tracked hexec hm hguard.1 hguard.2 ht
    | tick => exact ht
    | transfer => exact ht
    | mint => exact ht

end Naming

/-- As long as equal actions are hashed alike and no proposal expires while
another one hashed alike is open, no two open proposals have the same
action. -/
theorem open_actions_distinct {name : Naming}
    (hw : ((system self).restrict (KeepsIndex name self)).Reachable w) :
    w.machine.store.NoDuplicates :=
  (hw.invariant (tracked_inductive name self)).2.noDuplicates

/-! ## One action, two open proposals -/

namespace Scenario

/-- Bob proposes to call the pool otherwise. -/
def rival : Label Entry :=
  .call [bob] (.createProposal inOrder bob [78] pool pause [.u32 2]
    [1, 2, 3, 4, 5])

def contested : World State :=
  (step exec dao proposed rival).get (by decide +kernel)

/-- Every value is small enough to be hashed itself. -/
def inlined : Naming := fun a =>
  ⟨a.target, .immediate (.symbol a.function), a.args.map .immediate⟩

theorem contested_reachable :
    ((system dao).restrict (KeepsIndex inlined dao)).Reachable contested := by
  have hrun : (system dao).Run genesis [launch, motion, rival] contested :=
    proposed_run.concat (step_sound (Option.some_get _).symm)
  have hguard : ∀ l ∈ [launch, motion, rival], ∀ t,
      KeepsIndex inlined dao t l := by
    simp only [List.forall_mem_cons, List.not_mem_nil, false_imp_iff,
      implies_true, and_true]
    exact ⟨fun _ => .of_initializeDao, fun _ => .of_createProposal rfl,
      fun _ => .of_createProposal rfl⟩
  have hgenesis : ((system dao).restrict (KeepsIndex inlined dao)).Reachable
      genesis := .init ⟨rfl, rfl⟩
  exact hgenesis.run (hrun.restrict hguard)

/-- Alice's proposal passes and is left alone until its deadline is over. -/
def passing : List (Label Entry) :=
  [.call [alice] (.vote alice 0 .for), .tick 605101,
    .call [] (.finalize inOrder 0), .tick 604801]

/-- Bob proposes the same again, Alice's proposal expires, and Carol proposes
the same once more. -/
def repeating : List (Label Entry) :=
  [.call [bob] (.createProposal inOrder bob [78] pool pause [.u32 1]
      [1, 2, 3, 4, 5]),
    .call [] (.execute inOrder (fun B => some (B, none)) 0),
    .call [carol] (.createProposal inOrder carol [79] pool pause [.u32 1]
      [1, 2, 3, 4, 5])]

def repeated : World State :=
  (TransitionSystem.execute (step exec dao) (passing ++ repeating)
    proposed).get (by decide +kernel)

/-- An argument that is an object of the host, created under one handle after
another. -/
def rehandling : List (Label Entry) :=
  [.call [bob] (.createProposal inOrder bob [78] pool pause [.object [1]]
      [1, 2, 3, 4, 5]),
    .call [carol] (.createProposal (fun position => position + 10) carol [79]
      pool pause [.object [1]] [1, 2, 3, 4, 5])]

def rehandled : World State :=
  (TransitionSystem.execute (step exec dao) rehandling proposed).get
    (by decide +kernel)

theorem repeated_reachable : (system dao).Reachable repeated := by
  have hrun : (system dao).Run proposed (passing ++ repeating) repeated :=
    TransitionSystem.run_of_execute (fun _ _ _ => step_sound)
      (Option.some_get _).symm
  have hgenesis : (system dao).Reachable genesis := .init ⟨rfl, rfl⟩
  exact (hgenesis.run proposed_run).run hrun

theorem rehandled_reachable : (system dao).Reachable rehandled := by
  have hrun : (system dao).Run proposed rehandling rehandled :=
    TransitionSystem.run_of_execute (fun _ _ _ => step_sound)
      (Option.some_get _).symm
  have hgenesis : (system dao).Reachable genesis := .init ⟨rfl, rfl⟩
  exact (hgenesis.run proposed_run).run hrun

end Scenario

open Scenario

theorem open_actions_distinct_contested :
    contested.machine.store.NoDuplicates :=
  open_actions_distinct contested_reachable

/-- Both runs end with two open proposals for one action. -/
theorem open_actions_repeated :
    ((system dao).Reachable repeated ∧
      ¬ repeated.machine.store.NoDuplicates) ∧
    (system dao).Reachable rehandled ∧
      ¬ rehandled.machine.store.NoDuplicates := by
  refine ⟨⟨repeated_reachable, fun h => ?_⟩, rehandled_reachable, fun h => ?_⟩
  · have hsame := h 1 2 ((repeated.machine.store.proposal 1).get
      (by decide +kernel)) ((repeated.machine.store.proposal 2).get
      (by decide +kernel)) (Option.some_get _).symm (Option.some_get _).symm
      (by decide +kernel) (by decide +kernel) (by decide +kernel)
    exact absurd hsame (by decide)
  · have hsame := h 1 2 ((rehandled.machine.store.proposal 1).get
      (by decide +kernel)) ((rehandled.machine.store.proposal 2).get
      (by decide +kernel)) (Option.some_get _).symm (Option.some_get _).symm
      (by decide +kernel) (by decide +kernel) (by decide +kernel)
    exact absurd hsame (by decide)

end Parashield.GovernanceDao
