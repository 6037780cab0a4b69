import Parashield.GovernanceDao.Changes

/-!
# Governance DAO: the delegation graph

Delegations are stored twice, as the delegate of each delegator and as the
delegators of each delegate, and the expiry lies next to them.  The two stores
mirror each other in every reachable state.
-/

namespace Parashield.GovernanceDao

open Support Support.Contract Invocation

variable {self : Address} {env : Env} {s s' : State} {m m' : Machine State}

/-! ## Shape of the graph -/

/-- The delegation stores agree, and no address is on both sides of a
delegation. -/
structure State.Graph (s : State) : Prop where
  mem_iff : ∀ a b, a ∈ s.delegators b ↔ s.delegateOf a = some b
  nodup : ∀ b, (s.delegators b).Nodup
  one_hop : ∀ a b, s.delegateOf a = some b → s.delegateOf b = none
  length_le : ∀ b, (s.delegators b).length ≤ maxDelegators
  expiry_iff : ∀ a, s.delegationExpiry a = none ↔ s.delegateOf a = none

theorem graph_deployed : State.deployed.Graph := by
  constructor <;> simp [State.deployed]

namespace State.Graph

theorem no_delegators (h : s.Graph) {a b : Address}
    (hab : s.delegateOf a = some b) : s.delegators a = [] := by
  rw [List.eq_nil_iff_forall_not_mem]
  intro c hc
  have hca := (h.mem_iff c a).mp hc
  rw [h.one_hop c a hca] at hab
  cases hab

theorem delegate_ne (h : s.Graph) (a : Address) :
    s.delegateOf a ≠ some a := by
  intro haa
  rw [h.one_hop a a haa] at haa
  cases haa

/-- Whoever leaves its delegate is taken out of every list. -/
theorem detached_eq (h : s.Graph) (a b : Address) :
    s.detached a b = (s.delegators b).filter fun entry => entry ≠ a := by
  unfold State.detached
  have hkeep : s.delegateOf a ≠ some b →
      s.delegators b = (s.delegators b).filter fun entry => entry ≠ a := by
    intro hne
    symm
    rw [List.filter_eq_self]
    intro c hc
    have hcb := (h.mem_iff c b).mp hc
    simp only [decide_eq_true_eq]
    rintro rfl
    exact hne hcb
  cases hcurrent : s.delegateOf a with
  | none => exact hkeep (by simp [hcurrent])
  | some current =>
      by_cases hb : b = current
      · subst hb
        exact Function.update_self ..
      · simp only [Function.update_of_ne hb]
        refine hkeep ?_
        rw [hcurrent]
        simpa using Ne.symm hb

theorem mem_detached (h : s.Graph) {a b c : Address} :
    c ∈ s.detached a b ↔ s.delegateOf c = some b ∧ c ≠ a := by
  rw [h.detached_eq, List.mem_filter, h.mem_iff]
  simp

theorem detached_length_le (h : s.Graph) (a b : Address) :
    (s.detached a b).length ≤ maxDelegators := by
  rw [h.detached_eq]
  exact (List.length_filter_le _ _).trans (h.length_le b)

theorem detached_nodup (h : s.Graph) (a b : Address) :
    (s.detached a b).Nodup := by
  rw [h.detached_eq]
  exact (h.nodup b).filter _

theorem revoked (h : s.Graph) (a : Address) : (s.revoked a).Graph where
  mem_iff c b := by
    show c ∈ s.detached a b ↔ Function.update s.delegateOf a none c = some b
    rw [h.mem_detached]
    by_cases hc : c = a
    · simp [hc]
    · simp [hc]
  nodup := h.detached_nodup a
  one_hop c b hcb := by
    change Function.update s.delegateOf a none c = some b at hcb
    show Function.update s.delegateOf a none b = none
    by_cases hc : c = a
    · simp [hc] at hcb
    · rw [Function.update_of_ne hc] at hcb
      by_cases hb : b = a
      · simp [hb]
      · rw [Function.update_of_ne hb]
        exact h.one_hop c b hcb
  length_le := h.detached_length_le a
  expiry_iff c := by
    show Function.update s.delegationExpiry a none c = none ↔
      Function.update s.delegateOf a none c = none
    by_cases hc : c = a
    · simp [hc]
    · simp [hc, h.expiry_iff]

theorem delegated (h : s.Graph) {a b : Address} (hmay : s.MayDelegate a b)
    (expiry : ℕ) : (s.delegated a b expiry).Graph where
  mem_iff c d := by
    show c ∈ Function.update (s.detached a) b (s.detached a b ++ [a]) d ↔
      Function.update s.delegateOf a (some b) c = some d
    have hmem : c ∈ s.detached a d ↔ s.delegateOf c = some d ∧ c ≠ a :=
      h.mem_detached
    by_cases hd : d = b
    · subst hd
      by_cases hc : c = a
      · simp [hc]
      · simp [hc, hmem]
    · rw [Function.update_of_ne hd, hmem]
      by_cases hc : c = a
      · simp [hc, Ne.symm hd]
      · simp [hc]
  nodup d := by
    show (Function.update (s.detached a) b (s.detached a b ++ [a]) d).Nodup
    by_cases hd : d = b
    · subst hd
      rw [Function.update_self, List.nodup_append]
      refine ⟨h.detached_nodup a d, List.nodup_singleton a, ?_⟩
      intro c hc c' hc'
      rw [List.mem_singleton.mp hc']
      exact (h.mem_detached.mp hc).2
    · rw [Function.update_of_ne hd]
      exact h.detached_nodup a d
  one_hop c d hcd := by
    change Function.update s.delegateOf a (some b) c = some d at hcd
    show Function.update s.delegateOf a (some b) d = none
    have hda : d ≠ a := by
      rintro rfl
      by_cases hc : c = d
      · subst hc
        rw [Function.update_self, Option.some.injEq] at hcd
        exact hmay.distinct hcd.symm
      · rw [Function.update_of_ne hc] at hcd
        have hmem := (h.mem_iff c d).mpr hcd
        rw [hmay.no_delegators] at hmem
        cases hmem
    rw [Function.update_of_ne hda]
    by_cases hc : c = a
    · subst hc
      rw [Function.update_self, Option.some.injEq] at hcd
      exact hcd ▸ hmay.no_chain
    · rw [Function.update_of_ne hc] at hcd
      exact h.one_hop c d hcd
  length_le d := by
    show (Function.update (s.detached a) b (s.detached a b ++ [a]) d).length ≤
      maxDelegators
    by_cases hd : d = b
    · subst hd
      rw [Function.update_self, List.length_append]
      exact hmay.room
    · rw [Function.update_of_ne hd]
      exact h.detached_length_le a d
  expiry_iff c := by
    show Function.update s.delegationExpiry a (some expiry) c = none ↔
      Function.update s.delegateOf a (some b) c = none
    by_cases hc : c = a
    · simp [hc]
    · simp [hc, h.expiry_iff]

end State.Graph

/-! ## Every call keeps it -/

theorem State.Graph.congr (h : s.Graph) (hof : s'.delegateOf = s.delegateOf)
    (hlists : s'.delegators = s.delegators)
    (hexpiry : s'.delegationExpiry = s.delegationExpiry) : s'.Graph where
  mem_iff := by rw [hof, hlists]; exact h.mem_iff
  nodup := by rw [hlists]; exact h.nodup
  one_hop := by rw [hof]; exact h.one_hop
  length_le := by rw [hlists]; exact h.length_le
  expiry_iff := by rw [hof, hexpiry]; exact h.expiry_iff

/-- Only the two calls of a delegator change its delegation. -/
theorem Change.delegation {e : Entry} (h : Change env e m m') :
    (m'.store.delegateOf = m.store.delegateOf ∧
        m'.store.delegators = m.store.delegators ∧
        m'.store.delegationExpiry = m.store.delegationExpiry) ∨
      (∃ delegator delegate expiry, delegator ∈ env.signers ∧
        m.store.MayDelegate delegator delegate ∧
        m' = ⟨m.store.delegated delegator delegate expiry, m.bank⟩) ∨
      ∃ delegator, delegator ∈ env.signers ∧
        m.store.delegateOf delegator ≠ none ∧
        m' = ⟨m.store.revoked delegator, m.bank⟩ := by
  cases h with
  | delegated _ hsigned hmay heq =>
      exact .inr (.inl ⟨_, _, _, hsigned, hmay, heq⟩)
  | revoked _ hsigned hsome heq => exact .inr (.inr ⟨_, hsigned, hsome, heq⟩)
  | aside _ hbook _ =>
      exact .inl ⟨hbook.delegateOf, hbook.delegators, hbook.delegationExpiry⟩
  | initialized h =>
      obtain ⟨-, _, _, -, -, rfl⟩ := h
      exact .inl ⟨rfl, rfl, rfl⟩
  | configured h =>
      obtain ⟨-, _, -, rfl⟩ := h
      exact .inl ⟨rfl, rfl, rfl⟩
  | opened _ h =>
      obtain ⟨-, -, _, _, -, -, rfl⟩ := h
      exact .inl ⟨rfl, rfl, rfl⟩
  | voted _ h =>
      obtain ⟨_, _, _, _, _, -, -, -, -, -, hballots, rfl⟩ := h.change
      rw [hballots.upToVotes.eq]
      exact .inl ⟨rfl, rfl, rfl⟩
  | withdrawn _ h =>
      obtain ⟨_, _, -, -, rfl⟩ := h.change
      exact .inl ⟨rfl, rfl, rfl⟩
  | passed _ h =>
      obtain ⟨_, _, _, -, -, -, -, -, rfl⟩ := h
      exact .inl ⟨rfl, rfl, rfl⟩
  | refunded _ h =>
      obtain ⟨_, _, _, _, _, -, -, -, -, -, -, rfl⟩ := h.change
      exact .inl ⟨rfl, rfl, rfl⟩
  | started _ h =>
      obtain ⟨_, _, -, -, -, -, -, rfl⟩ := h
      exact .inl ⟨rfl, rfl, rfl⟩
  | lapsed _ h =>
      obtain ⟨_, -, -, rfl⟩ := h
      exact .inl ⟨rfl, rfl, rfl⟩
  | executed _ h =>
      obtain ⟨_, _, _, _, _, -, -, -, -, -, -, -, rfl⟩ := h
      exact .inl ⟨rfl, rfl, rfl⟩
  | vetoed _ h =>
      obtain ⟨_, _, -, -, -, rfl⟩ := h.change
      exact .inl ⟨rfl, rfl, rfl⟩

theorem Change.graph {e : Entry} (h : Change env e m m')
    (hgraph : m.store.Graph) : m'.store.Graph := by
  rcases h.delegation with ⟨hof, hlists, hexpiry⟩ |
      ⟨delegator, delegate, expiry, -, hmay, rfl⟩ | ⟨delegator, -, -, rfl⟩
  · exact hgraph.congr hof hlists hexpiry
  · exact hgraph.delegated hmay expiry
  · exact hgraph.revoked delegator

/-! ## Every reachable state -/

theorem exec_graph {e : Entry} {u : Unit} (h : exec env e m = .ok (u, m'))
    (hgraph : m.store.Graph) : m'.store.Graph :=
  changes_keep (I := fun m => m.store.Graph) (fun _ _ => Change.graph)
    (exec_changes h) hgraph

theorem graph_inductive (self : Address) :
    (system self).Inductive fun w => w.machine.store.Graph where
  init w hw := hw.1 ▸ graph_deployed
  step w l w' h hstep := by
    cases hstep with
    | call _ hexec => exact exec_graph hexec h
    | tick => exact h
    | transfer => exact h
    | mint => exact h

/-- In every reachable state the two delegation stores are inverse to each
other, the graph has no path of two delegations, and no list outgrows its
bound. -/
theorem delegation_graph {w : World State} (hw : (system self).Reachable w) :
    (∀ a b, w.machine.store.delegateOf a = some b ↔
      a ∈ w.machine.store.delegators b) ∧
    (∀ a b, w.machine.store.delegateOf a = some b →
      (w.machine.store.delegators b).count a = 1) ∧
    (∀ a, w.machine.store.delegateOf a ≠ none →
      w.machine.store.delegators a = []) ∧
    (∀ a, w.machine.store.delegateOf a ≠ some a) ∧
    ∀ b, (w.machine.store.delegators b).length ≤ maxDelegators := by
  have hgraph : w.machine.store.Graph := hw.invariant (graph_inductive self)
  refine ⟨fun a b => (hgraph.mem_iff a b).symm, fun a b hab => ?_,
    fun a hsome => ?_, hgraph.delegate_ne, hgraph.length_le⟩
  · exact List.count_eq_one_of_mem (hgraph.nodup b)
      ((hgraph.mem_iff a b).mpr hab)
  · obtain ⟨b, hab⟩ := Option.ne_none_iff_exists'.mp hsome
    exact hgraph.no_delegators hab

namespace Scenario

/-- Alice and Bob delegate to Carol, Bob turns to the administrator and Alice
takes her delegation back. -/
def repointing : List (Label Entry) :=
  [launch, .call [alice] (.delegate alice carol),
    .call [bob] (.delegateWithExpiry bob carol 60),
    .call [bob] (.delegate bob admin), .call [alice] (.revokeDelegation alice)]

def repointed : World State :=
  (TransitionSystem.execute (step exec dao) repointing genesis).get
    (by decide +kernel)

theorem repointed_reachable : (system dao).Reachable repointed :=
  TransitionSystem.reachable_of_execute (fun _ _ _ => step_sound) ⟨rfl, rfl⟩
    (Option.some_get _).symm

end Scenario

open Scenario

theorem delegation_graph_repointed :
    (∀ a b, repointed.machine.store.delegateOf a = some b ↔
      a ∈ repointed.machine.store.delegators b) ∧
    (∀ a b, repointed.machine.store.delegateOf a = some b →
      (repointed.machine.store.delegators b).count a = 1) ∧
    (∀ a, repointed.machine.store.delegateOf a ≠ none →
      repointed.machine.store.delegators a = []) ∧
    (∀ a, repointed.machine.store.delegateOf a ≠ some a) ∧
    ∀ b, (repointed.machine.store.delegators b).length ≤ maxDelegators :=
  delegation_graph repointed_reachable

end Parashield.GovernanceDao
