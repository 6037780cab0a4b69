import Parashield.PolicyEngine.Holdings

/-!
# Expiry notices

Anyone may publish the notice that a policy expires soon, for one policy or
for a stretch of the policies of a user.  Both calls decide as the expiry
report does, and no policy is noticed twice.
-/

namespace Parashield.PolicyEngine

open Support Support.Contract Invocation

inductive ExpiryState where
  | notActive
  | active
  | expiringSoon
  | lapsed
  deriving DecidableEq, Repr

/-- Expiry status of one policy. -/
structure PolicyExpiryInfo where
  policyId : ℕ
  state : ExpiryState
  endTime : ℕ
  secondsRemaining : ℕ
  warned : Bool
  deriving DecidableEq, Repr

def getPolicyExpiryInfo (env : Env) (policyId : ℕ) :
    Call PolicyExpiryInfo := do
  let policy ← loadPolicy policyId
  let s ← load
  let secondsRemaining := policy.endTime - env.now
  let state :=
    if policy.status ≠ .active then ExpiryState.notActive
    else if policy.endTime ≤ env.now then .lapsed
    else if secondsRemaining ≤ s.expiryWarningWindow then .expiringSoon
    else .active
  pure
    { policyId := policyId
      state := state
      endTime := policy.endTime
      secondsRemaining := secondsRemaining
      warned := s.expiryWarned policyId }

/-- The report says that the policy expires soon and is not warned. -/
def ReportsDue (env : Env) (m : Machine State) (id : ℕ) : Prop :=
  ∃ info, getPolicyExpiryInfo env id m = .ok (info, m) ∧
    info.state = .expiringSoon ∧ info.warned = false

/-! ## What is due -/

/-- The policy is in its warning window and has not been warned. -/
def State.due (s : State) (now id : ℕ) : Bool :=
  match s.policies id with
  | some p =>
      decide (p.status = .active ∧ now < p.endTime ∧
        p.endTime - now ≤ s.expiryWarningWindow ∧ s.expiryWarned id = false)
  | none => false

/-- The notice that policy `id` expires soon. -/
def State.IsNotice (s : State) (now id : ℕ) (e : Event) : Prop :=
  ∃ p, s.policies id = some p ∧
    e = .policyExpiringSoon id p.policyholder p.productId p.coverageAmount
      p.endTime (p.endTime - now)

theorem State.due_iff {s : State} {now id : ℕ} :
    s.due now id = true ↔ ∃ p, s.policies id = some p ∧
      p.status = .active ∧ now < p.endTime ∧
      p.endTime - now ≤ s.expiryWarningWindow ∧
      s.expiryWarned id = false := by
  unfold State.due
  cases s.policies id with
  | none => simp
  | some p => simp

section Calls

variable {env : Env} {m m' : Machine State} {id : ℕ}

/-- The report shows what is due. -/
theorem reportsDue_iff : ReportsDue env m id ↔ m.store.due env.now id = true := by
  rw [State.due_iff]
  constructor
  · rintro ⟨info, hinfo, hstate, hwarned⟩
    simp [getPolicyExpiryInfo] at hinfo
    obtain ⟨p, hp, rfl⟩ := hinfo
    simp only at hstate hwarned
    split_ifs at hstate with hactive hlapsed hwindow
    exact ⟨p, hp, hactive, Nat.lt_of_not_le hlapsed,
      Nat.sub_le_iff_le_add.mpr hwindow, hwarned⟩
  · rintro ⟨p, hp, hactive, hend, hwindow, hwarned⟩
    have hlapsed : ¬ p.endTime ≤ env.now := Nat.not_le_of_lt hend
    refine ⟨⟨id, .expiringSoon, p.endTime, p.endTime - env.now, false⟩, ?_,
      rfl, rfl⟩
    simp [getPolicyExpiryInfo, hp, hactive, hlapsed, hwarned]
    exact Nat.sub_le_iff_le_add.mp hwindow

/-- The single notice is published for what is due. -/
theorem notifyPolicyExpiring_iff :
    (∃ m', notifyPolicyExpiring env id m = .ok ((), m')) ↔
      m.store.due env.now id = true := by
  rw [State.due_iff]
  constructor
  · rintro ⟨m', h⟩
    simp [notifyPolicyExpiring, warnExpiring] at h
    obtain ⟨p, hp, hactive, hend, hwindow, hwarned, -⟩ := h
    exact ⟨p, hp, hactive, hend, Nat.sub_le_iff_le_add.mpr hwindow, hwarned⟩
  · rintro ⟨p, hp, hactive, hend, hwindow, hwarned⟩
    simp [notifyPolicyExpiring, warnExpiring]
    exact ⟨p, hp, hactive, hend, Nat.sub_le_iff_le_add.mp hwindow, hwarned⟩

/-! ## The sweep -/

/-- Storage after the notice for policy `id`. -/
def State.noticed (s : State) (id : ℕ) (e : Event) : State :=
  { s with
    expiryWarned := Function.update s.expiryWarned id true
    events := e :: s.events }

/-- A notice for one policy leaves what is due of the others. -/
theorem State.due_noticed_of_ne {s : State} {now id j : ℕ} {e : Event}
    (h : id ≠ j) : (s.noticed j e).due now id = s.due now id := by
  unfold State.due State.noticed
  simp only [Function.update_of_ne h]

theorem notifyIfExpiring_of_due (h : m.store.due env.now id = true) :
    ∃ e, m.store.IsNotice env.now id e ∧
      notifyIfExpiring env id m =
        .ok (1, { m with store := m.store.noticed id e }) := by
  obtain ⟨p, hp, hactive, hend, hwindow, hwarned⟩ := State.due_iff.mp h
  refine ⟨_, ⟨p, hp, rfl⟩, ?_⟩
  simp [notifyIfExpiring, hp, ite_ok, warnExpiring, hactive, hend, hwarned,
    State.noticed]
  exact Nat.sub_le_iff_le_add.mp hwindow

theorem notifyIfExpiring_of_not_due (h : m.store.due env.now id = false) :
    notifyIfExpiring env id m = .ok (0, m) := by
  have hnot := mt State.due_iff.mpr (by rw [h]; exact Bool.false_ne_true)
  simp only [notifyIfExpiring, bind_ok, load_ok]
  refine ⟨_, _, ⟨rfl, rfl⟩, ?_⟩
  cases hp : m.store.policies id with
  | none => rfl
  | some p =>
      dsimp only
      rw [if_neg fun hdue => hnot ⟨p, hp, hdue⟩]
      rfl

variable (env m) in
/-- The sweep publishes one notice for each due policy of the list. -/
theorem collect_notices {ids : List ℕ} (hnodup : ids.Nodup) :
    ∃ counts notices m',
      collect ids (notifyIfExpiring env) m = .ok (counts, m') ∧
        counts.sum = (ids.filter (m.store.due env.now)).length ∧
        List.Forall₂ (m.store.IsNotice env.now)
          (ids.filter (m.store.due env.now)) notices ∧
        m'.store.events = notices.reverse ++ m.store.events := by
  induction ids generalizing m with
  | nil => exact ⟨[], [], m, rfl, rfl, .nil, rfl⟩
  | cons id ids ih =>
      obtain ⟨hid, hrest⟩ := List.nodup_cons.mp hnodup
      cases hdue : m.store.due env.now id with
      | false =>
          obtain ⟨counts, notices, m', hrun, hcounts, hnotices, hevents⟩ :=
            ih m hrest
          refine ⟨0 :: counts, notices, m', ?_, ?_⟩
          · exact bind_ok.mpr ⟨0, m, notifyIfExpiring_of_not_due hdue,
              bind_ok.mpr ⟨counts, m', hrun, pure_ok.mpr ⟨rfl, rfl⟩⟩⟩
          · rw [List.filter_cons_of_neg (by simp [hdue]), List.sum_cons,
              zero_add]
            exact ⟨hcounts, hnotices, hevents⟩
      | true =>
          obtain ⟨e, he, hfirst⟩ := notifyIfExpiring_of_due hdue
          obtain ⟨counts, notices, m', hrun, hcounts, hnotices, hevents⟩ :=
            ih { m with store := m.store.noticed id e } hrest
          -- the notice just published changes nothing for the others
          have hsame : ids.filter
              ((m.store.noticed id e).due env.now) =
              ids.filter (m.store.due env.now) :=
            List.filter_congr fun j hj =>
              State.due_noticed_of_ne fun heq => hid (heq ▸ hj)
          simp only [hsame] at hcounts hnotices
          refine ⟨1 :: counts, e :: notices, m', ?_, ?_, ?_, ?_⟩
          · exact bind_ok.mpr ⟨1, _, hfirst,
              bind_ok.mpr ⟨counts, m', hrun, pure_ok.mpr ⟨rfl, rfl⟩⟩⟩
          · rw [List.filter_cons_of_pos hdue, List.sum_cons, hcounts,
              List.length_cons]
            omega
          · rw [List.filter_cons_of_pos hdue]
            exact .cons he hnotices
          · rw [hevents, State.noticed, List.reverse_cons,
              List.append_assoc]
            rfl

end Calls

/-! ## No policy is noticed twice -/

/-- The policy a notice is for. -/
def Event.noticed : Event → Option ℕ
  | .policyExpiringSoon id .. => some id
  | _ => none

/-- The policies noticed so far are marked, each once. -/
structure Book.Noticed (b : Book) : Prop where
  nodup : (b.journal.filterMap Event.noticed).Nodup
  marked : ∀ id ∈ b.journal.filterMap Event.noticed, b.expiryWarned id = true

theorem Book.Noticed.change {env : Env} {k : Book.Kind} {b b' : Book}
    (h : b.Noticed) (hchange : Book.Change env k b b') : b'.Noticed := by
  cases hchange with
  | @warn _ id p _ _ _ hfree =>
      have hnew : id ∉ b.journal.filterMap Event.noticed := by
        intro hmem
        cases hfree.symm.trans (h.marked id hmem)
      refine ⟨List.nodup_cons.mpr ⟨hnew, h.nodup⟩, fun j hj => ?_⟩
      by_cases hid : j = id
      · subst hid
        exact Function.update_self ..
      · rcases List.mem_cons.mp hj with rfl | hj
        · exact absurd rfl hid
        · show Function.update b.expiryWarned id true j = true
          rw [Function.update_of_ne hid]
          exact h.marked j hj
  | _ => exact ⟨h.nodup, h.marked⟩

section Runs

variable {engine : Address} {w : World State}

theorem noticed_inductive (engine : Address) :
    (system engine).Inductive fun w =>
      Wired w.machine.store ∧ (book w.machine).Noticed := by
  refine (wired_inductive engine).and ?_ ?_
  · rintro w ⟨hstore, -⟩
    have hempty : (book w.machine).journal = [] := by
      rw [book, hstore]
      rfl
    constructor
    · rw [hempty]
      exact List.nodup_nil
    · rw [hempty]
      rintro _ ⟨⟩
  · rintro w l w' hwired - h hstep
    cases hstep with
    | call _ hexec =>
        exact (exec_performs hwired hexec).1.preserves
          (fun _ _ _ _ _ hchange hc => hc.change hchange) h
    | tick => exact h
    | transfer => exact ⟨h.nodup, h.marked⟩
    | mint => exact ⟨h.nodup, h.marked⟩

/-- The journal holds all notices. -/
theorem journal_noticed (m : Machine State) :
    (book m).journal.filterMap Event.noticed =
      m.store.events.filterMap Event.noticed := by
  rw [book, List.filterMap_filter]
  congr 1
  funext e
  cases e <;> rfl

/-- A single notice is published exactly when the report shows the policy
expiring soon and not warned; a sweep publishes one for each such policy of
its stretch of the user's list, counts them and does not fail; and no policy
is ever noticed twice. -/
theorem expiry_notices_agree (hw : (system engine).Reachable w) :
    (∀ env id, (∃ m', notifyPolicyExpiring env id w.machine = .ok ((), m')) ↔
        ReportsDue env w.machine id) ∧
      (∀ env user offset, ∃ due notices m',
        due.Nodup ∧
          (∀ id, id ∈ due ↔
            id ∈ ((w.machine.store.userPolicies user).drop offset).take
                maxExpiryScan ∧
              ReportsDue env w.machine id) ∧
          notifyExpiringPolicies env user offset w.machine =
            .ok (due.length, m') ∧
          List.Forall₂ (w.machine.store.IsNotice env.now) due notices ∧
          m'.store.events = notices.reverse ++ w.machine.store.events) ∧
      (w.machine.store.events.filterMap Event.noticed).Nodup := by
  refine ⟨fun env id => ?_, fun env user offset => ?_, ?_⟩
  · rw [reportsDue_iff]
    exact notifyPolicyExpiring_iff
  · have hnodup : (((w.machine.store.userPolicies user).drop offset).take
        maxExpiryScan).Nodup :=
      ((user_policies_index hw user).1.sublist
        (List.drop_sublist _ _)).sublist (List.take_sublist _ _)
    obtain ⟨counts, notices, m', hrun, hcounts, hnotices, hevents⟩ :=
      collect_notices env w.machine hnodup
    refine ⟨_, notices, m', hnodup.filter _, fun id => ?_, ?_, hnotices,
      hevents⟩
    · rw [List.mem_filter, reportsDue_iff]
    · rw [← hcounts]
      exact bind_ok.mpr ⟨_, _, load_ok.mpr ⟨rfl, rfl⟩,
        bind_ok.mpr ⟨counts, m', hrun, pure_ok.mpr ⟨rfl, rfl⟩⟩⟩
  · rw [← journal_noticed]
    exact (hw.invariant (noticed_inductive engine)).2.nodup

end Runs

namespace Sample

/-- Five days before the policy of the holder ends. -/
def nearing : World State :=
  (step exec engine insured (.tick (360 * 86400))).get (by decide +kernel)

/-- Anyone sweeps the policies of the holder. -/
def sweeping : Label Entry := .call [] (.notifyExpiringPolicies holder 0)

def reminded : World State :=
  (step exec engine nearing sweeping).get (by decide +kernel)

theorem nearing_reachable : (system engine).Reachable nearing :=
  insured_reachable.step (step_sound (Option.some_get _).symm)

end Sample

open Sample in
theorem expiry_notices_agree_reminded :
    ReportsDue (callEnv engine nearing []) nearing.machine 1 ∧
      ¬ ReportsDue (callEnv engine reminded []) reminded.machine 1 ∧
      reminded.machine.store.events.filterMap Event.noticed = [1] ∧
      (reminded.machine.store.events.filterMap Event.noticed).Nodup := by
  have hreminded : (system engine).Reachable reminded :=
    nearing_reachable.step (step_sound (Option.some_get _).symm)
  obtain ⟨hsingle, -, -⟩ := expiry_notices_agree nearing_reachable
  obtain ⟨-, -, hnodup⟩ := expiry_notices_agree hreminded
  refine ⟨(hsingle _ 1).mp (notifyPolicyExpiring_iff.mpr ?_), ?_, ?_, hnodup⟩
  · decide +kernel
  · rw [reportsDue_iff]
    decide +kernel
  · decide +kernel

end Parashield.PolicyEngine
