import Parashield.PolicyEngine.Oversight

/-!
# Oracle rotation

A change of the oracle takes a proposal by the administrator, a later approval
by the guardian, and 48 hours.  The two parties stay apart as long as nobody
who is the guardian, or approved what is pending, takes the administration,
and nobody who proposed what is pending becomes the guardian.
-/

namespace Parashield.PolicyEngine

open Support Support.Contract Invocation TransitionSystem

/-! ## The parties to a pending change -/

/-- Who proposed the pending change, and who approved it since. -/
structure Review where
  proposer : Option Address
  approvers : List Address

namespace Review

/-- Nothing is pending. -/
def none : Review := ⟨Option.none, []⟩

def note (r : Review) : Label Entry → Review
  | .call _ (.proposeOracleChange admin _) => ⟨some admin, []⟩
  | .call _ (.approveOracleChange guardian) =>
      { r with approvers := guardian :: r.approvers }
  | .call _ (.executeOracleChange _) => none
  | _ => r

theorem note_rest {r : Review} {e : Entry} (he : e.oversees = false)
    (signers : List Address) : r.note (.call signers e) = r := by
  cases e with
  | proposeOracleChange => cases he
  | approveOracleChange => cases he
  | executeOracleChange => cases he
  | _ => rfl

end Review

/-- Runs of the engine with the parties to the pending change on record. -/
def reviewing (self : Address) :
    TransitionSystem (World State × Review) (Label Entry) :=
  (system self).recording .none Review.note

/-- Neither the guardian nor who approved the pending change takes the
administration, its proposer does not become the guardian, and the review
period of a proposal ends at a ledger time. -/
def KeepsApart (p : World State × Review) : Label Entry → Prop
  | .call _ (.acceptAdmin admin) =>
      p.1.machine.store.oracleGuardian ≠ some admin ∧ admin ∉ p.2.approvers
  | .call _ (.setOracleGuardian _ guardian) => p.2.proposer ≠ some guardian
  | .call _ (.proposeOracleChange ..) =>
      p.1.now + oracleChangeTimelockSeconds ≤ maxU64
  | _ => True

/-- The guardian is not the administrator and did not propose what is pending;
who approved it is neither the administrator nor its proposer. -/
structure Apart (o : Oversight) (r : Review) : Prop where
  unset : o.initialized = false → o.oracleGuardian = none ∧ r = .none
  guardian : ∀ a, o.oracleGuardian = some a →
    o.admin ≠ some a ∧ r.proposer ≠ some a
  approvers : ∀ a ∈ r.approvers, o.admin ≠ some a ∧ r.proposer ≠ some a

section Apart

variable {env : Env} {e : Entry} {o o' : Oversight} {r : Review}
  {w : World State} {signers : List Address}

theorem Apart.act (h : Apart o r) (hact : Oversight.Act env e o o')
    (hset : o.admin.isSome → o.initialized = true)
    (haccept : ∀ a, e = .acceptAdmin a →
      o.oracleGuardian ≠ some a ∧ a ∉ r.approvers)
    (happoint : ∀ a g, e = .setOracleGuardian a g → r.proposer ≠ some g)
    (hset' : o'.admin.isSome → o'.initialized = true) :
    Apart o' (r.note (.call signers e)) := by
  cases hact with
  | rest he =>
      rw [Review.note_rest he]
      exact h
  | @found admin _ _ _ hfresh =>
      obtain ⟨hnone, rfl⟩ := h.unset hfresh
      refine ⟨nofun, fun a ha => ?_, nofun⟩
      rw [show o.oracleGuardian = some a from ha] at hnone
      cases hnone
  | @appoint admin guardian _ hsigned hother =>
      have hinit : o.initialized = true := hset (by simp [hsigned.1])
      refine ⟨fun hfresh => ?_, fun a ha => ?_, h.approvers⟩
      · rw [show o.initialized = false from hfresh] at hinit
        cases hinit
      · obtain rfl := Option.some.inj ha
        refine ⟨fun hadmin => hother ?_, happoint admin guardian rfl⟩
        exact Option.some.inj (hadmin.symm.trans hsigned.1)
  | @propose admin _ _ hsigned _ =>
      have hinit : o.initialized = true := hset (by simp [hsigned.1])
      refine ⟨fun hfresh => ?_, fun a ha => ?_, nofun⟩
      · rw [show o.initialized = false from hfresh] at hinit
        cases hinit
      · have hne : o.admin ≠ some a := (h.guardian a ha).1
        refine ⟨hne, ?_⟩
        rw [hsigned.1] at hne
        exact hne
  | @approve guardian change _ _ hguardian _ =>
      refine ⟨fun hfresh => ?_, h.guardian, fun a ha => ?_⟩
      · rw [(h.unset hfresh).1] at hguardian
        cases hguardian
      · rcases List.mem_cons.mp ha with rfl | ha
        · exact h.guardian a hguardian
        · exact h.approvers a ha
  | execute =>
      exact ⟨fun hfresh => ⟨(h.unset hfresh).1, rfl⟩,
        fun a ha => ⟨(h.guardian a ha).1, nofun⟩, nofun⟩
  | @accept admin _ _ =>
      obtain ⟨hguardian, happrovers⟩ := haccept admin rfl
      have hinit : o.initialized = true := hset' rfl
      refine ⟨fun hfresh => ?_, fun a ha => ⟨?_, (h.guardian a ha).2⟩,
        fun a ha => ⟨?_, (h.approvers a ha).2⟩⟩
      · rw [show o.initialized = false from hfresh] at hinit
        cases hinit
      · rintro hadmin
        obtain rfl := Option.some.inj hadmin
        exact hguardian ha
      · rintro hadmin
        obtain rfl := Option.some.inj hadmin
        exact happrovers ha

theorem apart_inductive (self : Address) :
    ((reviewing self).restrict KeepsApart).Inductive fun p =>
      Wired p.1.machine.store ∧ Apart p.1.machine.store.oversight p.2 where
  init := by
    rintro ⟨w, r⟩ ⟨hw, hr⟩
    refine ⟨(wired_inductive self).init w hw, ?_⟩
    obtain rfl : r = .none := hr
    have hnone : w.machine.store.oversight.oracleGuardian = none := by
      rw [show w.machine.store = State.deployed from hw.1]
      rfl
    refine ⟨fun _ => ⟨hnone, rfl⟩, fun a ha => ?_, nofun⟩
    rw [hnone] at ha
    cases ha
  step := by
    rintro ⟨w, r⟩ l ⟨w', r'⟩ ⟨hwired, h⟩ ⟨hG, hstep, hr⟩
    obtain rfl : r' = r.note l := hr
    have hwired' := (wired_inductive self).step w l w' hwired hstep
    refine ⟨hwired', ?_⟩
    cases hstep with
    | call _ hexec =>
        refine h.act (exec_oversight hexec) hwired.admin ?_ ?_ hwired'.admin
        · rintro a rfl
          exact hG
        · rintro a g rfl
          exact hG
    | tick => exact h
    | transfer => exact h
    | mint => exact h

end Apart

/-! ## From the proposal to the execution -/

section Review

variable {self : Address} {s w w' : World State} {p q q' : World State × Review}
  {l : Label Entry} {ls : List (Label Entry)} {executor newOracle : Address}

/-- A change of the oracle is pending. -/
def Pending (w : World State) : Prop :=
  w.machine.store.pendingOracleChange ≠ none

/-- In the run `ls` from `s` the guardian in office approves. -/
def ApprovedIn (self : Address) (s : World State) (ls : List (Label Entry))
    (guardian : Address) : Prop :=
  ∃ before signers after v,
    ls = before ++ .call signers (.approveOracleChange guardian) :: after ∧
      (system self).Run s before v ∧
      v.machine.store.oracleGuardian = some guardian

/-- The run `ls` from `s` to `w` contains a proposal of `newOracle` by the
administrator that is at least 48 hours old and has been pending since.  A
guardian has approved it, and who did is neither the proposer nor
`executor`. -/
def Reviewed (self : Address) (s : World State) (ls : List (Label Entry))
    (w : World State) (executor newOracle : Address) : Prop :=
  ∃ before signers proposer after t u,
    ls = before ++
        .call signers (.proposeOracleChange proposer newOracle) :: after ∧
      (system self).Run s before t ∧
      (system self).Step t
        (.call signers (.proposeOracleChange proposer newOracle)) u ∧
      t.machine.store.admin = some proposer ∧
      t.now + oracleChangeTimelockSeconds ≤ w.now ∧
      ((system self).restrict fun v _ => Pending v).Run u after w ∧
      (∃ guardian, ApprovedIn self u after guardian) ∧
      ∀ guardian, ApprovedIn self u after guardian →
        guardian ≠ proposer ∧ guardian ≠ executor

/-- What a step does to the oversight. -/
theorem step_oversight (h : (system self).Step w l w') :
    w'.machine.store.oversight = w.machine.store.oversight ∨
      ∃ signers e, l = .call signers e ∧
        Oversight.Act (callEnv self w signers) e w.machine.store.oversight
          w'.machine.store.oversight := by
  cases h with
  | @call signers e m' _ hexec =>
      exact .inr ⟨signers, e, rfl, exec_oversight hexec⟩
  | tick => exact .inl rfl
  | transfer => exact .inl rfl
  | mint => exact .inl rfl

/-- A change becomes pending when the administrator proposes it. -/
theorem proposed_of_pending (h : (system self).Step w l w')
    (hnone : ¬ Pending w) (hpending : Pending w') :
    ∃ signers proposer newOracle,
      l = .call signers (.proposeOracleChange proposer newOracle) ∧
        w.machine.store.admin = some proposer ∧
        w'.machine.store.pendingOracleChange =
          some ⟨newOracle, satAddU64 w.now oracleChangeTimelockSeconds,
            false⟩ := by
  have hnone' : w.machine.store.oversight.pendingOracleChange = none :=
    not_not.mp hnone
  have hpending' : w'.machine.store.oversight.pendingOracleChange ≠ none :=
    hpending
  rcases step_oversight h with hsame | ⟨signers, e, rfl, hact⟩
  · rw [hsame] at hpending'
    exact absurd hnone' hpending'
  generalize hw : w.machine.store.oversight = o at hact hnone'
  generalize hw' : w'.machine.store.oversight = o' at hact hpending'
  cases hact with
  | propose hsigned _ =>
      refine ⟨signers, _, _, rfl, ?_, ?_⟩
      · exact (congrArg Oversight.admin hw).trans hsigned.1
      · exact congrArg Oversight.pendingOracleChange hw'
  | approve _ _ hsome =>
      rw [hnone'] at hsome
      cases hsome
  | execute => exact absurd rfl hpending'
  | _ => exact absurd hnone' hpending'

/-- What is pending stays as it is, and its review too, until a guardian
approves. -/
theorem pending_stays {c c' : PendingOracleChange}
    (h : (system self).Step w l w')
    (hc : w.machine.store.pendingOracleChange = some c)
    (hc' : w'.machine.store.pendingOracleChange = some c') :
    (c' = c ∧ ∀ r : Review, r.note l = r) ∨
      ∃ signers guardian, l = .call signers (.approveOracleChange guardian) ∧
        w.machine.store.oracleGuardian = some guardian ∧
        c' = { c with guardianApproved := true } := by
  have hold : w.machine.store.oversight.pendingOracleChange = some c := hc
  have hnew : w'.machine.store.oversight.pendingOracleChange = some c' := hc'
  cases h with
  | @call signers e _ _ hexec =>
      have hact := exec_oversight hexec
      generalize hw : w.machine.store.oversight = o at hact hold
      generalize State.oversight _ = o' at hact hnew
      have hsame : o.pendingOracleChange = some c' → c' = c :=
        fun h => Option.some.inj (h.symm.trans hold)
      cases hact with
      | rest he => exact .inl ⟨hsame hnew, fun r => r.note_rest he signers⟩
      | found => exact .inl ⟨hsame hnew, fun _ => rfl⟩
      | appoint => exact .inl ⟨hsame hnew, fun _ => rfl⟩
      | propose _ hnone =>
          rw [hnone] at hold
          cases hold
      | @approve guardian change _ _ hguardian hsome =>
          obtain rfl := Option.some.inj (hsome.symm.trans hold)
          refine .inr ⟨signers, guardian, rfl, ?_, ?_⟩
          · exact (congrArg Oversight.oracleGuardian hw).trans hguardian
          · exact (Option.some.inj hnew).symm
      | execute => cases hnew
      | accept => exact .inl ⟨hsame hnew, fun _ => rfl⟩
  | tick => exact .inl ⟨Option.some.inj (hnew.symm.trans hold), fun _ => rfl⟩
  | transfer =>
      exact .inl ⟨Option.some.inj (hnew.symm.trans hold), fun _ => rfl⟩
  | mint => exact .inl ⟨Option.some.inj (hnew.symm.trans hold), fun _ => rfl⟩

/-- The runs of the engine, on record, on which a change is pending. -/
abbrev reviewingPending (self : Address) :
    TransitionSystem (World State × Review) (Label Entry) :=
  ((reviewing self).restrict KeepsApart).restrict fun q _ => Pending q.1

/-- As long as a change is pending, its oracle, its date and its proposer
stay. -/
theorem pending_terms {proposer : Address} {c c' : PendingOracleChange}
    (hrun : (reviewingPending self).Run q ls q')
    (hc : q.1.machine.store.pendingOracleChange = some c)
    (hproposer : q.2.proposer = some proposer)
    (hc' : q'.1.machine.store.pendingOracleChange = some c') :
    c'.newOracle = c.newOracle ∧ c'.executeAfter = c.executeAfter ∧
      q'.2.proposer = some proposer := by
  refine hrun.preserves (Q := fun q => ∀ d,
    q.1.machine.store.pendingOracleChange = some d →
      d.newOracle = c.newOracle ∧ d.executeAfter = c.executeAfter ∧
        q.2.proposer = some proposer) ?_ ?_ c' hc'
  · rintro ⟨w, r⟩ l ⟨w', r'⟩ hQ ⟨hpending, -, hstep, hr⟩ d' hd'
    obtain rfl : r' = r.note l := hr
    obtain ⟨d, hd⟩ := Option.ne_none_iff_exists'.mp hpending
    rcases pending_stays hstep hd hd' with ⟨rfl, hnote⟩ |
      ⟨signers, guardian, rfl, -, rfl⟩
    · show _ ∧ _ ∧ (r.note l).proposer = _
      rw [hnote r]
      exact hQ d' hd
    · exact hQ d hd
  · intro d hd
    obtain rfl := Option.some.inj (hd.symm.trans hc)
    exact ⟨rfl, rfl, hproposer⟩

/-- What got its approval was approved by the guardian in office. -/
theorem approvedIn_of_approved {c c' : PendingOracleChange}
    (hrun : (reviewingPending self).Run q ls q')
    (hc : q.1.machine.store.pendingOracleChange = some c)
    (hopen : c.guardianApproved = false)
    (hc' : q'.1.machine.store.pendingOracleChange = some c')
    (happroved : c'.guardianApproved = true) :
    ∃ guardian, ApprovedIn self q.1 ls guardian := by
  have hstart : ¬ ∃ d, q.1.machine.store.pendingOracleChange = some d ∧
      d.guardianApproved = true := by
    rintro ⟨d, hd, happroved'⟩
    rw [Option.some.inj (hd.symm.trans hc), hopen] at happroved'
    cases happroved'
  obtain ⟨before, l, after, t, u, rfl, hbefore, hl, ht, ⟨d', hd', happroved'⟩,
    -⟩ := hrun.onset (P := fun q => ∃ d,
      q.1.machine.store.pendingOracleChange = some d ∧
        d.guardianApproved = true) hstart ⟨c', hc', happroved⟩
  obtain ⟨hpending, -, hstep, -⟩ := hl
  obtain ⟨d, hd⟩ := Option.ne_none_iff_exists'.mp hpending
  rcases pending_stays hstep hd hd' with ⟨rfl, -⟩ |
    ⟨signers, guardian, rfl, hguardian, -⟩
  · exact absurd ⟨d', hd, happroved'⟩ ht
  · exact ⟨guardian, before, signers, after, t.1, rfl,
      hbefore.of_restrict.of_restrict.of_recording, hguardian⟩

/-- Who approved is on record while the change is pending. -/
theorem approver_recorded {guardian : Address}
    (hrun : (reviewingPending self).Run q ls q') (hpending : Pending q'.1)
    (happroved : ApprovedIn self q.1 ls guardian) :
    guardian ∈ q'.2.approvers := by
  obtain ⟨before, signers, after, -, rfl, -⟩ := happroved
  obtain ⟨t, -, hrest⟩ := run_append_iff.mp hrun
  obtain ⟨u, ⟨-, -, -, hu⟩, hafter⟩ := run_cons_iff.mp hrest
  have hmem : guardian ∈ u.2.approvers := by
    rw [show u.2 = t.2.note _ from hu]
    exact List.mem_cons_self
  refine hafter.preserves (Q := fun q => Pending q.1 →
    guardian ∈ q.2.approvers) ?_ (fun _ => hmem) hpending
  rintro ⟨w, r⟩ l ⟨w', r'⟩ hQ ⟨hpending, -, hstep, hr⟩ hpending'
  obtain rfl : r' = r.note l := hr
  obtain ⟨d, hd⟩ := Option.ne_none_iff_exists'.mp hpending
  obtain ⟨d', hd'⟩ := Option.ne_none_iff_exists'.mp hpending'
  rcases pending_stays hstep hd hd' with ⟨-, hnote⟩ |
    ⟨signers, guardian, rfl, -, -⟩
  · show guardian ∈ (r.note l).approvers
    rw [hnote r]
    exact hQ hpending
  · exact List.mem_cons_of_mem _ (hQ hpending)

/-- If the parties are kept apart, what is pending and approved has been
reviewed. -/
theorem reviewed_of_approved {c : PendingOracleChange} (hs : (system self).Init s)
    (hrun : ((reviewing self).restrict KeepsApart).Run (s, .none) ls p)
    (hc : p.1.machine.store.pendingOracleChange = some c)
    (happroved : c.guardianApproved = true)
    (hdue : c.executeAfter ≤ p.1.now)
    (hexecutor : p.1.machine.store.admin = some executor) :
    Reviewed self s ls p.1 executor c.newOracle := by
  have hpending : Pending p.1 := Option.ne_none_iff_exists'.mpr ⟨c, hc⟩
  have hstart : ¬ Pending s := by
    rw [Pending, show s.machine.store = State.deployed from hs.1]
    exact not_not.mpr rfl
  obtain ⟨before, l, after, ⟨t, r⟩, ⟨u, r'⟩, rfl, hbefore,
    ⟨hG, hstep, hr⟩, ht, hu, hafter⟩ :=
    hrun.onset (P := fun q => Pending q.1) hstart hpending
  obtain ⟨signers, proposer, newOracle, rfl, hproposer, hproposed⟩ :=
    proposed_of_pending hstep ht hu
  obtain rfl : r' = ⟨some proposer, []⟩ := hr
  obtain ⟨horacle, hdate, hsame⟩ := pending_terms hafter hproposed rfl hc
  have hintime : t.now + oracleChangeTimelockSeconds ≤ maxU64 := hG
  have hwaited : t.now + oracleChangeTimelockSeconds ≤ p.1.now := by
    rw [hdate, satAddU64, Nat.min_eq_left hintime] at hdue
    exact hdue
  have hapart : Apart p.1.machine.store.oversight p.2 :=
    (TransitionSystem.Reachable.invariant (apart_inductive self)
      (.run (.init ⟨hs, rfl⟩) hrun)).2
  refine ⟨before, signers, proposer, after, t, u, by rw [horacle],
    hbefore.of_restrict.of_recording, by rw [horacle]; exact hstep, hproposer,
    hwaited, ?_, approvedIn_of_approved hafter hproposed rfl hc happroved,
    fun guardian hin => ?_⟩
  · refine hafter.image Prod.fst ?_
    rintro v l v' ⟨hv, -, hstep', -⟩
    exact ⟨hv, hstep'⟩
  · obtain ⟨hadmin, hother⟩ :=
      hapart.approvers guardian (approver_recorded hafter hpending hin)
    constructor
    · rintro rfl
      exact hother hsame
    · rintro rfl
      exact hadmin hexecutor

/-- If the parties are kept apart, an initialized engine changes its oracle
only when the administrator executes a reviewed change. -/
theorem oracle_rotation (hs : (system self).Init s)
    (hrun : ((reviewing self).restrict KeepsApart).Run (s, .none) ls p)
    (hinit : p.1.machine.store.initialized = true)
    (hstep : (system self).Step p.1 l w')
    (hchange : w'.machine.store.oracleAddress ≠
      p.1.machine.store.oracleAddress) :
    ∃ signers executor newOracle,
      l = .call signers (.executeOracleChange executor) ∧
        p.1.machine.store.admin = some executor ∧
        w'.machine.store.oracleAddress = some newOracle ∧
        Reviewed self s ls p.1 executor newOracle := by
  have hchange' : w'.machine.store.oversight.oracleAddress ≠
      p.1.machine.store.oversight.oracleAddress := hchange
  rcases step_oversight hstep with hsame | ⟨signers, e, rfl, hact⟩
  · rw [hsame] at hchange'
    exact absurd rfl hchange'
  generalize hw : p.1.machine.store.oversight = o at hact hchange'
  generalize hw' : w'.machine.store.oversight = o' at hact hchange'
  cases hact with
  | found hfresh =>
      have hopen : p.1.machine.store.initialized = o.initialized :=
        congrArg Oversight.initialized hw
      rw [hopen, hfresh] at hinit
      cases hinit
  | @execute admin change _ hsigned hsome happroved hdue =>
      have hadmin : p.1.machine.store.admin = some admin :=
        (congrArg Oversight.admin hw).trans hsigned.1
      have hpending : p.1.machine.store.pendingOracleChange = some change :=
        (congrArg Oversight.pendingOracleChange hw).trans hsome
      exact ⟨signers, admin, change.newOracle, rfl, hadmin,
        congrArg Oversight.oracleAddress hw',
        reviewed_of_approved hs hrun hpending happroved hdue hadmin⟩
  | _ => exact absurd rfl hchange'

end Review

/-! ## A rotation, and one without a second party -/

namespace Sample

def warden : Address := .account 4
def feed : Address := .contract 5

def founding : List (Label Entry) :=
  [.mint usdc holder 1000000,
    .call [admin] (.initializeEngine admin usdc oracle)]

def founded : World State :=
  (TransitionSystem.execute (step exec engine) founding genesis).get
    (by decide +kernel)

def appointing : Label Entry :=
  .call [admin] (.setOracleGuardian admin warden)

def appointed : World State :=
  (step exec engine founded appointing).get (by decide +kernel)

def proposing : Label Entry :=
  .call [admin] (.proposeOracleChange admin feed)

def proposed : World State :=
  (step exec engine appointed proposing).get (by decide +kernel)

def reviewed : List (Label Entry) :=
  [.call [warden] (.approveOracleChange warden),
    .tick oracleChangeTimelockSeconds]

/-- The change is approved and due. -/
def due : World State :=
  (TransitionSystem.execute (step exec engine) reviewed proposed).get
    (by decide +kernel)

def rotating (executor : Address) : Label Entry :=
  .call [executor] (.executeOracleChange executor)

def rotated : World State :=
  (step exec engine due (rotating admin)).get (by decide +kernel)

/-- The guardian takes the administration and changes the oracle alone. -/
def seizure : List (Label Entry) :=
  founding ++
    [appointing, .call [admin] (.proposeNewAdmin admin warden),
      .tick adminTransferTimelock, .call [warden] (.acceptAdmin warden),
      .call [warden] (.proposeOracleChange warden feed)] ++ reviewed

def seized : World State :=
  (TransitionSystem.execute (step exec engine) seizure genesis).get
    (by decide +kernel)

def usurped : World State :=
  (step exec engine seized (rotating warden)).get (by decide +kernel)

theorem due_reviewing : ((reviewing engine).restrict KeepsApart).Run
    (genesis, .none) (founding ++ appointing :: proposing :: reviewed)
    (due, ⟨some admin, [warden]⟩) := by
  have hfounding : (system engine).Run genesis founding founded :=
    run_of_execute (fun _ _ _ => step_sound) (Option.some_get _).symm
  have hreviewed : (system engine).Run proposed reviewed due :=
    run_of_execute (fun _ _ _ => step_sound) (Option.some_get _).symm
  have hnow : appointed.now + oracleChangeTimelockSeconds ≤ maxU64 := by
    decide +kernel
  refine Run.append
    (hfounding.recording.restrict (by simp [founding, KeepsApart])) ?_
  have happointing : (system engine).Step founded appointing appointed :=
    step_sound (Option.some_get _).symm
  have hproposing : (system engine).Step appointed proposing proposed :=
    step_sound (Option.some_get _).symm
  have hstart : ((reviewing engine).restrict KeepsApart).Run (founded, .none)
      [appointing, proposing] (proposed, ⟨some admin, []⟩) :=
    .cons (t := (appointed, .none)) ⟨nofun, happointing, rfl⟩
      (.cons ⟨hnow, hproposing, rfl⟩ (.nil _))
  refine hstart.append ?_
  exact hreviewed.recording.restrict (by simp [reviewed, KeepsApart])

end Sample

open Sample

theorem oracle_rotation_due :
    ∃ signers executor newOracle,
      rotating admin = .call signers (.executeOracleChange executor) ∧
        due.machine.store.admin = some executor ∧
        rotated.machine.store.oracleAddress = some newOracle ∧
        Reviewed engine genesis
          (founding ++ appointing :: proposing :: reviewed) due executor
          newOracle := by
  have hinit : due.machine.store.initialized = true := by decide +kernel
  have hchange : rotated.machine.store.oracleAddress ≠
      due.machine.store.oracleAddress := by decide +kernel
  exact oracle_rotation ⟨rfl, rfl⟩ due_reviewing hinit
    (step_sound (Option.some_get _).symm) hchange

/-- A guardian who has become the administrator proposes, approves and
executes. -/
theorem warden_rotates_alone :
    (system engine).Init genesis ∧
      (system engine).Run genesis seizure seized ∧
      seized.machine.store.initialized = true ∧
      (system engine).Step seized (rotating warden) usurped ∧
      usurped.machine.store.oracleAddress = some feed ∧
      seized.machine.store.oracleAddress = some oracle ∧
      ¬ ∃ executor newOracle,
        seized.machine.store.admin = some executor ∧
          Reviewed engine genesis seizure seized executor newOracle := by
  refine ⟨⟨rfl, rfl⟩, ?_, by decide +kernel,
    step_sound (Option.some_get _).symm, by decide +kernel, by decide +kernel,
    ?_⟩
  · exact run_of_execute (fun _ _ _ => step_sound) (Option.some_get _).symm
  rintro ⟨executor, newOracle, hexecutor, before, signers, proposer, after, t,
    u, hls, -, -, -, -, -, ⟨guardian, hin⟩, hapart⟩
  have hwarden : seized.machine.store.admin = some warden := by decide +kernel
  obtain rfl := Option.some.inj (hexecutor.symm.trans hwarden)
  obtain ⟨mid, signers', rest, -, rfl, -⟩ := id hin
  have hmem : Label.call signers' (.approveOracleChange guardian) ∈ seizure := by
    rw [hls]
    simp
  have hguardian : signers' = [warden] ∧ guardian = warden := by
    simpa [seizure, founding, reviewed, appointing] using hmem
  exact (hapart guardian hin).2 hguardian.2

end Parashield.PolicyEngine
