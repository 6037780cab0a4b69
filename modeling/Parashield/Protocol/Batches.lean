import Parashield.ClaimsProcessor.Batches
import Parashield.ClaimsProcessor.Portfolio
import Parashield.Protocol.DeadClaims
import Parashield.Protocol.Escalations

/-!
# Batches

Each batch entry point of the claims processor against the single calls it
stands for.  A sweep of the queue takes the claims oldest first and comes to
the same as single sweeps of their policies, except that it passes over a claim
that has been processed before and is back in the queue after a dispute.  A
batch of claims to process or to file stands for the single calls only if it
is empty or a single one: the second authorization of the keeper in one frame
and the cooldown between filings of one claimant stop it.
-/

namespace Parashield.Protocol

open Support Support.Contract Invocation
open PolicyEngine (Policy)
open ClaimsProcessor

/-! ## Sweeping the queue -/

/-- When the claim on file under `id` was submitted, and for which policy. -/
def filedAt (s : ClaimsProcessor.State) (id : ℕ) : ℕ :=
  ((s.claim id).map Claim.submittedAt).getD 0

def policyOf (s : ClaimsProcessor.State) (id : ℕ) : ℕ :=
  ((s.claim id).map Claim.policyId).getD 0

/-- Every claim of the list that waits when its round comes is taken up. -/
def TakesUp (env : Context) (caller : Address) (ids : List ℕ)
    (m : Machine Network) : Prop :=
  ∀ us id vs results t c, ids = us ++ id :: vs →
    collect us (autoProcessPending env caller) m = .ok (results, t) →
    t.store.claims.claim id = some c → c.status = .pending →
    t.store.claims.taken id = some c.policyId

/-- The batch is fair and complete: it sorts the queue by submission time,
keeping the order of claims of the same time, and does for the head of the
queue what single calls would do one after the other, passing over no claim
that waits. -/
structure Fair (env : Context) (caller : Address) (limit : ℕ)
    (m : Machine Network) (rs : List (ℕ × ClaimResult))
    (m' : Machine Network) : Prop where
  perm : (queueSorted m).store.claims.pendingClaims.Perm
    m.store.claims.pendingClaims
  sorted : (queueSorted m).store.claims.pendingClaims.Pairwise fun i j =>
    filedAt m.store.claims i ≤ filedAt m.store.claims j
  stable : ∀ time,
    (queueSorted m).store.claims.pendingClaims.filter
        (fun id => filedAt m.store.claims id = time) =
      m.store.claims.pendingClaims.filter fun id =>
        filedAt m.store.claims id = time
  sequential :
    autoProcessEach env caller
        (((queueSorted m).store.claims.pendingClaims.take
          (min limit maxBatchSize)).map fun id =>
            (id, policyOf m.store.claims id))
        (queueSorted m) = (rs, m')
  complete : TakesUp env caller
    ((queueSorted m).store.claims.pendingClaims.take (min limit maxBatchSize))
    (queueSorted m)

section Queue

variable {env : Context} {m m' : Machine Network} {caller : Address}
  {limit : ℕ} {s : ClaimsProcessor.State}

/-- All claims of the queue are on file. -/
def AllFiled (s : ClaimsProcessor.State) : Prop :=
  ∀ id ∈ s.pendingClaims, ∃ c, s.claim id = some c

/-- An entry of the list the batch sorts. -/
def entryOf (s : ClaimsProcessor.State) (id : ℕ) : ℕ × ℕ :=
  (id, filedAt s id)

theorem claimTimestamps_eq (hfiled : AllFiled s) :
    s.claimTimestamps = s.pendingClaims.map (entryOf s) := by
  unfold ClaimsProcessor.State.claimTimestamps
  rw [← List.filterMap_eq_map]
  refine List.filterMap_congr fun id hid => ?_
  obtain ⟨c, hc⟩ := hfiled id hid
  simp [entryOf, filedAt, hc]

/-- The sorted list lists the sorted queue with its times. -/
theorem bubbleSort_eq (hfiled : AllFiled m.store.claims) :
    bubbleSort m.store.claims.claimTimestamps =
      (queueSorted m).store.claims.pendingClaims.map
        (entryOf m.store.claims) := by
  show _ = ((bubbleSort m.store.claims.claimTimestamps).map Prod.fst).map _
  rw [List.map_map, List.map_congr_left (g := id), List.map_id]
  intro x hx
  rw [bubbleSort_perm.mem_iff, claimTimestamps_eq hfiled] at hx
  obtain ⟨i, -, rfl⟩ := List.mem_map.mp hx
  rfl

theorem queueSorted_perm (hfiled : AllFiled m.store.claims) :
    (queueSorted m).store.claims.pendingClaims.Perm
      m.store.claims.pendingClaims := by
  have hperm := sorted_perm (s := m.store.claims)
  rwa [List.filter_eq_self.mpr] at hperm
  intro id hid
  obtain ⟨c, hc⟩ := hfiled id hid
  simp [hc]

theorem queueSorted_sorted (hfiled : AllFiled m.store.claims) :
    (queueSorted m).store.claims.pendingClaims.Pairwise fun i j =>
      filedAt m.store.claims i ≤ filedAt m.store.claims j := by
  have hsorted := bubbleSort_oldest m.store.claims.claimTimestamps
  rw [Oldest, bubbleSort_eq hfiled, List.pairwise_map] at hsorted
  exact hsorted

theorem queueSorted_stable (hfiled : AllFiled m.store.claims) (time : ℕ) :
    (queueSorted m).store.claims.pendingClaims.filter
        (fun id => filedAt m.store.claims id = time) =
      m.store.claims.pendingClaims.filter fun id =>
        filedAt m.store.claims id = time := by
  have hstable := bubbleSort_filter m.store.claims.claimTimestamps time
  rw [bubbleSort_eq hfiled, claimTimestamps_eq hfiled, List.filter_map,
    List.filter_map] at hstable
  have hinj : Function.Injective (entryOf m.store.claims) := fun i j h =>
    (Prod.mk.inj h).1
  exact List.map_injective_iff.mpr hinj hstable

/-- A round leaves the other claims alone. -/
theorem round_elsewhere {i id : ℕ} {c : Claim}
    {result : Option (ℕ × ClaimResult)} (hsound : Sound (docket m))
    (hround : autoProcessPending env caller i m = .ok (result, m'))
    (hne : i ≠ id) (hc : m.store.claims.claim id = some c) :
    m'.store.claims.claim id = some c := by
  have huntouched : Untouched id c.policyId (some c)
      (m.store.engine.policies c.policyId) m :=
    ⟨hsound, hc, rfl, hsound.orderly.recorded id c hc⟩
  exact (Untouched.round hne m result m' huntouched hround).claim

theorem round_sound {i : ℕ} {result : Option (ℕ × ClaimResult)}
    (hsound : Sound (docket m))
    (hround : autoProcessPending env caller i m = .ok (result, m')) :
    Sound (docket m') := by
  rcases autoProcessPending_swept hsound hround with
    ⟨-, rfl⟩ | ⟨c, p, r, -, -, -, -, hswept⟩
  · exact hsound
  · exact hswept.sound hsound

/-- The rounds for claims that wait for their first evaluation are single
calls. -/
theorem rounds_sequential (env : Context) (hsigned : caller ∈ env.signers)
    {ids : List ℕ} (policy : ℕ → ℕ) (hsound : Sound (docket m)) (hnodup : ids.Nodup)
    (hwaiting : ∀ id ∈ ids, ∃ c, m.store.claims.claim id = some c ∧
      c.policyId = policy id ∧ c.status = .pending ∧ c.processedAt = none) :
    ∃ results m', collect ids (autoProcessPending env caller) m =
        .ok (results, m') ∧
      autoProcessEach env caller (ids.map fun id => (id, policy id)) m =
        (results.filterMap fun r => r, m') := by
  induction ids generalizing m with
  | nil => exact ⟨[], m, rfl, rfl⟩
  | cons id ids ih =>
      obtain ⟨hnew, hnodup⟩ := List.nodup_cons.mp hnodup
      obtain ⟨c, hc, hpolicy, hpending, hfirst⟩ :=
        hwaiting id List.mem_cons_self
      have htaken : m.store.claims.taken id = some (policy id) := by
        simp [ClaimsProcessor.State.taken, hc, hpending, hfirst, hpolicy]
      have hcall := autoProcessPending_taken htaken hsigned
      -- the claims of the other rounds still wait after this one
      have hrest : ∀ {result t},
          autoProcessPending env caller id m = .ok (result, t) → _ :=
        fun {result t} hround => ih (m := t) (round_sound hsound hround) hnodup
          fun j hj => by
            obtain ⟨c', hc', hwaits⟩ := hwaiting j (List.mem_cons_of_mem _ hj)
            have hne : id ≠ j := fun h => hnew (h ▸ hj)
            exact ⟨c', round_elsewhere hsound hround hne hc', hwaits⟩
      cases hrun : autoProcess env caller (policy id) none m with
      | ok called =>
          obtain ⟨r, t⟩ := called
          rw [hrun] at hcall
          obtain ⟨results, m', hrounds, heach⟩ := hrest hcall
          refine ⟨some (id, r) :: results, m', ?_, ?_⟩
          · simp only [collect, bind_ok, pure_ok]
            exact ⟨_, t, hcall, results, m', hrounds, rfl, rfl⟩
          · simp only [List.map_cons, autoProcessEach, hrun, heach,
              List.filterMap_cons]
      | error e =>
          rw [hrun] at hcall
          obtain ⟨results, m', hrounds, heach⟩ := hrest hcall
          refine ⟨none :: results, m', ?_, ?_⟩
          · simp only [collect, bind_ok, pure_ok]
            exact ⟨_, m, hcall, results, m', hrounds, rfl, rfl⟩
          · simp only [List.map_cons, autoProcessEach, hrun, heach,
              List.filterMap_cons]

/-- Rounds for other claims leave a claim alone. -/
theorem rounds_elsewhere {us : List ℕ} {id : ℕ} {c : Claim}
    {results : List (Option (ℕ × ClaimResult))} (hsound : Sound (docket m))
    (hrounds : collect us (autoProcessPending env caller) m =
      .ok (results, m'))
    (hnew : id ∉ us) (hc : m.store.claims.claim id = some c) :
    m'.store.claims.claim id = some c := by
  have huntouched : Untouched id c.policyId (some c)
      (m.store.engine.policies c.policyId) m :=
    ⟨hsound, hc, rfl, hsound.orderly.recorded id c hc⟩
  have hkeeps : Keeps (Untouched id c.policyId (some c)
      (m.store.engine.policies c.policyId))
      (collect us (autoProcessPending env caller)) :=
    keeps_collect fun i hi => .round fun h => hnew (h ▸ hi)
  exact (hkeeps m results m' huntouched hrounds).claim

theorem queueSorted_sound (hsound : Sound (docket m)) :
    Sound (docket (queueSorted m)) := by
  have hmove : Move 0 .zero .sort (docket m) (docket (queueSorted m)) :=
    .sort sorted_perm
  exact hsound.move hmove

/-- A keeper's sweep of the queue is fair and complete exactly if it is given
a positive limit and none of the claims at the head of the sorted queue has
been processed before. -/
theorem batch_fair_iff {D : Sites} {w : World Network}
    {signers : List Address} (hw : (system D).Reachable w)
    (hheard : Heard (D.context w.now signers) w.machine caller) :
    (∃ rs m', batchAutoProcess (D.context w.now signers) caller limit
          w.machine = .ok (rs, m') ∧
        Fair (D.context w.now signers) caller limit w.machine rs m') ↔
      limit ≠ 0 ∧ ∀ id ∈ (docket w.machine).window limit, ∀ c,
        w.machine.store.claims.claim id = some c → c.processedAt = none := by
  obtain ⟨hnodup, hexact⟩ := pending_queue_exact hw
  have hfiled : AllFiled w.machine.store.claims := by
    intro id hid
    obtain ⟨c, hc, -⟩ := (hexact id).mp hid
    exact ⟨c, hc⟩
  have hsound := queueSorted_sound (reachable_sound hw)
  have hperm := queueSorted_perm hfiled
  have hwindow : (docket w.machine).window limit =
      (queueSorted w.machine).store.claims.pendingClaims.take
        (min limit maxBatchSize) := rfl
  have hnodup' : ((docket w.machine).window limit).Nodup :=
    (hperm.nodup_iff.mpr hnodup).sublist (List.take_sublist _ _)
  have hwaits : ∀ id ∈ (docket w.machine).window limit, ∃ c,
      (queueSorted w.machine).store.claims.claim id = some c ∧
        c.status = .pending := by
    intro id hid
    obtain ⟨c, hc, -, hpending⟩ :=
      (hexact id).mp (hperm.mem_iff.mp (List.mem_of_mem_take hid))
    exact ⟨c, hc, hpending⟩
  -- a claim is as it was until its own round
  have hturn : ∀ {us id vs results t c},
      (docket w.machine).window limit = us ++ id :: vs →
      collect us (autoProcessPending (D.context w.now signers) caller)
        (queueSorted w.machine) = .ok (results, t) →
      w.machine.store.claims.claim id = some c →
      t.store.claims.claim id = some c := by
    intro us id vs results t c hsplit hrounds hc
    rw [hsplit] at hnodup'
    have hnew : id ∉ us := fun hmem =>
      (List.nodup_append.mp hnodup').2.2 id hmem id List.mem_cons_self rfl
    exact rounds_elsewhere hsound hrounds hnew hc
  constructor
  · rintro ⟨rs, m', hbatch, hfair⟩
    obtain ⟨-, -, hlimit, -⟩ := batchAutoProcess_iff.mp hbatch
    refine ⟨hlimit, fun id hid c hc => ?_⟩
    obtain ⟨us, vs, hsplit⟩ := List.append_of_mem hid
    obtain ⟨results, t, hrounds⟩ := rounds_total (D.context w.now signers)
      caller us (queueSorted w.machine)
    have hc' := hturn hsplit hrounds hc
    obtain ⟨c₀, hc₀, hpending⟩ := hwaits id hid
    obtain rfl := Option.some.inj (hc₀.symm.trans hc)
    have htaken := hfair.complete us id vs results t c₀ hsplit hrounds hc'
      hpending
    simpa [ClaimsProcessor.State.taken, hc', hpending] using htaken
  · rintro ⟨hlimit, hfirst⟩
    obtain ⟨results, m', hrounds, heach⟩ := rounds_sequential
      (D.context w.now signers) hheard.signed (policyOf w.machine.store.claims) hsound
      hnodup' (fun id hid => by
        obtain ⟨c, hc, hpending⟩ := hwaits id hid
        have hc' : w.machine.store.claims.claim id = some c := hc
        exact ⟨c, hc, by simp [policyOf, hc'], hpending, hfirst id hid c hc⟩)
    refine ⟨_, m', batchAutoProcess_iff.mpr ⟨⟨hheard.listed, hheard.signed⟩,
      hheard.running, hlimit, results, hrounds, rfl⟩, hperm,
      queueSorted_sorted hfiled, queueSorted_stable hfiled, heach, ?_⟩
    intro us id vs results t c hsplit hrounds hc hpending
    have hid : id ∈ (docket w.machine).window limit := by
      rw [hwindow, hsplit]
      simp
    obtain ⟨c₀, hc₀, -⟩ := hwaits id hid
    obtain rfl := Option.some.inj ((hturn hsplit hrounds hc₀).symm.trans hc)
    simp [ClaimsProcessor.State.taken, hc, hpending, hfirst id hid c₀ hc₀]

end Queue

namespace Scenario

/-- The refused claim is contested, and the administrator sends it back. -/
def requeueing : List (Label Entry) :=
  [disputing, .call [admin] (.claims (.resolveDispute admin 1))]

def requeued : World Network :=
  (TransitionSystem.execute (step sites) requeueing refusedDry).get
    (by decide +kernel)

theorem requeued_reached : (system sites).Reachable requeued := by
  have hdry : (system sites).Run refused drying refusedDry :=
    TransitionSystem.run_of_execute (fun _ _ _ => step_sound)
      (Option.some_get _).symm
  have hback : (system sites).Run refusedDry requeueing requeued :=
    TransitionSystem.run_of_execute (fun _ _ _ => step_sound)
      (Option.some_get _).symm
  exact (refused_reached.run hdry).run hback

end Scenario

open Scenario in
theorem batch_fair_iff_filed : ∃ rs m',
    batchAutoProcess (sites.context filed.now [keeper]) keeper 10
        filed.machine = .ok (rs, m') ∧
      Fair (sites.context filed.now [keeper]) keeper 10 filed.machine rs
        m' := by
  have hheard : Heard (sites.context filed.now [keeper]) filed.machine keeper :=
    ⟨by decide +kernel, by decide, by decide +kernel⟩
  have hwindow : (docket filed.machine).window 10 = [1] := by decide +kernel
  have hfirst : ∀ c, filed.machine.store.claims.claim 1 = some c →
      c.processedAt = none := by
    decide +kernel
  refine (batch_fair_iff filed_reached hheard).mpr ⟨by decide, ?_⟩
  rw [hwindow]
  intro id hid c hc
  obtain rfl := List.mem_singleton.mp hid
  exact hfirst c hc

open Scenario in
/-- A refused claim that comes back after a dispute waits at the head of the
queue, and a keeper's call for its policy pays it.  The sweep of the queue
passes over it. -/
theorem batch_passes_over_requeued :
    (system sites).Reachable requeued ∧
      requeued.machine.store.claims.pendingClaims = [1] ∧
      (requeued.machine.store.claims.claim 1).map Claim.status =
        some .pending ∧
      (requeued.machine.store.claims.claim 1).map Claim.policyId = some 1 ∧
      outcome (autoProcess (sites.context requeued.now [keeper]) keeper 1 none
        requeued.machine) = some (.paid, [], some .claimed) ∧
      outcome (batchAutoProcess (sites.context requeued.now [keeper]) keeper
        10 requeued.machine) = some ([], [1], some .active) :=
  ⟨requeued_reached, by decide +kernel, by decide +kernel, by decide +kernel,
    by decide +kernel, by decide +kernel⟩

/-! ## Processing a list of claims -/

section Lists

variable {env : Context} {m m' : Machine Network} {keeper : Address}
  {ids : List ℕ} {bps : Option ℕ} {rs : List (ℕ × ClaimResult)}
  {r : ClaimResult} {id : ℕ}

end Lists

section Portfolios

variable {env : Context} {m m' : Machine Network} {claimant : Address}
  {policyIds ids : List ℕ}

theorem batchSubmitClaims_ok :
    batchSubmitClaims env claimant policyIds m = .ok (ids, m') ↔
      (claimant ∈ env.signers ∧ m.store.claims.paused = false ∧
        m.store.claims.admin ≠ some claimant ∧ claimant ≠ .zero) ∧
        collect (policyIds.take maxBatchSize) (fileClaim env claimant) m =
          .ok (ids, m') := by
  simp only [batchSubmitClaims, bind_ok, requireClaimant_ok]
  constructor
  · rintro ⟨_, _, ⟨hchecks, rfl⟩, hcollect⟩
    exact ⟨hchecks, hcollect⟩
  · rintro ⟨hchecks, hcollect⟩
    exact ⟨(), m, ⟨hchecks, rfl⟩, hcollect⟩

theorem submitClaim_ok {policyId id : ℕ} :
    submitClaim env claimant policyId m = .ok (id, m') ↔
      (claimant ∈ env.signers ∧ m.store.claims.paused = false ∧
        m.store.claims.admin ≠ some claimant ∧ claimant ≠ .zero) ∧
        fileClaim env claimant policyId m = .ok (id, m') := by
  simp only [submitClaim, bind_ok, requireClaimant_ok]
  constructor
  · rintro ⟨_, _, ⟨hchecks, rfl⟩, hfile⟩
    exact ⟨hchecks, hfile⟩
  · rintro ⟨hchecks, hfile⟩
    exact ⟨(), m, ⟨hchecks, rfl⟩, hfile⟩

/-- The batch goes through, and files one claim that waits on each of the
policies, in order, under numbers that nothing was filed under. -/
def FilesAll (env : Context) (claimant : Address) (policyIds : List ℕ)
    (m : Machine Network) : Prop :=
  ∃ ids m', batchSubmitClaims env claimant policyIds m = .ok (ids, m') ∧
    Portfolio env claimant policyIds ids m m' ∧
    ∀ id ∈ ids, m.store.claims.claim id = none

/-- A batch on two or more policies that could be filed on alone goes through
only at the last instant of the clock, where the cooldown that the first filing
starts is over at once.  Whatever the list, an accepted batch files on all of
its policies, up to the size of a batch at that instant. -/
theorem batch_filing_iff {D : Sites} {w : World Network}
    {signers : List Address} (hw : (system D).Reachable w)
    (policyIds : List ℕ) :
    (w.machine.store.claims.fraudConfig = none → 2 ≤ policyIds.length →
      policyIds.length ≤ maxBatchSize → policyIds.Nodup →
      (∀ policyId ∈ policyIds, ∃ id m',
        submitClaim (D.context w.now signers) claimant policyId w.machine =
          .ok (id, m')) →
      (FilesAll (D.context w.now signers) claimant policyIds w.machine ↔
        maxU64 ≤ w.now ∧
          w.machine.store.claims.nextClaimId + policyIds.length <
            2 ^ 128)) ∧
    ∀ ids m', batchSubmitClaims (D.context w.now signers) claimant policyIds
        w.machine = .ok (ids, m') →
      Portfolio (D.context w.now signers) claimant
          (policyIds.take maxBatchSize) ids w.machine m' ∧
        (maxU64 ≤ w.now ∨ policyIds.length ≤ 1) := by
  constructor
  · intro hoff hlong hshort hnodup halone
    have htake : policyIds.take maxBatchSize = policyIds :=
      List.take_of_length_le hshort
    constructor
    · rintro ⟨ids, m', hbatch, -, -⟩
      obtain ⟨-, hcollect⟩ := batchSubmitClaims_ok.mp hbatch
      rw [htake] at hcollect
      refine ⟨(collect_short hcollect).resolve_left (by omega),
        collect_bound hcollect ?_⟩
      rintro rfl
      cases hlong
    · rintro ⟨hend, hbound⟩
      obtain ⟨policyId, hmem⟩ := List.exists_mem_of_length_pos
        (show 0 < policyIds.length by omega)
      obtain ⟨_, _, hsubmit⟩ := halone policyId hmem
      obtain ⟨hchecks, -⟩ := submitClaim_ok.mp hsubmit
      have heligible : ∀ other ∈ policyIds, ∃ p,
          Eligible (D.context w.now signers) claimant other p w.machine := by
        intro other hother
        obtain ⟨_, _, hsubmit⟩ := halone other hother
        obtain ⟨p, heligible, -⟩ :=
          fileClaim_filing (submitClaim_ok.mp hsubmit).2
        exact ⟨p, heligible⟩
      obtain ⟨ids, m', hcollect⟩ :=
        collect_files hend heligible hnodup hoff hbound
      have hportfolio := collect_portfolio hcollect
      refine ⟨ids, m', batchSubmitClaims_ok.mpr ⟨hchecks, ?_⟩, hportfolio, ?_⟩
      · rwa [htake]
      · intro id hid
        rw [hportfolio.consecutive, List.mem_range'_1] at hid
        by_contra hfound
        obtain ⟨c, hc⟩ := Option.ne_none_iff_exists'.mp hfound
        have hlt := (reachable_sound hw).orderly.fresh id c hc
        exact absurd hlt (Nat.not_lt.mpr hid.1)
  · intro ids m' hbatch
    obtain ⟨-, hcollect⟩ := batchSubmitClaims_ok.mp hbatch
    refine ⟨collect_portfolio hcollect, ?_⟩
    rcases collect_short hcollect with hshort | hend
    · rw [List.length_take] at hshort
      exact .inr (by simp only [maxBatchSize] at hshort; omega)
    · exact .inl hend

end Portfolios

namespace Scenario

/-- The holder buys a second policy, after the pause between purchases. -/
def twice : List (Label Entry) :=
  [.tick 86400,
    .call [holder] (.engine (.buyPolicy holder 1 1000000 365 rain usdc))]

def insuredTwice : World Network :=
  (TransitionSystem.execute (step sites) twice insured).get
    (by decide +kernel)

theorem insuredTwice_reached : (system sites).Reachable insuredTwice :=
  insured_reached.run
    (TransitionSystem.run_of_execute (fun _ _ _ => step_sound)
      (Option.some_get _).symm)

/-- The number of the claim a filing opens. -/
def opened (policyId : ℕ) : Option ℕ :=
  match submitClaim (sites.context insuredTwice.now [holder]) holder policyId
      insuredTwice.machine with
  | .ok (id, _) => some id
  | .error _ => none

theorem opened_ok {policyId id : ℕ} (h : opened policyId = some id) :
    ∃ id m', submitClaim (sites.context insuredTwice.now [holder]) holder
      policyId insuredTwice.machine = .ok (id, m') := by
  unfold opened at h
  split at h
  · next id m' hsubmit => exact ⟨id, m', hsubmit⟩
  · cases h

end Scenario

open Scenario in
theorem batch_filing_iff_insuredTwice :
    (FilesAll (sites.context insuredTwice.now [holder]) holder [1, 2]
        insuredTwice.machine ↔
      maxU64 ≤ insuredTwice.now ∧
        insuredTwice.machine.store.claims.nextClaimId + 2 < 2 ^ 128) := by
  refine (batch_filing_iff insuredTwice_reached [1, 2]).1 ?_ ?_ ?_ ?_ ?_
  · decide +kernel
  · decide
  · decide
  · decide
  · intro policyId hmem
    rcases List.mem_pair.mp hmem with rfl | rfl
    · exact opened_ok (show opened 1 = some 1 by decide +kernel)
    · exact opened_ok (show opened 2 = some 1 by decide +kernel)

open Scenario in
/-- Either of the two policies can be filed on, but not both at once. -/
theorem batch_refuses_both :
    (system sites).Reachable insuredTwice ∧
      insuredTwice.machine.store.claims.fraudConfig = none ∧
      opened 1 = some 1 ∧ opened 2 = some 1 ∧
      outcome (batchSubmitClaims (sites.context insuredTwice.now [holder])
        holder [1, 2] insuredTwice.machine) = none :=
  ⟨insuredTwice_reached, by decide +kernel, by decide +kernel,
    by decide +kernel, by decide +kernel⟩

end Parashield.Protocol
