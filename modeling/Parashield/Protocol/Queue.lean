import Parashield.Protocol.Invariants
import Parashield.Support.Queue

/-!
# The pending queue

The claims processor lists the claims that wait for their evaluation.  Filing
and resolved disputes append to the list, a batch rewrites it, and everything
that moves a claim out of `Pending` takes it off.  The list names the claims
with that status and no others, each of them once.
-/

namespace Parashield.Protocol

open Support
open PolicyEngine (Policy)
open ClaimsProcessor (Claim ClaimStatus Docket Kind Move Network docket)

/-- A claim stored under `id` waits. -/
def Waits (d : Docket) (id : ℕ) : Prop :=
  ∃ c, d.claim id = some c ∧ c.status = .pending

/-- The queue of the docket names the claims that wait. -/
def Queued (d : Docket) : Prop :=
  Enumerates d.pending (Waits d)

section Moves

variable {now : ℕ} {engine : Address} {k : Kind} {d d' : Docket} {id : ℕ}
  {c c' : Claim}

theorem waits_of_found (hc : d.claim id = some c) :
    Waits d id ↔ c.status = .pending := by
  constructor
  · rintro ⟨x, hx, hstatus⟩
    rw [hc, Option.some.injEq] at hx
    rw [hx]
    exact hstatus
  · exact fun hstatus => ⟨c, hc, hstatus⟩

/-- Who waits once claim `id` is rewritten. -/
theorem waits_rewritten (hclaim : d'.claim = d.setClaim id c') (j : ℕ) :
    Waits d' j ↔ if j = id then c'.status = .pending else Waits d j := by
  unfold Waits
  rw [hclaim, Docket.setClaim]
  split
  · next hj =>
      subst hj
      simp
  · next hj => simp [Function.update_of_ne hj]

/-- A claim that no longer waits comes off the queue. -/
theorem Queued.close (h : Queued d) (hclaim : d'.claim = d.setClaim id c')
    (hpending : d'.pending = d.pending.erase id)
    (hstatus : c'.status ≠ .pending) : Queued d' := by
  unfold Queued
  rw [hpending]
  refine h.erase fun j => ?_
  rw [waits_rewritten hclaim]
  by_cases hj : j = id
  · simp [hj, hstatus]
  · simp [hj]

/-- A claim that did not wait joins the queue. -/
theorem Queued.join (h : Queued d) (hclaim : d'.claim = d.setClaim id c')
    (hpending : d'.pending = d.pending ++ [id]) (hnew : ¬ Waits d id)
    (hstatus : c'.status = .pending) : Queued d' := by
  unfold Queued
  rw [hpending]
  refine h.push hnew fun j => ?_
  rw [waits_rewritten hclaim]
  by_cases hj : j = id
  · simp [hj, hstatus]
  · simp [hj]

/-- A claim keeps its status. -/
theorem Queued.keep (h : Queued d) (hclaim : d'.claim = d.setClaim id c')
    (hpending : d'.pending = d.pending) (hc : d.claim id = some c)
    (hstatus : c'.status = c.status) : Queued d' := by
  unfold Queued
  rw [hpending]
  refine h.congr fun j => ?_
  rw [waits_rewritten hclaim]
  by_cases hj : j = id
  · subst hj
    simp [waits_of_found hc, hstatus]
  · simp [hj]

theorem Queued.same (h : Queued d) (hclaim : d'.claim = d.claim)
    (hpending : d'.pending = d.pending) : Queued d' := by
  unfold Queued
  rw [hpending]
  refine h.congr fun j => ?_
  unfold Waits
  rw [hclaim]

/-- Approval decides the claim. -/
theorem approve_status {bps : ℕ} (h : c.approve bps = .ok c') :
    c'.status ≠ .pending := by
  unfold Claim.approve at h
  split at h
  · obtain rfl := Check.pure_ok.mp h
    rintro ⟨⟩
  · simp at h
    obtain ⟨-, -, rfl⟩ := h
    rintro ⟨⟩

/-- Every move keeps the queue exact. -/
theorem Queued.move (h : Queued d) (horderly : d.Orderly)
    (hmove : Move now engine k d d') : Queued d' := by
  cases hmove with
  | setUp hfresh =>
      refine .empty ?_
      rintro id ⟨c, hc, -⟩
      have hnone := horderly.idle hfresh id
      rw [show d.claim id = some c from hc] at hnone
      cases hnone
  | file =>
      refine h.join rfl rfl ?_ rfl
      rintro ⟨c, hc, -⟩
      exact (horderly.fresh _ c hc).false
  | refuse => exact h.close rfl rfl nofun
  | hold _ _ happrove =>
      have hdecided := approve_status happrove
      exact h.close rfl rfl hdecided
  | settle _ _ happrove => exact h.close rfl rfl (approve_status happrove)
  | payout hc => exact h.keep rfl rfl hc rfl
  | dispute => exact h.close rfl rfl nofun
  | resolve hc hstatus =>
      refine h.join rfl rfl ?_ rfl
      rw [waits_of_found hc, hstatus]
      exact nofun
  | reject => exact h.close rfl rfl nofun
  | escalate => exact h.close rfl rfl nofun
  | installment hc _ hterms => exact h.keep rfl rfl hc hterms.status
  | annotate hc hterms => exact h.keep rfl rfl hc hterms.status
  | expire => exact h.same rfl rfl
  | consult => exact h.same rfl rfl
  | sort hperm =>
      have hstored : d.pending.filter (fun id => (d.claim id).isSome) =
          d.pending := by
        refine List.filter_eq_self.mpr fun id hid => ?_
        obtain ⟨c, hc, -⟩ := (h.mem_iff id).mp hid
        rw [hc]
        rfl
      rw [hstored] at hperm
      exact Enumerates.perm h hperm

end Moves

/-! ## Runs -/

section Runs

variable {D : Sites}

theorem queued_stable : Stable D (fun _ _ => True) fun _ => Queued where
  deployed _ _ := .empty fun _ => by
    simp [Waits, docket, Network.deployed, ClaimsProcessor.State.deployed]
  tick _ h := h
  move _ _ hmove hsound _ h := h.move hsound.orderly hmove
  change _ _ _ _ _ h := h.same rfl rfl
  rest := by
    rintro _ d d' ⟨bank, engineRest, oracle, lock, totalLocked, poolRest, -,
      rfl⟩ h
    exact h.same rfl rfl

theorem reachable_queued {w : World Network} (hw : (system D).Reachable w) :
    Queued (docket w.machine) :=
  ((hw.restrict fun _ _ => trivial).invariant queued_stable.preserved).2

/-- In every reachable state the pending queue names the claims whose status
is `Pending`, each of them once and no others. -/
theorem pending_queue_exact {w : World Network}
    (hw : (system D).Reachable w) :
    w.machine.store.claims.pendingClaims.Nodup ∧
      ∀ id, id ∈ w.machine.store.claims.pendingClaims ↔
        ∃ c, w.machine.store.claims.claim id = some c ∧ c.id = id ∧
          c.status = .pending := by
  have hqueued := reachable_queued hw
  have hkeyed := (reachable_sound hw).orderly.keyed
  refine ⟨hqueued.nodup, fun id => (hqueued.mem_iff id).trans ?_⟩
  constructor
  · rintro ⟨c, hc, hstatus⟩
    exact ⟨c, hc, hkeyed id c hc, hstatus⟩
  · rintro ⟨c, hc, -, hstatus⟩
    exact ⟨c, hc, hstatus⟩

end Runs

open Scenario in
theorem pending_queue_exact_filed :
    filed.machine.store.claims.pendingClaims.Nodup ∧
      ∃ c, filed.machine.store.claims.claim 1 = some c ∧ c.id = 1 ∧
        c.status = .pending := by
  have hreached : (system sites).Reachable filed :=
    (filed_reachable (G := fun _ _ => True) (fun _ _ _ => trivial)
      fun _ _ _ => trivial).of_restrict
  have hexact := pending_queue_exact hreached
  exact ⟨hexact.1, (hexact.2 1).mp (by decide +kernel)⟩

end Parashield.Protocol
