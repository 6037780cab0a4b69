import Parashield.Protocol.Payouts

/-!
# What becomes of a paid claim

An approved claim leaves its status by a rejection or by a dispute only, and
only a claim paid in part can be disputed.  So while nobody rejects approved
claims and no payout is collected for any other, a paid claim keeps the status
it was paid in until it is disputed, and a claim paid in full keeps it for
good.
-/

namespace Parashield.Protocol

open Support
open PolicyEngine (Policy)
open ClaimsProcessor (Claim Docket Kind Move Network docket)

/-- Nobody rejects an approved claim, and payouts are collected for approved
claims only. -/
def KeepsApproval (w : World Network) : Label Entry → Prop
  | .call _ (.claims e) =>
      (∀ admin id c, e = .rejectClaim admin id →
        w.machine.store.claims.claim id = some c → ¬ Approved c) ∧
      ∀ id c, e.collects id → w.machine.store.claims.claim id = some c →
        Approved c
  | _ => True

/-- Claim `id` has this status. -/
def HasStatus (id : ℕ) (status : ClaimsProcessor.ClaimStatus) (d : Docket) :
    Prop :=
  ∃ c, d.claim id = some c ∧ c.status = status

/-- Some step of the run is a dispute of claim `id`. -/
def Disputed (id : ℕ) (ls : List (Label Entry)) : Prop :=
  ∃ signers caller reason,
    Label.call signers (.claims (.disputeClaim caller id reason)) ∈ ls

/-- The step rejects claim `id`. -/
def Rejects (id : ℕ) (l : Label Entry) : Prop :=
  ∃ signers admin, l = .call signers (.claims (.rejectClaim admin id))

/-! ## One step -/

section Moves

variable {now : ℕ} {engine : Address} {k : Kind} {d₀ d d' : Docket}
  {e : ClaimsProcessor.Entry} {id : ℕ} {status : ClaimsProcessor.ClaimStatus}

/-- Rewriting another claim leaves the status alone. -/
theorem HasStatus.setClaim_of_ne {i : ℕ} {c' : Claim} (hne : id ≠ i)
    (h : HasStatus id status d) (hclaim : d'.claim = d.setClaim i c') :
    HasStatus id status d' := by
  obtain ⟨c, hc, hstatus⟩ := h
  exact ⟨c, by rw [hclaim, Docket.setClaim, Function.update_of_ne hne, hc],
    hstatus⟩

/-- A move takes a status other than `Pending` and `Disputed` away only by
rejecting or disputing the claim, and disputes it only if it was rejected or
paid in part. -/
theorem move_hasStatus (horderly : d.Orderly) (hadmits : e.admits d₀ d k)
    (hmove : Move now engine k d d')
    (hreject : ∀ admin, e ≠ .rejectClaim admin id)
    (hpending : status ≠ .pending) (hdisputed : status ≠ .disputed)
    (h : HasStatus id status d) :
    HasStatus id status d' ∨
      (status = .rejected ∨ status = .partiallyPaid) ∧
        ∃ caller reason, e = .disputeClaim caller id reason := by
  by_cases hk : Reviews k
  swap
  · obtain ⟨c, hc, rfl⟩ := h
    obtain ⟨c', hc', hevolves⟩ := move_evolves horderly hmove hk hc
    exact .inl ⟨c', hc', hevolves.closed hpending⟩
  -- a review of another claim changes nothing, one of this claim needs a status
  have hother : ∀ {i : ℕ} {c' : Claim}, id ≠ i → d'.claim = d.setClaim i c' →
      HasStatus id status d' := fun hne hclaim => h.setClaim_of_ne hne hclaim
  have hthis : ∀ {c : Claim}, d.claim id = some c → c.status = status := by
    intro c hc
    obtain ⟨c₁, hc₁, hstatus⟩ := h
    rwa [← Option.some.inj (hc.symm.trans hc₁)] at hstatus
  cases hmove with
  | @dispute _ i _ _ hc hdisputable =>
      obtain ⟨-, caller, reason, rfl⟩ := hadmits
      by_cases hi : id = i
      · subst hi
        rw [hthis hc] at hdisputable
        exact .inr ⟨hdisputable.resolve_left hpending, caller, reason, rfl⟩
      · exact .inl (hother hi rfl)
  | @resolve _ i _ hc hstatus =>
      refine .inl (hother ?_ rfl)
      rintro rfl
      exact hdisputed ((hthis hc).symm.trans hstatus)
  | @reject _ i _ hc =>
      obtain ⟨-, admin, rfl⟩ := hadmits
      refine .inl (hother ?_ rfl)
      rintro rfl
      exact hreject admin rfl
  | @escalate _ i _ hc hstatus =>
      refine .inl (hother ?_ rfl)
      rintro rfl
      exact hpending ((hthis hc).symm.trans hstatus)
  | _ => exact hk.elim

end Moves

section Steps

variable {D : Sites} {w w' : World Network} {l : Label Entry} {id : ℕ}
  {status : ClaimsProcessor.ClaimStatus}

/-- Only calls of the claims processor touch the claims. -/
theorem step_claims (hstep : (system D).Step w l w') :
    (∃ signers e, l = .call signers (.claims e)) ∨
      w'.machine.store.claims = w.machine.store.claims := by
  cases l with
  | call signers e =>
      obtain ⟨-, -, hexec⟩ := call_exec hstep
      cases e with
      | claims e => exact .inl ⟨signers, e, rfl⟩
      | engine e =>
          obtain ⟨s, B, -, hm⟩ := exec_engine_ok.mp hexec
          exact .inr (by rw [hm])
      | pool e =>
          obtain ⟨s, B, -, hm⟩ := exec_pool_ok.mp hexec
          exact .inr (by rw [hm])
      | oracle e =>
          obtain ⟨s, B, -, hm⟩ := exec_oracle_ok.mp hexec
          exact .inr (by rw [hm])
  | _ =>
      cases hstep.2
      exact .inr rfl

/-- A step that does not reject the claim takes such a status away only by a
dispute. -/
theorem step_hasStatus (hw : (system D).Reachable w)
    (hstep : (system D).Step w l w') (hspared : ¬ Rejects id l)
    (hpending : status ≠ .pending) (hdisputed : status ≠ .disputed)
    (h : HasStatus id status (docket w.machine)) :
    HasStatus id status (docket w'.machine) ∨
      (status = .rejected ∨ status = .partiallyPaid) ∧ Disputed id [l] := by
  rcases step_claims hstep with ⟨signers, e, rfl⟩ | hclaims
  swap
  · obtain ⟨c, hc, hstatus⟩ := h
    have hc' : w.machine.store.claims.claim id = some c := hc
    rw [← hclaims] at hc'
    exact .inl ⟨c, hc', hstatus⟩
  obtain ⟨-, -, hexec⟩ := call_exec hstep
  have horderly := (reachable_sound hw).orderly
  obtain ⟨ks, hrun⟩ := ClaimsProcessor.exec_moved horderly hexec
  have hreject : ∀ admin, e ≠ .rejectClaim admin id := by
    rintro admin rfl
    exact hspared ⟨signers, admin, rfl⟩
  have hend := hrun.preserves
    (Q := fun d => d.Orderly ∧ (HasStatus id status d ∨
      (status = .rejected ∨ status = .partiallyPaid) ∧
        ∃ caller reason, e = .disputeClaim caller id reason))
    ?_ ⟨horderly, .inl h⟩
  · refine hend.2.imp_right ?_
    rintro ⟨hopen, caller, reason, rfl⟩
    exact ⟨hopen, signers, caller, reason, by simp⟩
  rintro d k d' ⟨hd, hstands⟩ ⟨hadmits, hmove⟩
  refine ⟨hmove.orderly hd, ?_⟩
  rcases hstands with hstands | hgone
  · exact move_hasStatus hd hadmits hmove hreject hpending hdisputed hstands
  · exact .inr hgone

/-- The guard spares approved claims. -/
theorem KeepsApproval.spares (hG : KeepsApproval w l)
    (happroved : status = .paid ∨ status = .partiallyPaid)
    (h : HasStatus id status (docket w.machine)) : ¬ Rejects id l := by
  rintro ⟨signers, admin, rfl⟩
  obtain ⟨c, hc, rfl⟩ := h
  exact hG.1 admin id c rfl hc happroved

end Steps

/-! ## Whole runs -/

section Runs

variable {D : Sites} {w w' : World Network} {id : ℕ}
  {status : ClaimsProcessor.ClaimStatus}

theorem run_hasStatus {ls : List (Label Entry)}
    (hw : (system D).Reachable w)
    (hrun : ((system D).restrict KeepsApproval).Run w ls w')
    (happroved : status = .paid ∨ status = .partiallyPaid)
    (h : HasStatus id status (docket w.machine)) :
    HasStatus id status (docket w'.machine) ∨
      status = .partiallyPaid ∧ Disputed id ls := by
  have hpending : status ≠ .pending := by
    rcases happroved with rfl | rfl <;> exact nofun
  have hopen : status ≠ .disputed ∧ status ≠ .rejected := by
    rcases happroved with rfl | rfl <;> exact ⟨nofun, nofun⟩
  induction hrun with
  | nil => exact .inl h
  | cons hstep hrun ih =>
      rcases step_hasStatus hw hstep.2 (hstep.1.spares happroved h) hpending
        hopen.1 h with h' | ⟨hpart, hdisputed⟩
      · refine (ih (hw.step hstep.2) h').imp_right ?_
        rintro ⟨hpart, signers, caller, reason, hmem⟩
        exact ⟨hpart, signers, caller, reason, List.mem_cons_of_mem _ hmem⟩
      · obtain ⟨signers, caller, reason, hmem⟩ := hdisputed
        rw [List.mem_singleton] at hmem
        exact .inr ⟨hpart.resolve_left hopen.2, signers, caller, reason,
          by simp [hmem]⟩

theorem keepsApproval_stable (D : Sites) :
    Stable D KeepsApproval fun _ _ => True :=
  ⟨fun _ _ => trivial, fun _ _ => trivial, fun _ _ _ _ _ _ => trivial,
    fun _ _ _ _ _ _ => trivial, fun _ _ => trivial⟩

/-- While nobody rejects approved claims and payouts are collected for approved
claims only, a claim is approved once it is paid, and keeps the status it was
paid in from then on, unless it was paid in part and is disputed. -/
theorem paid_claim_final {signers : List Address}
    {e : ClaimsProcessor.Entry}
    (hw : ((system D).restrict KeepsApproval).Reachable w)
    (hstep : ((system D).restrict KeepsApproval).Step w
      (.call signers (.claims e)) w') :
    PaidFor D.engine
      (fun id c _ => Approved c ∧ ∀ ls w'',
        ((system D).restrict KeepsApproval).Run w' ls w'' →
          HasStatus id c.status (docket w''.machine) ∨
            c.status = .partiallyPaid ∧ Disputed id ls)
      (docket w.machine) (docket w'.machine) := by
  have hw' : (system D).Reachable w' := (hw.step hstep).of_restrict
  have hpaid := call_payments (keepsApproval_stable D)
    (P := fun _ c _ => Approved c) ?_ ?_ hw hstep
  · apply hpaid.imp
    intro id c p t hc _ happroved
    refine ⟨happroved, fun ls w'' hrun => ?_⟩
    exact run_hasStatus hw' hrun happroved ⟨c, hc, rfl⟩
  · rintro d d' id c c' p t - hfrom (happroved | ⟨rfl, hcollects⟩) hpaid
    · exact happroved
    · have hbefore : Approved c := hstep.1.2 id c hcollects hpaid.before
      rcases hpaid.route with ⟨-, -, happroved, -⟩ | ⟨-, -, rfl⟩
      · exact happroved
      · exact hbefore
  · intro id c c' t hevolves happroved
    exact hevolves.approved happroved

end Runs

namespace Scenario

def flood : Symbol := ⟨['f', 'l', 'o', 'o', 'd']⟩

/-- The holder contests the half that was granted. -/
def disputing : Label Entry :=
  .call [holder] (.claims (.disputeClaim holder 1 flood))

def contested : World Network :=
  (step sites halved disputing).get (by decide +kernel)

end Scenario

open Scenario in
theorem paid_claim_final_settled :
    settled.machine.bank.history = payment :: filed.machine.bank.history ∧
      PaidFor sites.engine
        (fun id c _ => Approved c ∧ ∀ ls w'',
          ((system sites).restrict KeepsApproval).Run settled ls w'' →
            HasStatus id c.status (docket w''.machine) ∨
              c.status = .partiallyPaid ∧ Disputed id ls)
        (docket filed.machine) (docket settled.machine) := by
  have hfiled : ((system sites).restrict KeepsApproval).Reachable filed :=
    filed_reachable
      (by simp [setUp, purchase, KeepsApproval,
        ClaimsProcessor.Entry.collects])
      (by simp [loss, KeepsApproval, ClaimsProcessor.Entry.collects])
  have hkeeps : KeepsApproval filed (settling none) := by
    simp [settling, KeepsApproval, ClaimsProcessor.Entry.collects]
  have hstep : ((system sites).restrict KeepsApproval).Step filed
      (settling none) settled := ⟨hkeeps, step_sound (Option.some_get _).symm⟩
  exact ⟨by decide +kernel, paid_claim_final hfiled hstep⟩

open Scenario in
/-- A claim paid in part is disputed after its payment. -/
theorem paid_claim_disputed :
    (system sites).Reachable filed ∧
      (system sites).Step filed (settling (some 5000)) halved ∧
      halved.machine.bank.history = payment :: filed.machine.bank.history ∧
      (halved.machine.store.claims.claim 1).map Claim.status =
        some .partiallyPaid ∧
      (system sites).Step halved disputing contested ∧
      (contested.machine.store.claims.claim 1).map Claim.status =
        some .disputed :=
  ⟨(filed_reachable (G := fun _ _ => True) (fun _ _ _ => trivial)
      (fun _ _ _ => trivial)).of_restrict,
    step_sound (Option.some_get _).symm, by decide +kernel,
    by decide +kernel, step_sound (Option.some_get _).symm,
    by decide +kernel⟩

end Parashield.Protocol
