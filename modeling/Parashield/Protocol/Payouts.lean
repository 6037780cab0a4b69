import Parashield.Protocol.Payments

/-!
# Amount, standing and payee of a payout

What is paid for a claim is the coverage of its policy, to the holder of its
policy, and a delayed payout is collected on the strength of the approval
alone.  So the amount is the recorded one while no partial payout is asked
for, the claim still stands approved while nobody rejects or disputes a claim
awaiting its payout, and the payee is the claimant while nobody transfers the
policy of such a claim.
-/

namespace Parashield.Protocol

open Support
open PolicyEngine (Policy)
open ClaimsProcessor (Claim Docket Kind Move Network docket)

/-- An invariant of all claims, each under its own id. -/
def ForClaims (P : Docket → Claim → Prop) (_ : ℕ) (d : Docket) : Prop :=
  ∀ id c, d.claim id = some c → P d c

theorem forClaims_deployed (P : Docket → Claim → Prop) (now : ℕ) (B : Bank) :
    ForClaims P now (docket ⟨.deployed, B⟩) := by
  simp [ForClaims, docket, Network.deployed, ClaimsProcessor.State.deployed]

/-! ## The amount -/

/-- No call asks for a partial payout. -/
def AsksFullPayout (_ : World Network) : Label Entry → Prop
  | .call _ (.claims e) => ∀ bps ∈ e.partialPayoutBps, 10000 ≤ bps
  | _ => True

/-- A recorded amount is the whole coverage. -/
def RecordsFullAmount (_ : Docket) (c : Claim) : Prop :=
  ∀ paid, c.paidAmount = some paid → paid = c.coverageAmount

theorem records_of_approve {c c' : Claim} {e : ClaimsProcessor.Entry}
    (hfull : ∀ bps ∈ e.partialPayoutBps, 10000 ≤ bps)
    (h : c.approve (ClaimsProcessor.effectiveBps e.partialPayoutBps) =
      .ok c') :
    c'.paidAmount = some c'.coverageAmount := by
  apply (approve_amount h).2.2
  cases hbps : e.partialPayoutBps with
  | none => simp [ClaimsProcessor.effectiveBps]
  | some bps =>
      have hle := hfull bps (by simp [hbps])
      simp only [ClaimsProcessor.effectiveBps, Option.getD_some]
      omega

theorem recordsFullAmount_stable (D : Sites) :
    Stable D AsksFullPayout (ForClaims RecordsFullAmount) where
  deployed := forClaims_deployed _
  tick _ h := h
  move := by
    intro w signers e k d d' hG hadmits hmove _ _ h
    have hfull : ∀ bps ∈ e.partialPayoutBps, 10000 ≤ bps := hG
    have hsame : ∀ {id c c'}, d.claim id = some c →
        c'.paidAmount = c.paidAmount → c'.coverageAmount = c.coverageAmount →
        RecordsFullAmount d' c' := by
      intro id c c' hc hpaid hcoverage paid hp
      rw [hcoverage]
      exact h id c hc paid (hpaid ▸ hp)
    have hrecorded : ∀ {c' : Claim}, c'.paidAmount = some c'.coverageAmount →
        RecordsFullAmount d' c' := by
      intro c' hc' paid hp
      exact Option.some.inj (hp.symm.trans hc')
    cases hmove with
    | file =>
        refine forall_setClaim h fun paid hp => ?_
        simp [ClaimsProcessor.Claim.fresh] at hp
    | refuse hd => exact forall_setClaim h (hsame hd.found rfl rfl)
    | hold _ _ happrove =>
        rw [hadmits.2] at happrove
        have hfull' := records_of_approve hfull happrove
        exact forall_setClaim h (hrecorded hfull')
    | settle _ _ happrove =>
        rw [hadmits.2] at happrove
        have hfull' := records_of_approve hfull happrove
        exact forall_setClaim h (hrecorded hfull')
    | payout hc => exact forall_setClaim h (hsame hc rfl rfl)
    | dispute hc => exact forall_setClaim h (hsame hc rfl rfl)
    | resolve hc => exact forall_setClaim h (hsame hc rfl rfl)
    | reject hc => exact forall_setClaim h (hsame hc rfl rfl)
    | escalate hc => exact forall_setClaim h (hsame hc rfl rfl)
    | installment hc _ hterms =>
        exact forall_setClaim h
          (hsame hc hterms.paidAmount hterms.coverageAmount)
    | annotate hc hterms =>
        exact forall_setClaim h
          (hsame hc hterms.paidAmount hterms.coverageAmount)
    | _ => exact h
  change _ _ _ _ _ h := h
  rest := by
    rintro now d _ ⟨bank, engineRest, oracle, lock, totalLocked, poolRest, -,
      rfl⟩ h
    exact h

/-- Without partial payouts, every transfer the claims processor causes pays
one claim exactly the amount recorded in it, which is the coverage of its
policy, and no claim is paid twice. -/
theorem paid_eq_recorded {D : Sites} {w w' : World Network}
    {signers : List Address} {e : ClaimsProcessor.Entry}
    (hw : ((system D).restrict AsksFullPayout).Reachable w)
    (hstep : ((system D).restrict AsksFullPayout).Step w
      (.call signers (.claims e)) w') :
    PaidFor D.engine
      (fun _ c t => c.paidAmount = some (t.amount : ℤ) ∧
        (t.amount : ℤ) = c.coverageAmount)
      (docket w.machine) (docket w'.machine) := by
  have hstable := recordsFullAmount_stable D
  have hw' := hw.step hstep
  obtain ⟨hsound, hrecords⟩ := hw'.invariant hstable.preserved
  have hpaid := call_payments hstable
    (P := fun _ c _ => c.paidAmount.isSome) ?_ ?_ hw hstep
  · apply hpaid.imp
    intro id c p t hc hpayment hsome
    obtain ⟨paid, hpaid⟩ := Option.isSome_iff_exists.mp hsome
    obtain ⟨q, hq, hcoverage⟩ := hsound.covered id c hc
    obtain rfl := Option.some.inj (hq.symm.trans hpayment.policy)
    have hamount : (t.amount : ℤ) = c.coverageAmount :=
      hpayment.amount.trans hcoverage
    rw [hamount, hpaid, hrecords id c hc paid hpaid]
    exact ⟨rfl, rfl⟩
  · intro d d' id c c' p t _ _ _ hpaid
    rcases hpaid.route with ⟨-, -, -, h⟩ | ⟨-, h, rfl⟩
    · exact h
    · exact h
  · intro id c c' t hevolves h
    exact hevolves.paid h

namespace Scenario

/-- The claim is settled at once, at the ratio the keeper asks for. -/
def settling (bps : Option ℕ) : Label Entry :=
  .call [keeper] (.claims (.processClaim keeper 1 bps))

def settled : World Network :=
  (step sites filed (settling none)).get (by decide +kernel)

def halved : World Network :=
  (step sites filed (settling (some 5000))).get (by decide +kernel)

/-- The coverage of the policy goes to its holder. -/
def payment : Transfer := ⟨usdc, sites.engine, holder, 1000000⟩

end Scenario

open Scenario in
theorem paid_eq_recorded_settled :
    settled.machine.bank.history = payment :: filed.machine.bank.history ∧
      PaidFor sites.engine
        (fun _ c t => c.paidAmount = some (t.amount : ℤ) ∧
          (t.amount : ℤ) = c.coverageAmount)
        (docket filed.machine) (docket settled.machine) := by
  have hfiled : ((system sites).restrict AsksFullPayout).Reachable filed :=
    filed_reachable
      (by simp [setUp, purchase, AsksFullPayout,
        ClaimsProcessor.Entry.partialPayoutBps])
      (by simp [loss, AsksFullPayout, ClaimsProcessor.Entry.partialPayoutBps])
  have hfull : AsksFullPayout filed (settling none) := by
    simp [settling, AsksFullPayout, ClaimsProcessor.Entry.partialPayoutBps]
  exact ⟨by decide +kernel,
    paid_eq_recorded hfiled ⟨hfull, step_sound (Option.some_get _).symm⟩⟩

open Scenario in
/-- At 5000 basis points half of the coverage is recorded and all of it is
paid. -/
theorem paid_ne_recorded_of_partial :
    (system sites).Reachable filed ∧
      (system sites).Step filed (settling (some 5000)) halved ∧
      halved.machine.bank.history = payment :: filed.machine.bank.history ∧
      (halved.machine.store.claims.claim 1).map
          (fun c => (c.status, c.paidAmount)) =
        some (.partiallyPaid, some 500000) :=
  ⟨(filed_reachable (G := fun _ _ => True) (fun _ _ _ => trivial)
      (fun _ _ _ => trivial)).of_restrict,
    step_sound (Option.some_get _).symm, by decide +kernel,
    by decide +kernel⟩

/-! ## The standing -/

/-- Nobody rejects or disputes a claim that awaits its payout. -/
def LeavesAwaiting (w : World Network) : Label Entry → Prop
  | .call _ (.claims (.rejectClaim _ id))
  | .call _ (.claims (.disputeClaim _ id _)) =>
      ∀ c, w.machine.store.claims.claim id = some c → c.payoutReadyAt = none
  | _ => True

/-- Only an approved claim awaits a payout. -/
def AwaitsApproved (_ : Docket) (c : Claim) : Prop :=
  c.payoutReadyAt.isSome → Approved c

theorem awaitsApproved_stable (D : Sites) :
    Stable D LeavesAwaiting (ForClaims AwaitsApproved) where
  deployed := forClaims_deployed _
  tick _ h := h
  move := by
    intro w signers e k d d' hG hadmits hmove _ _ h
    have hsame : ∀ {id c c'}, d.claim id = some c →
        c'.payoutReadyAt = c.payoutReadyAt → c'.status = c.status →
        AwaitsApproved d' c' := by
      intro id c c' hc hready hstatus hawaits
      rw [Approved, hstatus]
      exact h id c hc (hready ▸ hawaits)
    -- a claim that is not approved awaits nothing, whatever becomes of it
    have hidle : ∀ {id c c'}, d.claim id = some c →
        c'.payoutReadyAt = c.payoutReadyAt → ¬ Approved c →
        AwaitsApproved d' c' := by
      intro id c c' hc hready hnot hawaits
      exact (hnot (h id c hc (hready ▸ hawaits))).elim
    have hnone : ∀ {c' : Claim}, c'.payoutReadyAt = none →
        AwaitsApproved d' c' := by
      intro c' hready hawaits
      simp [hready] at hawaits
    have hpending : ∀ {c : Claim}, c.status = .pending → ¬ Approved c := by
      rintro c hp (h | h) <;> rw [hp] at h <;> cases h
    cases hmove with
    | file => exact forall_setClaim h (hnone rfl)
    | refuse hd =>
        exact forall_setClaim h (hidle hd.found rfl (hpending hd.pending))
    | hold _ _ happrove =>
        exact forall_setClaim h fun _ => (approve_amount happrove).1
    | settle _ _ happrove =>
        exact forall_setClaim h fun _ => (approve_amount happrove).1
    | payout => exact forall_setClaim h (hnone rfl)
    | dispute hc =>
        obtain ⟨rfl, caller, reason, rfl⟩ := hadmits
        have hguard : ∀ c : Claim, _ = some c → c.payoutReadyAt = none := hG
        have hready := hguard _ hc
        exact forall_setClaim h (hnone hready)
    | resolve hc hstatus =>
        refine forall_setClaim h (hidle hc rfl ?_)
        rintro (h | h) <;> rw [hstatus] at h <;> cases h
    | reject hc =>
        obtain ⟨rfl, admin, rfl⟩ := hadmits
        have hguard : ∀ c : Claim, _ = some c → c.payoutReadyAt = none := hG
        have hready := hguard _ hc
        exact forall_setClaim h (hnone hready)
    | escalate hc hstatus =>
        exact forall_setClaim h (hidle hc rfl (hpending hstatus))
    | installment hc _ hterms =>
        exact forall_setClaim h
          (hsame hc hterms.payoutReadyAt hterms.status)
    | annotate hc hterms =>
        exact forall_setClaim h
          (hsame hc hterms.payoutReadyAt hterms.status)
    | _ => exact h
  change _ _ _ _ _ h := h
  rest := by
    rintro now d _ ⟨bank, engineRest, oracle, lock, totalLocked, poolRest, -,
      rfl⟩ h
    exact h

/-- A call that collects a delayed payout finds a payout awaited. -/
theorem awaited_of_collects {D : Sites} {w w' : World Network}
    {signers : List Address} {e : ClaimsProcessor.Entry} {id : ℕ}
    (hcollects : e.collects id)
    (hstep : (system D).Step w (.call signers (.claims e)) w') :
    ∃ c, w.machine.store.claims.claim id = some c ∧
      c.payoutReadyAt.isSome := by
  obtain ⟨-, -, hexec⟩ := call_exec hstep
  have hmove : Move w.now D.engine (.payout id) (docket w.machine)
      (docket w'.machine) := by
    cases e with
    | claimPayout =>
        obtain rfl : _ = id := hcollects
        obtain ⟨paid, h⟩ := Invocation.perform_ok.mp hexec
        exact ClaimsProcessor.claimPayout_move h
    | claimPayoutTo =>
        obtain rfl : _ = id := hcollects
        obtain ⟨paid, h⟩ := Invocation.perform_ok.mp hexec
        exact ClaimsProcessor.claimPayoutTo_move h
    | claimPayoutWithToken =>
        obtain rfl : _ = id := hcollects
        obtain ⟨paid, h⟩ := Invocation.perform_ok.mp hexec
        exact ClaimsProcessor.claimPayoutWithToken_move h
    | _ => exact hcollects.elim
  generalize docket w'.machine = d' at hmove
  cases hmove with
  | payout hc hready => exact ⟨_, hc, by simp [hready]⟩

/-- While nobody rejects or disputes a claim awaiting its payout, a claim is
paid only if it stands approved: it was approved before the call, or it was
pending and the call approved it; and a delayed payout is collected only for a
claim that is approved at that moment. -/
theorem paid_of_approved {D : Sites} {w w' : World Network}
    {signers : List Address} {e : ClaimsProcessor.Entry}
    (hw : ((system D).restrict LeavesAwaiting).Reachable w)
    (hstep : ((system D).restrict LeavesAwaiting).Step w
      (.call signers (.claims e)) w') :
    PaidFor D.engine
        (fun id c _ => Approved c ∧
          ∀ c₀, w.machine.store.claims.claim id = some c₀ →
            Approved c₀ ∨ c₀.status = .pending)
        (docket w.machine) (docket w'.machine) ∧
      ∀ id, e.collects id → ∃ c, w.machine.store.claims.claim id = some c ∧
        Approved c := by
  have hstable := awaitsApproved_stable D
  refine ⟨call_payments hstable ?_ ?_ hw hstep, ?_⟩
  · intro d d' id c c' p t hd hfrom _ hpaid
    have hstands : Approved c' ∧ (Approved c ∨ c.status = .pending) := by
      rcases hpaid.route with ⟨-, hpending, happroved, -⟩ | ⟨hready, -, rfl⟩
      · exact ⟨happroved, .inr hpending⟩
      · have happroved := hd id c hpaid.before hready
        exact ⟨happroved, .inl happroved⟩
    refine ⟨hstands.1, fun c₀ hc₀ => ?_⟩
    by_cases hpending : c₀.status = .pending
    · exact .inr hpending
    · left
      have hstatus := (hfrom c₀ hc₀).closed hpending
      rcases hstands.2 with happroved | hc
      · rwa [Approved, hstatus] at happroved
      · exact (hpending (hstatus ▸ hc)).elim
  · rintro id c c' t hevolves ⟨happroved, hbefore⟩
    exact ⟨hevolves.approved happroved, hbefore⟩
  · intro id hcollects
    obtain ⟨c, hc, hready⟩ := awaited_of_collects hcollects hstep.2
    have hawaits := (hw.invariant hstable.preserved).2
    exact ⟨c, hc, hawaits id c hc hready⟩

namespace Scenario

/-- Under a payout delay the claim is approved, and the delay passes. -/
def approval : List (Label Entry) :=
  [.call [admin] (.claims (.setPayoutDelay admin 3600)),
    .call [keeper] (.claims (.processClaim keeper 1 none)),
    .tick 3600]

def awaiting : World Network :=
  (TransitionSystem.execute (step sites) approval filed).get
    (by decide +kernel)

def collecting : Label Entry :=
  .call [stranger] (.claims (.claimPayout 1))

def collected : World Network :=
  (step sites awaiting collecting).get (by decide +kernel)

def rejecting : Label Entry :=
  .call [admin] (.claims (.rejectClaim admin 1))

def rejected : World Network :=
  (step sites awaiting rejecting).get (by decide +kernel)

def collectedRejected : World Network :=
  (step sites rejected collecting).get (by decide +kernel)

theorem awaiting_reachable {G : World Network → Label Entry → Prop}
    (hG : ∀ l ∈ setUp ++ purchase, ∀ t, G t l) (hG' : ∀ l ∈ loss, ∀ t, G t l)
    (hG'' : ∀ l ∈ approval, ∀ t, G t l) :
    ((system sites).restrict G).Reachable awaiting := by
  have hrun : (system sites).Run filed approval awaiting :=
    TransitionSystem.run_of_execute (fun _ _ _ => step_sound)
      (Option.some_get _).symm
  exact (filed_reachable hG hG').run (hrun.restrict hG'')

end Scenario

open Scenario in
theorem paid_of_approved_awaiting :
    collected.machine.bank.history =
        payment :: awaiting.machine.bank.history ∧
      ∃ c, awaiting.machine.store.claims.claim 1 = some c ∧ Approved c := by
  have hawaiting :
      ((system sites).restrict LeavesAwaiting).Reachable awaiting :=
    awaiting_reachable (by simp [setUp, purchase, LeavesAwaiting])
      (by simp [loss, LeavesAwaiting]) (by simp [approval, LeavesAwaiting])
  have hcollecting : ((system sites).restrict LeavesAwaiting).Step awaiting
      collecting collected :=
    ⟨trivial, step_sound (Option.some_get _).symm⟩
  exact ⟨by decide +kernel, (paid_of_approved hawaiting hcollecting).2 1 rfl⟩

open Scenario in
/-- A claim rejected during its payout delay is paid all the same. -/
theorem rejected_claim_paid :
    (system sites).Reachable rejected ∧
      (rejected.machine.store.claims.claim 1).map Claim.status =
        some .rejected ∧
      (system sites).Step rejected collecting collectedRejected ∧
      collectedRejected.machine.bank.history =
        payment :: rejected.machine.bank.history :=
  ⟨.step (awaiting_reachable (G := fun _ _ => True) (fun _ _ _ => trivial)
      (fun _ _ _ => trivial) (fun _ _ _ => trivial)).of_restrict
      (step_sound (Option.some_get _).symm),
    by decide +kernel, step_sound (Option.some_get _).symm,
    by decide +kernel⟩

/-! ## The payee -/

/-- Nobody transfers the policy of a claim that awaits its payout. -/
def KeepsHolder (w : World Network) : Label Entry → Prop
  | .call _ (.engine (.transferPolicy _ _ policyId)) =>
      ∀ id c, w.machine.store.claims.claim id = some c →
        c.policyId = policyId → c.payoutReadyAt = none
  | _ => True

/-- The claimant holds the policy. -/
def Held (d : Docket) (c : Claim) : Prop :=
  ∃ p, d.engine.policies c.policyId = some p ∧ p.policyholder = c.claimant

/-- The claimant of a claim that awaits its payout holds its policy. -/
def AwaitsHeld (d : Docket) (c : Claim) : Prop :=
  c.payoutReadyAt.isSome → Held d c

theorem held_of_same {d : Docket} {c c' : Claim} (h : Held d c)
    (hsubject : SameSubject c c') : Held d c' := by
  obtain ⟨p, hp, hholder⟩ := h
  refine ⟨p, ?_, ?_⟩
  · rw [hsubject.policyId, hp]
  · rw [hsubject.claimant, hholder]

theorem awaitsHeld_stable (D : Sites) :
    Stable D KeepsHolder (ForClaims AwaitsHeld) where
  deployed := forClaims_deployed _
  tick _ h := h
  move := by
    intro w signers e k d d' _ _ hmove hsound _ h
    have hkept : ∀ {c}, Held d c → Held d' c := by
      rintro c ⟨p, hp, hholder⟩
      obtain ⟨p', hp', -, hsame⟩ := move_continues hsound.book hmove hp
      exact ⟨p', hp', hsame.trans hholder⟩
    have hold : ForClaims AwaitsHeld w.now { d' with claim := d.claim } :=
      fun id c hc hready => hkept (h id c hc hready)
    have hsame : ∀ {id c c'}, d.claim id = some c → SameSubject c c' →
        c'.payoutReadyAt = c.payoutReadyAt → AwaitsHeld d' c' := by
      intro id c c' hc hsubject hready hawaits
      exact held_of_same (hkept (h id c hc (hready ▸ hawaits))) hsubject
    have hnone : ∀ {c' : Claim}, c'.payoutReadyAt = none →
        AwaitsHeld d' c' := by
      intro c' hready hawaits
      simp [hready] at hawaits
    cases hmove with
    | file => exact forall_setClaim hold (hnone rfl)
    | refuse hd =>
        exact forall_setClaim hold (hsame hd.found ⟨rfl, rfl, rfl⟩ rfl)
    | hold hd _ happrove =>
        have hheld := held_of_same ⟨_, hd.policy, hd.holder.symm⟩
          (sameSubject_of_approve happrove)
        exact forall_setClaim hold fun _ => hkept hheld
    | settle hd _ happrove =>
        have hready := (ClaimsProcessor.Claim.approve_terms happrove).2.2.2.2.1
        exact forall_setClaim hold
          (hsame hd.found (sameSubject_of_approve happrove) hready)
    | payout => exact forall_setClaim hold (hnone rfl)
    | dispute hc => exact forall_setClaim hold (hsame hc ⟨rfl, rfl, rfl⟩ rfl)
    | resolve hc => exact forall_setClaim hold (hsame hc ⟨rfl, rfl, rfl⟩ rfl)
    | reject hc => exact forall_setClaim hold (hsame hc ⟨rfl, rfl, rfl⟩ rfl)
    | escalate hc => exact forall_setClaim hold (hsame hc ⟨rfl, rfl, rfl⟩ rfl)
    | installment hc _ hterms =>
        exact forall_setClaim hold (hsame hc
          ⟨hterms.policyId, hterms.claimant, hterms.coverageAmount⟩
          hterms.payoutReadyAt)
    | annotate hc hterms =>
        exact forall_setClaim hold (hsame hc
          ⟨hterms.policyId, hterms.claimant, hterms.coverageAmount⟩
          hterms.payoutReadyAt)
    | _ => exact hold
  change := by
    intro w signers e k d b hG hk hstart hchange hsound h id c hc hready
    obtain ⟨p, hp, hholder⟩ := h id c hc hready
    obtain ⟨p', hp', hcontinues⟩ := hsound.book.continues hchange hp
    refine ⟨p', hp', (hcontinues.holder ?_).trans hholder⟩
    rintro rfl
    rcases hstart with hadds | rfl
    · simp [PolicyEngine.Book.Kind.Adds] at hadds
    cases e with
    | transferPolicy sender recipient policyId =>
        have hnone : ∀ id (c : Claim), _ = some c → c.policyId = policyId →
            c.payoutReadyAt = none := hG
        rw [hnone id c hc hk] at hready
        cases hready
    | _ => exact hk
  rest := by
    rintro now d _ ⟨bank, engineRest, oracle, lock, totalLocked, poolRest, -,
      rfl⟩ h
    exact h

/-- The recipient `claim_payout_to` checks is the claimant. -/
theorem claimPayoutTo_claimant {D : Sites} {w w' : World Network}
    {signers : List Address} {id : ℕ} {recipient : Address}
    (hstep : (system D).Step w
      (.call signers (.claims (.claimPayoutTo id recipient))) w') :
    ∃ c, w.machine.store.claims.claim id = some c ∧
      c.claimant = recipient := by
  obtain ⟨-, -, hexec⟩ := call_exec hstep
  obtain ⟨paid, h⟩ := Invocation.perform_ok.mp hexec
  simp only [ClaimsProcessor.claimPayoutTo, Contract.bind_ok,
    ClaimsProcessor.loadClaim_ok, Invocation.ensure_ok] at h
  obtain ⟨c, _, ⟨hc, rfl⟩, _, _, ⟨rfl, rfl⟩, -⟩ := h
  exact ⟨c, hc, rfl⟩

/-- While nobody transfers the policy of a claim awaiting its payout, every
payment for a claim goes to the claimant recorded in it, who is the recipient
given to `claim_payout_to`. -/
theorem payee_eq_claimant {D : Sites} {w w' : World Network}
    {signers : List Address} {e : ClaimsProcessor.Entry}
    (hw : ((system D).restrict KeepsHolder).Reachable w)
    (hstep : ((system D).restrict KeepsHolder).Step w
      (.call signers (.claims e)) w') :
    PaidFor D.engine
        (fun id c t => t.recipient = c.claimant ∧
          ∀ c₀, w.machine.store.claims.claim id = some c₀ →
            t.recipient = c₀.claimant)
        (docket w.machine) (docket w'.machine) ∧
      ∀ id recipient, e = .claimPayoutTo id recipient →
        ∃ c, w.machine.store.claims.claim id = some c ∧
          c.claimant = recipient := by
  refine ⟨call_payments (awaitsHeld_stable D) ?_ ?_ hw hstep, ?_⟩
  · intro d d' id c c' p t hd hfrom _ hpaid
    have hpayee : t.recipient = c.claimant := by
      rw [hpaid.recipient]
      rcases hpaid.route with ⟨hclaimant, -⟩ | ⟨hready, -⟩
      · exact hclaimant.symm
      · obtain ⟨q, hq, hholder⟩ := hd id c hpaid.before hready
        obtain rfl := Option.some.inj (hq.symm.trans hpaid.policy)
        exact hholder
    refine ⟨?_, fun c₀ hc₀ => ?_⟩
    · rw [hpayee, hpaid.subject.claimant]
    · rw [hpayee, (hfrom c₀ hc₀).claimant]
  · rintro id c c' t hevolves ⟨hpayee, hbefore⟩
    exact ⟨hpayee.trans hevolves.claimant.symm, hbefore⟩
  · rintro id recipient rfl
    exact claimPayoutTo_claimant hstep.2

namespace Scenario

def collectingTo : Label Entry :=
  .call [holder] (.claims (.claimPayoutTo 1 holder))

def collectedTo : World Network :=
  (step sites awaiting collectingTo).get (by decide +kernel)

def transferring : Label Entry :=
  .call [holder, stranger] (.engine (.transferPolicy holder stranger 1))

def transferred : World Network :=
  (step sites awaiting transferring).get (by decide +kernel)

def collectedTransferred : World Network :=
  (step sites transferred collectingTo).get (by decide +kernel)

end Scenario

open Scenario in
theorem payee_eq_claimant_awaiting :
    collectedTo.machine.bank.history =
        payment :: awaiting.machine.bank.history ∧
      ∃ c, awaiting.machine.store.claims.claim 1 = some c ∧
        c.claimant = holder := by
  have hawaiting : ((system sites).restrict KeepsHolder).Reachable awaiting :=
    awaiting_reachable (by simp [setUp, purchase, KeepsHolder])
      (by simp [loss, KeepsHolder]) (by simp [approval, KeepsHolder])
  have hcollecting : ((system sites).restrict KeepsHolder).Step awaiting
      collectingTo collectedTo :=
    ⟨trivial, step_sound (Option.some_get _).symm⟩
  exact ⟨by decide +kernel,
    (payee_eq_claimant hawaiting hcollecting).2 1 holder rfl⟩

open Scenario in
/-- The policy changes hands during the payout delay: the payout that names
the claimant goes to the new holder. -/
theorem payee_ne_claimant_of_transfer :
    (system sites).Reachable transferred ∧
      (transferred.machine.store.claims.claim 1).map Claim.claimant =
        some holder ∧
      (system sites).Step transferred collectingTo collectedTransferred ∧
      collectedTransferred.machine.bank.history =
        { payment with recipient := stranger } ::
          transferred.machine.bank.history :=
  ⟨.step (awaiting_reachable (G := fun _ _ => True) (fun _ _ _ => trivial)
      (fun _ _ _ => trivial) (fun _ _ _ => trivial)).of_restrict
      (step_sound (Option.some_get _).symm),
    by decide +kernel, step_sound (Option.some_get _).symm,
    by decide +kernel⟩

end Parashield.Protocol
