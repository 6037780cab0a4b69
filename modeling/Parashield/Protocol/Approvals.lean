import Parashield.Protocol.Payouts

/-!
# What it takes to approve a claim

A claim is approved by a call that asked the oracle and got a verdict.  The
routes that build the question from the policy ask for its own condition; the
one that takes readings from the keeper asks what the keeper says.  And a
claim filed by its claimant is about a policy that has started, while the
keeper's route files one for any active policy.
-/

namespace Parashield.Protocol

open Support
open PolicyEngine (Policy)
open OracleVerifier (OracleReadingQuery)
open ClaimsProcessor (Claim Docket Kind Move Network docket mapComparison)

/-! ## Questions to the oracle -/

/-- The question is the policy's own condition. -/
structure IsOwn (p : Policy) (q : OracleReadingQuery) : Prop where
  dataType : q.dataType = p.oracleDataType
  key : q.key = p.oracleKey
  threshold : q.condition.threshold = p.triggerThreshold
  comparison : q.condition.comparison = mapComparison p.triggerComparison

theorem isOwn_ownQuery (p : Policy) (staleness : ℕ) :
    IsOwn p (Docket.ownQuery p staleness) :=
  ⟨rfl, rfl, rfl, rfl⟩

theorem IsOwn.of_sameTerms {p p' : Policy} {q : OracleReadingQuery}
    (h : IsOwn p q) (hterms : p.SameTerms p') : IsOwn p' q := by
  rw [show p' = _ from hterms]
  exact ⟨h.dataType, h.key, h.threshold, h.comparison⟩

/-- From `o` to `o'` the oracle answered questions at time `now`. -/
def Consulted (now : ℕ) : OracleVerifier.State → OracleVerifier.State → Prop :=
  Relation.ReflTransGen fun o o' => ∃ B q b, Docket.Asks now B q b o o'

/-- Between `o` and `o'` the oracle confirmed the policy's own condition. -/
def Confirmed (now : ℕ) (p : Policy) (o o' : OracleVerifier.State) : Prop :=
  ∃ B q o₁ o₂, Consulted now o o₁ ∧ Docket.Asks now B q true o₁ o₂ ∧
    IsOwn p q ∧ Consulted now o₂ o'

section Questions

variable {now : ℕ} {B : Bank} {o o' o₁ o₂ : OracleVerifier.State} {p p' : Policy}
  {qs : List OracleReadingQuery} {bs : List Bool}

theorem consulted_of_asksAll (h : Docket.AsksAll now B qs bs o o') :
    Consulted now o o' := by
  induction h with
  | nil => exact .refl
  | cons hq _ ih => exact .head ⟨_, _, _, hq⟩ ih

theorem Confirmed.extend (h : Confirmed now p o o₁)
    (hrest : Consulted now o₁ o') : Confirmed now p o o' := by
  obtain ⟨B, q, a, b, hbefore, hasks, hown, hafter⟩ := h
  exact ⟨B, q, a, b, hbefore, hasks, hown, hafter.trans hrest⟩

theorem Confirmed.after (hbefore : Consulted now o o₁)
    (h : Confirmed now p o₁ o') : Confirmed now p o o' := by
  obtain ⟨B, q, a, b, hfirst, hasks, hown, hafter⟩ := h
  exact ⟨B, q, a, b, hbefore.trans hfirst, hasks, hown, hafter⟩

theorem Confirmed.of_sameTerms (h : Confirmed now p o o')
    (hterms : p.SameTerms p') : Confirmed now p' o o' := by
  obtain ⟨B, q, a, b, hbefore, hasks, hown, hafter⟩ := h
  exact ⟨B, q, a, b, hbefore, hasks, hown.of_sameTerms hterms, hafter⟩

/-- A question among several that was answered with yes. -/
theorem confirmed_of_zip (h : Docket.AsksAll now B qs bs o o')
    {q : OracleReadingQuery} (hq : (q, true) ∈ qs.zip bs)
    (hown : IsOwn p q) : Confirmed now p o o' := by
  induction h with
  | nil => simp at hq
  | @cons r rs b bs o o₁ o₂ hasks hrest ih =>
      rw [List.zip_cons_cons, List.mem_cons] at hq
      rcases hq with heq | hq
      · obtain ⟨rfl, rfl⟩ := Prod.mk.inj heq
        exact ⟨B, q, o, o₁, .refl, hasks, hown, consulted_of_asksAll hrest⟩
      · exact (ih hq).after (.single ⟨_, _, _, hasks⟩)

theorem confirmed_of_all (h : Docket.AsksAll now B qs bs o o')
    (hall : ∀ b ∈ bs, b = true) {q : OracleReadingQuery} (hq : q ∈ qs)
    (hown : IsOwn p q) : Confirmed now p o o' := by
  apply confirmed_of_zip h ?_ hown
  clear hown
  induction h with
  | nil => cases hq
  | cons _ _ ih =>
      obtain ⟨rfl, hbs⟩ := List.forall_mem_cons.mp hall
      rw [List.zip_cons_cons, List.mem_cons]
      rcases List.mem_cons.mp hq with rfl | hq
      · exact .inl rfl
      · exact .inr (ih hbs hq)

theorem confirmed_of_any (h : Docket.AsksAll now B qs bs o o')
    (hany : true ∈ bs) (hown : ∀ q ∈ qs, IsOwn p q) :
    Confirmed now p o o' := by
  have hyes : ∃ q, q ∈ qs ∧ (q, true) ∈ qs.zip bs := by
    clear hown
    induction h with
    | nil => cases hany
    | @cons q _ b _ _ _ _ _ _ ih =>
        rcases List.mem_cons.mp hany with rfl | hbs
        · exact ⟨q, by simp, by simp⟩
        · obtain ⟨r, hr, hzip⟩ := ih hbs
          exact ⟨r, by simp [hr], by simp [hzip]⟩
  obtain ⟨q, hq, hzip⟩ := hyes
  exact confirmed_of_zip h hzip (hown q hq)

end Questions

/-! ## The move that approves -/

section Moves

variable {now : ℕ} {engine : Address} {k : Kind} {d d' : Docket}

theorem move_consults (h : Move now engine k d d') :
    Consulted now d.oracle d'.oracle := by
  have hjudges : ∀ {p basis verdict o},
      Docket.Judges now d.engine.bank p basis verdict d.oracle o →
      Consulted now d.oracle o := by
    intro p basis verdict o hj
    cases hj with
    | own hasks => exact .single ⟨_, _, _, hasks⟩
    | readings _ hasks => exact consulted_of_asksAll hasks
  cases h with
  | refuse _ hj => exact hjudges hj
  | hold _ hj => exact hjudges hj
  | settle _ hj => exact hjudges hj
  | consult hasks => exact consulted_of_asksAll hasks
  | _ => exact .refl

/-- The move approves claim `id` on a verdict of the oracle. -/
def ApprovesNow (now : ℕ) (k : Kind) (d d' : Docket) (id : ℕ) (c' : Claim) :
    Prop :=
  ∃ basis bps c p, (k = .hold id basis bps ∨ k = .settle id basis bps) ∧
    d.Decides id c p ∧ c'.policyId = c.policyId ∧
    Docket.Judges now d.engine.bank p basis true d.oracle d'.oracle

/-- A claim that is approved after a move was approved before, or the move
approves it. -/
theorem move_approves (h : Move now engine k d d') :
    ∀ id c', d'.claim id = some c' → Approved c' →
      (∃ c, d.claim id = some c ∧ Approved c ∧ c'.policyId = c.policyId) ∨
        ApprovesNow now k d d' id c' := by
  have hold : ∀ id c', d.claim id = some c' → Approved c' →
      (∃ c, d.claim id = some c ∧ Approved c ∧ c'.policyId = c.policyId) ∨
        ApprovesNow now k d d' id c' :=
    fun id c hc happroved => .inl ⟨c, hc, happroved, rfl⟩
  have hnot : ∀ {c' : Claim} {P : Prop}, c'.status ≠ .paid →
      c'.status ≠ .partiallyPaid → Approved c' → P := by
    rintro c' P hpaid hpart (h | h)
    · exact (hpaid h).elim
    · exact (hpart h).elim
  cases h with
  | file => exact forall_setClaim hold (hnot (by simp [Claim.fresh]) (by simp [Claim.fresh]))
  | refuse => exact forall_setClaim hold (hnot (by simp) (by simp))
  | hold hd hj happrove =>
      refine forall_setClaim hold fun _ => .inr ⟨_, _, _, _, .inl rfl, hd, ?_, hj⟩
      exact (sameSubject_of_approve happrove).policyId
  | settle hd hj happrove =>
      refine forall_setClaim hold fun _ => .inr ⟨_, _, _, _, .inr rfl, hd, ?_, hj⟩
      exact (sameSubject_of_approve happrove).policyId
  | payout hc =>
      exact forall_setClaim hold fun h => .inl ⟨_, hc, h, rfl⟩
  | dispute => exact forall_setClaim hold (hnot (by simp) (by simp))
  | resolve => exact forall_setClaim hold (hnot (by simp) (by simp))
  | reject => exact forall_setClaim hold (hnot (by simp) (by simp))
  | escalate => exact forall_setClaim hold (hnot (by simp) (by simp))
  | installment hc _ hterms =>
      refine forall_setClaim hold fun h => .inl ⟨_, hc, ?_, hterms.policyId⟩
      rwa [Approved, hterms.status] at h
  | annotate hc hterms =>
      refine forall_setClaim hold fun h => .inl ⟨_, hc, ?_, hterms.policyId⟩
      rwa [Approved, hterms.status] at h
  | _ => exact hold

end Moves

/-! ## The policy's own condition -/

/-- Readings supplied by a keeper settle nothing without the policy's own
condition: all of them have to be met and it is one of them, or they all are
it. -/
def ReadsOwn (w : World Network) : Label Entry → Prop
  | .call _ (.claims (.processMultiReadingClaim _ id queries requireAll _)) =>
      ∀ c p, w.machine.store.claims.claim id = some c →
        w.machine.store.engine.policies c.policyId = some p →
        (requireAll = true ∧ ∃ q ∈ queries, IsOwn p q) ∨
          ∀ q ∈ queries, IsOwn p q
  | _ => True

section Calls

variable {D : Sites} {w w' : World Network} {signers : List Address}
  {e : ClaimsProcessor.Entry}

/-- A verdict that approves confirms the policy's own condition. -/
theorem confirmed_of_judges (hG : ReadsOwn w (.call signers (.claims e)))
    {d : Docket} {id : ℕ} {c : Claim} {p : Policy} {now : ℕ}
    {basis : ClaimsProcessor.Basis} {o : OracleVerifier.State}
    (hadmits : e.judges (docket w.machine) d id basis)
    (hdecides : d.Decides id c p)
    (hjudges : Docket.Judges now d.engine.bank p basis true d.oracle o) :
    Confirmed now p d.oracle o := by
  cases basis with
  | own =>
      cases hjudges with
      | own hasks =>
          exact ⟨_, _, _, _, .refl, hasks, isOwn_ownQuery p _, .refl⟩
  | readings queries requireAll =>
      cases e with
      | processMultiReadingClaim keeper claimId qs all bps =>
          obtain ⟨rfl, rfl, hbasis⟩ := hadmits
          obtain ⟨rfl, rfl⟩ := ClaimsProcessor.Basis.readings.inj hbasis
          have hguard : ∀ (c : Claim) (p : Policy), _ = some c →
              _ = some p →
              (requireAll = true ∧ ∃ q ∈ queries, IsOwn p q) ∨
                ∀ q ∈ queries, IsOwn p q := hG
          have hown := hguard c p hdecides.found hdecides.policy
          generalize hverdict : true = verdict at hjudges
          cases hjudges with
          | @readings _ _ answers _ _ hne hasks =>
              cases requireAll with
              | true =>
                  have hall : ∀ b ∈ answers, b = true := by
                    simpa using hverdict.symm
                  rcases hown with ⟨-, q, hq, hisOwn⟩ | hown
                  · exact confirmed_of_all hasks hall hq hisOwn
                  · obtain ⟨q, hq⟩ := List.exists_mem_of_ne_nil _ hne
                    exact confirmed_of_all hasks hall hq (hown q hq)
              | false =>
                  rcases hown with ⟨htrue, -⟩ | hown
                  · cases htrue
                  · exact confirmed_of_any hasks (by simpa using hverdict.symm)
                      hown
      | processClaim => cases hadmits.2.2
      | batchProcessClaims => cases hadmits.2
      | autoProcess => cases hadmits.2
      | batchAutoProcess => cases hadmits.2
      | _ => exact hadmits.elim

/-- In a call that meets `ReadsOwn`, a claim becomes approved only if the
oracle, asked for the policy's own condition in that very call, confirmed
it. -/
theorem approved_of_confirmed (hw : (system D).Reachable w)
    (hG : ReadsOwn w (.call signers (.claims e)))
    (hstep : (system D).Step w (.call signers (.claims e)) w') {id : ℕ}
    {c' : Claim} (hc' : w'.machine.store.claims.claim id = some c')
    (happroved : Approved c')
    (hbefore : ∀ c, w.machine.store.claims.claim id = some c → ¬ Approved c) :
    ∃ p, w'.machine.store.engine.policies c'.policyId = some p ∧
      Confirmed w.now p w.machine.store.oracle w'.machine.store.oracle := by
  have hsound := reachable_sound hw
  obtain ⟨hnow, -, hexec⟩ := call_exec hstep
  obtain ⟨ks, hrun⟩ := ClaimsProcessor.exec_moved hsound.orderly hexec
  have hpreserved := TransitionSystem.Run.preserves
    (Q := fun d => Sound d ∧
      Consulted w.now w.machine.store.oracle d.oracle ∧
        ∀ i c, d.claim i = some c → Approved c →
          (∃ c₀, w.machine.store.claims.claim i = some c₀ ∧ Approved c₀) ∨
            ∃ p, d.engine.policies c.policyId = some p ∧
              Confirmed w.now p w.machine.store.oracle d.oracle)
    ?_ hrun ⟨hsound, .refl, fun i c hc h => .inl ⟨c, hc, h⟩⟩
  · obtain ⟨-, -, hall⟩ := hpreserved
    rcases hall id c' hc' happroved with ⟨c₀, hc₀, h⟩ | hconfirmed
    · exact (hbefore c₀ hc₀ h).elim
    · exact hconfirmed
  rintro d k d' ⟨hd, hconsulted, hall⟩ ⟨hadmits, hmove⟩
  have hconsults := move_consults hmove
  refine ⟨hd.move hmove, hconsulted.trans hconsults, fun i c hc h => ?_⟩
  have hkeep : ∀ {j p}, d.engine.policies j = some p →
      Confirmed w.now p w.machine.store.oracle d'.oracle →
      ∃ p', d'.engine.policies j = some p' ∧
        Confirmed w.now p' w.machine.store.oracle d'.oracle := by
    intro j p hp hconfirmed
    obtain ⟨p', hp', hterms, -⟩ := move_continues hd.book hmove hp
    exact ⟨p', hp', hconfirmed.of_sameTerms hterms⟩
  rcases move_approves hmove i c hc h with ⟨c₁, hc₁, h₁, hpolicy⟩ | happroves
  · rcases hall i c₁ hc₁ h₁ with hbefore | ⟨p, hp, hconfirmed⟩
    · exact .inl hbefore
    · right
      rw [hpolicy]
      exact hkeep hp (hconfirmed.extend hconsults)
  · obtain ⟨basis, bps, c₁, p, hk, hdecides, hpolicy, hjudges⟩ := happroves
    right
    rw [hpolicy]
    have hjudged : e.judges (docket w.machine) d i basis := by
      rcases hk with rfl | rfl
      · exact hadmits.1
      · exact hadmits.1
    exact hkeep hdecides.policy
      ((confirmed_of_judges hG hjudged hdecides hjudges).after hconsulted)

end Calls

namespace Scenario

/-- The policy insures against little rain; the keeper asks about much. -/
def muchRain : OracleReadingQuery where
  dataType := Symbols.weather
  key := rain
  condition :=
    { dataType := Symbols.weather
      key := rain
      threshold := 600
      comparison := .greaterThan
      tolerance := 0 }
  stalenessThreshold := 604800

/-- The condition of the policy is not met when the claim is filed. -/
def noLoss : List (Label Entry) :=
  [.call [feed] (.oracle
      (.submitData feed Symbols.weather rain 700 90 1000000)),
    .call [holder] (.claims (.submitClaim holder 1))]

def unmet : World Network :=
  (TransitionSystem.execute (step sites) noLoss insured).get
    (by decide +kernel)

def readings : Label Entry :=
  .call [keeper] (.claims
    (.processMultiReadingClaim keeper 1 [muchRain] true none))

def paidUnmet : World Network :=
  (step sites unmet readings).get (by decide +kernel)

/-- What the oracle says of the policy's own condition. -/
def ownVerdict : Option Bool :=
  match unmet.machine.store.engine.policies 1 with
  | none => none
  | some p =>
      ((OracleVerifier.verifyTriggerFresh ⟨unmet.now, sites.oracle, []⟩
        p.oracleDataType p.oracleKey (ClaimsProcessor.triggerCondition p)
        604800 ⟨unmet.machine.store.oracle, unmet.machine.bank⟩).map
          Prod.fst).toOption

theorem settled_approved :
    ∃ c, settled.machine.store.claims.claim 1 = some c ∧ Approved c := by
  have hsome : (settled.machine.store.claims.claim 1).isSome = true := by
    decide +kernel
  have happroved :
      ∀ c, settled.machine.store.claims.claim 1 = some c → Approved c := by
    decide +kernel
  obtain ⟨c, hc⟩ := Option.isSome_iff_exists.mp hsome
  exact ⟨c, hc, happroved c hc⟩

end Scenario

open Scenario in
theorem approved_of_confirmed_settled :
    ∃ c p, settled.machine.store.claims.claim 1 = some c ∧
      settled.machine.store.engine.policies c.policyId = some p ∧
      Confirmed filed.now p filed.machine.store.oracle
        settled.machine.store.oracle := by
  have hfiled : (system sites).Reachable filed :=
    (filed_reachable (G := fun _ _ => True) (fun _ _ _ => trivial)
      (fun _ _ _ => trivial)).of_restrict
  have hstep : (system sites).Step filed (settling none) settled :=
    step_sound (Option.some_get _).symm
  have hbefore : ∀ c, filed.machine.store.claims.claim 1 = some c →
      ¬ Approved c := by
    decide +kernel
  obtain ⟨c, hc, happroved⟩ := settled_approved
  have hreads : ReadsOwn filed (settling none) := trivial
  obtain ⟨p, hp, hconfirmed⟩ :=
    approved_of_confirmed hfiled hreads hstep hc happroved hbefore
  exact ⟨c, p, hc, hp, hconfirmed⟩

open Scenario in
/-- One reading of the keeper's choice pays a claim whose own condition the
oracle denies. -/
theorem paid_without_confirmation :
    (system sites).Reachable unmet ∧
      ownVerdict = some false ∧
      (system sites).Step unmet readings paidUnmet ∧
      (paidUnmet.machine.store.claims.claim 1).map Claim.status =
        some .paid ∧
      paidUnmet.machine.bank.history =
        payment :: unmet.machine.bank.history := by
  have hrun : (system sites).Run insured noLoss unmet :=
    TransitionSystem.run_of_execute (fun _ _ _ => step_sound)
      (Option.some_get _).symm
  have hinsured : (system sites).Reachable insured :=
    (insured_reachable (G := fun _ _ => True)
      (fun _ _ _ => trivial)).of_restrict
  exact ⟨hinsured.run hrun, by decide +kernel,
    step_sound (Option.some_get _).symm, by decide +kernel,
    by decide +kernel⟩

/-! ## The start of the cover -/

/-- Keepers process a policy by its number only once its cover has begun. -/
def SweepsStarted (w : World Network) : Label Entry → Prop
  | .call _ (.claims (.autoProcess _ policyId _)) =>
      ∀ p, w.machine.store.engine.policies policyId = some p →
        p.startTime ≤ w.now
  | _ => True

/-- The cover of the claim's policy has begun. -/
def Started (now : ℕ) (d : Docket) (c : Claim) : Prop :=
  ∃ p, d.engine.policies c.policyId = some p ∧ p.startTime ≤ now

theorem started_stable (D : Sites) :
    Stable D SweepsStarted
      (fun now d => ∀ id c, d.claim id = some c → Started now d c) where
  deployed := by
    simp [docket, Network.deployed, ClaimsProcessor.State.deployed]
  tick := by
    intro now later d hle h id c hc
    obtain ⟨p, hp, hstart⟩ := h id c hc
    exact ⟨p, hp, hstart.trans hle⟩
  move := by
    intro w signers e k d d' hG hadmits hmove hsound _ h id c' hc'
    have hkeep : ∀ {j p}, d.engine.policies j = some p →
        p.startTime ≤ w.now →
        ∃ p', d'.engine.policies j = some p' ∧ p'.startTime ≤ w.now := by
      intro j p hp hstart
      obtain ⟨p', hp', hterms, -⟩ := move_continues hsound.book hmove hp
      exact ⟨p', hp', hterms.start.trans_le hstart⟩
    rcases move_arises hmove id c' hc' with ⟨c, hc, hsubject⟩ | hfiled
    · obtain ⟨p, hp, hstart⟩ := h id c hc
      rw [Started, hsubject.policyId]
      exact hkeep hp hstart
    · cases hfiled with
      | @file policyId byKeeper p hnone hp _ hstart =>
          refine hkeep hp ?_
          cases byKeeper with
          | false => exact hstart rfl
          | true =>
              cases e with
              | autoProcess keeper id bps =>
                  obtain ⟨rfl, rfl⟩ := hadmits
                  have hguard : ∀ p : Policy, _ = some p →
                      p.startTime ≤ w.now := hG
                  exact hguard p hp
              | batchAutoProcess =>
                  -- a batch takes the policies of claims already on file
                  obtain ⟨i, c, hc, rfl⟩ := hadmits
                  rw [hsound.orderly.recorded i c hc] at hnone
                  cases hnone
              | _ => exact hadmits.elim
  change := by
    intro w signers e k d b _ _ _ hchange hsound h id c hc
    obtain ⟨p, hp, hstart⟩ := h id c hc
    obtain ⟨p', hp', hcontinues⟩ := hsound.book.continues hchange hp
    exact ⟨p', hp', hcontinues.terms.start.trans_le hstart⟩
  rest := by
    rintro now d _ ⟨bank, engineRest, oracle, lock, totalLocked, poolRest, -,
      rfl⟩ h
    exact h

/-- While keepers sweep no policy before its start, a claim becomes approved
only at a time at which the cover of its policy has begun. -/
theorem approved_after_start {D : Sites} {w w' : World Network}
    {l : Label Entry} (hw : ((system D).restrict SweepsStarted).Reachable w)
    (hstep : ((system D).restrict SweepsStarted).Step w l w') {id : ℕ}
    {c' : Claim} (hc' : w'.machine.store.claims.claim id = some c')
    (happroved : Approved c')
    (hbefore : ∀ c, w.machine.store.claims.claim id = some c → ¬ Approved c) :
    ∃ p, w'.machine.store.engine.policies c'.policyId = some p ∧
      p.startTime ≤ w.now := by
  have hstarted := ((hw.step hstep).invariant (started_stable D).preserved).2
  obtain ⟨p, hp, hstart⟩ := hstarted id c' hc'
  refine ⟨p, hp, ?_⟩
  obtain ⟨-, -, hstep⟩ := hstep
  cases hstep with
  | tick => exact (hbefore c' hc' happroved).elim
  | _ => exact hstart

namespace Scenario

/-- The cover bought begins a day later. -/
def scheduling : List (Label Entry) :=
  [.call [holder] (.engine
      (.buyPolicyScheduled holder 1 1000000 365 rain 1086400 usdc)),
    .call [admin] (.pool (.lockForPolicy admin 1 1000000)),
    .call [feed] (.oracle
      (.submitData feed Symbols.weather rain 300 90 1000000))]

def scheduled : World Network :=
  (TransitionSystem.execute (step sites) (setUp ++ scheduling) genesis).get
    (by decide +kernel)

def sweeping : Label Entry :=
  .call [keeper] (.claims (.autoProcess keeper 1 none))

def paidEarly : World Network :=
  (step sites scheduled sweeping).get (by decide +kernel)

end Scenario

open Scenario in
theorem approved_after_start_settled :
    ∃ c p, settled.machine.store.claims.claim 1 = some c ∧
      settled.machine.store.engine.policies c.policyId = some p ∧
      p.startTime ≤ filed.now := by
  have hfiled : ((system sites).restrict SweepsStarted).Reachable filed :=
    filed_reachable (by simp [setUp, purchase, SweepsStarted])
      (by simp [loss, SweepsStarted])
  have hstep : ((system sites).restrict SweepsStarted).Step filed
      (settling none) settled :=
    ⟨trivial, step_sound (Option.some_get _).symm⟩
  have hbefore : ∀ c, filed.machine.store.claims.claim 1 = some c →
      ¬ Approved c := by
    decide +kernel
  obtain ⟨c, hc, happroved⟩ := settled_approved
  obtain ⟨p, hp, hstart⟩ :=
    approved_after_start hfiled hstep hc happroved hbefore
  exact ⟨c, p, hc, hp, hstart⟩

open Scenario in
/-- A keeper has a policy paid a day before its cover begins. -/
theorem paid_before_start :
    (system sites).Reachable scheduled ∧
      (scheduled.machine.store.engine.policies 1).map Policy.startTime =
        some 1086400 ∧
      (system sites).Step scheduled sweeping paidEarly ∧
      scheduled.now = 1000000 ∧
      (paidEarly.machine.store.claims.claim 1).map Claim.status =
        some .paid :=
  ⟨TransitionSystem.Reachable.run (.init ⟨rfl, rfl⟩)
      (TransitionSystem.run_of_execute (fun _ _ _ => step_sound)
        (Option.some_get _).symm),
    by decide +kernel, step_sound (Option.some_get _).symm, rfl,
    by decide +kernel⟩

end Parashield.Protocol
