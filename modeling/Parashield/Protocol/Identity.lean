import Parashield.Protocol.Finality
import Parashield.Protocol.Payouts

/-!
# Identity requirements

The administrator may require an identity for the claims on a product, and
attesters verify claims.  The records of the two are never joined before a
payment, so a requirement is met only where the callers see to it.
-/

namespace Parashield.Protocol

open Support
open PolicyEngine (Policy)
open ClaimsProcessor (Claim Docket Kind Move Network docket moves maxBatchSize)

/-- Claim `id` stands verified as its product requires. -/
def Attested (m : Machine Network) (id : ℕ) : Prop :=
  ∀ c p idType, m.store.claims.claim id = some c →
    m.store.engine.policies c.policyId = some p →
    m.store.claims.identityRequirement p.productId = some idType →
    c.verificationType = some idType

/-- The claim of the policy is on file and stands verified as its product
requires. -/
def PolicyAttested (m : Machine Network) (policyId : ℕ) : Prop :=
  ∀ p idType, m.store.engine.policies policyId = some p →
    m.store.claims.identityRequirement p.productId = some idType →
    ∃ id c, m.store.claims.policyClaim policyId = some id ∧
      m.store.claims.claim id = some c ∧ c.verificationType = some idType

/-- Settlement and payout are called only for claims that stand verified as
their products require. -/
def VerifiedFirst (w : World Network) : Label Entry → Prop
  | .call _ (.claims (.processClaim _ id _))
  | .call _ (.claims (.processMultiReadingClaim _ id _ _ _))
  | .call _ (.claims (.claimPayout id))
  | .call _ (.claims (.claimPayoutTo id _))
  | .call _ (.claims (.claimPayoutWithToken id _)) => Attested w.machine id
  | .call _ (.claims (.batchProcessClaims _ ids _)) =>
      ∀ id ∈ ids.take maxBatchSize, Attested w.machine id
  | .call _ (.claims (.autoProcess _ policyId _)) =>
      PolicyAttested w.machine policyId
  | .call _ (.claims (.batchAutoProcess _ limit)) =>
      ∀ id ∈ (docket w.machine).window limit, Attested w.machine id
  | _ => True

/-! ## Attestations come from verifications -/

section Moves

variable {now : ℕ} {engine : Address} {k : Kind} {d d' : Docket}

/-- The claims agree on their policy and their attestation. -/
structure SameAttestation (c c' : Claim) : Prop where
  policyId : c'.policyId = c.policyId
  verificationType : c'.verificationType = c.verificationType

theorem sameAttestation_of_approve {c c' : Claim} {bps : ℕ}
    (h : (c.judged now true).approve bps = .ok c') : SameAttestation c c' := by
  refine ⟨(sameSubject_of_approve h).policyId, ?_⟩
  unfold ClaimsProcessor.Claim.approve at h
  split at h
  · obtain rfl := Check.pure_ok.mp h
    rfl
  · simp at h
    obtain ⟨-, -, rfl⟩ := h
    rfl

/-- The move writes installments or an attestation. -/
def Annotates : Kind → Prop
  | .annotate _ | .installment _ => True
  | _ => False

/-- Any other move leaves the attestations as they are. -/
theorem move_attestation (h : Move now engine k d d') (hk : ¬ Annotates k) :
    ∀ id c', d'.claim id = some c' →
      (∃ c, d.claim id = some c ∧ SameAttestation c c') ∨ Filed now d k c' := by
  have hold : ∀ id c', d.claim id = some c' →
      (∃ c, d.claim id = some c ∧ SameAttestation c c') ∨ Filed now d k c' :=
    fun id c hc => .inl ⟨c, hc, rfl, rfl⟩
  cases h with
  | file _ hnone hp hactive _ hstart hend =>
      exact forall_setClaim hold (.inr (.file hnone hp hactive hstart hend))
  | refuse hc => exact forall_setClaim hold (.inl ⟨_, hc.found, rfl, rfl⟩)
  | hold hc _ happrove =>
      obtain ⟨hpolicy, hverified⟩ := sameAttestation_of_approve happrove
      exact forall_setClaim hold (.inl ⟨_, hc.found, hpolicy, hverified⟩)
  | settle hc _ happrove =>
      exact forall_setClaim hold
        (.inl ⟨_, hc.found, sameAttestation_of_approve happrove⟩)
  | payout hc => exact forall_setClaim hold (.inl ⟨_, hc, rfl, rfl⟩)
  | dispute hc => exact forall_setClaim hold (.inl ⟨_, hc, rfl, rfl⟩)
  | resolve hc => exact forall_setClaim hold (.inl ⟨_, hc, rfl, rfl⟩)
  | reject hc => exact forall_setClaim hold (.inl ⟨_, hc, rfl, rfl⟩)
  | escalate hc => exact forall_setClaim hold (.inl ⟨_, hc, rfl, rfl⟩)
  | installment => exact (hk trivial).elim
  | annotate => exact (hk trivial).elim
  | _ => exact hold

end Moves

section Attestations

variable {D : Sites} {w w' : World Network} {l : Label Entry} {id : ℕ}
  {idType : Symbol} {c' : Claim}

/-- A call whose moves write no attestation. -/
theorem call_attests {e : ClaimsProcessor.Entry} {signers : List Address}
    (hsound : Sound (docket w.machine))
    (hno : ∀ d k, e.admits (docket w.machine) d k → ¬ Annotates k)
    (hstep : (system D).Step w (.call signers (.claims e)) w')
    (hc' : w'.machine.store.claims.claim id = some c')
    (hverified : c'.verificationType = some idType) :
    ∃ c, w.machine.store.claims.claim id = some c ∧
      c.verificationType = some idType := by
  obtain ⟨-, -, hexec⟩ := call_exec hstep
  obtain ⟨ks, hrun⟩ := ClaimsProcessor.exec_moved hsound.orderly hexec
  refine TransitionSystem.Run.preserves
    (Q := fun d => ∀ c', d.claim id = some c' →
      c'.verificationType = some idType →
        ∃ c, (docket w.machine).claim id = some c ∧
          c.verificationType = some idType)
    ?_ hrun (fun c hc hverified => ⟨c, hc, hverified⟩) c' hc' hverified
  rintro d k d' hd ⟨hadmits, hmove⟩ c' hc' hverified
  rcases move_attestation hmove (hno d k hadmits) id c' hc' with
    ⟨c, hc, hsame⟩ | hfiled
  · exact hd c hc (hsame.verificationType ▸ hverified)
  · cases hfiled
    cases hverified

/-- Rewriting a claim without a verification. -/
theorem attested_of_write {claim : ℕ → Option Claim} {i : ℕ} {c c₁ : Claim}
    (hc : claim i = some c)
    (hc' : Function.update claim i (some c₁) id = some c')
    (hverified : c'.verificationType = some idType)
    (hsame : c₁.verificationType = c.verificationType) :
    ∃ c, claim id = some c ∧ c.verificationType = some idType := by
  by_cases hi : id = i
  · subst hi
    rw [Function.update_self, Option.some.injEq] at hc'
    exact ⟨c, hc, by rw [← hsame, hc', hverified]⟩
  · rw [Function.update_of_ne hi] at hc'
    exact ⟨c', hc', hverified⟩

/-- A claim is verified by the call for it, and by no other step. -/
theorem step_attests (hsound : Sound (docket w.machine))
    (hstep : (system D).Step w l w')
    (hc' : w'.machine.store.claims.claim id = some c')
    (hverified : c'.verificationType = some idType) :
    (∃ signers attester, l = .call signers
      (.claims (.verifyClaimantIdentity attester id idType))) ∨
      ∃ c, w.machine.store.claims.claim id = some c ∧
        c.verificationType = some idType := by
  rcases step_claims hstep with ⟨signers, e, rfl⟩ | hsame
  · obtain ⟨-, -, hexec⟩ := call_exec hstep
    cases e with
    | verifyClaimantIdentity attester claimId idType' =>
        simp [exec, ClaimsProcessor.exec,
          ClaimsProcessor.verifyClaimantIdentity,
          ClaimsProcessor.requireAdminOrAttester] at hexec
        obtain ⟨-, admin, -, -, c, hc, hm⟩ := hexec
        rw [hm] at hc'
        by_cases hid : id = claimId
        · subst hid
          simp only [Function.update_self, Option.some.injEq] at hc'
          rw [← hc', Option.some.injEq] at hverified
          rw [← hverified]
          exact .inl ⟨signers, attester, rfl⟩
        · simp only [Function.update_of_ne hid] at hc'
          exact .inr ⟨c', hc', hverified⟩
    | scheduleInstallments =>
        simp [exec, ClaimsProcessor.exec,
          ClaimsProcessor.scheduleInstallments] at hexec
        obtain ⟨-, -, -, -, c, hc, -, -, hm⟩ := hexec
        rw [hm] at hc'
        exact .inr (attested_of_write hc hc' hverified rfl)
    | claimInstallment =>
        obtain ⟨amount, hcollect⟩ := Invocation.perform_ok.mp hexec
        simp [ClaimsProcessor.claimInstallment, RiskPool.releaseForClaim,
          RiskPool.releaseLock] at hcollect
        obtain ⟨-, -, c, hc, -, s, -, -, due, -, -, -, lock, -, hm, -⟩ :=
          hcollect
        rw [hm] at hc'
        exact .inr (attested_of_write hc hc' hverified rfl)
    | _ =>
        refine .inr (call_attests hsound ?_ hstep hc' hverified)
        rintro d k hadmits hk
        cases k with
        | annotate => exact hadmits.2
        | installment => exact absurd hadmits.2 (by rintro ⟨_, ⟨⟩⟩)
        | _ => exact hk
  · rw [hsame] at hc'
    exact .inr ⟨c', hc', hverified⟩

end Attestations

/-! ## Payments -/

section Payments

variable {D : Sites} {w₀ w w' : World Network} {ls : List (Label Entry)}
  {e : ClaimsProcessor.Entry} {now : ℕ} {engine : Address} {k : Kind}
  {d₀ d d' : Docket} {id : ℕ}

/-- A verification of the claim is among the steps. -/
def VerifiedIn (ls : List (Label Entry)) (id : ℕ) (idType : Symbol) : Prop :=
  ∃ signers attester, Label.call signers
    (.claims (.verifyClaimantIdentity attester id idType)) ∈ ls

theorem run_attests {G : World Network → Label Entry → Prop}
    (hw : (system D).Reachable w)
    (hrun : ((system D).restrict G).Run w ls w') {idType : Symbol}
    {c' : Claim} (hc' : w'.machine.store.claims.claim id = some c')
    (hverified : c'.verificationType = some idType) :
    VerifiedIn ls id idType ∨
      ∃ c, w.machine.store.claims.claim id = some c ∧
        c.verificationType = some idType := by
  induction hrun with
  | nil => exact .inr ⟨c', hc', hverified⟩
  | cons hstep _ ih =>
      rcases ih (.step hw hstep.2) hc' with
        ⟨signers, attester, hmem⟩ | ⟨c, hc, hc_verified⟩
      · exact .inl ⟨signers, attester, List.mem_cons_of_mem _ hmem⟩
      · rcases step_attests (reachable_sound hw) hstep.2 hc hc_verified with
          ⟨signers, attester, rfl⟩ | hbefore
        · exact .inl ⟨signers, attester, List.mem_cons_self⟩
        · exact .inr hbefore

/-- The settlement and payout calls. -/
def pays : ClaimsProcessor.Entry → Bool
  | .processClaim .. | .processMultiReadingClaim .. | .batchProcessClaims ..
  | .autoProcess .. | .batchAutoProcess .. | .claimPayout ..
  | .claimPayoutTo .. | .claimPayoutWithToken .. => true
  | _ => false

theorem pays_of_judges {basis : ClaimsProcessor.Basis}
    (h : e.judges d₀ d id basis) : pays e = true := by
  cases e with
  | _ => first | rfl | exact h.elim

theorem files_of_pays (h : pays e = true) : e.files = false := by
  cases e with
  | submitClaim => cases h
  | submitClaimWithRef => cases h
  | submitClaimWithType => cases h
  | batchSubmitClaims => cases h
  | _ => rfl

/-- Where the claims come from during a settlement or payout call: they keep
their attestations, or a sweep has just filed them. -/
def Kept (e : ClaimsProcessor.Entry) (d₀ d : Docket) : Prop :=
  ∀ id c, d.claim id = some c →
    (∃ c₀, d₀.claim id = some c₀ ∧ SameAttestation c₀ c) ∨
      d₀.policyClaim c.policyId = none ∧
        ∃ keeper bps, e = .autoProcess keeper c.policyId bps

theorem Kept.move (h : Kept e d₀ d) (hpays : pays e = true)
    (horderly : d.Orderly) (hadmits : e.admits d₀ d k)
    (hmove : Move now engine k d d') : Kept e d₀ d' := by
  have hk : ¬ Annotates k := by
    intro hk
    cases k with
    | annotate =>
        obtain ⟨-, hannotates⟩ := hadmits
        cases e with
        | scheduleInstallments => cases hpays
        | verifyClaimantIdentity => cases hpays
        | _ => exact hannotates
    | installment =>
        obtain ⟨-, claimant, rfl⟩ := hadmits
        cases hpays
    | _ => exact hk
  intro i c' hc'
  rcases move_attestation hmove hk i c' hc' with ⟨c, hc, hsame⟩ | hfiled
  · rcases h i c hc with ⟨c₀, hc₀, hsame₀⟩ | hnew
    · exact .inl ⟨c₀, hc₀, hsame.policyId.trans hsame₀.policyId,
        hsame.verificationType.trans hsame₀.verificationType⟩
    · rw [← hsame.policyId] at hnew
      exact .inr hnew
  · cases hfiled with
    | @file policyId byKeeper p hnone =>
        cases byKeeper with
        | false =>
            have hfiles : e.files = true := hadmits
            rw [files_of_pays hpays] at hfiles
            cases hfiles
        | true =>
            have hsweeps : e.sweeps d₀ d policyId := hadmits
            cases e with
            | autoProcess keeper id bps =>
                obtain ⟨rfl, rfl⟩ := hsweeps
                exact .inr ⟨hnone, keeper, bps, rfl⟩
            | batchAutoProcess =>
                obtain ⟨j, c, hc, hpolicy⟩ := hsweeps
                have hrecorded := horderly.recorded j c hc
                rw [hpolicy, hnone] at hrecorded
                cases hrecorded
            | _ => exact hsweeps.elim

/-- A claim that a guarded call decides stands verified as its product
requires. -/
theorem attested_of_judges {signers : List Address}
    {basis : ClaimsProcessor.Basis} {c : Claim} {p : Policy} {idType : Symbol}
    (hG : VerifiedFirst w (.call signers (.claims e)))
    (hsound : Sound (docket w.machine)) (hd : Sound d)
    (hkept : Kept e (docket w.machine) d)
    (hjudges : e.judges (docket w.machine) d id basis)
    (hc : d.claim id = some c)
    (hp : w.machine.store.engine.policies c.policyId = some p)
    (hrequired :
      w.machine.store.claims.identityRequirement p.productId = some idType) :
    ∃ c₀, w.machine.store.claims.claim id = some c₀ ∧
      c₀.verificationType = some idType := by
  rcases hkept id c hc with ⟨c₀, hc₀, hsame⟩ | ⟨hnone, keeper, bps, rfl⟩
  · refine ⟨c₀, hc₀, ?_⟩
    rw [hsame.policyId] at hp
    cases e with
    | processClaim =>
        obtain ⟨rfl, rfl, -⟩ := hjudges
        exact hG c₀ p idType hc₀ hp hrequired
    | processMultiReadingClaim =>
        obtain ⟨rfl, rfl, -⟩ := hjudges
        exact hG c₀ p idType hc₀ hp hrequired
    | batchProcessClaims => exact hG id hjudges.1 c₀ p idType hc₀ hp hrequired
    | batchAutoProcess => exact hG id hjudges.1 c₀ p idType hc₀ hp hrequired
    | autoProcess keeper policyId bps =>
        obtain ⟨x, hx, hpolicy⟩ := hd.orderly.linked policyId id hjudges.1
        obtain rfl := Option.some.inj (hc.symm.trans hx)
        rw [← hpolicy, hsame.policyId] at hG
        obtain ⟨i, c₁, hlinked, hc₁, hverified⟩ := hG p idType hp hrequired
        have hrecorded := hsound.orderly.recorded id c₀ hc₀
        obtain rfl := Option.some.inj (hrecorded.symm.trans hlinked)
        obtain rfl := Option.some.inj (hc₀.symm.trans hc₁)
        exact hverified
    | _ => exact hjudges.elim
  · obtain ⟨i, c₁, hlinked, -⟩ := hG p idType hp hrequired
    exact absurd (hlinked.symm.trans hnone) nofun

/-- While settlement and payout are called only for claims that stand verified
as their products require, every payment is for a claim whose verification with
the required type precedes it. -/
theorem identity_enforced (hinit : (system D).Init w₀)
    (hrun : ((system D).restrict VerifiedFirst).Run w₀ ls w)
    {signers : List Address}
    (hstep : ((system D).restrict VerifiedFirst).Step w
      (.call signers (.claims e)) w') :
    PaidFor D.engine
      (fun id c _ => ∀ p idType,
        w.machine.store.engine.policies c.policyId = some p →
        w.machine.store.claims.identityRequirement p.productId = some idType →
        VerifiedIn ls id idType)
      (docket w.machine) (docket w'.machine) := by
  have hgenesis : (system D).Reachable w₀ := .init hinit
  have hsound := reachable_sound (hgenesis.run hrun.of_restrict)
  obtain ⟨hG, hstep⟩ := hstep
  obtain ⟨-, -, hexec⟩ := call_exec hstep
  obtain ⟨ks, hmoves⟩ := ClaimsProcessor.exec_moved hsound.orderly hexec
  have hrecord : ∀ id c idType, w.machine.store.claims.claim id = some c →
      c.verificationType = some idType → VerifiedIn ls id idType := by
    intro id c idType hc hverified
    rcases run_attests hgenesis hrun hc hverified with hmem | ⟨c₀, hc₀, -⟩
    · exact hmem
    · have hfresh : w₀.machine.store = Network.deployed := hinit.1
      rw [hfresh] at hc₀
      cases hc₀
  refine payments_of_moves
    (I := fun d => Sound d ∧ (pays e = true → Kept e (docket w.machine) d))
    ?_ ?_ ?_ hsound ⟨hsound, fun _ id c hc => .inl ⟨c, hc, rfl, rfl⟩⟩ hmoves
  · rintro d k d' hadmits hmove hd hd' ⟨-, hkept⟩
    exact ⟨hd', fun hpays =>
      (hkept hpays).move hpays hd.orderly hadmits hmove⟩
  · rintro d k d' id c c' p₁ t ⟨hd, hkept⟩ hadmits - hroute hpaid p idType hp
      hrequired
    rw [hpaid.subject.policyId] at hp
    rcases hroute with ⟨-, basis, bps, rfl⟩ | rfl
    · obtain ⟨c₀, hc₀, hverified⟩ := attested_of_judges hG hsound hd
        (hkept (pays_of_judges hadmits.1)) hadmits.1 hpaid.before hp hrequired
      exact hrecord id c₀ idType hc₀ hverified
    · obtain ⟨rfl, hcollects⟩ := hadmits
      have hattested : Attested w.machine id := by
        cases e with
        | claimPayout =>
            obtain rfl : _ = id := hcollects
            exact hG
        | claimPayoutTo =>
            obtain rfl : _ = id := hcollects
            exact hG
        | claimPayoutWithToken =>
            obtain rfl : _ = id := hcollects
            exact hG
        | _ => exact hcollects.elim
      exact hrecord id c idType hpaid.before
        (hattested c p idType hpaid.before hp hrequired)
  · intro id c c' t hevolves hP p idType hp
    rw [hevolves.policyId] at hp
    exact hP p idType hp

end Payments

namespace Scenario

def kyc : Symbol := ⟨['k', 'y', 'c']⟩

/-- An identity is required for the claims on the product. -/
def demand : List (Label Entry) :=
  [.call [admin] (.claims (.requireIdentityForCategory admin 1 kyc))]

def demanded : World Network :=
  (TransitionSystem.execute (step sites) demand filed).get (by decide +kernel)

def anonymous : World Network :=
  (step sites demanded (settling none)).get (by decide +kernel)

def verification : List (Label Entry) :=
  [.call [admin] (.claims (.verifyClaimantIdentity admin 1 kyc))]

def verified : World Network :=
  (TransitionSystem.execute (step sites) verification demanded).get
    (by decide +kernel)

def identified : World Network :=
  (step sites verified (settling none)).get (by decide +kernel)

/-- The steps up to the demand. -/
def demanding : List (Label Entry) := (setUp ++ purchase) ++ loss ++ demand

theorem demanded_run : (system sites).Run genesis demanding demanded := by
  have hinsured : (system sites).Run genesis (setUp ++ purchase) insured :=
    TransitionSystem.run_of_execute (fun _ _ _ => step_sound)
      (Option.some_get _).symm
  have hfiled : (system sites).Run insured loss filed :=
    TransitionSystem.run_of_execute (fun _ _ _ => step_sound)
      (Option.some_get _).symm
  have hdemanded : (system sites).Run filed demand demanded :=
    TransitionSystem.run_of_execute (fun _ _ _ => step_sound)
      (Option.some_get _).symm
  exact (hinsured.append hfiled).append hdemanded

end Scenario

open Scenario in
theorem identity_enforced_identified :
    identified.machine.bank.history =
        payment :: verified.machine.bank.history ∧
      PaidFor sites.engine
        (fun id c _ => ∀ p idType,
          verified.machine.store.engine.policies c.policyId = some p →
          verified.machine.store.claims.identityRequirement p.productId =
            some idType →
          VerifiedIn (demanding ++ verification) id idType)
        (docket verified.machine) (docket identified.machine) := by
  have hverified : (system sites).Run demanded verification verified :=
    TransitionSystem.run_of_execute (fun _ _ _ => step_sound)
      (Option.some_get _).symm
  have hrun : ((system sites).restrict VerifiedFirst).Run genesis
      (demanding ++ verification) verified :=
    (demanded_run.append hverified).restrict (by
      simp [demanding, setUp, purchase, loss, demand, verification,
        VerifiedFirst])
  have hclaim : ∀ c, verified.machine.store.claims.claim 1 = some c →
      c.policyId = 1 ∧ c.verificationType = some kyc := by
    decide +kernel
  have hpolicy : ∀ p, verified.machine.store.engine.policies 1 = some p →
      p.productId = 1 := by
    decide +kernel
  have hrequired : verified.machine.store.claims.identityRequirement 1 =
      some kyc := by
    decide +kernel
  have hattested : Attested verified.machine 1 := by
    intro c p idType hc hp hdemand
    obtain ⟨hid, hkyc⟩ := hclaim c hc
    rw [hid] at hp
    rw [hpolicy p hp] at hdemand
    rw [hkyc, ← hrequired, hdemand]
  have hstep : ((system sites).restrict VerifiedFirst).Step verified
      (settling none) identified :=
    ⟨hattested, step_sound (Option.some_get _).symm⟩
  exact ⟨by decide +kernel, identity_enforced ⟨rfl, rfl⟩ hrun hstep⟩

open Scenario in
/-- The claim is paid although nobody ever verified it. -/
theorem identity_not_enforced :
    (system sites).Run genesis demanding demanded ∧
      (system sites).Step demanded (settling none) anonymous ∧
      demanded.machine.store.claims.identityRequirement 1 = some kyc ∧
      (demanded.machine.store.engine.policies 1).map Policy.productId =
        some 1 ∧
      (demanded.machine.store.claims.claim 1).map
          (fun c => (c.policyId, c.verificationType)) = some (1, none) ∧
      ¬ VerifiedIn demanding 1 kyc ∧
      anonymous.machine.bank.history =
        payment :: demanded.machine.bank.history := by
  refine ⟨demanded_run, step_sound (Option.some_get _).symm, by decide +kernel,
    by decide +kernel, by decide +kernel, ?_, by decide +kernel⟩
  simp [VerifiedIn, demanding, setUp, purchase, loss, demand]

end Parashield.Protocol
