import Parashield.ClaimsProcessor.Submissions
import Parashield.Protocol.Approvals
import Parashield.Protocol.Finality

/-!
# One claim per policy

A policy has at most one claim in all of a run, and a reference number names
the claim it was submitted with for good.  A claim is filed while its policy
is active, by the policyholder or for it, and before the time for claims is
over.  Whoever files a claim for itself does so after the start of the cover;
a keeper that processes a policy by its number opens a claim at any time up to
the end of the cover.
-/

namespace Parashield.Protocol

open Support Invocation
open PolicyEngine (Policy)
open ClaimsProcessor (Claim Claimable Docket Kind Move Moved Network Opens
  Refers docket)

/-! ## What a call files -/

section Calls

variable {env : ClaimsProcessor.Context} {m m' : Machine Network} {u : Unit}

theorem claimable_of_sameSubject {now : ℕ} {c c' : Claim} {p : Policy}
    (h : Claimable now m c p) (hsubject : SameSubject c c') :
    Claimable now m c' p where
  policy := by
    rw [hsubject.policyId]
    exact h.policy
  active := h.active
  holder := hsubject.claimant.trans h.holder
  taken := h.taken

/-- The moves of a call keep every claim. -/
theorem moved_subject {G : Docket → Kind → Prop} (hmoved : Moved env G m m')
    (horderly : (docket m).Orderly) {id : ℕ} {c : Claim}
    (hc : m.store.claims.claim id = some c) :
    ∃ c', m'.store.claims.claim id = some c' ∧ SameSubject c c' := by
  obtain ⟨ks, hrun⟩ := hmoved
  have hpreserved := hrun.preserves
    (Q := fun d => d.Orderly ∧ ∃ c', d.claim id = some c' ∧ SameSubject c c')
    ?_ ⟨horderly, c, hc, .refl c⟩
  · exact hpreserved.2
  rintro d k d' ⟨hd, c₁, hc₁, hsubject⟩ ⟨-, hmove⟩
  obtain ⟨c', hc', hsubject'⟩ := move_subject hd hmove hc₁
  exact ⟨hmove.orderly hd, c', hc', hsubject.trans hsubject'⟩

/-- Processing policy `policyId` by its number opens a claim on it. -/
def ForKeeper (env : ClaimsProcessor.Context) (e : ClaimsProcessor.Entry)
    (m : Machine Network) (policyId : ℕ) (p : Policy) : Prop :=
  ∃ keeper bps, e = .autoProcess keeper policyId bps ∧
    Opens env.now m policyId p

/-- A claim found after a call was there before, or the call filed it: for the
policyholder, after the start of the cover, or in the name of the policyholder
by processing the policy. -/
theorem exec_arises {e : ClaimsProcessor.Entry} (horderly : (docket m).Orderly)
    (h : ClaimsProcessor.exec env e m = .ok (u, m')) {id : ℕ} {c' : Claim}
    (hc' : m'.store.claims.claim id = some c') :
    (∃ c, m.store.claims.claim id = some c ∧ SameSubject c c') ∨
      ∃ p, Claimable env.now m c' p ∧
        (p.startTime ≤ env.now ∨ ForKeeper env e m c'.policyId p) := by
  by_cases hfiles : e.files = true
  · rcases (ClaimsProcessor.exec_submitted hfiles h).claim id c' hc' with
      hc | ⟨p, hclaimable, hstart⟩
    · exact .inl ⟨c', hc, .refl c'⟩
    · exact .inr ⟨p, hclaimable, .inl hstart⟩
  obtain ⟨ks, hrun⟩ := ClaimsProcessor.exec_moved horderly h
  have hpreserved := hrun.preserves
    (Q := fun d => d.Orderly ∧ ∀ i c, d.claim i = some c →
      (∃ c₀, m.store.claims.claim i = some c₀ ∧ SameSubject c₀ c) ∨
        ∃ p, Claimable env.now m c p ∧ ForKeeper env e m c.policyId p)
    ?_ ⟨horderly, fun i c hc => .inl ⟨c, hc, .refl c⟩⟩
  · rcases hpreserved.2 id c' hc' with hold | ⟨p, hclaimable, hkeeper⟩
    · exact .inl hold
    · exact .inr ⟨p, hclaimable, .inr hkeeper⟩
  rintro d k d' ⟨hd, hall⟩ ⟨hadmits, hmove⟩
  refine ⟨hmove.orderly hd, fun i c hc => ?_⟩
  rcases move_arises hmove i c hc with ⟨c₁, hc₁, hsubject⟩ | hfiled
  · rcases hall i c₁ hc₁ with ⟨c₀, hc₀, hbefore⟩ | ⟨p, hclaimable, hkeeper⟩
    · exact .inl ⟨c₀, hc₀, hbefore.trans hsubject⟩
    · rw [← hsubject.policyId] at hkeeper
      exact .inr ⟨p, claimable_of_sameSubject hclaimable hsubject, hkeeper⟩
  · cases hfiled with
    | @file policyId byKeeper p hnone hp hactive _ hend =>
        cases byKeeper with
        | false => exact absurd hadmits hfiles
        | true =>
            cases e with
            | autoProcess keeper _ bps =>
                obtain ⟨rfl, rfl⟩ := hadmits
                have hopens : Opens env.now m _ p :=
                  ⟨hnone, hp, hactive, hend rfl⟩
                exact .inr ⟨p, hopens.claimable rfl rfl, keeper, bps, rfl,
                  hopens⟩
            | batchAutoProcess =>
                -- a batch takes the policies of claims already on file
                obtain ⟨j, c₁, hc₁, rfl⟩ := hadmits
                rw [hd.recorded j c₁ hc₁] at hnone
                cases hnone
            | _ => exact hadmits.elim

end Calls

/-! ## Steps -/

/-- Keepers open a claim by processing its policy only once the cover has
begun. -/
def OpensStarted (w : World Network) : Label Entry → Prop
  | .call _ (.claims (.autoProcess _ policyId _)) =>
      ∀ p, Opens w.now w.machine policyId p → p.startTime ≤ w.now
  | _ => True

/-- The claim is filed in the window of its policy `p`. -/
structure InWindow (w : World Network) (c : Claim) (p : Policy) : Prop
    extends Claimable w.now w.machine c p where
  started : p.startTime ≤ w.now

/-- The call submits a claim under this reference number. -/
def Carries (reference : Symbol) : Label Entry → Bool
  | .call _ (.claims e) => decide (e.reference = some reference)
  | _ => false

section Steps

variable {D : Sites} {w w' : World Network} {l : Label Entry} {id : ℕ}

theorem step_subject (hw : (system D).Reachable w)
    (hstep : (system D).Step w l w') {c : Claim}
    (hc : w.machine.store.claims.claim id = some c) :
    ∃ c', w'.machine.store.claims.claim id = some c' ∧ SameSubject c c' := by
  rcases step_claims hstep with ⟨signers, e, rfl⟩ | hsame
  · obtain ⟨-, -, hexec⟩ := call_exec hstep
    have horderly := (reachable_sound hw).orderly
    exact moved_subject (ClaimsProcessor.exec_moved horderly hexec) horderly hc
  · exact ⟨c, by rw [hsame, hc], .refl c⟩

/-- A claim that is new after a step that meets the guard was filed in the
window of its policy. -/
theorem step_inWindow (hw : (system D).Reachable w)
    (hstep : ((system D).restrict OpensStarted).Step w l w') {c : Claim}
    (hnew : w.machine.store.claims.claim id = none)
    (hc : w'.machine.store.claims.claim id = some c) :
    ∃ p, InWindow w c p := by
  obtain ⟨hguard, hstep⟩ := hstep
  rcases step_claims hstep with ⟨signers, e, rfl⟩ | hsame
  swap
  · rw [hsame, hnew] at hc
    cases hc
  obtain ⟨-, -, hexec⟩ := call_exec hstep
  have horderly := (reachable_sound hw).orderly
  obtain ⟨c₀, hc₀, -⟩ | ⟨p, hclaimable, hstart⟩ :=
    exec_arises horderly hexec hc
  · rw [hnew] at hc₀
    cases hc₀
  rcases hstart with hstart | ⟨keeper, bps, rfl, hopens⟩
  · exact ⟨p, hclaimable, hstart⟩
  · have hbegun : ∀ p, Opens w.now w.machine c.policyId p →
        p.startTime ≤ w.now := hguard
    exact ⟨p, hclaimable, hbegun p hopens⟩

/-- A step that fails the guard files a claim before the start of its
policy. -/
theorem step_early (hw : (system D).Reachable w)
    (hstep : (system D).Step w l w') (hguard : ¬ OpensStarted w l) :
    ∃ id c p, w.machine.store.claims.claim id = none ∧
      w'.machine.store.claims.claim id = some c ∧
      w.machine.store.engine.policies c.policyId = some p ∧
      w.now < p.startTime := by
  unfold OpensStarted at hguard
  split at hguard
  swap
  · exact (hguard trivial).elim
  next signers keeper policyId bps =>
  obtain ⟨p, hopens, hearly⟩ : ∃ p, Opens w.now w.machine policyId p ∧
      ¬ p.startTime ≤ w.now := by
    simpa only [not_forall, exists_prop] using hguard
  obtain ⟨-, -, hexec⟩ := call_exec hstep
  obtain ⟨r, hauto⟩ := perform_ok.mp hexec
  obtain ⟨-, -, -, hprocess⟩ := ClaimsProcessor.autoProcess_ok.mp hauto
  have horderly := (reachable_sound hw).orderly
  have hopens' : Opens w.now
      (ClaimsProcessor.noted w.machine policyId w.now) policyId p :=
    ⟨hopens.vacant, hopens.policy, hopens.active, hopens.covered⟩
  obtain ⟨id, t, horderly', hfresh, hmoved⟩ :=
    ClaimsProcessor.processPolicy_files
      (m := ClaimsProcessor.noted w.machine policyId w.now) horderly hopens'
      hprocess
  obtain ⟨c, hc, hsubject⟩ := moved_subject hmoved horderly' hfresh
  have hpolicy : c.policyId = policyId := hsubject.policyId
  refine ⟨id, c, p, ?_, hc, ?_, by omega⟩
  · cases hold : w.machine.store.claims.claim id with
    | none => rfl
    | some c₀ =>
        -- an older claim of that number would be of the same policy
        obtain ⟨c₁, hc₁, hsubject₁⟩ := step_subject hw hstep hold
        obtain rfl := Option.some.inj (hc₁.symm.trans hc)
        have hrecorded := horderly.recorded id c₀ hold
        rw [← hsubject₁.policyId, hpolicy] at hrecorded
        rw [show (docket w.machine).policyClaim policyId = none from
          hopens.vacant] at hrecorded
        cases hrecorded
  · rw [hpolicy]
    exact hopens.policy

/-- A step leaves the reference numbers alone, or is a submission that adds
its own. -/
theorem step_references (hstep : (system D).Step w l w') :
    w'.machine.store.claims.claimReference =
        w.machine.store.claims.claimReference ∨
      ∃ signers claimant policyId reference i c,
        l = .call signers (.claims
          (.submitClaimWithRef claimant policyId reference)) ∧
        Refers policyId reference i c w.machine w'.machine := by
  rcases step_claims hstep with ⟨signers, e, rfl⟩ | hsame
  · obtain ⟨-, -, hexec⟩ := call_exec hstep
    rcases ClaimsProcessor.exec_references hexec with hsame |
      ⟨claimant, policyId, reference, i, c, rfl, hrefers⟩
    · exact .inl hsame
    · exact .inr ⟨signers, claimant, policyId, reference, i, c, rfl, hrefers⟩
  · exact .inl (by rw [hsame])

/-- A reference number in use stays with its claim. -/
theorem step_reference {reference : Symbol}
    (hstep : (system D).Step w l w')
    (href : w.machine.store.claims.claimReference reference = some id) :
    w'.machine.store.claims.claimReference reference = some id := by
  rcases step_references hstep with hsame |
    ⟨signers, claimant, policyId, other, i, c, rfl, hrefers⟩
  · rw [hsame, href]
  · have hne : reference ≠ other := by
      rintro rfl
      rw [hrefers.unused] at href
      cases href
    rw [hrefers.written, Function.update_of_ne hne, href]

theorem step_referenced {reference : Symbol}
    (hstep : (system D).Step w l w')
    (href : (w.machine.store.claims.claimReference reference).isSome = true) :
    (w'.machine.store.claims.claimReference reference).isSome = true := by
  obtain ⟨id, href⟩ := Option.isSome_iff_exists.mp href
  simp [step_reference hstep href]

theorem step_carries {reference : Symbol}
    (hstep : (system D).Step w l w') (hl : Carries reference l = true) :
    ¬ (w.machine.store.claims.claimReference reference).isSome = true ∧
      (w'.machine.store.claims.claimReference reference).isSome = true := by
  unfold Carries at hl
  split at hl
  swap
  · cases hl
  next signers e =>
  have href : e.reference = some reference := of_decide_eq_true hl
  obtain ⟨-, -, hexec⟩ := call_exec hstep
  cases e with
  | submitClaimWithRef claimant policyId r =>
      obtain rfl := Option.some.inj href
      obtain ⟨i, hsubmit⟩ := perform_ok.mp hexec
      obtain ⟨c, hrefers⟩ :=
        ClaimsProcessor.submitClaimWithRef_refers hsubmit
      rw [hrefers.unused, hrefers.written, Function.update_self]
      simp
  | _ => cases href

end Steps

/-! ## Runs -/

/-- What a run from `s` to `w` over `ls` makes of claims and reference
numbers. -/
structure Filings (D : Sites) (s : World Network) (ls : List (Label Entry))
    (w : World Network) : Prop where
  /-- Every claim was filed by a step of the run, in the window of its
  policy. -/
  filed : ∀ id c, w.machine.store.claims.claim id = some c →
    ∃ before l after t u c₀ p, ls = before ++ l :: after ∧
      (system D).Run s before t ∧ (system D).Step t l u ∧
      (system D).Run u after w ∧
      t.machine.store.claims.claim id = none ∧
      u.machine.store.claims.claim id = some c₀ ∧ SameSubject c₀ c ∧
      InWindow t c₀ p
  /-- Claims stay, and no policy ever has another one. -/
  single : ∀ before after t, ls = before ++ after →
    (system D).Run s before t → (system D).Run t after w →
    ∀ i c, t.machine.store.claims.claim i = some c →
      (∃ c', w.machine.store.claims.claim i = some c' ∧ SameSubject c c') ∧
        ∀ j c', w.machine.store.claims.claim j = some c' →
          c'.policyId = c.policyId → j = i
  /-- A reference number keeps its claim. -/
  kept : ∀ before after t, ls = before ++ after →
    (system D).Run s before t → (system D).Run t after w →
    ∀ reference id,
      t.machine.store.claims.claimReference reference = some id →
      w.machine.store.claims.claimReference reference = some id
  /-- It was submitted together with that claim. -/
  named : ∀ reference id,
    w.machine.store.claims.claimReference reference = some id →
    ∃ before signers claimant policyId after t u c c',
      ls = before ++ .call signers (.claims
        (.submitClaimWithRef claimant policyId reference)) :: after ∧
      (system D).Run s before t ∧
      (system D).Step t (.call signers (.claims
        (.submitClaimWithRef claimant policyId reference))) u ∧
      (system D).Run u after w ∧
      Refers policyId reference id c t.machine u.machine ∧
      t.machine.store.claims.claim id = none ∧
      w.machine.store.claims.claim id = some c' ∧ SameSubject c c'
  /-- No other submission of the run carries it. -/
  once : ∀ reference, ls.countP (Carries reference) ≤ 1

section Runs

variable {D : Sites} {s t w : World Network} {ls : List (Label Entry)}

theorem run_subject (ht : (system D).Reachable t)
    (hrun : (system D).Run t ls w) {id : ℕ} {c : Claim}
    (hc : t.machine.store.claims.claim id = some c) :
    ∃ c', w.machine.store.claims.claim id = some c' ∧ SameSubject c c' := by
  have hpreserved := hrun.preserves
    (Q := fun w => (system D).Reachable w ∧
      ∃ c', w.machine.store.claims.claim id = some c' ∧ SameSubject c c')
    ?_ ⟨ht, c, hc, .refl c⟩
  · exact hpreserved.2
  rintro v l v' ⟨hv, c₁, hc₁, hsubject⟩ hstep
  obtain ⟨c', hc', hsubject'⟩ := step_subject hv hstep hc₁
  exact ⟨hv.step hstep, c', hc', hsubject.trans hsubject'⟩

theorem run_single (ht : (system D).Reachable t)
    (hrun : (system D).Run t ls w) {i j : ℕ} {c c' : Claim}
    (hc : t.machine.store.claims.claim i = some c)
    (hc' : w.machine.store.claims.claim j = some c')
    (hpolicy : c'.policyId = c.policyId) : j = i := by
  obtain ⟨c₁, hc₁, hsubject⟩ := run_subject ht hrun hc
  have horderly := (reachable_sound (ht.run hrun)).orderly
  have hi := horderly.recorded i c₁ hc₁
  have hj := horderly.recorded j c' hc'
  rw [hsubject.policyId, ← hpolicy, hj] at hi
  exact Option.some.inj hi

theorem run_reference {reference : Symbol} {id : ℕ}
    (hrun : (system D).Run t ls w)
    (href : t.machine.store.claims.claimReference reference = some id) :
    w.machine.store.claims.claimReference reference = some id :=
  hrun.preserves (fun _ _ _ h hstep => step_reference hstep h) href

theorem run_filed (hinit : (system D).Init s)
    (hrun : ((system D).restrict OpensStarted).Run s ls w) {id : ℕ}
    {c : Claim} (hc : w.machine.store.claims.claim id = some c) :
    ∃ before l after t u c₀ p, ls = before ++ l :: after ∧
      (system D).Run s before t ∧ (system D).Step t l u ∧
      (system D).Run u after w ∧
      t.machine.store.claims.claim id = none ∧
      u.machine.store.claims.claim id = some c₀ ∧ SameSubject c₀ c ∧
      InWindow t c₀ p := by
  have hs : ¬ (s.machine.store.claims.claim id).isSome = true := by
    rw [show s.machine.store = Network.deployed from hinit.1]
    simp [Network.deployed, ClaimsProcessor.State.deployed]
  obtain ⟨before, l, after, t, u, hls, hbefore, hstep, hnone, hsome, hafter⟩ :=
    hrun.onset
      (P := fun w => (w.machine.store.claims.claim id).isSome = true) hs
      (by simp [hc])
  have hnew : t.machine.store.claims.claim id = none := by
    simpa using hnone
  obtain ⟨c₀, hc₀⟩ := Option.isSome_iff_exists.mp hsome
  have ht : (system D).Reachable t :=
    TransitionSystem.Reachable.run (.init hinit) hbefore.of_restrict
  obtain ⟨p, hwindow⟩ := step_inWindow ht hstep hnew hc₀
  have hrest := hafter.of_restrict.of_restrict
  obtain ⟨c₁, hc₁, hsubject⟩ := run_subject (ht.step hstep.2) hrest hc₀
  obtain rfl := Option.some.inj (hc₁.symm.trans hc)
  exact ⟨before, l, after, t, u, c₀, p, hls, hbefore.of_restrict, hstep.2,
    hrest, hnew, hc₀, hsubject, hwindow⟩

theorem run_named (hinit : (system D).Init s) (hrun : (system D).Run s ls w)
    {reference : Symbol} {id : ℕ}
    (href : w.machine.store.claims.claimReference reference = some id) :
    ∃ before signers claimant policyId after t u c c',
      ls = before ++ .call signers (.claims
        (.submitClaimWithRef claimant policyId reference)) :: after ∧
      (system D).Run s before t ∧
      (system D).Step t (.call signers (.claims
        (.submitClaimWithRef claimant policyId reference))) u ∧
      (system D).Run u after w ∧
      Refers policyId reference id c t.machine u.machine ∧
      t.machine.store.claims.claim id = none ∧
      w.machine.store.claims.claim id = some c' ∧ SameSubject c c' := by
  have hs : ¬ s.machine.store.claims.claimReference reference = some id := by
    rw [show s.machine.store = Network.deployed from hinit.1]
    simp [Network.deployed, ClaimsProcessor.State.deployed]
  obtain ⟨before, l, after, t, u, rfl, hbefore, hstep, hnot, hnow, hafter⟩ :=
    hrun.onset
      (P := fun w => w.machine.store.claims.claimReference reference = some id)
      hs href
  have ht : (system D).Reachable t :=
    TransitionSystem.Reachable.run (.init hinit) hbefore
  rcases step_references hstep with hsame |
    ⟨signers, claimant, policyId, other, i, c, rfl, hrefers⟩
  · rw [hsame] at hnow
    exact (hnot hnow).elim
  rw [hrefers.written] at hnow
  obtain rfl : reference = other := by
    by_contra hne
    rw [Function.update_of_ne hne] at hnow
    exact hnot hnow
  rw [Function.update_self, Option.some.injEq] at hnow
  subst hnow
  have hnew : t.machine.store.claims.claim i = none := by
    cases hold : t.machine.store.claims.claim i with
    | none => rfl
    | some c₀ =>
        have hlt := (reachable_sound ht).orderly.fresh i c₀ hold
        rw [hrefers.fresh] at hlt
        exact (lt_irrefl _ hlt).elim
  obtain ⟨c', hc', hsubject⟩ :=
    run_subject (ht.step hstep) hafter.of_restrict hrefers.claim
  exact ⟨before, signers, claimant, policyId, after, t, u, c, c', rfl, hbefore,
    hstep, hafter.of_restrict, hrefers, hnew, hc', hsubject⟩

/-- As long as keepers open no claim before the start of its policy, every
policy has one claim at most, filed in its window, and every reference number
names one; a step of a keeper that does otherwise files a claim too early. -/
theorem one_claim_in_window (hinit : (system D).Init s) :
    (((system D).restrict OpensStarted).Run s ls w → Filings D s ls w) ∧
      ∀ l w', (system D).Run s ls w → (system D).Step w l w' →
        ¬ OpensStarted w l →
        ∃ id c p, w.machine.store.claims.claim id = none ∧
          w'.machine.store.claims.claim id = some c ∧
          w.machine.store.engine.policies c.policyId = some p ∧
          w.now < p.startTime := by
  refine ⟨fun hrun => ?_, fun l w' hrun hstep hguard =>
    step_early (.run (.init hinit) hrun) hstep hguard⟩
  have hreachable : ∀ {before t}, (system D).Run s before t →
      (system D).Reachable t := fun hbefore => .run (.init hinit) hbefore
  exact
    { filed := fun id c hc => run_filed hinit hrun hc
      single := fun before after t _ hbefore hafter i c hc =>
        ⟨run_subject (hreachable hbefore) hafter hc, fun j c' hc' hpolicy =>
          run_single (hreachable hbefore) hafter hc hc' hpolicy⟩
      kept := fun before after t _ _ hafter reference id href =>
        run_reference hafter href
      named := fun reference id href =>
        run_named hinit hrun.of_restrict href
      once := fun reference => hrun.of_restrict.countP_le_one
        (fun _ _ _ hstep hl => step_carries hstep hl)
        fun _ _ _ hstep hdone => step_referenced hstep hdone }

end Runs

namespace Scenario

/-- The trigger is met, and the holder files a claim under a number. -/
def numbered : List (Label Entry) :=
  [.call [feed] (.oracle
      (.submitData feed Symbols.weather rain 300 90 1000000)),
    .call [holder] (.claims (.submitClaimWithRef holder 1 rain))]

def referred : World Network :=
  (TransitionSystem.execute (step sites) (setUp ++ purchase ++ numbered)
    genesis).get (by decide +kernel)

end Scenario

open Scenario in
theorem one_claim_in_window_referred :
    Filings sites genesis (setUp ++ purchase ++ numbered) referred ∧
      (referred.machine.store.claims.claim 1).isSome = true ∧
      referred.machine.store.claims.claimReference rain = some 1 := by
  have hrun : (system sites).Run genesis (setUp ++ purchase ++ numbered)
      referred :=
    TransitionSystem.run_of_execute (fun _ _ _ => step_sound)
      (Option.some_get _).symm
  have hguarded : ((system sites).restrict OpensStarted).Run genesis
      (setUp ++ purchase ++ numbered) referred :=
    hrun.restrict (by simp [setUp, purchase, numbered, OpensStarted])
  exact ⟨(one_claim_in_window ⟨rfl, rfl⟩).1 hguarded, by decide +kernel,
    by decide +kernel⟩

open Scenario in
/-- A keeper files a claim a day before the cover of its policy begins. -/
theorem filed_before_start :
    (system sites).Reachable scheduled ∧
      (system sites).Step scheduled sweeping paidEarly ∧
      scheduled.machine.store.claims.claim 1 = none ∧
      ∃ c, paidEarly.machine.store.claims.claim 1 = some c ∧
        c.policyId = 1 ∧ ∀ p, ¬ InWindow scheduled c p := by
  have hrun : (system sites).Run genesis (setUp ++ scheduling) scheduled :=
    TransitionSystem.run_of_execute (fun _ _ _ => step_sound)
      (Option.some_get _).symm
  have hstep : (system sites).Step scheduled sweeping paidEarly :=
    step_sound (Option.some_get _).symm
  have hsome : (paidEarly.machine.store.claims.claim 1).isSome = true := by
    decide +kernel
  have hpolicy : ∀ c, paidEarly.machine.store.claims.claim 1 = some c →
      c.policyId = 1 := by
    decide +kernel
  have hstart : ∀ p, scheduled.machine.store.engine.policies 1 = some p →
      ¬ p.startTime ≤ scheduled.now := by
    decide +kernel
  obtain ⟨c, hc⟩ := Option.isSome_iff_exists.mp hsome
  refine ⟨.run (.init ⟨rfl, rfl⟩) hrun, hstep, by decide +kernel, c, hc,
    hpolicy c hc, fun p hwindow => ?_⟩
  have hp := hwindow.policy
  rw [hpolicy c hc] at hp
  exact hstart p hp hwindow.started

end Parashield.Protocol
