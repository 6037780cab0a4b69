import Parashield.Protocol.Invariants
import Parashield.RiskPool.Locking

/-!
# The life of a cover

Engine, processor and pool each keep a part of every cover: its policy, its
claim and the capital behind it.  `Cover` is what they keep together, and
`Cover.Move` what can happen to it.  The protocol does nothing else: each call
moves some covers, one at a time, and leaves the others alone.
-/

namespace Parashield.Protocol

open Support Support.Contract Invocation
open PolicyEngine (PolicyStatus)
open RiskPool (CapitalLock)
open ClaimsProcessor (Claim ClaimStatus Docket Network docket)

/-! ## Covers -/

/-- Where the capital behind a policy is. -/
inductive Capital where
  | free
  | held
  | released
  deriving DecidableEq, Repr

/-- A policy with the status of its claim, whether the claim awaits its payout,
and the capital behind it. -/
structure Cover where
  policy : Option PolicyStatus
  claim : Option ClaimStatus
  awaiting : Bool
  capital : Capital
  deriving DecidableEq, Repr

namespace Cover

/-- The cover of a policy that has not been sold. -/
def unsold : Cover where
  policy := none
  claim := none
  awaiting := false
  capital := .free

/-- The claim has been approved. -/
def Approved (s : ClaimStatus) : Prop :=
  s = .paid ∨ s = .partiallyPaid

/-- What can happen to a cover. -/
inductive Kind where
  | sell
  | cancel
  | payElsewhere
  | expireElsewhere
  | back
  | release
  | file
  | refuse
  | hold
  | settle
  | payout
  | lapse
  | dispute
  | resolve
  | reject
  | escalate
  deriving DecidableEq, Repr

/-- One thing happening to a cover. -/
inductive Move : Kind → Cover → Cover → Prop
  | sell {c : Cover} :
      c.policy = none →
      Move .sell c { c with policy := some .active }
  | cancel {c : Cover} :
      c.policy = some .active →
      Move .cancel c { c with policy := some .cancelled }
  | payElsewhere {c : Cover} :
      c.policy = some .active →
      Move .payElsewhere c { c with policy := some .claimed }
  | expireElsewhere {c : Cover} :
      c.policy = some .active →
      Move .expireElsewhere c { c with policy := some .expired }
  | back {c : Cover} :
      c.capital = .free →
      Move .back c { c with capital := .held }
  | release {c : Cover} :
      c.capital = .held →
      Move .release c { c with capital := .released }
  | file {c : Cover} :
      c.policy = some .active →
      c.claim = none →
      Move .file c { c with claim := some .pending }
  | refuse {c : Cover} :
      c.claim = some .pending →
      Move .refuse c { c with claim := some .rejected }
  | hold {c : Cover} {s : ClaimStatus} :
      c.claim = some .pending →
      Approved s →
      Move .hold c { c with claim := some s, awaiting := true }
  | settle {c : Cover} {s : ClaimStatus} :
      c.claim = some .pending →
      Approved s →
      c.policy = some .active →
      c.capital = .held →
      Move .settle c
        { c with
          policy := some .claimed
          claim := some s
          capital := .released }
  | payout {c : Cover} :
      c.awaiting = true →
      c.policy = some .active →
      c.capital = .held →
      Move .payout c
        { c with
          policy := some .claimed
          awaiting := false
          capital := .released }
  | lapse {c : Cover} :
      (c.claim = none ∨ c.claim = some .pending) →
      c.policy = some .active →
      c.capital = .held →
      Move .lapse c
        { c with policy := some .expired, capital := .released }
  | dispute {c : Cover} {s : ClaimStatus} :
      c.claim = some s →
      (s = .pending ∨ s = .rejected ∨ s = .partiallyPaid) →
      Move .dispute c { c with claim := some .disputed }
  | resolve {c : Cover} :
      c.claim = some .disputed →
      Move .resolve c { c with claim := some .pending }
  | reject {c : Cover} {s : ClaimStatus} :
      c.claim = some s →
      Move .reject c { c with claim := some .rejected }
  | escalate {c : Cover} :
      c.claim = some .pending →
      Move .escalate c { c with claim := some .escalated }

end Cover

/-- All covers by policy id; each step moves one of them. -/
def portfolio : TransitionSystem (ℕ → Cover) (ℕ × Cover.Kind) where
  Init s := ∀ id, s id = .unsold
  Step s l s' := ∃ c, Cover.Move l.2 (s l.1) c ∧
    s' = Function.update s l.1 c

/-! ## What holds of every cover -/

namespace Cover

/-- Nobody but the processor ends a cover. -/
def Kind.Inside : Kind → Prop
  | .payElsewhere | .expireElsewhere | .release => False
  | _ => True

/-- What policy, claim and capital of a cover say about each other. -/
structure Sound (c : Cover) : Prop where
  insured : c.claim ≠ none → c.policy ≠ none
  awaited : c.awaiting = true → c.claim ≠ none
  claimed : c.policy = some .claimed →
    c.claim ≠ none ∧ c.capital = .released
  expired : c.policy = some .expired → c.capital = .released
  approved : ∀ s, c.claim = some s → Approved s →
    c.awaiting = true ∨ c.policy = some .claimed
  released : c.capital = .released →
    c.policy = some .claimed ∨ c.policy = some .expired

theorem sound_unsold : Sound unsold :=
  ⟨by simp [unsold], by simp [unsold], by simp [unsold], by simp [unsold],
    by simp [unsold], by simp [unsold]⟩

/-- A claim may come to any standing short of an approval. -/
theorem Sound.restate {c : Cover} {s : ClaimStatus} (h : Sound c)
    (hfiled : c.claim ≠ none) (hs : ¬ Approved s) :
    Sound { c with claim := some s } where
  insured _ := h.insured hfiled
  awaited _ := by simp
  claimed hpolicy := ⟨by simp, (h.claimed hpolicy).2⟩
  expired := h.expired
  approved t ht happroved := by
    obtain rfl := Option.some.inj ht
    exact absurd happroved hs
  released := h.released

/-- A policy that is not active yet, or no longer, has no part in what the
capital and an approval say. -/
theorem Sound.reissue {c : Cover} {s : PolicyStatus} (h : Sound c)
    (hopen : c.policy = none ∨ c.policy = some .active)
    (hs : s = .active ∨ s = .cancelled) :
    Sound { c with policy := some s } where
  insured _ := by simp
  awaited := h.awaited
  claimed hpolicy := by
    obtain rfl := Option.some.inj hpolicy
    rcases hs with hs | hs <;> cases hs
  expired hpolicy := by
    obtain rfl := Option.some.inj hpolicy
    rcases hs with hs | hs <;> cases hs
  approved t ht happroved := by
    rcases h.approved t ht happroved with hawaiting | hpolicy
    · exact .inl hawaiting
    · rcases hopen with hopen | hopen <;> simp [hopen] at hpolicy
  released hreleased := by
    rcases h.released hreleased with hpolicy | hpolicy <;>
      rcases hopen with hopen | hopen <;> simp [hopen] at hpolicy

/-- What happens inside keeps the parts of a cover together. -/
theorem Sound.move {k : Kind} {c c' : Cover} (h : Sound c) (hk : k.Inside)
    (hmove : Move k c c') : Sound c' := by
  cases hmove with
  | sell hunsold => exact h.reissue (.inl hunsold) (.inl rfl)
  | cancel hactive => exact h.reissue (.inr hactive) (.inr rfl)
  | payElsewhere => exact hk.elim
  | expireElsewhere => exact hk.elim
  | back hfree =>
      have hopen : c.capital ≠ .released := by simp [hfree]
      refine ⟨h.insured, h.awaited, ?_, ?_, h.approved, by simp⟩
      · exact fun hpolicy => absurd (h.claimed hpolicy).2 hopen
      · exact fun hpolicy => absurd (h.expired hpolicy) hopen
  | release => exact hk.elim
  | file hactive hunfiled =>
      refine ⟨by simp [hactive], by simp, by simp [hactive], h.expired, ?_,
        h.released⟩
      rintro s hs (rfl | rfl) <;> simp at hs
  | refuse hpending =>
      exact h.restate (by simp [hpending]) (by simp [Approved])
  | hold hpending =>
      have hinsured := h.insured (by simp [hpending])
      exact ⟨fun _ => hinsured, by simp,
        fun hpolicy => ⟨by simp, (h.claimed hpolicy).2⟩, h.expired,
        fun _ _ _ => .inl rfl, h.released⟩
  | settle => exact ⟨by simp, by simp, by simp, by simp, by simp, by simp⟩
  | payout hawaiting =>
      have hfiled := h.awaited hawaiting
      exact ⟨by simp, by simp, fun _ => ⟨hfiled, rfl⟩, by simp, by simp,
        by simp⟩
  | lapse hopen =>
      refine ⟨by simp, h.awaited, by simp, by simp, ?_, by simp⟩
      rintro s hs (rfl | rfl) <;> rcases hopen with hopen | hopen <;>
        simp [hopen] at hs
  | dispute hs => exact h.restate (by simp [hs]) (by simp [Approved])
  | resolve hs => exact h.restate (by simp [hs]) (by simp [Approved])
  | reject hs => exact h.restate (by simp [hs]) (by simp [Approved])
  | escalate hs => exact h.restate (by simp [hs]) (by simp [Approved])

theorem sound_inductive :
    (portfolio.restrict fun _ l => l.2.Inside).Inductive fun s =>
      ∀ id, Sound (s id) where
  init s hs id := by
    rw [hs id]
    exact sound_unsold
  step s l s' h hstep := by
    obtain ⟨hinside, c, hmove, rfl⟩ := hstep
    intro id
    by_cases hid : id = l.1
    · subst hid
      rw [Function.update_self]
      exact (h l.1).move hinside hmove
    · rw [Function.update_of_ne hid]
      exact h id

end Cover

/-! ## The covers of the protocol -/

/-- The claim filed on a policy. -/
def claimOf (d : Docket) (policyId : ℕ) : Option Claim :=
  (d.policyClaim policyId).bind d.claim

def capitalOf : Option CapitalLock → Capital
  | none => .free
  | some l => if l.released then .released else .held

def cover (d : Docket) (policyId : ℕ) : Cover where
  policy := (d.engine.policies policyId).map (·.status)
  claim := (claimOf d policyId).map (·.status)
  awaiting := ((claimOf d policyId).bind (·.payoutReadyAt)).isSome
  capital := capitalOf (d.lock policyId)

section Projection

variable {d d' : Docket} {claimId : ℕ} {c c' : Claim}

theorem cover_congr (hpolicies : d'.engine.policies = d.engine.policies)
    (hfiled : d'.policyClaim = d.policyClaim) (hclaim : d'.claim = d.claim)
    (hlock : d'.lock = d.lock) : cover d' = cover d := by
  funext id
  simp only [cover, claimOf, hpolicies, hfiled, hclaim, hlock]

/-- The cover that a claim is about. -/
theorem cover_of_claim (h : d.Orderly) (hc : d.claim claimId = some c) :
    cover d c.policyId =
      { policy := (d.engine.policies c.policyId).map (·.status)
        claim := some c.status
        awaiting := c.payoutReadyAt.isSome
        capital := capitalOf (d.lock c.policyId) } := by
  simp [cover, claimOf, h.recorded claimId c hc, hc]

/-- Rewriting a claim moves the cover it is about. -/
theorem cover_rewrite (h : d.Orderly) (hc : d.claim claimId = some c)
    (hclaim : d'.claim = d.setClaim claimId c')
    (hfiled : d'.policyClaim = d.policyClaim)
    (hpolicies : ∀ id, id ≠ c.policyId →
      d'.engine.policies id = d.engine.policies id)
    (hlock : ∀ id, id ≠ c.policyId → d'.lock id = d.lock id) :
    cover d' = Function.update (cover d) c.policyId
      { policy := (d'.engine.policies c.policyId).map (·.status)
        claim := some c'.status
        awaiting := c'.payoutReadyAt.isSome
        capital := capitalOf (d'.lock c.policyId) } := by
  funext id
  by_cases hid : id = c.policyId
  · subst hid
    simp [cover, claimOf, hfiled, h.recorded claimId c hc, hclaim,
      Docket.setClaim]
  · have hother : claimOf d' id = claimOf d id := by
      simp only [claimOf, hfiled]
      cases hlinked : d.policyClaim id with
      | none => rfl
      | some i =>
          have hi : i ≠ claimId := by
            rintro rfl
            obtain ⟨x, hx, hpolicy⟩ := h.linked id i hlinked
            obtain rfl := Option.some.inj (hc.symm.trans hx)
            exact hid hpolicy.symm
          simp [hclaim, Docket.setClaim, Function.update_of_ne hi]
    rw [Function.update_of_ne hid]
    simp only [cover, hother, hpolicies id hid, hlock id hid]

/-- Writing a policy moves its cover. -/
theorem cover_policy {b : PolicyEngine.Book} {id : ℕ}
    {p : PolicyEngine.Policy} (hb : b.policies = d.engine.setPolicy id p) :
    cover { d with engine := b } = Function.update (cover d) id
      { cover d id with policy := some p.status } := by
  funext i
  by_cases hi : i = id
  · subst hi
    simp [cover, claimOf, hb, PolicyEngine.Book.setPolicy]
  · simp [cover, claimOf, hb, PolicyEngine.Book.setPolicy,
      Function.update_of_ne hi]

/-- Writing a lock moves the cover it backs. -/
theorem cover_lock {id : ℕ} {l : CapitalLock}
    (hpolicies : d'.engine.policies = d.engine.policies)
    (hfiled : d'.policyClaim = d.policyClaim) (hclaim : d'.claim = d.claim)
    (hlock : d'.lock = Function.update d.lock id (some l)) :
    cover d' = Function.update (cover d) id
      { cover d id with capital := capitalOf (some l) } := by
  funext i
  by_cases hi : i = id
  · subst hi
    simp [cover, claimOf, hpolicies, hfiled, hclaim, hlock]
  · simp [cover, claimOf, hpolicies, hfiled, hclaim, hlock,
      Function.update_of_ne hi]

end Projection

/-! ## Calls of the processor -/

/-- What a move of the docket does to a cover. -/
def kindOf : ClaimsProcessor.Kind → Option Cover.Kind
  | .file .. => some .file
  | .refuse .. => some .refuse
  | .hold .. => some .hold
  | .settle .. => some .settle
  | .payout _ => some .payout
  | .expire _ => some .lapse
  | .dispute _ => some .dispute
  | .resolve _ => some .resolve
  | .reject _ => some .reject
  | .escalate _ => some .escalate
  | .installment _ => some .release
  | .setUp | .annotate _ | .consult | .sort => none

section Processor

variable {now : ℕ} {engine : Address} {k : ClaimsProcessor.Kind}
  {d d' : Docket}

/-- A new claim moves the cover of its policy. -/
theorem cover_record {c : Claim} (h : d.Orderly)
    (hnone : d.policyClaim c.policyId = none) (hid : c.id = d.nextClaimId)
    (hready : c.payoutReadyAt = none) :
    cover (d.record c) = Function.update (cover d) c.policyId
      { cover d c.policyId with claim := some c.status } := by
  funext id
  by_cases hpolicy : id = c.policyId
  · subst hpolicy
    simp [cover, claimOf, Docket.record, Docket.setClaim, hnone, hready]
  · have hother : claimOf (d.record c) id = claimOf d id := by
      simp only [claimOf, Docket.record, Function.update_of_ne hpolicy]
      cases hlinked : d.policyClaim id with
      | none => rfl
      | some i =>
          obtain ⟨x, hx, -⟩ := h.linked id i hlinked
          have hlt := h.fresh i x hx
          have hi : i ≠ c.id := by omega
          simp [Docket.setClaim, Function.update_of_ne hi]
    rw [Function.update_of_ne hpolicy]
    simp only [cover, hother]
    rfl

theorem capitalOf_held {d : Docket} {id : ℕ} {l : CapitalLock}
    (h : d.Holds id l) : capitalOf (d.lock id) = .held := by
  simp [capitalOf, h.1, h.2]

theorem capitalOf_released {o : Option CapitalLock} :
    capitalOf o = .released ↔ ∃ l, o = some l ∧ l.released = true := by
  cases o with
  | none => simp [capitalOf]
  | some l => cases hl : l.released <;> simp [capitalOf, hl]

theorem approved_of_approve {c c' : Claim} {bps : ℕ}
    (h : c.approve bps = .ok c') : Cover.Approved c'.status := by
  unfold ClaimsProcessor.Claim.approve at h
  split at h
  · obtain rfl := Check.pure_ok.mp h
    exact .inl rfl
  · simp at h
    obtain ⟨-, -, rfl⟩ := h
    exact .inr rfl

/-- A policy is claimed or expired by the engine under its own id. -/
theorem policies_of_claim {env : Env} {b b' : PolicyEngine.Book} {id : ℕ}
    (h : PolicyEngine.Book.Change env (.claim id) b b') :
    ∃ p, b.policies id = some p ∧ p.status = .active ∧
      b'.policies = b.setPolicy id { p with status := .claimed } := by
  cases h with
  | claim hp hactive => exact ⟨_, hp, hactive, rfl⟩

theorem policies_of_expire {env : Env} {b b' : PolicyEngine.Book} {id : ℕ}
    (h : PolicyEngine.Book.Change env (.expire id) b b') :
    ∃ p, b.policies id = some p ∧ p.status = .active ∧
      b'.policies = b.setPolicy id { p with status := .expired } := by
  cases h with
  | expire hp hactive => exact ⟨_, hp, hactive, rfl⟩

/-- Rewriting a claim moves its cover as its terms say. -/
theorem step_of_rewrite {claimId : ℕ} {c c' : Claim} {k : Cover.Kind}
    (h : d.Orderly) (hc : d.claim claimId = some c)
    (hclaim : d'.claim = d.setClaim claimId c')
    (hfiled : d'.policyClaim = d.policyClaim)
    (hpolicies : ∀ id, id ≠ c.policyId →
      d'.engine.policies id = d.engine.policies id)
    (hlock : ∀ id, id ≠ c.policyId → d'.lock id = d.lock id)
    (hmove : Cover.Move k
      { policy := (d.engine.policies c.policyId).map (·.status)
        claim := some c.status
        awaiting := c.payoutReadyAt.isSome
        capital := capitalOf (d.lock c.policyId) }
      { policy := (d'.engine.policies c.policyId).map (·.status)
        claim := some c'.status
        awaiting := c'.payoutReadyAt.isSome
        capital := capitalOf (d'.lock c.policyId) }) :
    portfolio.Step (cover d) (c.policyId, k) (cover d') := by
  rw [← cover_of_claim h hc] at hmove
  exact ⟨_, hmove, cover_rewrite h hc hclaim hfiled hpolicies hlock⟩

/-- An expired policy had no claim, or none that was evaluated. -/
theorem claim_of_open {policyId : ℕ} (hopen : ¬ d.evaluated policyId) :
    (cover d policyId).claim = none ∨
      (cover d policyId).claim = some .pending := by
  cases hc : claimOf d policyId with
  | none => exact .inl (by simp [cover, hc])
  | some c =>
      obtain ⟨id, hlinked, hfound⟩ := Option.bind_eq_some_iff.mp hc
      refine .inr ?_
      by_contra hne
      refine hopen ⟨id, c, hlinked, hfound, fun hpending => hne ?_⟩
      simp [cover, hc, hpending]

/-- A move of the docket moves one cover, or none. -/
theorem move_cover (h : d.Orderly)
    (hmove : ClaimsProcessor.Move now engine k d d') :
    cover d' = cover d ∨ ∃ l, kindOf k = some l.2 ∧
      portfolio.Step (cover d) l (cover d') := by
  cases hmove with
  | setUp => exact .inl (cover_congr rfl rfl rfl rfl)
  | file _ hnone hp hactive =>
      refine .inr ⟨(_, .file), rfl, _, .file ?_ ?_,
        cover_record h hnone rfl rfl⟩
      · simp [cover, ClaimsProcessor.Claim.fresh, hp, hactive]
      · simp [cover, claimOf, ClaimsProcessor.Claim.fresh, hnone]
  | refuse hd =>
      exact .inr ⟨(_, .refuse), rfl, step_of_rewrite h hd.found rfl rfl
        (fun _ _ => rfl) (fun _ _ => rfl)
        (.refuse (congrArg some hd.pending))⟩
  | hold hd _ happrove =>
      have happroved := approved_of_approve happrove
      exact .inr ⟨(_, .hold), rfl, step_of_rewrite h hd.found rfl rfl
        (fun _ _ => rfl) (fun _ _ => rfl)
        (.hold (congrArg some hd.pending) happroved)⟩
  | settle hd _ happrove _ hchange hheld =>
      obtain ⟨q, hq, hactive, hb⟩ := policies_of_claim hchange
      have hready := (ClaimsProcessor.Claim.approve_terms happrove).2.2.2.2.1
      refine .inr ⟨(_, .settle), rfl, step_of_rewrite h hd.found rfl rfl
        (fun i hi => ?_) (fun i hi => ?_) ?_⟩
      · simp [hb, PolicyEngine.Book.setPolicy, Function.update_of_ne hi]
      · simp [Docket.release, Docket.close, Function.update_of_ne hi]
      · rw [capitalOf_held hheld, hready]
        simp only [Docket.release, Docket.close, Function.update_self, hb, hq,
          PolicyEngine.Book.setPolicy, Option.map_some, hactive, capitalOf,
          if_true]
        exact .settle (congrArg some hd.pending)
          (approved_of_approve happrove) rfl rfl
  | payout hc hready _ _ _ _ hchange hheld =>
      obtain ⟨q, hq, hactive, hb⟩ := policies_of_claim hchange
      refine .inr ⟨(_, .payout), rfl, step_of_rewrite h hc rfl rfl
        (fun i hi => ?_) (fun i hi => ?_) ?_⟩
      · simp [hb, PolicyEngine.Book.setPolicy, Function.update_of_ne hi]
      · simp [Docket.release, Function.update_of_ne hi]
      · rw [capitalOf_held hheld]
        simp only [Docket.release, Function.update_self, hb, hready, hq,
          PolicyEngine.Book.setPolicy, Option.map_some, hactive, capitalOf,
          if_true]
        exact .payout rfl rfl rfl
  | @expire _ id _ _ _ l hopen _ _ hchange hheld =>
      obtain ⟨q, hq, hactive, hb⟩ := policies_of_expire hchange
      have hfreed : cover (d.release id l) = _ :=
        cover_lock (d := d) rfl rfl rfl rfl
      refine .inr ⟨(_, .lapse), rfl, _, .lapse (claim_of_open hopen) ?_
        (capitalOf_held hheld), ?_⟩
      · simp [cover, hq, hactive]
      · rw [cover_policy (d := d.release id l) hb, hfreed,
          Function.update_self, Function.update_idem]
        simp [capitalOf]
  | dispute hc hstatus =>
      exact .inr ⟨(_, .dispute), rfl, step_of_rewrite h hc rfl rfl
        (fun _ _ => rfl) (fun _ _ => rfl) (.dispute rfl hstatus)⟩
  | resolve hc hstatus =>
      exact .inr ⟨(_, .resolve), rfl, step_of_rewrite h hc rfl rfl
        (fun _ _ => rfl) (fun _ _ => rfl) (.resolve (congrArg some hstatus))⟩
  | reject hc =>
      exact .inr ⟨(_, .reject), rfl, step_of_rewrite h hc rfl rfl
        (fun _ _ => rfl) (fun _ _ => rfl) (.reject rfl)⟩
  | escalate hc hstatus =>
      exact .inr ⟨(_, .escalate), rfl, step_of_rewrite h hc rfl rfl
        (fun _ _ => rfl) (fun _ _ => rfl) (.escalate (congrArg some hstatus))⟩
  | installment hc _ hterms hheld =>
      refine .inr ⟨(_, .release), rfl, step_of_rewrite h hc rfl rfl
        (fun _ _ => rfl) (fun i hi => ?_) ?_⟩
      · simp [Docket.release, Function.update_of_ne hi]
      · rw [capitalOf_held hheld, hterms.status, hterms.payoutReadyAt]
        simp only [Docket.release, Function.update_self, capitalOf, if_true]
        exact .release rfl
  | @annotate _ id c c' hc hterms =>
      have hwritten : cover { d with claim := d.setClaim id c' } = _ :=
        cover_rewrite h hc rfl rfl (fun _ _ => rfl) fun _ _ => rfl
      refine .inl ?_
      rw [hwritten, hterms.status, hterms.payoutReadyAt, ← cover_of_claim h hc,
        Function.update_eq_self]
  | consult => exact .inl (cover_congr rfl rfl rfl rfl)
  | sort => exact .inl (cover_congr rfl rfl rfl rfl)

end Processor

/-! ## Calls of the engine and the pool -/

/-- What a change of the policy book does, and to which cover. -/
def bookKind : PolicyEngine.Book.Kind → Option (ℕ × Cover.Kind)
  | .buy id => some (id, .sell)
  | .cancel id => some (id, .cancel)
  | .claim id => some (id, .payElsewhere)
  | .expire id => some (id, .expireElsewhere)
  | .wire | .transfer _ | .warn _ => none

section Others

variable {env : Env} {d d' : Docket} {b : PolicyEngine.Book} {id : ℕ}

/-- Writing a policy moves its cover as its status says. -/
theorem step_of_policy {p : PolicyEngine.Policy} {k : Cover.Kind}
    (hb : b.policies = d.engine.setPolicy id p)
    (hmove : Cover.Move k (cover d id)
      { cover d id with policy := some p.status }) :
    portfolio.Step (cover d) (id, k) (cover { d with engine := b }) :=
  ⟨_, hmove, cover_policy hb⟩

theorem policy_of_found {p : PolicyEngine.Policy}
    (hp : d.engine.policies id = some p) :
    (cover d id).policy = some p.status := by
  simp [cover, hp]

/-- A change of the policy book moves one cover, or none. -/
theorem change_cover {k : PolicyEngine.Book.Kind} (h : d.engine.Sound)
    (hchange : PolicyEngine.Book.Change env k d.engine b) :
    cover { d with engine := b } = cover d ∨ ∃ l, bookKind k = some l ∧
      portfolio.Step (cover d) l (cover { d with engine := b }) := by
  cases hchange with
  | wire => exact .inl (cover_congr rfl rfl rfl rfl)
  | @buy _ p _ _ _ hoffered =>
      have hnone := h.fresh p.id (Nat.le_of_eq hoffered.id_eq.symm)
      refine .inr ⟨(p.id, .sell), rfl, step_of_policy rfl ?_⟩
      rw [hoffered.active]
      exact .sell (by simp [cover, hnone])
  | cancel hp hactive =>
      have hstatus := policy_of_found hp
      rw [hactive] at hstatus
      exact .inr ⟨(_, .cancel), rfl, step_of_policy rfl (.cancel hstatus)⟩
  | @transfer _ _ p _ hp =>
      have hstatus := policy_of_found hp
      refine .inl ((cover_policy rfl).trans ?_)
      simp only [← hstatus, Function.update_eq_self]
  | claim hp hactive =>
      have hstatus := policy_of_found hp
      rw [hactive] at hstatus
      exact .inr ⟨(_, .payElsewhere), rfl,
        step_of_policy rfl (.payElsewhere hstatus)⟩
  | expire hp hactive =>
      have hstatus := policy_of_found hp
      rw [hactive] at hstatus
      exact .inr ⟨(_, .expireElsewhere), rfl,
        step_of_policy rfl (.expireElsewhere hstatus)⟩
  | warn => exact .inl (cover_congr rfl rfl rfl rfl)

/-- What a call of the pool writes in the locks. -/
inductive WritesLock (e : RiskPool.Entry)
    (lock lock' : ℕ → Option CapitalLock) : Prop
  | none : lock' = lock → WritesLock e lock lock'
  | held {id : ℕ} {l : CapitalLock} :
      e.locks id = true →
      lock id = none →
      l.released = false →
      lock' = Function.update lock id (some l) →
      WritesLock e lock lock'
  | released {id : ℕ} {l l' : CapitalLock} :
      e.releases id = true →
      lock id = some l →
      l.released = false →
      l'.released = true →
      lock' = Function.update lock id (some l') →
      WritesLock e lock lock'

theorem writesLock_of_lock {e : RiskPool.Entry} {amount : ℤ}
    {m m' : Machine RiskPool.State} (he : e.locks id = true)
    (h : RiskPool.Book.Change env (.lock id amount) (RiskPool.book m)
      (RiskPool.book m')) : WritesLock e m.store.lock m'.store.lock := by
  generalize hb : RiskPool.book m' = b at h
  cases h with
  | lock hfree => exact .held he hfree rfl (congrArg RiskPool.Book.lock hb)

theorem writesLock_of_release {e : RiskPool.Entry}
    {m m' : Machine RiskPool.State} (he : e.releases id = true)
    (h : RiskPool.Book.Change env (.release id) (RiskPool.book m)
      (RiskPool.book m')) : WritesLock e m.store.lock m'.store.lock := by
  generalize hb : RiskPool.book m' = b at h
  cases h with
  | release hfound hheld =>
      exact .released he hfound hheld rfl (congrArg RiskPool.Book.lock hb)

theorem exec_writesLock {e : RiskPool.Entry} {m m' : Machine RiskPool.State}
    {u : Unit} (h : RiskPool.exec env e m = .ok (u, m')) :
    WritesLock e m.store.lock m'.store.lock := by
  have hother : e.commits = false → WritesLock e m.store.lock m'.store.lock :=
    fun he => .none ((RiskPool.exec_performs h).sameLocks he).1
  cases e with
  | initializePool =>
      have hchange := RiskPool.initializePool_change h
      generalize hb : RiskPool.book m' = b at hchange
      cases hchange with
      | wire => exact .none (congrArg RiskPool.Book.lock hb)
  | lockForPolicy =>
      exact writesLock_of_lock (decide_eq_true rfl)
        (RiskPool.lockForPolicy_change h)
  | releaseForClaim =>
      exact writesLock_of_release (decide_eq_true rfl)
        (RiskPool.releaseForClaim_change h)
  | releaseForExpiry =>
      exact writesLock_of_release (decide_eq_true rfl)
        (RiskPool.releaseForExpiry_change h)
  | _ => exact hother rfl

end Others

/-! ## The protocol -/

/-- The call that moves a cover so. -/
def MadeBy (l : ℕ × Cover.Kind) : Entry → Prop
  | .engine e => ∃ k, e.performs k ∧ bookKind k = some l
  | .pool e =>
      e.locks l.1 = true ∧ l.2 = .back ∨ e.releases l.1 = true ∧ l.2 = .release
  | .claims e => ∃ d₀ d k, e.admits d₀ d k ∧ kindOf k = some l.2
  | .oracle _ => False

/-- What a step of the protocol can do to covers. -/
def Causes : Label Entry → ℕ × Cover.Kind → Prop
  | .call _ e, l => MadeBy l e
  | _, _ => False

/-- From `d` to `d'` covers moved as the call `e` may move them. -/
def Moved (e : Entry) (d d' : Docket) : Prop :=
  ∃ ls, portfolio.Run (cover d) ls (cover d') ∧ ∀ l ∈ ls, MadeBy l e

theorem Moved.of_eq {e : Entry} {d d' : Docket} (h : cover d' = cover d) :
    Moved e d d' :=
  ⟨[], by rw [h]; exact .nil _, by simp⟩

theorem Moved.concat {e : Entry} {d d' d'' : Docket} {l : ℕ × Cover.Kind}
    (h : Moved e d d') (hl : MadeBy l e)
    (hstep : portfolio.Step (cover d') l (cover d'')) : Moved e d d'' := by
  obtain ⟨ls, hrun, hmade⟩ := h
  refine ⟨ls ++ [l], hrun.concat hstep, ?_⟩
  simp only [List.forall_mem_append, List.forall_mem_singleton]
  exact ⟨hmade, hl⟩

theorem Moved.still {e : Entry} {d d' d'' : Docket} (h : Moved e d d')
    (hsame : cover d'' = cover d') : Moved e d d'' := by
  obtain ⟨ls, hrun, hmade⟩ := h
  exact ⟨ls, by rw [hsame]; exact hrun, hmade⟩

section Runs

variable {D : Sites} {w w' : World Network} {signers : List Address}

theorem step_claims_moved {e : ClaimsProcessor.Entry}
    (hw : (system D).Reachable w)
    (hstep : (system D).Step w (.call signers (.claims e)) w') :
    Moved (.claims e) (docket w.machine) (docket w'.machine) := by
  obtain ⟨-, -, hexec⟩ := call_exec hstep
  have horderly := (reachable_sound hw).orderly
  obtain ⟨ks, hrun⟩ := ClaimsProcessor.exec_moved horderly hexec
  have hmoved := hrun.preserves
    (Q := fun d => d.Orderly ∧ Moved (.claims e) (docket w.machine) d)
    ?_ ⟨horderly, .of_eq rfl⟩
  · exact hmoved.2
  rintro d k d' ⟨hd, hmoved⟩ ⟨hadmits, hmove⟩
  refine ⟨hmove.orderly hd, ?_⟩
  rcases move_cover hd hmove with hsame | ⟨l, hk, hl⟩
  · exact hmoved.still hsame
  · exact hmoved.concat ⟨_, d, k, hadmits, hk⟩ hl

theorem step_engine_moved {e : PolicyEngine.Entry}
    (hw : (system D).Reachable w)
    (hstep : (system D).Step w (.call signers (.engine e)) w') :
    Moved (.engine e) (docket w.machine) (docket w'.machine) := by
  obtain ⟨-, -, hexec⟩ := call_exec hstep
  obtain ⟨s, B, hengine, hm⟩ := exec_engine_ok.mp hexec
  have hsound := reachable_sound hw
  have hwired : PolicyEngine.Wired w.machine.store.engine :=
    ⟨hsound.wired.token_iff, hsound.wired.admin, hsound.wired.pendingAdmin⟩
  obtain ⟨heffect, -⟩ := PolicyEngine.exec_performs hwired hengine
  have hmoved := heffect.preserves
    (Q := fun b => b.Sound ∧ Moved (.engine e) (docket w.machine)
      { docket w.machine with engine := b })
    ?_ ⟨hsound.book, .of_eq rfl⟩
  · exact hmoved.2.still (by rw [hm]; rfl)
  rintro k b b' hk - hchange ⟨hb, hmoved⟩
  refine ⟨hb.change hchange, ?_⟩
  rcases change_cover (d := { docket w.machine with engine := b }) hb hchange
    with hsame | ⟨l, hl, hmoves⟩
  · exact hmoved.still hsame
  · exact hmoved.concat ⟨k, hk, hl⟩ hmoves

theorem step_pool_moved {e : RiskPool.Entry}
    (hstep : (system D).Step w (.call signers (.pool e)) w') :
    Moved (.pool e) (docket w.machine) (docket w'.machine) := by
  obtain ⟨-, -, hexec⟩ := call_exec hstep
  obtain ⟨s, B, hpool, hm⟩ := exec_pool_ok.mp hexec
  have hpolicies : (docket w'.machine).engine.policies =
      (docket w.machine).engine.policies := by rw [hm]; rfl
  have hfiled : (docket w'.machine).policyClaim =
      (docket w.machine).policyClaim := by rw [hm]; rfl
  have hclaim : (docket w'.machine).claim = (docket w.machine).claim := by
    rw [hm]; rfl
  have hpool' : (docket w'.machine).lock = s.lock := by rw [hm]; rfl
  cases exec_writesLock hpool with
  | none hlock =>
      exact .of_eq (cover_congr hpolicies hfiled hclaim (hpool'.trans hlock))
  | @held id l he hfree hheld hlock =>
      have hcover := cover_lock hpolicies hfiled hclaim (hpool'.trans hlock)
      rw [show capitalOf (some l) = .held by simp [capitalOf, hheld]] at hcover
      have hfree' : (cover (docket w.machine) id).capital = .free :=
        congrArg capitalOf hfree
      exact (Moved.of_eq rfl).concat (l := (id, .back)) (.inl ⟨he, rfl⟩)
        ⟨_, .back hfree', hcover⟩
  | @released id l l' he hfound hheld hreleased hlock =>
      have hcover := cover_lock hpolicies hfiled hclaim (hpool'.trans hlock)
      rw [show capitalOf (some l') = .released by
        simp [capitalOf, hreleased]] at hcover
      have hheld' : (cover (docket w.machine) id).capital = .held :=
        capitalOf_held ⟨hfound, hheld⟩
      exact (Moved.of_eq rfl).concat (l := (id, .release)) (.inr ⟨he, rfl⟩)
        ⟨_, .release hheld', hcover⟩

/-- The protocol refines the machine of covers: a call moves covers one after
the other, as the machine allows and as only this call may. -/
theorem covers_refine (D : Sites) :
    (system D).RefinesRuns portfolio (fun w => cover (docket w.machine))
      Causes where
  init := by
    rintro ⟨now, ⟨store, B⟩⟩ ⟨hstore, -⟩ id
    obtain rfl : store = Network.deployed := hstore
    rfl
  step w l w' hw hstep := by
    have hidle : cover (docket w'.machine) = cover (docket w.machine) →
        ∃ ls, portfolio.Run (cover (docket w.machine)) ls
          (cover (docket w'.machine)) ∧ ∀ k ∈ ls, Causes l k := by
      intro hsame
      rw [hsame]
      exact ⟨[], .nil _, by simp⟩
    cases l with
    | call signers e =>
        cases e with
        | claims e => exact step_claims_moved hw hstep
        | engine e => exact step_engine_moved hw hstep
        | pool e => exact step_pool_moved hstep
        | oracle e =>
            obtain ⟨-, -, hexec⟩ := call_exec hstep
            obtain ⟨s, B, -, hm⟩ := exec_oracle_ok.mp hexec
            exact hidle (by rw [hm]; rfl)
    | tick =>
        cases hstep.2
        exact hidle rfl
    | transfer =>
        cases hstep.2
        exact hidle rfl
    | mint =>
        cases hstep.2
        exact hidle rfl

/-! ## Covers that only the processor ends -/

/-- Nobody pays out or expires a policy but the processor, and nobody releases
capital but when it does so. -/
def LeavesEnding (_ : World Network) : Label Entry → Prop
  | .call _ (.engine e) =>
      ∀ id, ¬ e.performs (.claim id) ∧ ¬ e.performs (.expire id)
  | .call _ (.pool e) => ∀ id, e.releases id = false
  | .call _ (.claims e) => ∀ claimant id, e ≠ .claimInstallment claimant id
  | _ => True

theorem inside_of_causes {l : Label Entry} {k : ℕ × Cover.Kind}
    (hl : LeavesEnding w l) (h : Causes l k) : k.2.Inside := by
  obtain ⟨id, k⟩ := k
  cases l with
  | call signers e =>
      cases e with
      | claims e =>
          obtain ⟨d₀, d, k', hadmits, hk⟩ := h
          cases k' with
          | installment claimId =>
              obtain ⟨-, claimant, he⟩ := hadmits
              exact absurd he (hl claimant claimId)
          | _ => cases hk <;> trivial
      | engine e =>
          obtain ⟨k', hperforms, hk⟩ := h
          cases k' with
          | claim i => exact absurd hperforms (hl i).1
          | expire i => exact absurd hperforms (hl i).2
          | _ => cases hk <;> trivial
      | pool e =>
          rcases h with ⟨-, rfl⟩ | ⟨he, -⟩
          · trivial
          · rw [hl id] at he
            cases he
      | oracle e => exact h.elim
  | _ => exact h.elim

theorem cover_sound (hw : ((system D).restrict LeavesEnding).Reachable w)
    (id : ℕ) : (cover (docket w.machine) id).Sound :=
  ((covers_refine D).restrict LeavesEnding).invariant
    (fun _ _ _ hstep _ hk => inside_of_causes hstep.1 hk)
    Cover.sound_inductive hw id

/-- While only the processor ends covers, the capital behind a policy is
released exactly when the policy is claimed or expired, a policy is claimed
only on a claim of its own, and whoever's claim is approved still awaits the
payout or has been paid out. -/
theorem covers_agree
    (hw : ((system D).restrict LeavesEnding).Reachable w) {id : ℕ}
    {p : PolicyEngine.Policy}
    (hp : w.machine.store.engine.policies id = some p) :
    ((∃ l, w.machine.store.pool.lock id = some l ∧ l.released = true) ↔
        p.status = .claimed ∨ p.status = .expired) ∧
      (p.status = .claimed →
        ∃ claimId c, w.machine.store.claims.policyClaim id = some claimId ∧
          w.machine.store.claims.claim claimId = some c) ∧
      ∀ claimId c, w.machine.store.claims.claim claimId = some c →
        c.policyId = id → c.status = .paid ∨ c.status = .partiallyPaid →
          c.payoutReadyAt ≠ none ∨ p.status = .claimed := by
  have hsound := cover_sound hw id
  have hpolicy := policy_of_found (d := docket w.machine) hp
  have hreleased : (cover (docket w.machine) id).capital = .released ↔
      ∃ l, w.machine.store.pool.lock id = some l ∧ l.released = true :=
    capitalOf_released
  rw [← hreleased]
  refine ⟨⟨fun h => ?_, fun h => ?_⟩, fun hclaimed => ?_, ?_⟩
  · rcases hsound.released h with h | h
    · exact .inl (Option.some.inj (hpolicy.symm.trans h))
    · exact .inr (Option.some.inj (hpolicy.symm.trans h))
  · rcases h with h | h
    · exact (hsound.claimed (by rw [hpolicy, h])).2
    · exact hsound.expired (by rw [hpolicy, h])
  · have hfiled := (hsound.claimed (by rw [hpolicy, hclaimed])).1
    obtain ⟨status, hstatus⟩ := Option.ne_none_iff_exists'.mp hfiled
    obtain ⟨c, hc, -⟩ := Option.map_eq_some_iff.mp hstatus
    obtain ⟨claimId, hlinked, hfound⟩ := Option.bind_eq_some_iff.mp hc
    exact ⟨claimId, c, hlinked, hfound⟩
  · rintro claimId c hc rfl happroved
    have horderly := (reachable_sound hw.of_restrict).orderly
    rw [cover_of_claim horderly hc] at hsound
    rcases hsound.approved c.status rfl happroved with hawaiting | hclaimed
    · exact .inl (Option.isSome_iff_ne_none.mp hawaiting)
    · refine .inr (Option.some.inj (Eq.trans ?_ hclaimed))
      exact (congrArg (Option.map (·.status)) hp).symm

end Runs

namespace Scenario

/-- The claim is settled on the spot. -/
def settlement : List (Label Entry) :=
  [.call [keeper] (.claims (.processClaim keeper 1 none))]

def indemnified : World Network :=
  (TransitionSystem.execute (step sites) settlement filed).get
    (by decide +kernel)

def indemnifiedPolicy : PolicyEngine.Policy :=
  (indemnified.machine.store.engine.policies 1).get (by decide +kernel)

theorem indemnified_reachable :
    ((system sites).restrict LeavesEnding).Reachable indemnified := by
  have hrun : (system sites).Run filed settlement indemnified :=
    TransitionSystem.run_of_execute (fun _ _ _ => step_sound)
      (Option.some_get _).symm
  have hfiled : ((system sites).restrict LeavesEnding).Reachable filed :=
    filed_reachable
      (by simp [setUp, purchase, LeavesEnding, PolicyEngine.Entry.performs,
        RiskPool.Entry.releases])
      (by simp [loss, LeavesEnding])
  exact hfiled.run (hrun.restrict (by simp [settlement, LeavesEnding]))

end Scenario

open Scenario in
/-- Once the claim is settled, its policy is claimed and its capital free. -/
theorem covers_agree_settled :
    indemnifiedPolicy.status = .claimed ∧
      ∃ l, indemnified.machine.store.pool.lock 1 = some l ∧
        l.released = true := by
  have hclaimed : indemnifiedPolicy.status = .claimed := by decide +kernel
  have hsold : indemnified.machine.store.engine.policies 1 =
      some indemnifiedPolicy := (Option.some_get _).symm
  exact ⟨hclaimed,
    (covers_agree indemnified_reachable hsold).1.mpr (.inl hclaimed)⟩

end Parashield.Protocol
