import Parashield.RiskPool.Office

/-!
# Risk pool: recoveries from the reinsurer

A recovery is limited by the loss above the attachment point and by what is
left of the coverage limit, which is one limit for all policies.  The pool
does not record what was recovered for which policy: a loss that is reported
again is a loss of its own.
-/

namespace Parashield.RiskPool

open Support Support.Contract Invocation

structure ReinsuranceStats where
  totalPremiumPaid : ℤ
  totalRecovered : ℤ
  coverageRemaining : ℤ
  deriving DecidableEq, Repr

namespace State

def getReinsuranceStats (s : State) : ReinsuranceStats :=
  let coverageLimit :=
    match s.reinsurance with
    | some config => config.coverageLimit
    | none => 0
  { totalPremiumPaid := s.reinsurancePremiumPaid
    totalRecovered := s.reinsuranceRecovered
    coverageRemaining :=
      max 0 (satI128 (coverageLimit - s.reinsuranceRecovered)) }

end State

/-! ## One request -/

section Calls

variable {env : Env} {m m' : Machine State} {caller : Address}
  {loss r : ℤ} {answer : Option ReinsurerAnswer}

/-- What is asked of the reinsurer. -/
structure Asks (s : State) (loss : ℤ) (config : ReinsuranceConfig)
    (requested : ℤ) : Prop where
  configured : s.reinsurance = some config
  attached : config.attachmentPoint < loss
  excess : requested ≤ loss - config.attachmentPoint
  covered : requested ≤
    satI128 (config.coverageLimit - s.reinsuranceRecovered)
  pos : 0 < requested

theorem recoveryRequest_asks {s : State} {config : ReinsuranceConfig}
    {requested : ℤ} (h : s.recoveryRequest loss = some (config, requested)) :
    Asks s loss config requested := by
  unfold State.recoveryRequest at h
  split_ifs at h with hloss
  cases hconfig : s.reinsurance with
  | none => simp [hconfig] at h
  | some c =>
      simp only [hconfig] at h
      split_ifs at h with hbelow hspent
      rw [not_or, not_le] at hbelow
      obtain ⟨rfl, rfl⟩ := Prod.mk.inj (Option.some.inj h)
      exact
        { configured := hconfig
          attached := hbelow.2
          excess := min_le_left _ _
          covered := by omega
          pos := by omega }

/-- A request recovers nothing, or something of what it asks for. -/
theorem requestReinsuranceRecovery_limits
    (h : requestReinsuranceRecovery env caller loss answer m = .ok (r, m')) :
    r = 0 ∧ m'.store.limits = m.store.limits ∨
      ∃ config requested, Asks m.store loss config requested ∧ 0 < r ∧
        r ≤ requested ∧
        m'.store.limits =
          { m.store.limits with
            reinsuranceRecovered :=
              satI128 (m.store.reinsuranceRecovered + r) } := by
  unfold requestReinsuranceRecovery at h
  simp only [bind_ok, load_ok, requireProtocolCaller_ok] at h
  obtain ⟨_, t, ⟨-, -, ht⟩, s, t', ⟨hs, ht'⟩, h⟩ := h
  rw [hs, ht', ht] at h
  cases hrequest : m.store.recoveryRequest loss with
  | none =>
      rw [hrequest] at h
      obtain ⟨rfl, rfl⟩ := pure_ok.mp h
      exact .inl ⟨rfl, rfl⟩
  | some request =>
      obtain ⟨config, requested⟩ := request
      have hasks := recoveryRequest_asks hrequest
      simp only [hrequest, bind_ok, unwrap_ok, pure_ok] at h
      obtain ⟨usdc, t₀, ⟨-, ht₀⟩, report, t₁, hrecover, _, t₂, hcredit, rfl,
        rfl⟩ := h
      rw [ht₀] at hrecover
      obtain ⟨-, a, B, -, -, -, rfl⟩ := recover_ok hrecover
      simp only [whenever_ok, bind_ok, i128_ok, update_ok] at hcredit
      rcases hcredit with ⟨hpos, d, _, ⟨-, rfl, rfl⟩, rfl⟩ | ⟨hzero, rfl⟩
      · exact .inr ⟨config, requested, hasks, hpos, by have := hasks.pos; omega,
          rfl⟩
      · exact .inl ⟨by omega, rfl⟩

end Calls

/-! ## All requests of a run -/

/-- What a request reported and what it recovered. -/
structure Recovery where
  policyId : ℕ
  loss : ℤ
  recovered : ℤ
  deriving DecidableEq, Repr

/-- The recovery of an accepted request. -/
def recoveries (self : Address) (w : World State) :
    Label Entry → List Recovery
  | .call signers (.requestReinsuranceRecovery caller policyId loss answer) =>
      match requestReinsuranceRecovery (callEnv self w signers) caller loss
        answer w.machine with
      | .ok (recovered, _) => [⟨policyId, loss, recovered⟩]
      | .error _ => []
  | _ => []

/-- The sum of what was recovered. -/
def totalRecovered (rs : List Recovery) : ℤ :=
  (rs.map Recovery.recovered).sum

/-- The loss above an attachment point. -/
def Recovery.excess (attachment : ℤ) (r : Recovery) : ℤ :=
  max 0 (r.loss - attachment)

/-- The recoveries for one policy. -/
def forPolicy (id : ℕ) (rs : List Recovery) : List Recovery :=
  rs.filter fun r => decide (r.policyId = id)

/-- If reinsurance is agreed here, then with this attachment point and coverage
limit. -/
def agreesOn (attachment limit : ℤ) : Label Entry → Bool
  | .call _ (.setReinsurance _ _ attachmentPoint coverageLimit _) =>
      decide (attachmentPoint = attachment ∧ coverageLimit = limit)
  | _ => true

/-- All agreements of a run have this attachment point and coverage limit. -/
def AgreedAt (attachment limit : ℤ) (_ : World State) (l : Label Entry) :
    Prop :=
  agreesOn attachment limit l = true

instance (attachment limit : ℤ) (w : World State) (l : Label Entry) :
    Decidable (AgreedAt attachment limit w l) :=
  inferInstanceAs (Decidable (_ = true))

/-- What a run has recovered under one agreement. -/
structure Insured (attachment limit : ℤ) (w : World State)
    (rs : List Recovery) : Prop where
  counted : w.machine.store.reinsuranceRecovered = totalRecovered rs
  each : ∀ r ∈ rs, 0 ≤ r.recovered ∧ r.recovered ≤ r.excess attachment
  agreed : ∀ config, w.machine.store.reinsurance = some config →
    config.attachmentPoint = attachment ∧ config.coverageLimit = limit ∧
      0 ≤ limit
  within : totalRecovered rs ≤ max 0 limit

section Runs

variable {self : Address} {attachment limit : ℤ} {w w' : World State}
  {rs : List Recovery}

theorem totalRecovered_append (rs rs' : List Recovery) :
    totalRecovered (rs ++ rs') = totalRecovered rs + totalRecovered rs' := by
  simp [totalRecovered]

theorem Insured.nonneg (h : Insured attachment limit w rs) :
    0 ≤ totalRecovered rs := by
  refine List.sum_nonneg fun x hx => ?_
  obtain ⟨r, hr, rfl⟩ := List.mem_map.mp hx
  exact (h.each r hr).1

/-- A step that leaves the limits as they are and recovers nothing. -/
theorem Insured.of_same (h : Insured attachment limit w rs)
    (hsame : w'.machine.store.limits = w.machine.store.limits) :
    Insured attachment limit w' rs where
  counted := (congrArg Limits.reinsuranceRecovered hsame).trans h.counted
  each := h.each
  agreed config hconfig := h.agreed config
    ((congrArg Limits.reinsurance hsame).symm.trans hconfig)
  within := h.within

/-- A request recovers what is left of the limit at most. -/
theorem Insured.recover (hlimit : InI128 limit)
    (h : Insured attachment limit w rs) {signers : List Address}
    {caller : Address} {policyId : ℕ} {loss r : ℤ}
    {answer : Option ReinsurerAnswer} {m' : Machine State} {now : ℕ}
    (hrun : requestReinsuranceRecovery (callEnv self w signers) caller loss
      answer w.machine = .ok (r, m')) :
    Insured attachment limit ⟨now, m'⟩ (rs ++ [⟨policyId, loss, r⟩]) := by
  have htotal : totalRecovered (rs ++ [⟨policyId, loss, r⟩]) =
      totalRecovered rs + r := by
    rw [totalRecovered_append]
    simp [totalRecovered]
  have hnonneg := h.nonneg
  rcases requestReinsuranceRecovery_limits hrun with ⟨rfl, hsame⟩ |
    ⟨config, requested, hasks, hpos, hle, hsame⟩
  · have hkept : Insured attachment limit ⟨now, m'⟩ rs := h.of_same hsame
    refine ⟨?_, ?_, hkept.agreed, ?_⟩
    · rw [htotal, add_zero]
      exact hkept.counted
    · intro q hq
      rcases List.mem_append.mp hq with hq | hq
      · exact h.each q hq
      · rw [List.mem_singleton] at hq
        rw [hq]
        exact ⟨le_rfl, le_max_left _ _⟩
    · rw [htotal, add_zero]
      exact h.within
  · obtain ⟨hattachment, hcoverage, hagreed⟩ :=
      h.agreed config hasks.configured
    have hcovered := hasks.covered
    have hexcess := hasks.excess
    rw [hcoverage, h.counted] at hcovered
    rw [hattachment] at hexcess
    obtain ⟨-, hrange⟩ := hlimit
    have hleft : totalRecovered rs + r ≤ limit := by
      unfold satI128 minI128 maxI128 at hcovered
      omega
    refine ⟨?_, ?_, ?_, ?_⟩
    · show m'.store.limits.reinsuranceRecovered = _
      rw [hsame, htotal, h.counted]
      unfold satI128 minI128 maxI128
      simp only
      omega
    · intro q hq
      rcases List.mem_append.mp hq with hq | hq
      · exact h.each q hq
      · rw [List.mem_singleton] at hq
        rw [hq]
        unfold Recovery.excess
        simp only
        omega
    · intro c hc
      have hc : m'.store.limits.reinsurance = some c := hc
      rw [hsame] at hc
      exact h.agreed c hc
    · rw [htotal]
      exact hleft.trans (le_max_right _ _)

theorem Insured.step (hlimit : InI128 limit)
    (h : Insured attachment limit w rs) {l : Label Entry}
    (hagreed : AgreedAt attachment limit w l)
    (hstep : (system self).Step w l w') :
    Insured attachment limit w' (rs ++ recoveries self w l) := by
  have quiet : Insured attachment limit w' rs → recoveries self w l = [] →
      Insured attachment limit w' (rs ++ recoveries self w l) := by
    intro hkept hnone
    rw [hnone, List.append_nil]
    exact hkept
  cases hstep with
  | tick => exact quiet (h.of_same rfl) rfl
  | transfer => exact quiet (h.of_same rfl) rfl
  | mint => exact quiet (h.of_same rfl) rfl
  | @call signers e m' _ hexec =>
      cases hl : e.limits with
      | false =>
          refine quiet (h.of_same (exec_limits hl hexec)) ?_
          cases e with
          | requestReinsuranceRecovery => cases hl
          | _ => rfl
      | true =>
          cases e with
          | setCapacity =>
              simp [exec, setCapacity, setting, requireAdmin] at hexec
              obtain ⟨-, -, -, rfl⟩ := hexec
              exact quiet ⟨h.counted, h.each, h.agreed, h.within⟩ rfl
          | setReinsurance =>
              simp [exec, setReinsurance, requireAdmin] at hexec
              obtain ⟨-, -, ⟨-, hnonneg⟩, -, rfl⟩ := hexec
              obtain ⟨rfl, rfl⟩ := of_decide_eq_true hagreed
              refine quiet ⟨h.counted, h.each, ?_, h.within⟩ rfl
              rintro config hconfig
              obtain rfl := Option.some.inj hconfig
              exact ⟨rfl, rfl, hnonneg⟩
          | setReinsuranceActive =>
              simp [exec, setReinsuranceActive, requireAdmin] at hexec
              obtain ⟨-, -, config, hconfig, rfl⟩ := hexec
              refine quiet ⟨h.counted, h.each, ?_, h.within⟩ rfl
              rintro c hc
              obtain rfl := Option.some.inj hc
              exact h.agreed config hconfig
          | requestReinsuranceRecovery caller policyId loss answer =>
              obtain ⟨r, hrun⟩ := perform_ok.mp hexec
              have hone : recoveries self w (.call signers
                  (.requestReinsuranceRecovery caller policyId loss
                    answer)) = [⟨policyId, loss, r⟩] := by
                simp only [recoveries, hrun]
              rw [hone]
              exact h.recover hlimit hrun
          | _ => cases hl

/-- Under one agreement, all recoveries of a run together stay within the
coverage limit, each stays within the loss above the attachment point, and so
do those for one policy together, with every report counted. -/
theorem reinsurance_recovery_bounded (hlimit : InI128 limit)
    {w₀ : World State} {ls : List (Label Entry)}
    (hinit : (system self).Init w₀)
    (hrun : ((system self).restrict (AgreedAt attachment limit)).Outputs
      (recoveries self) w₀ ls w rs) :
    w.machine.store.getReinsuranceStats.totalRecovered = totalRecovered rs ∧
      (∀ config, w.machine.store.reinsurance = some config →
        totalRecovered rs ≤ config.coverageLimit) ∧
      (∀ r ∈ rs, 0 ≤ r.recovered ∧ r.recovered ≤ r.excess attachment) ∧
      ∀ id, totalRecovered (forPolicy id rs) ≤
        ((forPolicy id rs).map (Recovery.excess attachment)).sum := by
  have hstart : Insured attachment limit w₀ [] := by
    obtain ⟨now, store, bank⟩ := w₀
    obtain ⟨rfl, -⟩ := hinit
    exact ⟨rfl, nofun, nofun, le_max_left _ _⟩
  have h : Insured attachment limit w ([] ++ rs) :=
    hrun.preserves (fun _ _ _ _ hpast ⟨hagreed, hstep⟩ =>
      hpast.step hlimit hagreed hstep) hstart
  rw [List.nil_append] at h
  refine ⟨h.counted, fun config hconfig => ?_, h.each, fun id => ?_⟩
  · obtain ⟨-, hcoverage, hnonneg⟩ := h.agreed config hconfig
    rw [hcoverage]
    exact h.within.trans (max_le hnonneg le_rfl)
  · refine List.sum_le_sum fun r hr => ?_
    exact (h.each r (List.mem_of_mem_filter hr)).2

end Runs

/-! ## One loss, reported twice -/

namespace Scenario

def backer : Address := .contract 31

/-- A loss for policy `id`, which the reinsurer pays as far as it is asked. -/
def reporting (id : ℕ) (loss paid : ℤ) : Label Entry :=
  .call [admin] (.requestReinsuranceRecovery admin id loss (some ⟨paid, paid⟩))

/-- The same loss for the same policy twice; the second recovery comes to the
coverage limit. -/
def reinsuring : List (Label Entry) :=
  [wiring, .mint usdc backer (10 ^ 7),
    .call [admin] (.setReinsurance admin backer 200000 1500000 true),
    reporting 1 1200000 1000000, reporting 1 1200000 500000]

def reinsured : World State :=
  (TransitionSystem.execute
    (TransitionSystem.guarded (AgreedAt 200000 1500000) (step exec pool))
    reinsuring genesis).get (by decide +kernel)

/-- What both reports recover. -/
def ceded : List Recovery :=
  TransitionSystem.emit
    (TransitionSystem.guarded (AgreedAt 200000 1500000) (step exec pool))
    (recoveries pool) reinsuring genesis

theorem ceded_eq : ceded = [⟨1, 1200000, 1000000⟩, ⟨1, 1200000, 500000⟩] := by
  decide +kernel

theorem reinsured_outputs :
    ((system pool).restrict (AgreedAt 200000 1500000)).Outputs
      (recoveries pool) genesis reinsuring reinsured ceded :=
  TransitionSystem.outputs_of_execute
    (TransitionSystem.guarded_sound fun _ _ _ => step_sound)
    (Option.some_get _).symm

end Scenario

open Scenario in
theorem reinsurance_recovery_bounded_reinsured :
    reinsured.machine.store.getReinsuranceStats.totalRecovered = 1500000 ∧
      totalRecovered (forPolicy 1 ceded) ≤
        ((forPolicy 1 ceded).map (Recovery.excess 200000)).sum := by
  have hinit : (system pool).Init genesis := ⟨rfl, rfl⟩
  obtain ⟨htotal, -, -, hpolicy⟩ :=
    reinsurance_recovery_bounded (by decide) hinit reinsured_outputs
  refine ⟨htotal.trans ?_, hpolicy 1⟩
  rw [ceded_eq]
  rfl

open Scenario in
/-- A loss that exceeds the attachment point by 1,000,000 is recovered once,
and half of it again. -/
theorem reinsurance_recovers_twice :
    ¬ ∀ (self : Address) (attachment limit : ℤ) (w₀ w : World State)
        (ls : List (Label Entry)) (rs : List Recovery), InI128 limit →
      (system self).Init w₀ →
      ((system self).restrict (AgreedAt attachment limit)).Outputs
        (recoveries self) w₀ ls w rs →
      ∀ id loss, (∀ r ∈ forPolicy id rs, r.loss ≤ loss) →
        totalRecovered (forPolicy id rs) ≤ max 0 (loss - attachment) := by
  intro h
  have hbound := h pool 200000 1500000 genesis reinsured reinsuring ceded
    (by decide) ⟨rfl, rfl⟩ reinsured_outputs 1 1200000
  rw [ceded_eq] at hbound
  exact absurd (hbound (by decide)) (by decide)

end Parashield.RiskPool
